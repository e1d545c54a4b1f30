import SmetricRouter.ProgramScheduling.RunInvariants

/-! What the synchronization of one pool does to the others.

Pools share target identifiers and the tables keyed by them. An entry of a rank
queue, a binding and a placement belong to the Program they name; a factor
window and an observation with its ledger delta belong to their target. The
cleanup of the targets that a pool lost does not look at who else owns what it
drops.
-/

namespace SmetricRouter.ProgramScheduling

open Sample Table

section Isolation

variable {F T : Type} {pool : String} {state next : ProgramSchedulerState F T}

namespace ProgramSchedulerState

def SharedTarget (state : ProgramSchedulerState F T) (pool target : String) : Prop :=
  ∃ other ∈ state.modelTargets.keys, other ≠ pool ∧ target ∈ state.poolTargets other

instance (state : ProgramSchedulerState F T) (pool target : String) :
    Decidable (state.SharedTarget pool target) :=
  inferInstanceAs (Decidable (∃ other ∈ _, _))

/-- Nothing that belongs to a Program of another pool, or to a target that
another pool lists, is changed or lost. -/
structure Isolated (pool : String) (state next : ProgramSchedulerState F T) : Prop where
  entries : ∀ target, (next.rankQueue target).filter (·.modelPool ≠ pool) =
    (state.rankQueue target).filter (·.modelPool ≠ pool)
  bindings : ∀ key : RuntimeKey, key.modelPool ≠ pool →
    next.bindings.bindings.lookup key = state.bindings.bindings.lookup key
  placements : ∀ program : ProgramRef, program.modelPool ≠ pool →
    next.runtime.placement program = state.runtime.placement program
  factors : ∀ target, state.SharedTarget pool target → ∀ window,
    state.rankFactors.lookup target = some window → next.rankFactors.lookup target = some window
  observations : ∀ target, state.SharedTarget pool target → ∀ observation,
    state.observations.lookup target = some observation →
      next.observations.lookup target = some observation

/-- The snapshot is the one the pool already has, or no target that the pool
loses holds anything of others. -/
def SparesOthers (state : ProgramSchedulerState F T) (pool : PoolSnapshot) : Prop :=
  ((state.modelTargetSnapshots.lookup pool.modelPool).any fun current =>
    current.address == pool.snapshot.address) ∨
  ∀ target ∈ state.core.lost pool,
    (∀ program ∈ state.rankQueue target, program.modelPool = pool.modelPool) ∧
    (∀ key ∈ state.bindings.bindings.keys, key.modelPool ≠ pool.modelPool →
      state.bindings.bindings.lookup key ≠ some target) ∧
    (state.SharedTarget pool.modelPool target →
      (state.rankFactors.lookup target).isNone ∧ (state.observations.lookup target).isNone)

instance (state : ProgramSchedulerState F T) (pool : PoolSnapshot) :
    Decidable (state.SparesOthers pool) :=
  inferInstanceAs (Decidable (_ ∨ ∀ target ∈ _, (∀ program ∈ _, _) ∧ (∀ key ∈ _, _) ∧ _))

/-- Everything a failover of one pool leaves alone. -/
structure LeavesOthers (pool : String) (state next : ProgramSchedulerState F T) : Prop where
  entries : ∀ target, (next.rankQueue target).filter (·.modelPool ≠ pool) =
    (state.rankQueue target).filter (·.modelPool ≠ pool)
  bindings : ∀ key : RuntimeKey, key.modelPool ≠ pool →
    next.bindings.bindings.lookup key = state.bindings.bindings.lookup key
  placements : ∀ program : ProgramRef, program.modelPool ≠ pool →
    next.runtime.placement program = state.runtime.placement program
  factors : next.rankFactors = state.rankFactors
  observations : next.observations = state.observations

namespace LeavesOthers

variable {middle : ProgramSchedulerState F T}

theorem refl (pool : String) (state : ProgramSchedulerState F T) : LeavesOthers pool state state :=
  ⟨fun _ => rfl, fun _ _ => rfl, fun _ _ => rfl, rfl, rfl⟩

theorem trans (first : LeavesOthers pool state middle) (second : LeavesOthers pool middle next) :
    LeavesOthers pool state next where
  entries target := (second.entries target).trans (first.entries target)
  bindings key foreign := (second.bindings key foreign).trans (first.bindings key foreign)
  placements program foreign :=
    (second.placements program foreign).trans (first.placements program foreign)
  factors := second.factors.trans first.factors
  observations := second.observations.trans first.observations

end LeavesOthers

end ProgramSchedulerState

open ProgramSchedulerState

variable {program : ProgramRef} {removed : List String}

namespace ProgramRuntime

theorem placement_invalidatePlacement {runtime : ProgramRuntime} {other : ProgramRef}
    (foreign : other.modelPool ≠ program.modelPool) :
    ((runtime.invalidatePlacement program removed).getD runtime).placement other =
      runtime.placement other := by
  cases invalidated : runtime.invalidatePlacement program removed with
  | none => rfl
  | some =>
    obtain ⟨_, _, _, _, _, rfl⟩ := invalidatePlacement_some invalidated
    have apart : other.key ≠ program.key := fun same =>
      foreign (congrArg RuntimeKey.modelPool same)
    rw [Option.getD_some, placement, find, lookup_insert_eq, if_neg apart]
    rfl

end ProgramRuntime

namespace ProgramScheduler

variable [F64 F] (self : ProgramScheduler F) {state : ProgramSchedulerState F T}

omit [F64 F] in
theorem filter_rankQueue_dequeue (own : program.modelPool = pool) {target : String} :
    ((state.dequeue program).rankQueue target).filter (·.modelPool ≠ pool) =
      (state.rankQueue target).filter (·.modelPool ≠ pool) := by
  unfold rankQueue dequeue
  rw [lookup_mapValues]
  cases state.rankQueues.lookup target with
  | none => rfl
  | some =>
    simp only [Option.map_some, Option.getD_some, List.filter_filter]
    refine List.filter_congr fun other _ => ?_
    by_cases foreign : other.modelPool = pool
    · simp [foreign]
    · have apart : other ≠ program := fun same => foreign (same ▸ own)
      simp [foreign, apart]

theorem requeue_leaves (own : program.modelPool = pool) (replacement : Option String) :
    LeavesOthers pool state (self.requeue state pool program replacement) := by
  unfold requeue
  split
  · exact ⟨fun _ => rfl, fun _ _ => rfl, fun _ _ => rfl, rfl, rfl⟩
  · split
    · refine ⟨fun _ => ?_, fun _ _ => rfl, fun _ _ => rfl, rfl, rfl⟩
      unfold rankQueue
      rw [lookup_update]
      split
      · rename_i same
        subst same
        rw [Option.getD_some, List.filter_append]
        have own_filtered : [program].filter (·.modelPool ≠ pool) = [] := by simp [own]
        rw [own_filtered, List.append_nil]
        rfl
      · rfl
    · exact .refl _ _

variable [AffinityTree T]

variable {clock : ProgramRef → FailoverClock}

theorem failOver_leaves {affected : AffectedProgram} (own : affected.program.modelPool = pool)
    (failed : self.failOver pool removed clock state affected = .ok next) :
    LeavesOthers pool state next := by
  unfold failOver at failed
  obtain ⟨⟨_, bindings⟩, bound, failed⟩ := bind_eq_ok failed
  have apart {key : RuntimeKey} (foreign : key.modelPool ≠ pool) : key ≠ affected.program.key :=
    fun same => foreign (by rw [same]; exact own)
  have rebinds change : LeavesOthers pool state ({ released state affected.program removed with
      bindings := bindings }.modifyDecision affected.program change) := by
    refine ⟨fun _ => filter_rankQueue_dequeue own, fun _ foreign => ?_, fun _ foreign => ?_,
      rfl, rfl⟩
    · refine (bind_other bound (apart foreign)).trans ((lookup_erase_eq _ _ _).trans ?_)
      exact if_neg (apart foreign)
    · exact ProgramRuntime.placement_invalidatePlacement (own ▸ foreign)
  simp only at failed
  split at failed
  · cases failed
    exact (rebinds _).trans (self.requeue_leaves own _)
  · cases failed
    exact rebinds _

theorem foldlM_failOver_leaves {current : List String}
    (failed : (self.affectedPrograms state pool current removed).foldlM
      (self.failOver pool removed clock) state = .ok next) : LeavesOthers pool state next := by
  have own : ∀ affected ∈ self.affectedPrograms state pool current removed,
      affected.program.modelPool = pool := by
    intro affected member
    simp only [affectedPrograms, List.mem_filterMap, List.mem_filter, beq_iff_eq,
      Option.bind_eq_bind, Option.bind_eq_some_iff] at member
    obtain ⟨_, ⟨_, own⟩, _, _, kept⟩ := member
    split at kept
    · cases kept
      exact own
    · cases kept
  have loop := @Ensures.foldlM _ _ _ (fun _ : Fault => True) _ _ (self.failOver _ _ _)
    (fun rest later => (∀ affected ∈ rest, affected.program.modelPool = pool) ∧
      LeavesOthers pool _ later) ⟨own, .refl _ state⟩ (by
    rintro first _ later ⟨owned, left⟩
    cases round : self.failOver pool removed clock later first with
    | error => trivial
    | ok =>
      refine ⟨fun _ member => owned _ (List.mem_cons_of_mem _ member), left.trans ?_⟩
      exact self.failOver_leaves (owned first List.mem_cons_self) round)
  exact (loop.ok_of failed).2

omit [F64 F] in
theorem lookup_removeTargets (pool : String) (removed : List String)
    (state : ProgramSchedulerState F T) :
    (∀ target, (removed.foldl (removeTarget pool) state).rankQueues.lookup target =
      if target ∈ removed then none else state.rankQueues.lookup target) ∧
    (∀ key, (removed.foldl (removeTarget pool) state).bindings.bindings.lookup key =
      (state.bindings.bindings.lookup key).filter (· ∉ removed)) ∧
    (removed.foldl (removeTarget pool) state).runtime = state.runtime ∧
    (∀ target, (removed.foldl (removeTarget pool) state).rankFactors.lookup target =
      if target ∈ removed then none else state.rankFactors.lookup target) ∧
    ∀ target, (removed.foldl (removeTarget pool) state).observations.lookup target =
      if target ∈ removed then none else state.observations.lookup target := by
  induction removed generalizing state with
  | nil =>
    refine ⟨by simp, fun key => ?_, rfl, by simp, by simp⟩
    rw [List.foldl_nil]
    cases state.bindings.bindings.lookup key <;> rfl
  | cons lost _ ih =>
    obtain ⟨queues, bindings, runtime, factors, observations⟩ := ih (removeTarget _ _ lost)
    simp only [List.foldl_cons]
    refine ⟨fun target => ?_, fun _ => ?_, runtime, fun target => ?_, fun target => ?_⟩
    · rw [queues, removeTarget, lookup_erase_eq]
      by_cases same : target = lost <;> simp [same]
    · rw [bindings]
      unfold removeTarget ProgramBindings.removeAffinityTarget ProgramBindings.removeTarget
      rw [lookup_retain]
      simp [List.mem_cons, not_or]
    · rw [factors, removeTarget, lookup_erase_eq]
      by_cases same : target = lost <;> simp [same]
    · rw [observations, removeTarget, lookup_erase_eq]
      by_cases same : target = lost <;> simp [same]

/-- What replacing the target list of a pool does to what belongs to others. -/
structure Cleans (pool : String) (current removed : List String)
    (state next : ProgramSchedulerState F T) : Prop where
  entries : ∀ target, (next.rankQueue target).filter (·.modelPool ≠ pool) =
    if target ∈ removed then [] else (state.rankQueue target).filter (·.modelPool ≠ pool)
  bindings : ∀ key : RuntimeKey, key.modelPool ≠ pool →
    next.bindings.bindings.lookup key = (state.bindings.bindings.lookup key).filter (· ∉ removed)
  placements : ∀ program : ProgramRef, program.modelPool ≠ pool →
    next.runtime.placement program = state.runtime.placement program
  factors : ∀ target, next.rankFactors.lookup target =
    if target ∈ removed then none
    else if target ∈ current then some ((state.rankFactors.lookup target).getD default)
    else state.rankFactors.lookup target
  observations : ∀ target, next.observations.lookup target =
    if target ∈ removed then none
    else if target ∈ current then some ((state.observations.lookup target).getD default)
    else state.observations.lookup target

theorem replaceTargets_cleans {targets : List ProgramTarget}
    (replaced : self.replaceTargets state pool targets clock = .ok next) :
    Cleans pool (incomingIds targets)
      ((state.poolTargets pool).filter (· ∉ incomingIds targets)) state next := by
  unfold replaceTargets at replaced
  simp only at replaced
  generalize removed_is : (state.poolTargets pool).filter (· ∉ incomingIds targets) = removed
    at replaced ⊢
  obtain ⟨queues, bindings, runtime, factors, observations⟩ :=
    lookup_removeTargets pool _ (installTargets state _ _)
  generalize removed.foldl (removeTarget pool) (installTargets state pool targets) = cleaned
    at replaced queues bindings runtime factors observations
  generalize looped : (self.affectedPrograms cleaned pool (incomingIds targets) removed).foldlM
    (self.failOver pool removed clock) cleaned = loop at replaced
  cases loop with
  | error => cases replaced
  | ok =>
    cases replaced
    have left := self.foldlM_failOver_leaves looped
    refine ⟨fun _ => ?_, fun key foreign => ?_, fun _ foreign => ?_, fun _ => ?_, fun _ => ?_⟩
    · refine (left.entries _).trans ?_
      unfold rankQueue
      rw [queues]
      split
      · rfl
      · congr 1
        exact getD_foldl_orDefault _ state.rankQueues _
    · exact (left.bindings key foreign).trans (bindings key)
    · refine (left.placements _ foreign).trans ?_
      rw [runtime]
      rfl
    · refine (congrArg (AList.lookup _) left.factors).trans ((factors _).trans ?_)
      exact if_congr Iff.rfl rfl (lookup_foldl_orDefault _ state.rankFactors _)
    · refine (congrArg (AList.lookup _) left.observations).trans ((observations _).trans ?_)
      exact if_congr Iff.rfl rfl (lookup_foldl_orDefault _ state.observations _)

omit [AffinityTree T] in
/-- A replacement isolates the other pools exactly when no lost target holds
anything of theirs. -/
theorem Cleans.isolated_iff {pool : PoolSnapshot}
    (cleans : Cleans pool.modelPool (incomingIds pool.snapshot.targets) (state.core.lost pool)
      state next) :
    Isolated pool.modelPool state next ↔ ∀ target ∈ state.core.lost pool,
      (∀ program ∈ state.rankQueue target, program.modelPool = pool.modelPool) ∧
      (∀ key ∈ state.bindings.bindings.keys, key.modelPool ≠ pool.modelPool →
        state.bindings.bindings.lookup key ≠ some target) ∧
      (state.SharedTarget pool.modelPool target →
        (state.rankFactors.lookup target).isNone ∧ (state.observations.lookup target).isNone) := by
  -- A window that a shared target has is kept unless the target is lost.
  have kept {V : Type} [Inhabited V] {before after : Table String V} {target : String} {value : V}
      (cleaned : after.lookup target = if target ∈ state.core.lost pool then none
        else if target ∈ incomingIds pool.snapshot.targets then
          some ((before.lookup target).getD default) else before.lookup target)
      (stored : before.lookup target = some value) (held : target ∉ state.core.lost pool) :
      after.lookup target = some value := by
    rw [cleaned, if_neg held, stored]
    split <;> rfl
  constructor
  · intro isolated target lost
    refine ⟨fun program queued => ?_, fun key _ foreign bound => ?_, fun shared => ⟨?_, ?_⟩⟩
    · by_contra foreign
      have entries := (isolated.entries target).symm.trans (cleans.entries _)
      rw [if_pos lost, List.filter_eq_nil_iff] at entries
      exact entries program queued (by simpa using foreign)
    · have bindings := (isolated.bindings key foreign).symm.trans (cleans.bindings key foreign)
      rw [bound, eq_comm, Option.filter_eq_some_iff] at bindings
      exact absurd lost (by simpa using bindings.2)
    · cases stored : state.rankFactors.lookup target with
      | none => rfl
      | some window =>
        have gone := cleans.factors target
        rw [if_pos lost, isolated.factors target shared window stored] at gone
        cases gone
    · cases stored : state.observations.lookup target with
      | none => rfl
      | some observation =>
        have gone := cleans.observations target
        rw [if_pos lost, isolated.observations target shared observation stored] at gone
        cases gone
  · intro spared
    refine ⟨fun target => ?_, fun key foreign => ?_, cleans.placements,
      fun target shared _ stored => kept (cleans.factors _) stored ?_,
      fun target shared _ stored => kept (cleans.observations _) stored ?_⟩
    · rw [cleans.entries]
      split
      · rename_i lost
        symm
        rw [List.filter_eq_nil_iff]
        intro program queued
        simp [(spared target lost).1 program queued]
      · rfl
    · rw [cleans.bindings key foreign]
      cases bound : state.bindings.bindings.lookup key with
      | none => rfl
      | some target =>
        have known : key ∈ state.bindings.bindings.keys :=
          (mem_keys_iff _ _).mpr ⟨target, bound⟩
        simpa using fun lost => (spared target lost).2.1 key known foreign bound
    · intro lost
      have absent := ((spared _ lost).2.2 shared).1
      rw [stored] at absent
      cases absent
    · intro lost
      have absent := ((spared _ lost).2.2 shared).2
      rw [stored] at absent
      cases absent

/-- A synchronization of one pool leaves what belongs to the others alone exactly
when the snapshot is not new or the lost targets hold nothing of theirs. -/
theorem sync_isolated_iff {pool : PoolSnapshot} {next : ProgramSchedulerState F T}
    (synced : self.syncTargetSnapshotLocked state pool = .ok next) :
    Isolated pool.modelPool state next ↔ state.SparesOthers pool := by
  have unchanged {after : ProgramSchedulerState F T} (queues : after.rankQueues = state.rankQueues)
      (bindings : after.bindings = state.bindings) (runtime : after.runtime = state.runtime)
      (factors : after.rankFactors = state.rankFactors)
      (observations : after.observations = state.observations) :
      Isolated pool.modelPool state after := by
    refine ⟨fun target => ?_, fun _ _ => ?_, fun _ _ => ?_, fun target _ _ stored => ?_,
      fun target _ _ stored => ?_⟩
    · rw [rankQueue, queues]
      rfl
    · rw [bindings]
    · rw [runtime]
    · rw [factors, stored]
    · rw [observations, stored]
  unfold syncTargetSnapshotLocked at synced
  split at synced
  · rename_i known
    cases synced
    exact ⟨fun _ => .inl known, fun _ => unchanged rfl rfl rfl rfl rfl⟩
  · rename_i fresh
    split at synced
    · rename_i same
      cases synced
      refine ⟨fun _ => .inr fun target lost => ?_, fun _ => unchanged rfl rfl rfl rfl rfl⟩
      have listed : state.poolTargets pool.modelPool = incomingIds pool.snapshot.targets := by
        unfold targetsUnchanged at same
        rw [Bool.and_eq_true, beq_iff_eq] at same
        rw [poolTargets, same.1]
        rfl
      have gone : target ∈ (state.poolTargets pool.modelPool).filter
        (· ∉ incomingIds pool.snapshot.targets) := lost
      rw [listed] at gone
      simp at gone
    · split at synced
      · cases synced
      · have cleans := self.replaceTargets_cleans synced
        rw [SparesOthers, or_iff_right fresh]
        exact Cleans.isolated_iff ⟨cleans.entries, cleans.bindings, cleans.placements,
          cleans.factors, cleans.observations⟩

end ProgramScheduler

/-- A pool gives up a target that no other pool lists while a Program of another
pool waits elsewhere. -/
theorem sync_isolated_sample :
    ∃ trace state next, Run (Sample.router false false) trace state ∧
      ((Sample.router false false).scheduler .filled).syncTargetSnapshotLocked state
        (Sample.snapshot 2 "a" ["u"]) = .ok next ∧
      state.core.lost (Sample.snapshot 2 "a" ["u"]) = ["t"] ∧
      Isolated "a" (state : Sample.State) next := by
  obtain ⟨trace, state, run, spares, lost, returned⟩ := run_of_play (router false false)
    [.sync (snapshot 0 "a" ["t", "u"]), .sync (snapshot 1 "b" ["u"]),
      .arrive (arrival "b" "p" 1) 1, .arrive (arrival "b" "q" 2) 2]
    (fun _ state => state.SparesOthers (snapshot 2 "a" ["u"]) ∧
      state.core.lost (snapshot 2 "a" ["u"]) = ["t"] ∧
      (((router false false).scheduler .filled).syncTargetSnapshotLocked state
        (snapshot 2 "a" ["u"])).toOption.isSome) (by decide +kernel)
  cases synced : ((router false false).scheduler .filled).syncTargetSnapshotLocked state
      (snapshot 2 "a" ["u"]) with
  | error =>
    rw [synced] at returned
    cases returned
  | ok next =>
    exact ⟨trace, state, next, run, synced, lost,
      (ProgramScheduler.sync_isolated_iff _ synced).mpr spares⟩

/-- Two pools list one target. When one of them gives it up, a waiting Program of
the other loses its queue entry and its binding. -/
theorem isolation_fails_shared_target :
    ∃ trace state next, Run (Sample.router false false) trace state ∧
      ((Sample.router false false).scheduler .filled).syncTargetSnapshotLocked state
        (Sample.snapshot 2 "a" []) = .ok next ∧
      (state : Sample.State).rankQueue "t" = [⟨"b", "q", 0⟩] ∧ next.rankQueue "t" = [] ∧
      ¬ Isolated "a" state next := by
  obtain ⟨trace, state, run, queued, returned⟩ := run_of_play (router false false)
    [.sync (snapshot 0 "a" ["t"]), .sync (snapshot 1 "b" ["t"]),
      .arrive (arrival "b" "p" 1) 1, .arrive (arrival "b" "q" 2) 2]
    (fun _ state => state.rankQueue "t" = [⟨"b", "q", 0⟩] ∧
      (((router false false).scheduler .filled).syncTargetSnapshotLocked state
        (snapshot 2 "a" [])).toOption.map (·.rankQueue "t") = some []) (by decide +kernel)
  cases synced : ((router false false).scheduler .filled).syncTargetSnapshotLocked state
      (snapshot 2 "a" []) with
  | error =>
    rw [synced] at returned
    cases returned
  | ok next =>
    rw [synced] at returned
    have emptied : next.rankQueue "t" = [] := Option.some.inj returned
    refine ⟨trace, state, next, run, synced, queued, emptied, fun isolated => ?_⟩
    have entries := isolated.entries "t"
    rw [queued, emptied] at entries
    exact absurd entries (by decide)

end Isolation

end SmetricRouter.ProgramScheduling
