import SmetricRouter.ProgramScheduling.Sections

/-! What the scheduler still keeps of a released Program.

A release takes a Program out of the runtime, the decisions, the queues and the
bindings; its generation counter is kept for a while and dropped by a tick. The
lineage has no such rule: whoever once arrived stays in it.
-/

namespace SmetricRouter.ProgramScheduling

open ProgramSchedulerState Sample ProgramScheduler Table

variable {F T : Type} {runtime : ProgramRuntime} {key : RuntimeKey} {globalMode : Bool}
  {now : Instant} {program : ProgramRef}

section Counters

variable {next : ProgramRuntime} {label : Label}

namespace ProgramRuntime

def Counted (runtime : ProgramRuntime) : Prop :=
  ∀ key, (runtime.lastGenerations.lookup key).isSome →
    (runtime.programs.lookup key).isSome ∨ (runtime.releasedGenerationsAt.lookup key).isSome

/-- The runtime has neither a Program nor a counter under the key. -/
structure Cleared (key : RuntimeKey) (runtime : ProgramRuntime) : Prop where
  programs : runtime.programs.lookup key = none
  generations : runtime.lastGenerations.lookup key = none
  releases : runtime.releasedGenerationsAt.lookup key = none

/-- What a move can do to the keys of Programs and counters: only an arrival, a
release and a pruning change them. -/
inductive Recount (runtime : ProgramRuntime) : Label → ProgramRuntime → Prop where
  | kept (label : Label) (next : ProgramRuntime)
      (programs : ∀ key, (next.programs.lookup key).isSome = (runtime.programs.lookup key).isSome)
      (generations : next.lastGenerations = runtime.lastGenerations)
      (releases : next.releasedGenerationsAt = runtime.releasedGenerationsAt) :
      Recount runtime label next
  | arrived (arrival : Arrival) :
      Recount runtime (.arrive arrival) (runtime.retainRequest arrival.identity
        arrival.estimatedContextTokens arrival.routingText arrival.arrivedAt).2
  | released (program : ProgramRef) (now : Instant) (next : ProgramRuntime)
      (released : runtime.releaseIdle program now = some next) :
      Recount runtime (.release program) next
  | pruned (now : Instant) (retention : Duration) :
      Recount runtime .prune (runtime.pruneReleasedGenerations now retention)

theorem admitFront_recount {handle : ProgramRequestHandle} {target : String}
    (now : Instant) : Recount runtime label (runtime.admitFront handle target now).2 := by
  have dispatching (start : ProgramRuntime) starts :
      (start.dispatchFront handle target now starts).2.lastGenerations = start.lastGenerations ∧
        (start.dispatchFront handle target now starts).2.releasedGenerationsAt =
          start.releasedGenerationsAt ∧
        ∀ key, ((start.dispatchFront handle target now starts).2.programs.lookup key).isSome =
          (start.programs.lookup key).isSome := by
    unfold dispatchFront
    split
    · exact ⟨rfl, rfl, fun _ => rfl⟩
    · rename_i stored
      split <;> exact ⟨rfl, rfl, isSome_lookup_insert start.programs stored _⟩
  unfold admitFront
  split
  · exact .kept _ _ (fun _ => rfl) rfl rfl
  · rename_i program found
    split
    · obtain ⟨stored, exact⟩ := find_eq_some.mp found
      obtain ⟨generations, releases, programs⟩ :=
        dispatching (runtime.openPlacement _ _ false) true
      refine .kept _ _ (fun key => (programs key).trans ?_) generations releases
      exact isSome_lookup_insert runtime.programs (by rw [exact]; exact stored) _ key
    · split
      · exact .kept _ _ (fun _ => rfl) rfl rfl
      · obtain ⟨generations, releases, programs⟩ :=
          dispatching _ program.placementStartRequestPending
        exact .kept _ _ programs generations releases

theorem materialize_counter {identity : ProgramIdentity} (tokens : Nat)
    (other : key ≠ identity.key) :
    (runtime.materialize identity tokens).2.lookup key = runtime.lastGenerations.lookup key := by
  unfold materialize
  split
  · rfl
  · rw [lookup_insert_eq, if_neg other]

theorem Recount.counted (recount : Recount runtime label next)
    (counted : runtime.Counted) : next.Counted := by
  intro key counter
  cases recount with
  | kept _ _ programs generations releases =>
    rw [generations] at counter
    rw [releases, programs]
    exact counted key counter
  | arrived arrival =>
    by_cases same : key = arrival.identity.key
    · subst same
      refine .inl ?_
      change (AList.lookup _ (AList.insert _ _ _)).isSome
      rw [lookup_insert_eq, if_pos rfl]
      rfl
    · have before : (runtime.lastGenerations.lookup key).isSome := by
        rw [← materialize_counter arrival.estimatedContextTokens same]
        exact counter
      refine (counted key before).imp (fun live => ?_) (fun recorded => ?_)
      · change (AList.lookup key (AList.insert _ _ _)).isSome
        rw [lookup_insert_eq, if_neg same]
        exact live
      · change (AList.lookup key (AList.erase _ _)).isSome
        rw [lookup_erase_eq, if_neg same]
        exact recorded
  | released program _ _ released =>
    obtain ⟨_, _, _, _, rfl⟩ := releaseIdle_some released
    simp only [lookup_insert_eq, lookup_erase_eq] at counter ⊢
    by_cases same : key = program.key
    · simp only [if_pos same]
      exact .inr rfl
    · simp only [if_neg same] at counter ⊢
      exact counted key counter
  | pruned =>
    simp only [pruneReleasedGenerations, lookup_eraseAll] at counter ⊢
    split at counter
    · cases counter
    · rename_i kept
      rw [if_neg kept]
      exact counted key counter

end ProgramRuntime

def Label.Spares (key : RuntimeKey) : Label → Prop
  | .arrive arrival => arrival.identity.key ≠ key
  | _ => True

theorem Label.spares_follows (key : RuntimeKey) : Label.Follows (Label.Spares key) where
  scheduling label allowed := by
    cases label with
    | arrive => exact allowed.elim
    | _ => exact trivial
  syncing label _ _ allowed := by
    cases label with
    | arrive => exact allowed.elim
    | _ => exact trivial
  shrink _ _ := trivial

namespace ProgramRuntime

theorem Recount.cleared (recount : Recount runtime label next)
    (spares : label.Spares key) (cleared : runtime.Cleared key) : next.Cleared key := by
  cases recount with
  | kept _ _ programs generations releases =>
    refine ⟨?_, generations ▸ cleared.generations, releases ▸ cleared.releases⟩
    rw [← Option.not_isSome_iff_eq_none, programs, cleared.programs]
    exact nofun
  | arrived arrival =>
    have other : key ≠ arrival.identity.key := Ne.symm spares
    refine ⟨?_, ?_, ?_⟩
    · change AList.lookup key (AList.insert _ _ _) = none
      rw [lookup_insert_eq, if_neg other]
      exact cleared.programs
    · exact (materialize_counter arrival.estimatedContextTokens other).trans
        cleared.generations
    · change AList.lookup key (AList.erase _ _) = none
      rw [lookup_erase_eq, if_neg other]
      exact cleared.releases
  | released program _ _ released =>
    obtain ⟨_, found, _, _, rfl⟩ := releaseIdle_some released
    have other : key ≠ program.key := by
      rintro rfl
      cases cleared.programs.symm.trans (find_eq_some.mp found).1
    constructor <;> simp [lookup_insert_eq, lookup_erase_eq, if_neg other, cleared.programs,
      cleared.generations, cleared.releases]
  | pruned =>
    constructor <;> simp [pruneReleasedGenerations, lookup_eraseAll, cleared.programs,
      cleared.generations, cleared.releases]

end ProgramRuntime

variable {core next : Core}

open ProgramRuntime

theorem Move.recount (taken : Move globalMode core label next) :
    Recount core.runtime label next.runtime := by
  -- A record that is written back keeps the key it was found under.
  have rewritten {program : ProgramRef} {record : RuntimeProgram}
      (found : core.runtime.find program = some record) later key :
      (AList.lookup key (core.runtime.programs.insert program.key later)).isSome =
        (core.runtime.programs.lookup key).isSome :=
    isSome_lookup_insert _ (find_eq_some.mp found).1 later key
  cases taken with
  | arrive _ =>
    rw [Core.runtime_arrive]
    exact .arrived _
  | activate _ _ _ _ activated =>
    obtain ⟨record, found, _, _, rfl⟩ := activate_some activated
    obtain ⟨_, exact⟩ := find_eq_some.mp found
    subst exact
    exact .kept _ _ (rewritten found _) rfl rfl
  | pause _ _ _ paused =>
    obtain ⟨record, found, _, _, rfl⟩ := pauseIdle_some paused
    exact .kept _ _ (rewritten found _) rfl rfl
  | dispatch _ _ now => exact admitFront_recount now
  | complete _ _ _ _ completed =>
    obtain ⟨_, found, _, _, rfl⟩ := completeRequest_some completed
    exact .kept _ _ (rewritten found _) rfl rfl
  | cancel _ _ cancelled =>
    rw [Core.runtime_cancel]
    obtain ⟨_, _, _, _, programs, generations, releases, _⟩ := cancelRequest_some cancelled
    refine .kept _ _ (fun _ => ?_) generations releases
    rw [programs, isSome_lookup_modify]
  | release _ now _ released => exact .released _ now _ released
  | prune now retention => exact .pruned now retention
  | wake | extend _ _ kept | shrink => exact .kept _ _ (fun _ => rfl) rfl rfl
  | failOver program _ removed =>
    rw [(Core.failOver_frame _ _ _ _ _ _).2.2]
    cases invalidated : core.runtime.invalidatePlacement program removed with
    | none => exact .kept _ _ (fun _ => rfl) rfl rfl
    | some =>
      obtain ⟨_, _, found, _, _, rfl⟩ := invalidatePlacement_some invalidated
      exact .kept _ _ (rewritten found _) rfl rfl

theorem ProgramRuntime.Counted.clears (counted : runtime.Counted) {retention : Duration}
    (released : runtime.programs.lookup key = none)
    (aged : ∀ releasedAt, runtime.releasedGenerationsAt.lookup key = some releasedAt →
      retention ≤ now - releasedAt) :
    (runtime.pruneReleasedGenerations now retention).Cleared key := by
  cases recorded : runtime.releasedGenerationsAt.lookup key with
  | none =>
    have uncounted : runtime.lastGenerations.lookup key = none := by
      rw [← Option.not_isSome_iff_eq_none]
      intro counter
      rcases counted key counter with live | known
      · rw [released] at live
        cases live
      · rw [recorded] at known
        cases known
    constructor <;> simp [pruneReleasedGenerations, lookup_eraseAll, released, uncounted, recorded]
  | some releasedAt =>
    have expired : key ∈ runtime.releasedGenerationsAt.keys.filter fun key =>
        (runtime.programs.lookup key).isNone &&
          (runtime.releasedGenerationsAt.lookup key).any fun releasedAt =>
            retention ≤ now - releasedAt := by
      refine List.mem_filter.mpr ⟨(mem_keys_iff _ _).mpr ⟨releasedAt, recorded⟩, ?_⟩
      simp only [released, recorded, Option.isNone_none, Option.any_some, Bool.true_and,
        decide_eq_true_eq]
      exact aged _ recorded
    constructor <;> simp only [pruneReleasedGenerations, lookup_eraseAll, released, if_pos expired]

def RequestPool.Stocked (pool : RequestPool) : Prop := ∀ program, pool.requests.lookup program ≠ some []

theorem RequestPool.Stocked.same {pool next : RequestPool} (stocked : pool.Stocked)
    (same : pool.Same next) : next.Stocked := by
  intro _
  rw [same.requests]
  exact stocked _

theorem RequestPool.Stocked.leaving {pool : RequestPool} (stocked : pool.Stocked)
    (program : ProgramRef) (rest : List PendingProgramRequest) :
    (pool.leaving program rest).Stocked := by
  intro _
  rw [RequestPool.leaving, RequestPool.lookup_storeQueue]
  split
  · split
    · exact (Option.some_ne_none _).symm
    · rename_i filled
      exact fun empty => filled (Option.some.inj empty)
  · exact stocked _

theorem RuntimeStep.stocked {later : ProgramRuntime}
    (stepped : RuntimeStep runtime later label) (stocked : runtime.requestPool.Stocked) :
    later.requestPool.Stocked := by
  cases stepped with
  | quiet | paused | unmarked | completed | released =>
    have silent : Silent runtime later := ‹_›
    exact stocked.same silent.pool
  | admitted | invalidated =>
    rename_i pool _ _
    exact stocked.same pool
  | retained _ _ _ _ _ _ requests =>
    intro _
    rw [requests, lookup_insert_eq]
    split
    · exact fun empty => List.append_ne_nil_of_right_ne_nil _ (List.cons_ne_nil _ [])
        (Option.some.inj empty)
    · exact stocked _
  | dispatched | cancelled =>
    rename_i pool _ _
    exact (stocked.leaving _ _).same pool

end Counters

variable {state next : ProgramSchedulerState F T} {event : Event F} {output : Output F}

section Homes

def ProgramSchedulerState.Homed (state : ProgramSchedulerState F T) : Prop :=
  ∀ key, (state.bindings.bindings.lookup key).isSome →
    ∃ program, program.key = key ∧ (state.decisions.lookup program).isSome

/-- What every section but an arrival does: no binding outlives its Program, and
the lineage is left as it is. -/
structure KeepsHomes (state next : ProgramSchedulerState F T) : Prop where
  homed : state.Homed → next.Homed
  lineage : next.lineage = state.lineage

variable {last : ProgramSchedulerState F T}

namespace KeepsHomes

theorem refl : KeepsHomes state state := ⟨id, rfl⟩

theorem trans (first : KeepsHomes state next) (second : KeepsHomes next last) :
    KeepsHomes state last :=
  ⟨second.homed ∘ first.homed, second.lineage.trans first.lineage⟩

variable (bindings : next.bindings.bindings = state.bindings.bindings)

include bindings

theorem of_frame (decisions : ∀ program, (state.decisions.lookup program).isSome →
      (next.decisions.lookup program).isSome)
    (lineage : next.lineage = state.lineage) : KeepsHomes state next := by
  refine ⟨fun homed key bound => ?_, lineage⟩
  rw [bindings] at bound
  obtain ⟨program, own, decided⟩ := homed key bound
  exact ⟨program, own, decisions _ decided⟩

theorem of_modify {change : ProgramDecisionState F → ProgramDecisionState F}
    (decisions : next.decisions = state.decisions.modify program change)
    (lineage : next.lineage = state.lineage) : KeepsHomes state next := by
  refine .of_frame bindings (fun _ decided => ?_) lineage
  rw [decisions, isSome_lookup_modify]
  exact decided

end KeepsHomes

variable [F64 F] {self : ProgramScheduler F}

namespace ProgramScheduler

variable (program)

theorem commitAdmission_keepsHomes (target : String) (plan : RankAdmissionPlan F) (now : Instant) :
    KeepsHomes state (self.commitAdmission state program target plan now) := by
  unfold commitAdmission
  split
  · exact .of_modify rfl rfl rfl
  · exact .refl

theorem releaseProgram_keepsHomes (now : Instant) :
    KeepsHomes state (self.releaseProgram state program now) := by
  cases released : state.runtime.releaseIdle program now with
  | none =>
    rw [self.releaseProgram_of_absent released]
    exact .of_frame rfl (fun _ => id) rfl
  | some =>
    obtain ⟨_, _, written⟩ := self.releaseProgram_eq released
    rw [written]
    refine ⟨fun homed key bound => ?_, rfl⟩
    simp only [ProgramBindings.releaseProgram, lookup_erase_eq] at bound
    split at bound
    · cases bound
    · rename_i apart
      obtain ⟨other, rfl, decided⟩ := homed key bound
      refine ⟨other, rfl, ?_⟩
      rw [lookup_erase_eq, if_neg fun same => apart (by rw [same])]
      exact decided

end ProgramScheduler

theorem Commit.keepsHomes (commit : Commit self state next) : KeepsHomes state next := by
  cases commit with
  | resume program _ _ now =>
    exact commitAdmission_keepsHomes _ _ _ now
  | bind _ _ now => exact commitAdmission_keepsHomes _ _ _ now
  | pause _ _ _ _ _ paused =>
    obtain ⟨_, _, _, _, _, _, rfl⟩ := self.pauseIdle_eq_some paused
    exact .of_modify rfl rfl rfl
  | release _ now => exact releaseProgram_keepsHomes _ now
  | note _ remark =>
    have noted := remark.noted
    refine .of_frame (by rw [noted.bindings]) (fun program decided => ?_) noted.lineage
    have same := congrArg Option.isSome (congrFun noted.timer program)
    simp only [timer, Option.isSome_map] at same
    rw [same]
    exact decided
  | prune | wake => exact .of_frame rfl (fun _ => id) rfl

theorem Commits.keepsHomes (taken : Commits self state next) : KeepsHomes state next := by
  induction taken with
  | refl => exact .refl
  | tail _ commit ih => exact ih.trans commit.keepsHomes

namespace ProgramScheduler

theorem cancelledState_keepsHomes (runtime : ProgramRuntime) (program : ProgramRef)
    (pausedAt : Instant) :
    KeepsHomes state (self.cancelledState state runtime program pausedAt) := by
  have cancelled : KeepsHomes state { state with runtime := runtime } :=
    .of_frame rfl (fun _ => id) rfl
  have accounted : KeepsHomes state
      (self.accountCancellation state { state with runtime := runtime } program pausedAt) := by
    refine cancelled.trans ?_
    rcases self.accountCancellation_cases state program pausedAt with same | ⟨_, _, refunded⟩
    · rw [same]
      exact .refl
    · rw [refunded]
      exact .of_modify rfl rfl rfl
  unfold cancelledState
  split
  · exact accounted
  · exact accounted.trans (.of_frame rfl (fun _ => id) rfl)

theorem Completes.keepsHomes {dispatch : ProgramDispatch} {terminate : Bool}
    {usage : ProgramUsageObservation}
    {decision : ProgramDecisionState F} {facts : CompletionFacts F}
    {action : Option CompletionAction} {settled : ProgramSchedulerState F T}
    (completes : self.Completes state dispatch terminate usage now next runtime decision facts action
      settled) : KeepsHomes state next := by
  have marked : KeepsHomes state (markedState state runtime dispatch terminate) :=
    .of_modify rfl rfl rfl
  have paused := (self.pauseCompleted_commits now completes.pauses).keepsHomes
  obtain ⟨_, decisions, bindings, lineage, _⟩ := self.settleCompletion_frame completes.settles
  have settling : KeepsHomes _ settled := .of_modify (by rw [bindings]) decisions lineage
  exact ((marked.trans paused).trans settling).trans completes.decides.keepsHomes

theorem FailedOver.keepsHomes {pool : String} {current removed : List String} {start : Core}
    {clock : ProgramRef → FailoverClock} {affected : AffectedProgram} {rest : List AffectedProgram}
    (failed : FailedOver state removed clock affected next)
    (failing : Failing self pool current removed start (affected :: rest) state) :
    KeepsHomes state next := by
  obtain ⟨_, _, _, standing_is, _⟩ := failing.pending _ List.mem_cons_self
  obtain ⟨_, decided, _⟩ := Option.map_eq_some_iff.mp standing_is
  obtain ⟨_, decisions⟩ := failed.decisions
  have keeps program (decided : (state.decisions.lookup program).isSome) :
      (next.decisions.lookup program).isSome := by
    rw [decisions, isSome_lookup_modify]
    exact decided
  refine ⟨fun homed key bound => ?_, failed.lineage⟩
  by_cases own : key = affected.program.key
  · exact ⟨affected.program, own.symm, keeps _ (by rw [decided]; rfl)⟩
  · rw [failed.bindings key own] at bound
    obtain ⟨program, named, present⟩ := homed key bound
    exact ⟨program, named, keeps _ present⟩

variable [AffinityTree T]

theorem syncTargetSnapshotLocked_keepsHomes (sound : self.Sound state) {pool : PoolSnapshot}
    (synced : self.syncTargetSnapshotLocked state pool = .ok next) : KeepsHomes state next := by
  refine syncTargetSnapshotLocked_keeps sound synced (KeepsHomes _) ?_ ?_ .refl
  · intro _ _ _ decisions lineage bindings kept
    refine kept.trans ⟨fun homed key bound => ?_, lineage⟩
    obtain ⟨home, stored⟩ := Option.isSome_iff_exists.mp bound
    rw [decisions]
    exact homed key (Option.isSome_iff_exists.mpr ⟨home, bindings key home stored⟩)
  · intro _ _ _ _ failing failed kept
    exact kept.trans (failed.keepsHomes failing)

end ProgramScheduler

def Event.arriving : Event F → Option RuntimeKey
  | .arrive arrival _ => some arrival.identity.key
  | _ => none

/-- What a section leaves behind: bindings only of Programs with decision state,
and in the lineage whoever was there and whoever arrives. -/
structure LeavesHomes (event : Event F) (state next : ProgramSchedulerState F T) : Prop where
  homed : state.Homed → next.Homed
  lineage : ∀ key, event.arriving = some key ∨ (state.lineage.parents.lookup key).isSome →
    (next.lineage.parents.lookup key).isSome

omit [F64 F] in
theorem KeepsHomes.leaves (kept : KeepsHomes state next)
    (quiet : event.arriving = none) : LeavesHomes event state next := by
  refine ⟨kept.homed, fun _ known => ?_⟩
  rw [kept.lineage]
  rcases known with arrived | known
  · rw [quiet] at arrived
    cases arrived
  · exact known

omit [F64 F] in
theorem LeavesHomes.trans (left : LeavesHomes event state next) (kept : KeepsHomes next last) :
    LeavesHomes event state last := by
  refine ⟨kept.homed ∘ left.homed, fun key known => ?_⟩
  rw [kept.lineage]
  exact left.lineage key known

theorem Enters.leaves {arrival : Arrival} (inv : state.Inv globalMode)
    (enters : Enters self state arrival next) (activatedAt : Instant) :
    LeavesHomes (.arrive arrival activatedAt) state next := by
  obtain ⟨timer, bindings, _, observed⟩ := enters.registers
  have decided program :
      (next.timer program).isSome = (next.decisions.lookup program).isSome := Option.isSome_map
  refine ⟨fun homed key bound => ?_, fun key known => ?_⟩
  · by_cases own : key = arrival.identity.key
    · refine ⟨(state.core.retained arrival).1.program, ?_, ?_⟩
      · rw [own]
        exact ProgramRuntime.materialize_key inv.stored arrival.identity
          arrival.estimatedContextTokens
      · rw [← decided, timer, Function.update_self]
        rfl
    · rw [bindings key own] at bound
      obtain ⟨program, named, present⟩ := homed key bound
      refine ⟨program, named, ?_⟩
      rw [← decided, timer, Function.update_apply]
      split
      · rfl
      · rw [ProgramSchedulerState.timer, Option.isSome_map]
        exact present
  · refine ProgramLineage.isSome_observe observed ?_
    exact known.imp_left fun arrived => (Option.some.inj arrived).symm

namespace ProgramScheduler

variable [AffinityTree T]

theorem step_leaves (sound : self.Sound state)
    (stepped : self.step state event = .ok (output, next)) : LeavesHomes event state next := by
  cases step_section sound stepped with
  | synced _ | replaced _ =>
    obtain ⟨_, synced, ⟨⟩⟩ := bind_eq_ok stepped
    exact (syncTargetSnapshotLocked_keepsHomes sound synced).leaves rfl
  | arrived _ _ _ _ enters decides =>
    exact (enters.leaves sound.inv _).trans decides.keepsHomes
  | claimed handle now =>
    obtain ⟨_, _, same⟩ := claimDispatch_frame state _ now
    have kept : KeepsHomes state (claimDispatch state handle now).2 := by
      rw [same]
      exact .of_frame rfl (fun _ => id) rfl
    exact kept.leaves rfl
  | expired _ _ decides | ticked _ _ decides => exact decides.keepsHomes.leaves rfl
  | uncancelled | stale | observed => exact KeepsHomes.refl.leaves rfl
  | cancelled handle _ _ _ _ _ _ decides =>
    exact ((cancelledState_keepsHomes _ handle.program _).trans decides.keepsHomes).leaves rfl
  | completed _ _ _ _ _ _ _ _ _ _ _ _ completes => exact completes.keepsHomes.leaves rfl
  | applied epoch observations =>
    obtain ⟨booked, applied⟩ := self.applyObservations_eq _ epoch _
    have kept : KeepsHomes state { state with observations := booked } :=
      .of_frame rfl (fun _ => id) rfl
    rw [applied]
    exact kept.leaves rfl
  | evicted maxSize =>
    have kept : KeepsHomes state { state with
        bindings := { state.bindings with policy := state.bindings.policy.evict maxSize } } :=
      .of_frame rfl (fun _ => id) rfl
    exact kept.leaves rfl

end ProgramScheduler

end Homes

/-- No table or queue has an entry of the Program, in whatever generation. -/
structure ProgramSchedulerState.NoEntry (key : RuntimeKey) (state : ProgramSchedulerState F T) :
    Prop where
  runtime : state.runtime.Cleared key
  decisions : ∀ program, program.key = key → state.decisions.lookup program = none
  requests : ∀ program, program.key = key → state.runtime.requestPool.requests.lookup program = none
  rankQueues : ∀ program target, program.key = key → program ∉ state.rankQueue target
  globalQueues : ∀ program pool, program.key = key → program ∉ state.globalQueue pool
  bindings : state.bindings.bindings.lookup key = none

theorem ProgramSchedulerState.NoEntry.of_cleared (inv : state.Inv globalMode)
    (stocked : state.runtime.requestPool.Stocked) (homed : state.Homed)
    (cleared : state.runtime.Cleared key) : state.NoEntry key := by
  have unknown program (own : program.key = key) :
      state.runtime.find program = none := by
    rw [ProgramRuntime.find, own, cleared.programs]
    rfl
  have absent program (own : program.key = key) :
      state.decisions.lookup program = none ∧ state.runtime.requestPool.queue program = [] ∧
        (∀ target, program ∉ state.rankQueue target) ∧ ∀ pool, program ∉ state.globalQueue pool := by
    cases inv.cards program with
    | absent _ standing requests rank global =>
      exact ⟨Option.map_eq_none_iff.mp standing, requests,
        fun target => List.count_eq_zero.mp (rank _),
        fun pool => List.count_eq_zero.mp (global _)⟩
    | live _ _ found => cases (unknown program own).symm.trans found
  refine ⟨cleared, fun program own => (absent _ own).1, fun program own => ?_,
    fun program _ own => (absent _ own).2.2.1 _,
    fun program _ own => (absent _ own).2.2.2 _, ?_⟩
  · cases stored : state.runtime.requestPool.requests.lookup program with
    | none => rfl
    | some =>
      have empty := (RequestPool.queue_eq_of_lookup stored).symm.trans (absent _ own).2.1
      exact absurd (by rw [stored, empty]) (stocked program)
  · rw [← Option.not_isSome_iff_eq_none]
    intro bound
    obtain ⟨program, own, decided⟩ := homed key bound
    rw [(absent program own).1] at decided
    cases decided

section Runs

variable [F64 F] [AffinityTree T] {setup : Setup F} {trace : List (Event F × Output F)}
  {state next : ProgramSchedulerState F T} {event : Event F} {output : Output F}
  {order : IterationOrder} {key : RuntimeKey}

variable (run : Run setup trace state)

include run

theorem Run.counted : state.runtime.Counted := by
  refine run.invariant (fun _ core => core.runtime.Counted) ?_ ?_
  · intro _ counter
    cases counter
  · intro _ core _ _ _ inv transition counted
    exact transition.keeps (fun core => core.runtime.Counted) inv
      (fun _ _ _ _ taken counted => taken.recount.counted counted) counted

theorem Run.stocked : state.runtime.requestPool.Stocked := by
  refine run.invariant (fun _ core => core.runtime.requestPool.Stocked) ?_ ?_
  · exact fun _ => nofun
  · intro _ core _ _ _ inv transition stocked
    refine transition.keeps (fun core => core.runtime.requestPool.Stocked) inv ?_ stocked
    exact fun _ _ _ inv taken stocked => (taken.runtimeStep inv.keyed).stocked stocked

theorem Run.bindingsHomed : state.Homed := by
  induction run with
  | start => exact fun _ bound => nomatch bound
  | next _ run stepped ih => exact (step_leaves (run.sound _) stepped).homed ih

theorem Run.remembered (arrived : ∃ entry ∈ trace, entry.1.arriving = some key) :
    (state.lineage.parents.lookup key).isSome := by
  induction run with
  | start =>
    obtain ⟨_, impossible, _⟩ := arrived
    cases impossible
  | next _ run stepped ih =>
    obtain ⟨entry, member, names⟩ := arrived
    have left := step_leaves (run.sound _) stepped
    rcases List.mem_append.mp member with earlier | last
    · exact left.lineage key (.inr (ih ⟨entry, earlier, names⟩))
    · cases List.mem_singleton.mp last
      exact left.lineage key (.inl names)

theorem Run.keeps_cleared (stepped : (setup.scheduler order).step state event = .ok (output, next))
    (apart : event.arriving ≠ some key) (cleared : state.runtime.Cleared key) :
    next.runtime.Cleared key := by
  refine (run.transition stepped).keeps_kind (fun core => core.runtime.Cleared key)
    (run.sound order).inv ?_ (Label.spares_follows key)
    (fun _ _ _ _ spares taken cleared => taken.recount.cleared spares cleared) cleared
  intro _ opening
  cases event with
  | arrive =>
    cases opening
    exact fun same => apart (congrArg some same)
  | claim | cancel | complete =>
    cases opening
    exact trivial
  | _ => exact opening.elim

variable {sections : List (Event F × ProgramSchedulerState F T)}

omit run in
theorem Path.keeps_cleared (path : Path setup state sections next) (run : Run setup trace state)
    (apart : ∀ entry ∈ sections, entry.1.arriving ≠ some key)
    (cleared : state.runtime.Cleared key) : next.runtime.Cleared key := by
  induction path generalizing trace with
  | nil => exact cleared
  | cons order stepped _ ih =>
    obtain ⟨first, rest⟩ := List.forall_mem_cons.mp apart
    exact ih (run.next order stepped) rest (run.keeps_cleared stepped first cleared)

omit run in
theorem Path.keeps_lineage (path : Path setup state sections next) (run : Run setup trace state)
    (known : (state.lineage.parents.lookup key).isSome) :
    (next.lineage.parents.lookup key).isSome := by
  induction path generalizing trace with
  | nil => exact known
  | cons _ stepped _ ih =>
    have left := step_leaves (run.sound _) stepped
    exact ih (run.next _ stepped) (left.lineage key (.inr known))

theorem Run.tick_clears
    (stepped : (setup.scheduler order).step state (.tick now) = .ok (output, next))
    (released : state.runtime.programs.lookup key = none)
    (aged : ∀ releasedAt, state.runtime.releasedGenerationsAt.lookup key = some releasedAt →
      max setup.config.pausedRetentionTtl (60 * 10 ^ 9) ≤ now - releasedAt) :
    next.runtime.Cleared key := by
  have inv := (run.sound order).inv
  obtain ⟨_, ticked, ⟨⟩⟩ := bind_eq_ok stepped
  obtain ⟨prunes, expires, settles⟩ := ((setup.scheduler _).tick_expires inv now).2.ok_of ticked
  have pruned := run.counted.clears released aged
  have scheduled := ((expires.trans settles).schedules (prunes.inv inv)).evolves
  exact scheduled.keeps (fun core => core.runtime.Cleared key) (prunes.inv inv)
    (Label.spares_follows key).scheduling
    (fun _ _ _ _ spares taken cleared => taken.recount.cleared spares cleared) pruned

omit run

/-- Once a Program has been released, its retention interval has passed and a
tick has run, no table and no queue has an entry of it until it arrives again;
only the lineage keeps it, as everyone who ever arrived. -/
theorem run_noEntry (run : Run setup trace state) {now : Instant}
    (stepped : (setup.scheduler order).step state (.tick now) = .ok (output, next))
    (released : state.runtime.programs.lookup key = none)
    (aged : ∀ releasedAt, state.runtime.releasedGenerationsAt.lookup key = some releasedAt →
      max setup.config.pausedRetentionTtl (60 * 10 ^ 9) ≤ now - releasedAt)
    {sections : List (Event F × ProgramSchedulerState F T)} {last : ProgramSchedulerState F T}
    (path : Path setup next sections last)
    (apart : ∀ entry ∈ sections, entry.1.arriving ≠ some key) :
    last.NoEntry key ∧ ((∃ entry ∈ trace, entry.1.arriving = some key) →
      (last.lineage.parents.lookup key).isSome) := by
  have ticked := run.next _ stepped
  constructor
  · obtain ⟨_, longer⟩ := path.run ticked
    exact .of_cleared (longer.sound .filled).inv longer.stocked longer.bindingsHomed
      (path.keeps_cleared ticked apart (run.tick_clears stepped released aged))
  · rintro ⟨entry, member, names⟩
    exact path.keeps_lineage ticked
      (ticked.remembered ⟨entry, List.mem_append_left _ member, names⟩)

end Runs

/-- The only Program terminates with its first request at three and a tick runs
a minute later: the runtime lists no Program, the lineage does. -/
theorem Sample.terminated_of_play :
    ∃ trace state output next, Run (router false false) trace state ∧
      ((router false false).scheduler .filled).step state (.tick (60 * 10 ^ 9 + 3)) =
        .ok (output, (next : Sample.State)) ∧
      (∃ entry ∈ trace, entry.1.arriving = some ⟨"pool", "program"⟩) ∧
      state.runtime.programs.keys = [] ∧
      (∀ key releasedAt, state.runtime.releasedGenerationsAt.lookup key = some releasedAt →
        max (router false false).config.pausedRetentionTtl (60 * 10 ^ 9) ≤
          60 * 10 ^ 9 + 3 - releasedAt) ∧
      (next.lineage.parents.lookup ⟨"pool", "program"⟩).isSome := by
  obtain ⟨trace, state, run, arrived, released, recorded, ticked⟩ := run_of_play (router false false)
    [.sync (snapshot 0 "pool" ["target"]), .arrive (arrival "pool" "program" 1) 1,
      .claim ⟨⟨"pool", "program", 0⟩, 1, 0⟩ 2,
      .complete ⟨⟨"pool", "program", 0⟩, "target", 1, 1, 2, 1, true, none, {}⟩ true true {} none 3]
    (fun trace state => (∃ entry ∈ trace, entry.1.arriving = some ⟨"pool", "program"⟩) ∧
      state.runtime.programs.keys = [] ∧
      (state.runtime.releasedGenerationsAt.keys.map fun key =>
        (state.runtime.releasedGenerationsAt.lookup key)) = [some 3] ∧
      ((((router false false).scheduler .filled).step state
        (.tick (60 * 10 ^ 9 + 3))).toOption.map fun ticked =>
          (ticked.2.lineage.parents.lookup ⟨"pool", "program"⟩).isSome) = some true)
    (by decide +kernel)
  cases stepped : ((router false false).scheduler .filled).step state
      (.tick (60 * 10 ^ 9 + 3)) with
  | error =>
    rw [stepped] at ticked
    cases ticked
  | ok result =>
    obtain ⟨output, next⟩ := result
    rw [stepped] at ticked
    refine ⟨trace, state, output, next, run, stepped, arrived, released,
      fun key releasedAt found => ?_, Option.some.inj ticked⟩
    have listed : some releasedAt ∈ state.runtime.releasedGenerationsAt.keys.map fun key =>
        (state.runtime.releasedGenerationsAt.lookup key) :=
      List.mem_map.mpr ⟨key, (mem_keys_iff _ _).mpr ⟨releasedAt, found⟩, found⟩
    rw [recorded, List.mem_singleton] at listed
    cases listed
    decide

/-- Every Program is released, the interval has passed and a tick has run, and
still the lineage has the Program that arrived. -/
theorem run_noEntry_fails :
    ∃ trace state output next, Run (Sample.router false false) trace state ∧
      ((Sample.router false false).scheduler .filled).step state (.tick (60 * 10 ^ 9 + 3)) =
        .ok (output, (next : Sample.State)) ∧
      (∀ key, state.runtime.programs.lookup key = none) ∧
      (∀ key releasedAt, state.runtime.releasedGenerationsAt.lookup key = some releasedAt →
        max (Sample.router false false).config.pausedRetentionTtl (60 * 10 ^ 9) ≤
          60 * 10 ^ 9 + 3 - releasedAt) ∧
      ∃ key, (∃ entry ∈ trace, entry.1.arriving = some key) ∧
        next.lineage.parents.lookup key ≠ none := by
  obtain ⟨trace, state, output, next, run, stepped, arrived, released, aged, known⟩ :=
    terminated_of_play
  refine ⟨trace, state, output, next, run, stepped, fun _ => ?_, aged, _, arrived,
    Option.isSome_iff_ne_none.mp known⟩
  rw [AList.lookup_eq_none, AList.mem_keys, released]
  exact List.not_mem_nil

theorem run_noEntry_terminated :
    ∃ trace state output next, Run (Sample.router false false) trace state ∧
      ((Sample.router false false).scheduler .filled).step state (.tick (60 * 10 ^ 9 + 3)) =
        .ok (output, (next : Sample.State)) ∧
      (∃ entry ∈ trace, entry.1.arriving = some ⟨"pool", "program"⟩) ∧
      next.NoEntry ⟨"pool", "program"⟩ ∧
      (next.lineage.parents.lookup ⟨"pool", "program"⟩).isSome := by
  obtain ⟨trace, state, output, next, run, stepped, arrived, released, aged, _⟩ :=
    terminated_of_play
  have absent : state.runtime.programs.lookup ⟨"pool", "program"⟩ = none := by
    rw [AList.lookup_eq_none, AList.mem_keys, released]
    exact List.not_mem_nil
  obtain ⟨none_left, remembered⟩ := run_noEntry run stepped absent (aged _) (.nil next)
    (fun _ impossible => nomatch impossible)
  exact ⟨trace, state, output, next, run, stepped, arrived, none_left, remembered arrived⟩

end SmetricRouter.ProgramScheduling
