import SmetricRouter.ProgramScheduling.InFlight
import SmetricRouter.ProgramScheduling.WaitingLaws
import Mathlib.Data.Fintype.EquivFin

/-! What is left of the epochs once their counter is exhausted.

The counter saturates, so from then on every placement has the same number and
the fence no longer tells them apart. A binding-only scheduler admits every
arrival at once, which takes the counter there one request at a time.
-/

namespace SmetricRouter.ProgramScheduling

open ProgramSchedulerState ProgramRuntime Function Sample ProgramScheduler

variable {label : Label}

theorem RuntimeStep.saturated {runtime next : ProgramRuntime}
    (stepped : RuntimeStep runtime next label) (full : runtime.nextPlacementEpoch = u64Max) :
    next.nextPlacementEpoch = u64Max := by
  have stays : saturatingAdd runtime.nextPlacementEpoch 1 = u64Max := by
    rw [full]
    exact Nat.min_eq_right (Nat.le_succ _)
  cases stepped with
  | admitted | invalidated =>
    rename_i epoch _
    exact epoch.trans stays
  | quiet | paused | unmarked | completed | released =>
    have silent : Silent runtime next := ‹_›
    exact silent.epoch.trans full
  | retained | dispatched | cancelled =>
    rename_i epoch _
    exact epoch.trans full

variable {program : ProgramRef} {record : RuntimeProgram} {home : Option String}
  {deadline : Instant}

section Arrival

variable {core : Core} {arrival : Arrival}

theorem Core.targets_arrive {globalMode : Bool} {arrival : Arrival}
    : (core.arrive globalMode arrival home deadline).targets = core.targets := by
  simp only [arrive]
  split
  · rfl
  · split
    · rfl
    · cases globalMode <;> rfl

theorem Core.retained_live (keyed : core.runtime.Keyed)
    (found : core.runtime.find program = some record) (named : program.key = arrival.identity.key) :
    (core.retained arrival).1.program = program ∧
      (core.retained arrival).2.placement program = record.placement := by
  obtain ⟨stored, own⟩ := find_eq_some.mp found
  rw [named] at stored
  rcases materialize_cases arrival.identity arrival.estimatedContextTokens with
    ⟨_, known, materialized⟩ | fresh
  · cases known.symm.trans stored
    have reference : (core.runtime.materialize arrival.identity
        arrival.estimatedContextTokens).1.reference = program := by
      rw [materialized]
      exact own
    have finds := find_retainRequest keyed arrival.identity
      arrival.estimatedContextTokens arrival.routingText arrival.arrivedAt program
    rw [if_pos reference.symm] at finds
    refine ⟨reference, (congrArg (Option.bind · RuntimeProgram.placement) finds).trans ?_⟩
    rw [materialized]
    rfl
  · cases fresh.1.symm.trans stored

end Arrival

variable {handle : ProgramRequestHandle} {target : String}

section Admission

variable {F T : Type} [F64 F] [AffinityTree T] {self : ProgramScheduler F}
  {state : ProgramSchedulerState F T} {arrival : Arrival}

/-- The arriving Program is admitted on the spot. -/
structure Admits (state : ProgramSchedulerState F T) (handle : ProgramRequestHandle)
    (next : ProgramSchedulerState F T) : Prop where
  epoch : next.runtime.nextPlacementEpoch = saturatingAdd state.runtime.nextPlacementEpoch 1
  journal : next.runtime.journal = state.runtime.journal ++
    [.retained handle.program handle.requestId,
      .admitted handle.program (saturatingAdd state.runtime.nextPlacementEpoch 1)]
  targets : next.core.targets = state.core.targets
  revision : next.targetSnapshotRevision = state.targetSnapshotRevision
  placed : ∃ record target, next.runtime.find handle.program = some record ∧
    record.state = .active ∧ record.placement = some target ∧
    record.placementEpoch = saturatingAdd state.runtime.nextPlacementEpoch 1
  queued : ∃ request, request.id = handle.requestId ∧
    next.runtime.requestPool.queue handle.program =
      state.runtime.requestPool.queue handle.program ++ [request]

omit [F64 F] [AffinityTree T] in
theorem Admits.admissions {next : ProgramSchedulerState F T} (admits : Admits state handle next) :
    next.runtime.admissions = state.runtime.admissions ++
      [(handle.program, saturatingAdd state.runtime.nextPlacementEpoch 1)] := by
  rw [ProgramRuntime.admissions, admits.journal, List.filterMap_append]
  rfl

omit [AffinityTree T] in
theorem ProgramScheduler.activateBindingOnly_admits {standing : Standing}
    (found : state.runtime.find program = some record) (paused : record.state = .paused)
    (waiting : state.runtime.requestPool.queue program ≠ [])
    (stored : state.core.standing program = some standing)
    (home : standing.lastTarget = some target) (now : Instant) :
    (self.activateBindingOnly state program now).core =
        state.core.activate program target
          (state.runtime.openPlacement { record with status := .reasoning } target true) ∧
      (self.activateBindingOnly state program now).targetSnapshotRevision =
        state.targetSnapshotRevision := by
  obtain ⟨_, decided, rfl⟩ := Option.map_eq_some_iff.mp stored
  obtain ⟨lookup, exact⟩ := find_eq_some.mp found
  have activated : state.runtime.activate program target =
      some (state.runtime.openPlacement { record with status := .reasoning } target true) := by
    simp [activate, lookup, exact, paused, RequestPool.programLen, waiting]
  have idle : ¬ (state.runtime.view program).any fun view => view.state == .active := by
    simp [view, found, paused]
  have bound : (state.decisions.lookup program).bind (·.lastTarget) = some target := by
    rw [decided]
    exact home
  unfold activateBindingOnly
  rw [if_neg idle, bound]
  refine ⟨self.core_commitAdmission _ now decided activated, ?_⟩
  simp only [commitAdmission, decided, activated]
  rfl

/-- The arriving Program is paused with a home, and its request waits behind the others. -/
structure Awaits (state : ProgramSchedulerState F T) (handle : ProgramRequestHandle)
    (record : RuntimeProgram) (target : String) (middle : ProgramSchedulerState F T) : Prop where
  found : middle.runtime.find handle.program = some record
  paused : record.state = .paused
  homed : ∃ standing, middle.core.standing handle.program = some standing ∧
    standing.lastTarget = some target
  queued : ∃ request, request.id = handle.requestId ∧
    middle.runtime.requestPool.queue handle.program =
      state.runtime.requestPool.queue handle.program ++ [request]
  epoch : middle.runtime.nextPlacementEpoch = state.runtime.nextPlacementEpoch
  journal : middle.runtime.journal =
    state.runtime.journal ++ [.retained handle.program handle.requestId]
  targets : middle.core.targets = state.core.targets
  revision : middle.targetSnapshotRevision = state.targetSnapshotRevision

variable {middle : ProgramSchedulerState F T}

omit [AffinityTree T] in
theorem ProgramScheduler.Arrives.awaits
    (arrives : self.Arrives state arrival home deadline middle) (sound : self.Sound state)
    (unplaced : (state.core.retained arrival).2.placement
      (state.core.retained arrival).1.program = none)
    (homed : ¬ state.core.Strands arrival home) :
    ∃ record target, Awaits state (state.core.retained arrival).1 record target middle := by
  cases retaining : state.core.retained arrival with
  | mk handle runtime =>
  rw [retaining] at unplaced
  have program : (state.runtime.materialize arrival.identity
      arrival.estimatedContextTokens).1.reference = handle.program :=
    congrArg (fun outcome => outcome.1.program) retaining
  have numbered : wrappingSucc state.runtime.requestPool.nextRequestId = handle.requestId :=
    congrArg (fun outcome => outcome.1.requestId) retaining
  have middle_runtime : middle.runtime = (state.core.retained arrival).2 := by
    rw [← Core.runtime_arrive, ← arrives.core]
    rfl
  have queue : (state.core.retained arrival).2.requestPool.queue handle.program = _ :=
    queue_retainRequest state.runtime _ _ _ _ _
  rw [← middle_runtime, if_pos program.symm] at queue
  have found : (state.core.retained arrival).2.find handle.program = _ :=
    find_retainRequest sound.inv.stored _ _ _ _ _
  rw [← middle_runtime, if_pos program.symm] at found
  have nowhere : middle.runtime.placement handle.program = none := by
    rw [middle_runtime, retaining]
    exact unplaced
  obtain ⟨_, _, facts⟩ := (arrives.sound.inv.cards handle.program).of_program found
  have paused := Card.state_of_unplaced facts (by simpa [placement, found] using nowhere)
  cases last : (state.core.arrivingStanding handle.program home arrival.arrivedAt).lastTarget with
  | none =>
    refine absurd ?_ homed
    unfold Core.Strands
    rw [retaining]
    exact ⟨unplaced, last⟩
  | some target =>
    refine ⟨_, target, found, paused, ?_, ⟨_, numbered, queue⟩, ?_, ?_, ?_,
      arrives.targets.revision⟩
    · rw [arrives.core, Core.arrive_of_queued retaining _ _ _ unplaced rfl last,
        Core.standing_editQueue]
      exact ⟨_, update_self _ _ _, last⟩
    · rw [middle_runtime]
      rfl
    · rw [middle_runtime, ← program, ← numbered]
      rfl
    · exact (congrArg Core.targets arrives.core).trans Core.targets_arrive

omit [AffinityTree T] in
theorem Awaits.admits (awaits : Awaits state handle record target middle)
    (now : Instant) : Admits state handle (self.activateBindingOnly middle handle.program now) := by
  obtain ⟨request, numbered, queue⟩ := awaits.queued
  obtain ⟨_, stored, last⟩ := awaits.homed
  have waiting : middle.runtime.requestPool.queue handle.program ≠ [] := by
    rw [queue]
    exact List.append_ne_nil_of_right_ne_nil _ (List.cons_ne_nil _ _)
  obtain ⟨core, kept⟩ := self.activateBindingOnly_admits awaits.found awaits.paused waiting stored
    last now
  generalize self.activateBindingOnly middle handle.program now = next at core kept ⊢
  have next_runtime : next.runtime = (middle.runtime.openPlacement
      { record with status := .reasoning } target true).notifyFront handle.program :=
    congrArg Core.runtime core
  have reference : record.reference = handle.program :=
    (find_eq_some.mp awaits.found).2
  refine ⟨?_, ?_, ?_, kept.trans awaits.revision, ?_, ⟨request, numbered, ?_⟩⟩
  · rw [next_runtime, ← awaits.epoch]
    rfl
  · have admitted : next.runtime.journal = middle.runtime.journal ++
        [.admitted record.reference (saturatingAdd middle.runtime.nextPlacementEpoch 1)] := by
      rw [next_runtime]
      rfl
    rw [admitted, awaits.journal, awaits.epoch, reference, List.append_assoc]
    rfl
  · rw [core]
    exact awaits.targets
  · refine ⟨state.runtime.opened record target, target, ?_, rfl, rfl, rfl⟩
    have programs : next.runtime.programs = middle.runtime.programs.insert handle.program.key
        (state.runtime.opened record target) := by
      rw [next_runtime, opened, ← awaits.epoch, ← reference]
      rfl
    have finds := find_update_of_insert awaits.found _ (by exact reference) programs
    exact (congrFun finds handle.program).trans (update_self _ _ _)
  · rw [next_runtime]
    exact (RequestPool.queue_notifyFront _ _ _).trans queue

theorem ProgramScheduler.arrive_admits (sound : self.Sound state)
    (mode : self.config.bindingOnly = true)
    (unplaced : (state.core.retained arrival).2.placement
      (state.core.retained arrival).1.program = none)
    (homed : (state.core.card (state.core.retained arrival).1.program).Homed)
    (listed : state.core.targets arrival.identity.modelPool ≠ []) (activatedAt : Instant) :
    Returns (self.arrive state arrival.identity arrival.estimatedContextTokens arrival.routingText
        arrival.arrivedAt activatedAt) fun result =>
      result.1 = .ok (state.core.retained arrival).1 ∧
        Admits state (state.core.retained arrival).1 result.2 := by
  refine Ensures.mono (self.arrive_decides sound _ _) ?_
  rintro ⟨_, next⟩
    ⟨home, deadline, middle, arrives, _, ⟨answered, homedHere, decides⟩ | ⟨_, strands, _⟩⟩
  · obtain ⟨_, _, awaits⟩ := arrives.awaits sound unplaced homedHere
    have outcome : self.activateBindingOnly middle (state.core.retained arrival).1.program
        activatedAt = next := by
      simpa [decideArrival, if_pos mode] using decides
    exact ⟨answered, outcome ▸ awaits.admits _⟩
  · exact absurd (strands.unlisted sound.inv.keyed homed arrives.unbound) listed

end Admission

section Eviction

/-- A synchronization has not reached the Program yet, or has ended its
placement under the number every other placement has. -/
structure Evicting (runtime : ProgramRuntime) (program : ProgramRef) (record : RuntimeProgram)
    (next : ProgramRuntime) : Prop where
  full : next.nextPlacementEpoch = u64Max
  admissions : next.admissions = runtime.admissions
  found : ∃ after, next.find program = some after ∧ (after = record ∨
    after.placement = none ∧ after.inFlightRequests = 0 ∧ after.placementEpoch = u64Max)

theorem Evicting.step {start runtime next : ProgramRuntime} {pool : String} {removed : List String}
    (evicting : Evicting start program record runtime) (allowed : label.syncing pool removed)
    (stepped : RuntimeStep runtime next label) : Evicting start program record next := by
  have full := stepped.saturated evicting.full
  cases stepped with
  | quiet _ _ finds silent =>
    refine ⟨full, ?_, ?_⟩
    · rw [← evicting.admissions, ProgramRuntime.admissions, silent.journal]
      rfl
    · rw [finds]
      exact evicting.found
  | invalidated other _ _ _ found _ _ finds same epoch journal =>
    refine ⟨full, ?_, ?_⟩
    · rw [← evicting.admissions, ProgramRuntime.admissions, journal, List.filterMap_append]
      exact List.append_nil _
    · obtain ⟨after, live, either⟩ := evicting.found
      by_cases same : program = other
      · subst same
        refine ⟨_, (congrFun finds _).trans (update_self _ _ _), .inr ?_⟩
        exact ⟨rfl, rfl, epoch.symm.trans full⟩
      · refine ⟨after, ?_, either⟩
        rw [finds, update_of_ne same]
        exact live
  | retained | admitted | paused | unmarked | dispatched | completed | cancelled | released =>
    exact allowed.elim

variable {F T : Type} [F64 F] [AffinityTree T] {self : ProgramScheduler F}
  {state : ProgramSchedulerState F T}

theorem ProgramScheduler.sync_evicts (sound : self.Sound state) (pool : PoolSnapshot)
    (fresh : ¬ (state.modelTargetSnapshots.lookup pool.modelPool).any fun current =>
      current.address == pool.snapshot.address)
    (changed : state.modelTargets.lookup pool.modelPool ≠ some (incomingIds pool.snapshot.targets))
    (room : state.targetSnapshotRevision ≠ u64Max)
    (full : state.runtime.nextPlacementEpoch = u64Max)
    (own : program.modelPool = pool.modelPool) (found : state.runtime.find program = some record)
    (placed : record.placement = some target) (gone : target ∉ incomingIds pool.snapshot.targets) :
    Returns (self.syncTargetSnapshotLocked state pool) fun next =>
      Evicting state.runtime program record next.runtime ∧
        next.runtime.placement program = none ∧
        next.core.targets pool.modelPool = incomingIds pool.snapshot.targets := by
  have different : ¬ targetsUnchanged state pool.modelPool pool.snapshot.targets := by
    simp [targetsUnchanged, changed]
  refine Ensures.mono (syncTargetSnapshotLocked_replaces sound fresh different room) ?_
  rintro next ⟨nextSound, base, evolved, shrunk, _⟩
  have during := @Evolves.invariant _ _ _ _ (fun core => core.Inv self.config.globalQueue ∧
      Evicting state.runtime _ _ core.runtime) evolved
    (fun core _ next allowed taken held =>
      ⟨taken.inv held.1, held.2.step allowed (taken.runtimeStep held.1.keyed)⟩)
    ⟨sound.inv, full, rfl, record, found, .inl rfl⟩
  have next_runtime : next.runtime = base.runtime := congrArg Core.runtime shrunk
  have targets : next.core.targets pool.modelPool = incomingIds pool.snapshot.targets := by
    rw [shrunk]
    exact update_self _ _ _
  have evicting : Evicting state.runtime program record next.runtime := next_runtime ▸ during.2
  refine ⟨evicting, ?_, targets⟩
  obtain ⟨_, live, same | ⟨unplaced, _⟩⟩ := evicting.found
  · -- A kept placement would be on a target that the pool no longer lists.
    subst same
    obtain ⟨_, _, facts⟩ := (nextSound.inv.cards _).of_program live
    have listed := facts.lastListed _ (facts.placedLast _ placed)
    have targetsHere : (next.core.card program).targets = next.core.targets pool.modelPool := by
      rw [← own]
      rfl
    rw [targetsHere, targets] at listed
    exact absurd listed gone
  · rw [placement, live, Option.bind_some, unplaced]

end Eviction

namespace Sample

variable {trace : List (Event Exact × Output Exact)} {state : State}

theorem exists_unknown (runtime : ProgramRuntime) (pool : String) :
    ∃ name, runtime.programs.lookup ⟨pool, name⟩ = none := by
  obtain ⟨name, unused⟩ := Infinite.exists_notMem_finset
    (runtime.programs.keys.map RuntimeKey.programId).toFinset
  refine ⟨name, AList.lookup_eq_none.mpr fun known => unused ?_⟩
  rw [List.mem_toFinset, List.mem_map]
  exact ⟨_, AList.mem_keys.mpr known, rfl⟩

theorem exists_admits (run : Run (router true false) trace state)
    (listed : state.core.targets "a" ≠ []) {name : String}
    (unplaced : (state.core.retained (arrival "a" name 0)).2.placement
      (state.core.retained (arrival "a" name 0)).1.program = none) :
    ∃ next, Run (router true false) (trace ++ [(.arrive (arrival "a" name 0) 0,
        .arrived (.ok (state.core.retained (arrival "a" name 0)).1))]) next ∧
      Admits state (state.core.retained (arrival "a" name 0)).1 next := by
  obtain ⟨⟨answer, next⟩, arrived, answered, admits⟩ :=
    (arrive_admits (run.sound .filled) rfl unplaced (run.homed _) listed 0).exists_ok
  refine ⟨next, run.next .filled ?_, admits⟩
  simp only [step, arrived, ok_bind]
  rw [show answer = _ from answered]
  rfl

/-- The state after a failover and some admissions of distinct Programs. -/
structure Filled (admitted : Nat) (trace : List (Event Exact × Output Exact)) (state : State) :
    Prop where
  run : Run (router true false) trace state
  epoch : state.runtime.nextPlacementEpoch = min (admitted + 2) u64Max
  admissions : state.runtime.admissions.length = admitted + 1
  targets : state.core.targets "a" = ["u"]
  revision : state.targetSnapshotRevision = 2
  idle : outstanding trace = 0
  uncompleted : ∀ entry ∈ trace, entry.1.completes = none

theorem Filled.next {admitted : Nat} (filled : Filled admitted trace state) :
    ∃ name next, Filled (admitted + 1) (trace ++ [(.arrive (arrival "a" name 0) 0,
        .arrived (.ok (state.core.retained (arrival "a" name 0)).1))]) next ∧
      state.runtime.programs.lookup ⟨"a", name⟩ = none ∧
      Admits state (state.core.retained (arrival "a" name 0)).1 next := by
  obtain ⟨name, unknown⟩ := exists_unknown state.runtime "a"
  have unplaced : (state.core.retained (arrival "a" name 0)).2.placement
      (state.core.retained (arrival "a" name 0)).1.program = none := by
    have found := find_retainRequest (filled.run.sound .filled).inv.stored
      (arrival "a" name 0).identity 1 none 0 (state.core.retained (arrival "a" name 0)).1.program
    rw [if_pos (by rfl)] at found
    refine (congrArg (Option.bind · RuntimeProgram.placement) found).trans ?_
    rcases materialize_cases (arrival "a" name 0).identity 1 with ⟨_, known, _⟩ | fresh
    · cases known.symm.trans unknown
    · exact fresh.2.2.unplaced
  obtain ⟨next, run, admits⟩ := exists_admits filled.run (by rw [filled.targets]; nofun) unplaced
  refine ⟨name, next, ⟨run, ?_, ?_, ?_, ?_, ?_, ?_⟩, unknown, admits⟩
  · rw [admits.epoch, filled.epoch]
    unfold saturatingAdd
    omega
  · rw [admits.admissions, List.length_append, filled.admissions]
    rfl
  · rw [admits.targets, filled.targets]
  · rw [admits.revision, filled.revision]
  · rw [outstanding_append, filled.idle]
    rfl
  · intro entry member
    rcases List.mem_append.mp member with earlier | last
    · exact filled.uncompleted _ earlier
    · cases List.mem_singleton.mp last
      rfl

theorem exists_filled (admitted : Nat) : ∃ trace state, Filled admitted trace state := by
  induction admitted with
  | zero =>
    obtain ⟨trace, state, run, epoch, admissions, targets, revision, idle, uncompleted⟩ :=
      run_of_play (router true false)
        [.sync (snapshot 0 "a" ["t"]), .arrive (arrival "a" "p" 0) 0, .sync (snapshot 1 "a" ["u"])]
        (fun trace state => state.runtime.nextPlacementEpoch = 2 ∧
          state.runtime.admissions.length = 1 ∧ state.core.targets "a" = ["u"] ∧
          state.targetSnapshotRevision = 2 ∧ outstanding trace = 0 ∧
          ∀ entry ∈ trace, entry.1.completes = none) (by decide +kernel)
    exact ⟨trace, state, run, epoch, admissions, targets, revision, idle, uncompleted⟩
  | succ _ ih =>
    obtain ⟨_, _, filled⟩ := ih
    obtain ⟨_, next, more, _⟩ := filled.next
    exact ⟨_, next, more⟩

/-- A Program was admitted with the last number there is and still waits for
its request to be claimed. -/
structure Exhausted (name : String) (handle : ProgramRequestHandle)
    (trace : List (Event Exact × Output Exact)) (state : State) : Prop where
  run : Run (router true false) trace state
  full : state.runtime.nextPlacementEpoch = u64Max
  few : state.runtime.admissions.length + 1 < 2 ^ 64
  targets : state.core.targets "a" = ["u"]
  revision : state.targetSnapshotRevision = 2
  idle : outstanding trace = 0
  uncompleted : ∀ entry ∈ trace, entry.1.completes = none
  named : handle.program.key = ⟨"a", name⟩
  admitted : (handle.program, u64Max) ∈ state.runtime.admissions
  placed : ∃ record, state.runtime.find handle.program = some record ∧
    record.state = .active ∧ record.placement = some "u" ∧ record.placementEpoch = u64Max
  queued : ∃ request, request.id = handle.requestId ∧
    state.runtime.requestPool.queue handle.program = [request]

theorem exists_exhausted : ∃ name handle trace state, Exhausted name handle trace state := by
  obtain ⟨_, state, filled⟩ := exists_filled (2 ^ 64 - 4)
  obtain ⟨name, next, more, unknown, admits⟩ := filled.next
  have sound := filled.run.sound .filled
  have named : (state.core.retained (arrival "a" name 0)).1.program.key = ⟨"a", name⟩ :=
    materialize_key sound.inv.keyed _ _
  have last : saturatingAdd state.runtime.nextPlacementEpoch 1 = u64Max := by
    rw [filled.epoch]
    decide
  refine ⟨name, _, _, next, more.run, admits.epoch.trans last, ?_, more.targets, more.revision,
    more.idle, more.uncompleted, named, ?_, ?_, ?_⟩
  · rw [more.admissions]
    decide
  · rw [admits.admissions, last]
    exact List.mem_append_right _ (List.mem_singleton_self _)
  · obtain ⟨record, target, found, active, placed, epoch⟩ := admits.placed
    obtain ⟨_, _, facts⟩ := ((more.run.sound .filled).inv.cards _).of_program found
    have listed := facts.lastListed target (facts.placedLast _ placed)
    have targets : (next.core.card (state.core.retained (arrival "a" name 0)).1.program).targets =
        ["u"] := by
      rw [← more.targets]
      exact congrArg next.core.targets (congrArg RuntimeKey.modelPool named)
    rw [targets] at listed
    cases List.mem_singleton.mp listed
    exact ⟨record, found, active, placed, epoch.trans last⟩
  · obtain ⟨request, numbered, queue⟩ := admits.queued
    have absent : state.runtime.find (state.core.retained (arrival "a" name 0)).1.program = none := by
      rw [find, named, unknown]
      rfl
    refine ⟨request, numbered, queue.trans ?_⟩
    cases sound.inv.cards (state.core.retained (arrival "a" name 0)).1.program with
    | absent _ _ requests =>
      rw [show state.runtime.requestPool.queue _ = [] from requests]
      rfl
    | live _ _ found => cases absent.symm.trans found

def freshAddress (state : State) (pool : String) : Nat :=
  ((state.modelTargetSnapshots.lookup pool).map (·.address)).elim 0 (· + 1)

theorem Exhausted.exists_claims {name : String} (exhausted : Exhausted name handle trace state) :
    ∃ (next : State) (dispatch : ProgramDispatch), Run (router true false)
        (trace ++ [(.claim handle 0, .claimed (some dispatch))]) next ∧
      IssuedUnder handle.program u64Max dispatch ∧
      next.runtime.nextPlacementEpoch = u64Max ∧ next.core.targets "a" = ["u"] ∧
      next.targetSnapshotRevision = 2 ∧
      ∃ record, next.runtime.find handle.program = some record ∧ record.placement = some "u" := by
  obtain ⟨_, found, active, placed, epoch⟩ := exhausted.placed
  obtain ⟨_, numbered, queue⟩ := exhausted.queued
  have placement : state.runtime.placement handle.program = some "u" := by
    rw [placement, found]
    exact placed
  have handed := admitFront_front 0 found active placed queue numbered
  have stepped := admitFront_step 0 found active placed
  have full := stepped.saturated exhausted.full
  obtain ⟨_, answer⟩ := (exhausted.run.sound .filled).claimDispatch handle 0 placement
  have core := @claimDispatch_core _ _ handle _ state 0 _ placement
  have claimed : ((router true false).scheduler .filled).step state (.claim handle 0) =
      .ok (.claimed (state.runtime.admitFront handle "u" 0).1,
        (claimDispatch state handle 0).2) := by
    rw [← answer]
    rfl
  rw [handed] at claimed
  refine ⟨_, _, exhausted.run.next .filled claimed, ⟨rfl, epoch⟩, ?_, ?_, ?_, ?_⟩
  · exact (congrArg (fun core => core.runtime.nextPlacementEpoch) core).trans full
  · exact (congrArg (fun core => core.targets "a") core).trans exhausted.targets
  · obtain ⟨_, _, same⟩ := claimDispatch_frame state handle 0
    rw [same]
    exact exhausted.revision
  · have finds := congrArg (fun core => core.runtime.find handle.program) core
    cases stepped with
    | quiet _ grounded => exact absurd trivial grounded
    | unmarked _ _ _ live after =>
      cases found.symm.trans live
      exact ⟨_, finds.trans ((congrFun after _).trans (update_self _ _ _)), placed⟩
    | dispatched _ _ _ _ _ _ live _ _ _ _ _ after =>
      cases found.symm.trans live
      exact ⟨_, finds.trans ((congrFun after _).trans (update_self _ _ _)), by assumption⟩

theorem exists_evicts (run : Run (router true false) trace state)
    (full : state.runtime.nextPlacementEpoch = u64Max) (targets : state.core.targets "a" = ["u"])
    (revision : state.targetSnapshotRevision = 2)
    (own : program.modelPool = "a") (found : state.runtime.find program = some record)
    (placed : record.placement = some "u") :
    ∃ next : State, Run (router true false) (trace ++
        [(.sync (snapshot (freshAddress state "a") "a" ["t"]), .nothing)]) next ∧
      Evicting state.runtime program record next.runtime ∧
      next.runtime.placement program = none ∧ next.core.targets "a" = ["t"] := by
  have sound := run.sound .filled
  have ids : incomingIds [⟨"t", "t", none⟩] = ["t"] := by
    decide +kernel
  have fresh : ¬ (state.modelTargetSnapshots.lookup "a").any fun current =>
      current.address == freshAddress state "a" := by
    cases remembered : state.modelTargetSnapshots.lookup "a" with
    | none => simp
    | some => simp [freshAddress, remembered]
  have listed : (state.modelTargets.lookup "a").getD [] = ["u"] := targets
  have changed : state.modelTargets.lookup "a" ≠ some ["t"] := by
    intro same
    rw [same] at listed
    exact absurd listed (by decide)
  obtain ⟨next, synced, evicting, unplaced, after⟩ :=
    (sync_evicts sound (snapshot (freshAddress _ "a") "a" ["t"]) fresh
      (fun same => changed (same.trans (congrArg some ids))) (by rw [revision]; decide) full own
      found placed (fun kept => absurd (ids ▸ kept) (by decide))).exists_ok
  refine ⟨next, run.next .filled ?_, evicting, unplaced, after.trans ids⟩
  simp only [step, synced, ok_bind]
  rfl

end Sample

/-- Fewer than `2 ^ 64` admissions do not keep the epochs apart: the
invalidations take numbers from the same counter. -/
theorem fence_fails_saturated :
    ∃ trace state, Run (Sample.router true false) trace state ∧
      (state : Sample.State).runtime.admissions.length < 2 ^ 64 ∧
      ¬ state.runtime.admissions.Nodup := by
  obtain ⟨name, handle, _, state, exhausted⟩ := exists_exhausted
  obtain ⟨_, found, _, placed, _⟩ := exhausted.placed
  obtain ⟨second, run, evicting, unplaced, targets⟩ := exists_evicts exhausted.run
    exhausted.full exhausted.targets exhausted.revision
    (congrArg RuntimeKey.modelPool exhausted.named) found placed
  obtain ⟨after, live, _⟩ := evicting.found
  obtain ⟨same, placement⟩ : (second.core.retained (arrival "a" name 0)).1.program =
      handle.program ∧ (second.core.retained (arrival "a" name 0)).2.placement
        handle.program = after.placement :=
    Core.retained_live (run.sound .filled).inv.keyed live exhausted.named
  obtain ⟨third, again, admits⟩ := exists_admits run (by rw [targets]; nofun) (by
    rw [same, placement]
    exact (congrArg (Option.bind · RuntimeProgram.placement) live).symm.trans unplaced)
  have repeated : third.runtime.admissions =
      state.runtime.admissions ++ [(handle.program, u64Max)] := by
    rw [admits.admissions, evicting.admissions, evicting.full, same]
    rfl
  refine ⟨_, third, again, ?_, ?_⟩
  · rw [repeated, List.length_append]
    exact exhausted.few
  · intro distinct
    rw [repeated, List.nodup_append] at distinct
    exact distinct.2.2 _ exhausted.admitted _ (List.mem_singleton_self _) rfl

/-- Once the counter is exhausted a placement that ended has the number of the
current one, and its dispatches are counted against a counter that was reset. -/
theorem inFlight_fails_saturated :
    ∃ trace state, Run (Sample.router true false) trace state ∧ CompletedOnce trace ∧
      ∃ program record, (state : Sample.State).runtime.find program = some record ∧
        record.inFlightRequests ≠
          (outstanding trace).countP (IssuedUnder program record.placementEpoch) := by
  obtain ⟨_, handle, trace, _, exhausted⟩ := exists_exhausted
  obtain ⟨middle, dispatch, claimed, issued, full, targets, revision, _, found, placed⟩ :=
    exhausted.exists_claims
  obtain ⟨next, run, evicting, unplaced, _⟩ := exists_evicts claimed full targets revision
    (congrArg RuntimeKey.modelPool exhausted.named) found placed
  have flying : outstanding (trace ++ [(.claim handle 0, .claimed (some dispatch))] ++
      [(.sync (snapshot (freshAddress middle "a") "a" ["t"]), .nothing)]) = {dispatch} := by
    rw [outstanding_append, outstanding_append, exhausted.idle]
    rfl
  refine ⟨_, next, run, .of_uncompleted ?_, handle.program, ?_⟩
  · intro entry member
    simp only [List.append_assoc, List.cons_append, List.nil_append, List.mem_append,
      List.mem_cons, List.not_mem_nil, or_false] at member
    rcases member with earlier | rfl | rfl
    · exact exhausted.uncompleted entry earlier
    · rfl
    · rfl
  · obtain ⟨after, live, same | ⟨_, reset, number⟩⟩ := evicting.found
    · rw [placement, live, Option.bind_some, same, placed] at unplaced
      cases unplaced
    · refine ⟨after, live, ?_⟩
      rw [flying, number, reset, ← Multiset.cons_zero, Multiset.countP_cons_of_pos _ issued]
      exact (Nat.succ_ne_zero _).symm

end SmetricRouter.ProgramScheduling
