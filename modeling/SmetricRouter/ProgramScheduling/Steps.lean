import SmetricRouter.ProgramScheduling.SyncMoves

/-! The scheduler under its mutex, one lock-held section at a time.

An event is one section with its arguments and clock readings. A run strings
sections together in any order, each with its own hash-map iteration order.
What a section can do is said once, as a transition of the machine.

A sample scheduler with exact arithmetic, no token capacity and plain lists as
affinity trees stands at the end, for statements about particular runs.
-/

namespace SmetricRouter.ProgramScheduling

open ProgramSchedulerState Ensures

inductive Event (F : Type) where
  | sync (pool : PoolSnapshot)
  /-- The first section of an acquisition. -/
  | arrive (arrival : Arrival) (activatedAt : Instant)
  | claim (handle : ProgramRequestHandle) (now : Instant)
  /-- A wait for admission ran out and the decisions are taken again. -/
  | expire (now : Instant)
  | cancel (handle : ProgramRequestHandle) (pausedAt releasedAt scheduledAt : Instant)
  | complete (dispatch : ProgramDispatch) (success terminate : Bool)
      (usage : ProgramUsageObservation) (decodeSeconds : Option F) (now : Instant)
  | tick (now : Instant)
  | beginObservation (targets : List ProgramTarget)
  | applyObservations (epoch : BackendObservationEpoch F)
      (observations : List (BackendObservation F))
  /-- One round of the thread that bounds the affinity trees. -/
  | evict (maxSize : Nat)

inductive Output (F : Type) where
  | nothing
  | arrived (result : Except ScheduleError ProgramRequestHandle)
  | claimed (dispatch : Option ProgramDispatch)
  | cancelled (removed : Bool)
  | observed (epoch : BackendObservationEpoch F)

variable {F T : Type} [F64 F] {state : ProgramSchedulerState F T}

section Step

variable [AffinityTree T]

def ProgramScheduler.step (self : ProgramScheduler F) (state : ProgramSchedulerState F T) :
    Event F → Except Fault (Output F × ProgramSchedulerState F T)
  | .sync pool => do
    let next ← self.syncTargetSnapshotLocked state pool
    return (.nothing, next)
  | .arrive arrival activatedAt => do
    let (result, next) ← self.arrive state arrival.identity arrival.estimatedContextTokens
      arrival.routingText arrival.arrivedAt activatedAt
    return (.arrived result, next)
  | .claim handle now =>
    let (dispatch, next) := ProgramScheduler.claimDispatch state handle now
    .ok (.claimed dispatch, next)
  | .expire now => do
    let next ← self.runRequestArrivalDecisions state now
    return (.nothing, next)
  | .cancel handle pausedAt releasedAt scheduledAt => do
    let (removed, next) ←
      self.cancelRetainedRequest state handle pausedAt releasedAt scheduledAt
    return (.cancelled removed, next)
  | .complete dispatch success terminate usage decodeSeconds now => do
    let next ← self.complete state dispatch success terminate usage decodeSeconds now
    return (.nothing, next)
  | .tick now => do
    let next ← self.tick state now
    return (.nothing, next)
  | .beginObservation targets => .ok (.observed (self.beginObservation state targets), state)
  | .applyObservations epoch observations =>
    .ok (.nothing, self.applyObservations state epoch observations)
  | .evict maxSize =>
    .ok (.nothing, { state with
      bindings := { state.bindings with policy := state.bindings.policy.evict maxSize } })

/-- What stays the same over a run of one scheduler. -/
structure Setup (F : Type) [F64 F] where
  config : ProgramSchedulerConfig F
  fbiHash : String → Nat

def Setup.scheduler (setup : Setup F) (order : IterationOrder) : ProgramScheduler F :=
  ⟨setup.config, setup.fbiHash, order⟩

inductive Run (setup : Setup F) : List (Event F × Output F) → ProgramSchedulerState F T → Prop where
  | start : Run setup [] (.new setup.config)
  | next {trace : List (Event F × Output F)} {state next : ProgramSchedulerState F T}
      {event : Event F} {output : Output F} (order : IterationOrder) (run : Run setup trace state)
      (stepped : (setup.scheduler order).step state event = .ok (output, next)) :
      Run setup (trace ++ [(event, output)]) next

/-- Sections run one after another, each from a state that permits it. -/
inductive GuardedRun (setup : Setup F) (permits : Core → Event F → Prop) :
    List (Event F × Output F) → ProgramSchedulerState F T → Prop where
  | start : GuardedRun setup permits [] (.new setup.config)
  | next {trace : List (Event F × Output F)} {state next : ProgramSchedulerState F T}
      {event : Event F} {output : Output F} (order : IterationOrder)
      (run : GuardedRun setup permits trace state) (permitted : permits state.core event)
      (stepped : (setup.scheduler order).step state event = .ok (output, next)) :
      GuardedRun setup permits (trace ++ [(event, output)]) next

variable {setup : Setup F} {trace : List (Event F × Output F)}

theorem GuardedRun.run {permits : Core → Event F → Prop}
    (guarded : GuardedRun setup permits trace state) : Run setup trace state := by
  induction guarded with
  | start => exact .start
  | next _ _ _ stepped ih => exact ih.next _ stepped

/-- Sections run one after another from a given state, with the state each one
leaves. -/
inductive Path (setup : Setup F) : ProgramSchedulerState F T →
    List (Event F × ProgramSchedulerState F T) → ProgramSchedulerState F T → Prop where
  | nil (state : ProgramSchedulerState F T) : Path setup state [] state
  | cons {state next last : ProgramSchedulerState F T} {event : Event F} {output : Output F}
      {rest : List (Event F × ProgramSchedulerState F T)} (order : IterationOrder)
      (stepped : (setup.scheduler order).step state event = .ok (output, next))
      (path : Path setup next rest last) : Path setup state ((event, next) :: rest) last

theorem Path.run {start : ProgramSchedulerState F T}
    {sections : List (Event F × ProgramSchedulerState F T)} (path : Path setup start sections state)
    (run : Run setup trace start) : ∃ longer, Run setup longer state := by
  induction path generalizing trace with
  | nil => exact ⟨trace, run⟩
  | cons _ stepped _ ih => exact ih (run.next _ stepped)

end Step

/-- The targets a pool of the machine loses to an incoming list. -/
def Core.lost (core : Core) (pool : PoolSnapshot) : List String :=
  (core.targets pool.modelPool).filter (· ∉ ProgramScheduler.incomingIds pool.snapshot.targets)

/-- Everything a section can do to the machine. -/
inductive Transition (globalMode : Bool) (core : Core) : Event F → Output F → Core → Prop where
  | synced (pool) : Transition globalMode core (.sync pool) .nothing core
  | replaced (pool base)
      (evolved : Evolves globalMode (Label.syncing pool.modelPool (core.lost pool)) core base)
      (moved : Move globalMode base (.shrink pool.modelPool (core.lost pool))
        (base.shrink pool.modelPool (ProgramScheduler.incomingIds pool.snapshot.targets)
          (core.lost pool))) :
      Transition globalMode core (.sync pool) .nothing
        (base.shrink pool.modelPool (ProgramScheduler.incomingIds pool.snapshot.targets)
          (core.lost pool))
  | arrived (arrival activatedAt home deadline next)
      (moved : Move globalMode core (.arrive arrival)
        (core.arrive globalMode arrival home deadline))
      (homed : ¬ core.Strands arrival home)
      (evolved : Evolves globalMode Label.scheduling
        (core.arrive globalMode arrival home deadline) next) :
      Transition globalMode core (.arrive arrival activatedAt)
        (.arrived (.ok (core.retained arrival).1)) next
  | stranded (arrival activatedAt home deadline)
      (moved : Move globalMode core (.arrive arrival)
        (core.arrive globalMode arrival home deadline))
      (homeless : core.Strands arrival home)
      (unbound : home = none → core.targets arrival.identity.modelPool = []) :
      Transition globalMode core (.arrive arrival activatedAt) (.arrived (.error .noTargets))
        (core.arrive globalMode arrival home deadline)
  | unclaimed (handle now) (unplaced : core.runtime.placement handle.program = none) :
      Transition globalMode core (.claim handle now) (.claimed none) core
  | claimed (handle now target) (placed : core.runtime.placement handle.program = some target)
      (moved : Move globalMode core (.dispatch handle now)
        { core with runtime := (core.runtime.admitFront handle target now).2 }) :
      Transition globalMode core (.claim handle now)
        (.claimed (core.runtime.admitFront handle target now).1)
        { core with runtime := (core.runtime.admitFront handle target now).2 }
  | expired (now next) (evolved : Evolves globalMode Label.scheduling core next) :
      Transition globalMode core (.expire now) .nothing next
  | uncancelled (handle pausedAt releasedAt scheduledAt)
      (absent : core.runtime.cancelRequest handle = none) :
      Transition globalMode core (.cancel handle pausedAt releasedAt scheduledAt)
        (.cancelled false) core
  | cancelled (handle pausedAt releasedAt scheduledAt middle next)
      (moved : Move globalMode core (.cancel handle) middle)
      (evolved : Evolves globalMode Label.scheduling middle next) :
      Transition globalMode core (.cancel handle pausedAt releasedAt scheduledAt)
        (.cancelled true) next
  | stale (dispatch success terminate usage decodeSeconds now)
      (refused : core.runtime.placement dispatch.program ≠ some dispatch.targetId ∨
        core.runtime.completeRequest dispatch usage = none) :
      Transition globalMode core (.complete dispatch success terminate usage decodeSeconds now)
        .nothing core
  | completed (dispatch success terminate usage decodeSeconds now middle next)
      (moved : Move globalMode core (.complete dispatch usage) middle)
      (evolved : Evolves globalMode Label.scheduling middle next) :
      Transition globalMode core (.complete dispatch success terminate usage decodeSeconds now)
        .nothing next
  | ticked (now next) (evolved : Evolves globalMode Label.scheduling core next) :
      Transition globalMode core (.tick now) .nothing next
  | observed (targets epoch) :
      Transition globalMode core (.beginObservation targets) (.observed epoch) core
  | applied (epoch observations) :
      Transition globalMode core (.applyObservations epoch observations) .nothing core
  | evicted (maxSize) : Transition globalMode core (.evict maxSize) .nothing core

section Refinement

variable [AffinityTree T] {self : ProgramScheduler F}

namespace ProgramScheduler

omit [AffinityTree T] in
theorem applyObservations_eq (self : ProgramScheduler F) (state : ProgramSchedulerState F T)
    (epoch : BackendObservationEpoch F) (observations : List (BackendObservation F)) :
    ∃ booked, self.applyObservations state epoch observations =
      { state with observations := booked } := by
  unfold applyObservations
  split
  · exact ⟨state.observations, rfl⟩
  · apply foldl_invariant (fun _ (next : ProgramSchedulerState F T) =>
      ∃ booked, next = { state with observations := booked }) ⟨state.observations, rfl⟩
    rintro _ _ _ ⟨_, rfl⟩
    unfold applyObservation
    split
    · exact ⟨_, rfl⟩
    · split <;> exact ⟨_, rfl⟩

/-- Every section keeps the state sound and is a transition of the machine. It
can stop only because the revision counter is exhausted. -/
theorem step_transition (sound : self.Sound state) (event : Event F) :
    Ensures (· = Fault.revisionExhausted) (self.step state event) fun result =>
      self.Sound result.2 ∧
        Transition self.config.globalQueue state.core event result.1 result.2.core := by
  cases event with
  | sync pool =>
    apply bind (syncTargetSnapshotLocked_moves sound _)
    rintro next ⟨nextSound, same | ⟨base, evolved, shrunk, moved⟩⟩
    · refine pure ⟨nextSound, ?_⟩
      rw [same]
      exact .synced _
    · refine pure ⟨nextSound, ?_⟩
      rw [shrunk] at moved ⊢
      exact .replaced pool _ evolved moved
  | arrive arrival activatedAt =>
    apply bind (self.arrive_decides sound _ _).ensures
    rintro ⟨_, next⟩ ⟨home, deadline, middle, ⟨unbound, moved, middleSound, core, _, _, _⟩, _,
      ⟨answer, homed, decides⟩ | ⟨answer, homeless, unchanged⟩⟩
    · have taken := ((self.decideArrival_commits middleSound.inv _ arrival.arrivedAt
        activatedAt).ok_of decides).schedules middleSound.inv
      refine pure ⟨middleSound.schedules taken, ?_⟩
      simp only at answer
      rw [answer]
      exact .arrived arrival _ _ _ _ moved homed (core ▸ taken.evolves)
    · cases unchanged
      refine pure ⟨middleSound, ?_⟩
      simp only at answer
      rw [answer, core]
      exact .stranded arrival _ _ _ moved homeless unbound
  | claim handle now =>
    cases placed : state.runtime.placement handle.program with
    | none =>
      simp only [step, claimDispatch_unplaced now placed]
      exact ⟨sound, .unclaimed _ now placed⟩
    | some _ =>
      obtain ⟨nextSound, dispatched⟩ := sound.claimDispatch _ now placed
      refine ⟨nextSound, ?_⟩
      change Transition _ _ _ (.claimed (claimDispatch state handle now).1)
        (claimDispatch state handle now).2.core
      rw [claimDispatch_core placed, dispatched]
      exact .claimed _ now _ placed (.dispatch _ _ now placed (sound.inv.placement_active placed))
  | expire now =>
    apply bind (self.runRequestArrivalDecisions_commits sound.inv now).ensures
    intro next commits
    have taken := commits.schedules sound.inv
    exact pure ⟨sound.schedules taken, .expired now _ taken.evolves⟩
  | cancel handle pausedAt releasedAt scheduledAt =>
    apply bind (self.cancelRetainedRequest_commits sound.inv scheduledAt).ensures
    rintro ⟨_, _⟩ (⟨absent, unchanged⟩ | ⟨answer, _, cancelled, taken⟩)
    · cases unchanged
      exact pure ⟨sound, .uncancelled _ _ _ _ absent⟩
    · simp only at answer
      have follows := self.cancelledState_follows sound.inv cancelled taken
      obtain ⟨middle, moved, evolved⟩ := follows.moves
      refine pure ⟨sound.follows follows, ?_⟩
      rw [answer]
      exact .cancelled handle _ _ _ _ _ moved evolved
  | complete dispatch success terminate usage decodeSeconds now =>
    apply bind (self.complete_completes sound.inv decodeSeconds now).ensures
    rintro _ (⟨rfl, refused⟩ | ⟨_, _, _, _, _, completes, _⟩)
    · exact pure ⟨sound, .stale _ _ _ _ decodeSeconds now refused⟩
    · have follows := completes.follows sound.inv
      obtain ⟨middle, moved, evolved⟩ := follows.moves
      exact pure ⟨sound.follows follows, .completed dispatch _ _ _ _ now _ _ moved evolved⟩
  | tick now =>
    apply bind (self.tick_commits sound.inv now).ensures
    intro _ commits
    have taken := commits.schedules sound.inv
    exact pure ⟨sound.schedules taken, .ticked now _ taken.evolves⟩
  | beginObservation _ => exact ⟨sound, .observed _ _⟩
  | applyObservations epoch observations =>
    obtain ⟨_, applied⟩ := self.applyObservations_eq state epoch observations
    simp only [step, applied]
    exact ⟨⟨sound.inv, sound.built, sound.forest⟩, .applied epoch observations⟩
  | evict maxSize => exact ⟨⟨sound.inv, sound.built.evict maxSize, sound.forest⟩, .evicted maxSize⟩

end ProgramScheduler

end Refinement

namespace Sample

/-- Which tenant was given which text. -/
abbrev Texts : Type := List (String × String)

def commonPrefix : List Char → List Char → Nat
  | left :: lefts, right :: rights => if left = right then commonPrefix lefts rights + 1 else 0
  | _, _ => 0

instance : AffinityTree Texts where
  empty := []
  insert texts text tenant := texts ++ [(text, tenant)]
  removeTenant texts tenant := texts.filter fun entry => entry.2 ≠ tenant
  prefixMatchTenantCharCount texts text tenant :=
    ((texts.filter fun entry => entry.2 = tenant).map fun entry =>
      commonPrefix entry.1.toList text.toList).foldl max 0
  evictTenantBySize texts maxSize := texts.take maxSize

def config (bindingOnly globalQueue : Bool) : ProgramSchedulerConfig Exact where
  bindingOnly := bindingOnly
  globalQueue := globalQueue
  resumeOrder := .fcfs
  crossRankHeadroomRatio := F64.lit 1
  bindingStrategy := .leastProgramCount
  hashVirtualNodes := 1
  maxActiveProgramsPerTarget := 1
  metricsInterval := 1
  admissionWaitingRequestThreshold := 0
  queueTimeout := 100
  forceResumeTimeout := 10
  pausedRetentionTtl := 1000
  sharedPrefixFreshnessWarmup := 1
  sharedPrefixFreshnessKvTurnovers := F64.lit 1
  progressTtl :=
    { tokenCapacity := none
      decodeBufferTokens := 0
      maxActingTtl := 10
      highWatermarkRatio := F64.lit 1
      lowWatermarkRatio := F64.lit 1
      maxSegmentRounds := 4
      statsWindowSize := 4
      enableBatchGainAdmission := false
      prefill := ⟨F64.lit 0, F64.lit 0, F64.lit 0, F64.lit 0⟩
      decode := ⟨F64.lit 0, F64.lit 0, F64.lit 0⟩ }
  balance_capacity := nofun
  virtualNodes_pos := by decide
  maxActive_pos := by decide
  window_pos := by decide
  segment_pos := by decide
  capacity_pos := nofun
  headroom_ge := by decide +kernel
  watermark_pos := by decide +kernel
  watermark_le := by decide +kernel
  watermark_le_one := by decide +kernel
  timeout_le := by decide

def limitedConfig : ProgramSchedulerConfig Exact :=
  { config false false with
    progressTtl := { (config false false).progressTtl with tokenCapacity := some 10 }
    balance_capacity := nofun
    window_pos := (config false false).window_pos
    segment_pos := (config false false).segment_pos
    capacity_pos := by decide
    watermark_pos := (config false false).watermark_pos
    watermark_le := (config false false).watermark_le
    watermark_le_one := (config false false).watermark_le_one }

def limitedRouter : Setup Exact := ⟨limitedConfig, fun _ => 0⟩

def gatedRouter : Setup Exact :=
  ⟨{ config false false with admissionWaitingRequestThreshold := 1 }, fun _ => 0⟩

def router (bindingOnly globalQueue : Bool) : Setup Exact :=
  ⟨config bindingOnly globalQueue, fun _ => 0⟩

abbrev State : Type := ProgramSchedulerState Exact Texts

def snapshot (address : Nat) (pool : String) (targets : List String) : PoolSnapshot :=
  ⟨pool, ⟨address, targets.map fun target => ⟨target, target, none⟩⟩, fun _ => ⟨0, 0⟩⟩

def arrival (pool program : String) (arrivedAt : Instant) : Arrival where
  identity :=
    { modelPool := pool
      programId := program
      placementHashKey := program
      placementKey := program
      expectedResume := false }
  estimatedContextTokens := 1
  routingText := none
  arrivedAt := arrivedAt

def hinted (arrival : Arrival) (expectedOutputTokens : Nat) : Arrival :=
  { arrival with
    identity :=
      { arrival.identity with
        requestHints :=
          { arrival.identity.requestHints with
            expectedOutputTokens := some expectedOutputTokens } } }

/-- Run sections in the order of the tables, keeping what each returned, as long
as each one passes the check. -/
def play (setup : Setup Exact) (check : State → Event Exact → Bool) (events : List (Event Exact))
    (trace : List (Event Exact × Output Exact)) (state : State) :
    Option (List (Event Exact × Output Exact) × State) :=
  match events with
  | [] => some (trace, state)
  | event :: rest =>
    if check state event then
      match (setup.scheduler .filled).step state event with
      | .ok (output, next) => play setup check rest (trace ++ [(event, output)]) next
      | .error _ => none
    else none

variable {setup : Setup Exact} {check : State → Event Exact → Bool} {events : List (Event Exact)}
  {state last : State} {trace longer : List (Event Exact × Output Exact)}

theorem guardedRun_of_play (permits : Core → Event Exact → Prop)
    (checked : ∀ state event, check state event = true → permits state.core event)
    (run : GuardedRun setup permits trace state)
    (played : play setup check events trace state = some (longer, last)) :
    GuardedRun setup permits longer last := by
  induction events generalizing state trace with
  | nil =>
    cases played
    exact run
  | cons _ _ ih =>
    unfold play at played
    split at played
    · rename_i passed
      split at played
      · rename_i output next stepped
        exact ih (run.next .filled (checked _ _ passed) stepped) played
      · cases played
    · cases played

/-- What is read off a played run is there of some run. -/
theorem guarded_of_play (setup : Setup Exact) {permits : Core → Event Exact → Prop}
    (checked : ∀ state event, check state event = true → permits state.core event)
    (events : List (Event Exact)) (holds : List (Event Exact × Output Exact) → State → Prop)
    [∀ trace state, Decidable (holds trace state)]
    (played : (play setup check events [] (.new setup.config)).any fun reached =>
      holds reached.1 reached.2) :
    ∃ trace state, GuardedRun setup permits trace state ∧ holds trace state := by
  obtain ⟨⟨trace, state⟩, reached, held⟩ := (Option.any_eq_true _ _).mp played
  exact ⟨trace, state, guardedRun_of_play permits checked .start reached, of_decide_eq_true held⟩

theorem run_of_play (setup : Setup Exact) (events : List (Event Exact))
    (holds : List (Event Exact × Output Exact) → State → Prop)
    [∀ trace state, Decidable (holds trace state)]
    (played : (play setup (fun _ _ => true) events [] (.new setup.config)).any fun reached =>
      holds reached.1 reached.2) :
    ∃ trace state, Run setup trace state ∧ holds trace state := by
  obtain ⟨trace, state, guarded, held⟩ :
      ∃ trace state, GuardedRun setup (fun _ _ => True) trace state ∧ holds trace state :=
    guarded_of_play setup (fun _ _ _ => trivial) events holds played
  exact ⟨trace, state, guarded.run, held⟩

end Sample

end SmetricRouter.ProgramScheduling
