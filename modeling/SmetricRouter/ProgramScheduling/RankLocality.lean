import SmetricRouter.ProgramScheduling.Abstraction

/-! An admission concerns one target.

Whether a Program can be resumed on a target depends on the Program itself, on
the Programs active there, and on the observation and the windows of the target.
An admission elsewhere changes none of these, so a target on which nobody can be
resumed stays one.
-/

namespace SmetricRouter.ProgramScheduling

open ProgramSchedulerState ProgramRuntime RequestPool

/-- A map that only has its values changed is iterated in the same order. -/
def IterationOrder.Stable (order : IterationOrder) : Prop :=
  ∀ keys other : List RuntimeKey, keys.Perm other → order.programs keys = order.programs other

variable {F T : Type} (runtime : ProgramRuntime)

def ProgramRuntime.seatedView (target : String) (key : RuntimeKey) : Option RuntimeProgramViewRef :=
  (runtime.programs.lookup key).bind fun program =>
    if program.state = .active ∧ program.placement = some target then
      some ⟨program.reference, program.state, program.status, program.expectedResume,
        program.placement, program.estimatedContextTokens, program.inFlightRequests,
        runtime.requestPool.programLen program.reference⟩
    else none

def ProgramRuntime.newcomer (record : RuntimeProgram) (target : String) : RuntimeProgramViewRef :=
  ⟨record.reference, .active, .reasoning, record.expectedResume, some target,
    record.estimatedContextTokens, record.inFlightRequests,
    runtime.requestPool.programLen record.reference⟩

variable [F64 F]

namespace ProgramScheduler

variable (self : ProgramScheduler F) {state next : ProgramSchedulerState F T}

theorem activeOn_eq (state : ProgramSchedulerState F T) (target : String) :
    self.activeOn state target = (self.order.programs state.runtime.programs.keys).filterMap
      (state.runtime.seatedView target) := by
  unfold activeOn iterViews
  rw [List.filter_filterMap]
  congr 1
  funext key
  unfold seatedView
  cases state.runtime.programs.lookup key with
  | none => rfl
  | some =>
    simp [Option.filter_some]

/-- Everything that an admission on the target reads, the candidate apart. -/
structure SameRank (scheduler : ProgramScheduler F) (state next : ProgramSchedulerState F T)
    (target : String) : Prop where
  active : scheduler.activeOn next target = scheduler.activeOn state target
  decisions : ∀ view ∈ scheduler.activeOn state target,
    next.decisions.lookup view.reference = state.decisions.lookup view.reference
  observation : next.observations.lookup target = state.observations.lookup target
  factors : next.rankFactors.lookup target = state.rankFactors.lookup target

/-- The Programs of a target are the same in two states, and so are its observation
and its windows. -/
structure SameSeats (target : String) (state next : ProgramSchedulerState F T) : Prop where
  seats : next.runtime.seatedView target = state.runtime.seatedView target
  seated : ∀ key view, state.runtime.seatedView target key = some view →
    next.decisions.lookup view.reference = state.decisions.lookup view.reference
  keys : next.runtime.programs.keys.Perm state.runtime.programs.keys
  observation : next.observations.lookup target = state.observations.lookup target
  factors : next.rankFactors.lookup target = state.rankFactors.lookup target

variable {target : String}

theorem SameSeats.sameRank {self : ProgramScheduler F}
    (same : SameSeats target state next) (stable : self.order.Stable) :
    self.SameRank state next target where
  active := by rw [self.activeOn_eq, self.activeOn_eq, same.seats, stable _ _ same.keys]
  decisions view within := by
    rw [self.activeOn_eq] at within
    obtain ⟨key, _, sits⟩ := List.mem_filterMap.mp within
    exact same.seated key _ sits
  observation := same.observation
  factors := same.factors

variable {program : ProgramRef}

section Congruence

variable {self} (same : self.SameRank state next target) (now : Instant)

include same

theorem SameRank.filterMap {β : Type} (read : RuntimeProgramViewRef →
      Option (ProgramDecisionState F) → Option β) :
    (self.activeOn state target).filterMap
        (fun view => read view (next.decisions.lookup view.reference)) =
      (self.activeOn state target).filterMap
        fun view => read view (state.decisions.lookup view.reference) :=
  List.filterMap_congr fun view within => by rw [same.decisions view within]

theorem backendIsWaiting_congr :
    self.backendIsWaiting next target now = self.backendIsWaiting state target now := by
  simp [backendIsWaiting, same.observation]

theorem targetUsage_congr : self.targetUsage next target now = self.targetUsage state target now := by
  unfold targetUsage observedTargetUsage
  rw [same.observation, same.active, same.filterMap fun _ decision => decision]

variable (factors : ProgressTtlFactors F)

theorem growthReserve_congr :
    self.growthReserve next factors (self.activeOn state target) =
      self.growthReserve state factors (self.activeOn state target) := by
  unfold growthReserve
  rw [same.filterMap fun _ decision => decision.map _]

variable (decision : ProgramDecisionState F)

theorem batchGainInputs_congr (usedTokens requiredTokens : F) :
    self.batchGainInputs next factors (self.activeOn state target) decision usedTokens
        requiredTokens =
      self.batchGainInputs state factors (self.activeOn state target) decision usedTokens
        requiredTokens := by
  unfold batchGainInputs
  simp only
  rw [same.filterMap fun _ decision => decision.bind _]
  congr 2
  refine List.filterMap_congr fun view within => ?_
  rw [same.decisions view (List.mem_filter.mp within).1]

theorem capacityPlan_congr (expected : Option Nat) (forced : Bool) :
    self.capacityPlan next decision target expected forced now =
      self.capacityPlan state decision target expected forced now := by
  unfold capacityPlan
  rw [same.active, targetUsage_congr same, same.factors]
  simp [growthReserve_congr same, batchGainInputs_congr same]

theorem rankAdmissionPlan_congr (view : next.runtime.view program = state.runtime.view program)
    (decision : next.decisions.lookup program = state.decisions.lookup program)
    (hints : next.runtime.frontRequestHints program = state.runtime.frontRequestHints program) :
    self.rankAdmissionPlan next program target now =
      self.rankAdmissionPlan state program target now := by
  unfold rankAdmissionPlan
  simp [view, decision, hints, backendIsWaiting_congr same, capacityPlan_congr same]

end Congruence

theorem rankAdmissionPlan_awaits {now : Instant} {plan : RankAdmissionPlan F}
    (planned : self.rankAdmissionPlan state program target now = some plan) :
    awaitsResume state program = true := by
  simp only [rankAdmissionPlan, Option.bind_eq_bind, Option.bind_eq_some_iff,
    Option.ite_none_left_eq_some, ne_eq, not_or, not_not] at planned
  obtain ⟨_, seen, _, _, _, ⟨paused, reasoning, waits⟩, _⟩ := planned
  simp only [awaitsResume, seen, Option.any_some, paused, reasoning, beq_self_eq_true,
    Bool.true_and, decide_eq_true_eq]
  exact Nat.pos_of_ne_zero waits

variable {decision : ProgramDecisionState F}

section Commit

variable {runtime} (plan : RankAdmissionPlan F) (now : Instant)
  (decided : state.decisions.lookup program = some decision)
  (activated : state.runtime.activate program target = some runtime)

include decided activated

theorem commitAdmission_eq : ∃ record,
    state.runtime.programs.lookup program.key = some record ∧ record.reference = program ∧
      record.state = .paused ∧
      (self.commitAdmission state program target plan now).runtime.programs =
        state.runtime.programs.insert program.key (state.runtime.opened record target) ∧
      (∀ other, (self.commitAdmission state program target plan now).runtime.requestPool.queue other
        = state.runtime.requestPool.queue other) ∧
      (self.commitAdmission state program target plan now).decisions =
        state.decisions.modify program (admittedDecision target now) ∧
      (self.commitAdmission state program target plan now).observations =
        state.observations.update target (fun observation =>
          { observation with
            activeProgramTokenDelta :=
              observation.activeProgramTokenDelta + self.privateTokens decision }) ∧
      (self.commitAdmission state program target plan now).rankFactors = state.rankFactors := by
  obtain ⟨record, found, paused, _, rfl⟩ := activate_some activated
  obtain ⟨lookup, rfl⟩ := find_eq_some.mp found
  simp only [commitAdmission, decided, activated]
  exact ⟨record, lookup, rfl, paused, rfl, fun _ => queue_notifyFront _ _ _,
    rfl, rfl, rfl⟩

variable {other : ProgramRef} (apart : other ≠ program) {home : String} (elsewhere : home ≠ target)

omit elsewhere in
include apart in
theorem commitAdmission_other :
    (self.commitAdmission state program target plan now).runtime.view other =
        state.runtime.view other ∧
      (self.commitAdmission state program target plan now).decisions.lookup other =
        state.decisions.lookup other ∧
      (self.commitAdmission state program target plan now).runtime.frontRequestHints other =
        state.runtime.frontRequestHints other := by
  obtain ⟨record, lookup, exact, _, programs, queue, decisions, _⟩ :=
    self.commitAdmission_eq plan now decided activated
  refine ⟨?_, ?_, ?_⟩
  · have found : state.runtime.find program = some record :=
      find_eq_some.mpr ⟨lookup, exact⟩
    have finds := find_update_of_insert found (state.runtime.opened record _)
      exact programs
    simp [view, finds, Function.update_of_ne apart, programLen, queue]
  · rw [decisions, Table.lookup_modify, if_neg apart]
  · simp [frontRequestHints, frontHints, queue]

omit apart elsewhere in
theorem commitAdmission_seatedView {record : RuntimeProgram}
    (lookup : state.runtime.programs.lookup program.key = some record) (home : String)
    (key : RuntimeKey) :
    (self.commitAdmission state program target plan now).runtime.seatedView home key =
      if key = program.key then
        if target = home then some (state.runtime.newcomer record target) else none
      else state.runtime.seatedView home key := by
  obtain ⟨_, found, _, _, programs, queue, _⟩ := self.commitAdmission_eq _ now decided activated
  rw [lookup] at found
  cases found
  unfold seatedView
  rw [programs, Table.lookup_insert_eq]
  split
  · simp [opened, newcomer, programLen, queue]
  · simp [programLen, queue]

omit apart in
include elsewhere in
theorem commitAdmission_sameSeats (keyed : state.runtime.Keyed) :
    SameSeats home state (self.commitAdmission state program target plan now) := by
  obtain ⟨record, lookup, rfl, paused, programs, _, decisions, observations, factors⟩ :=
    self.commitAdmission_eq plan now decided activated
  have vacant : state.runtime.seatedView home record.reference.key = none := by
    simp [seatedView, lookup, paused]
  refine ⟨?_, ?_, ?_, ?_, ?_⟩
  · funext key
    rw [self.commitAdmission_seatedView plan now decided activated lookup, if_neg elsewhere.symm]
    split
    · rename_i own
      rw [own, vacant]
    · rfl
  · intro key _ sits
    obtain ⟨found, stored, sees⟩ := Option.bind_eq_some_iff.mp sits
    obtain ⟨_, same⟩ := Option.ite_none_right_eq_some.mp sees
    cases same
    rw [decisions, Table.lookup_modify, if_neg]
    intro own
    -- A reference is stored under its own key, where nobody is seated.
    have key_is : found.reference.key = key := keyed key found stored
    have own : found.reference = record.reference := own
    rw [← key_is, own, vacant] at sits
    cases sits
  · rw [programs, AList.keys_insert]
    exact (List.perm_cons_erase ((Table.mem_keys_iff _ _).mpr ⟨record, lookup⟩)).symm
  · rw [observations, Table.lookup_update, if_neg elsewhere]
  · rw [factors]

end Commit

def Exhausted (state : ProgramSchedulerState F T) (queue : List ProgramRef) (now : Instant) :
    Prop :=
  ∀ waiter ∈ queue, ∀ decision, state.decisions.lookup waiter = some decision →
    ∀ home, decision.lastTarget = some home → self.rankAdmissionPlan state waiter home now = none

theorem Exhausted.commit {self : ProgramScheduler F} {queue : List ProgramRef} {now : Instant}
    (exhausted : self.Exhausted state queue now) (stable : self.order.Stable)
    (keyed : state.runtime.Keyed) {runtime : ProgramRuntime}
    (decided : state.decisions.lookup program = some decision)
    (activated : state.runtime.activate program target = some runtime)
    (unclaimed : ∀ waiter ∈ queue, waiter ≠ program → awaitsResume state waiter = true →
      ∀ decision, state.decisions.lookup waiter = some decision → decision.lastTarget ≠ some target)
    (plan : RankAdmissionPlan F) :
    self.Exhausted (self.commitAdmission state program target plan now)
      (queue.filter (· ≠ program)) now := by
  intro waiter within other known home last
  obtain ⟨queued, apart⟩ := List.mem_filter.mp within
  have apart : waiter ≠ program := by simpa using apart
  obtain ⟨view, decision_is, hints⟩ := self.commitAdmission_other plan now decided activated apart
  rw [decision_is] at known
  rw [Option.eq_none_iff_forall_ne_some]
  intro _ planned
  have awaits := self.rankAdmissionPlan_awaits planned
  rw [awaitsResume, view] at awaits
  have elsewhere : home ≠ target := by
    rintro rfl
    exact unclaimed waiter queued apart awaits _ known last
  have same := self.commitAdmission_sameSeats plan now decided activated elsewhere keyed
  rw [rankAdmissionPlan_congr (same.sameRank stable) now view decision_is hints,
    exhausted waiter queued other known home last] at planned
  cases planned

def freeCapacity (state : ProgramSchedulerState F T) (capacity : Nat) (target : String)
    (now : Instant) : F :=
  max (F64.ofNat capacity * self.config.progressTtl.lowWatermarkRatio
    - self.targetUsage state target now) (F64.lit 0)

/-- What has to be true for a Program to be resumed on a target it was not last on. -/
structure LastResort (scheduler : ProgramScheduler F) (state : ProgramSchedulerState F T)
    (program : ProgramRef) (decision : ProgramDecisionState F) (target : String) (now : Instant) :
    Prop where
  exhausted : scheduler.Exhausted state (state.globalQueue program.modelPool) now
  unclaimed : ∀ waiter ∈ state.globalQueue program.modelPool, waiter ≠ program →
    awaitsResume state waiter = true → ∀ decision, state.decisions.lookup waiter = some decision →
      decision.lastTarget ≠ some target
  /-- An admission clears the reason of the last pause. -/
  paused : decision.lastPauseReason.isSome
  waited : scheduler.waitedForObservation decision now
  moved : ∃ source, decision.lastTarget = some source ∧ scheduler.windowComplete state source ∧
    scheduler.windowComplete state target ∧
    ∀ capacity, scheduler.config.progressTtl.tokenCapacity = some capacity →
      scheduler.freeCapacity state capacity source now
          + scheduler.config.crossRankHeadroomRatio * F64.ofNat decision.estimatedContextTokens
        ≤ scheduler.freeCapacity state capacity target now

def Homeward (state : ProgramSchedulerState F T) (program : ProgramRef) (target : String)
    (now : Instant) : Prop :=
  ∀ decision, state.decisions.lookup program = some decision →
    decision.lastTarget ≠ some target → self.LastResort state program decision target now

end ProgramScheduler

end SmetricRouter.ProgramScheduling
