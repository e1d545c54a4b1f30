import SmetricRouter.ProgramScheduling.Books
import SmetricRouter.ProgramScheduling.RankLocality

/-! What a scheduling decision commits.

A decision is a sequence of commits: admissions, pauses, releases, wake-ups and
notes. A commit is a move of the machine and, unlike the machine, also says what
becomes of the tokens a Program is accounted with, of the ledger and of the
timers of a quiet Program.
-/

namespace SmetricRouter.ProgramScheduling

open ProgramSchedulerState ProgramRuntime Function

variable {F T : Type}

/-- One state follows from another by scheduling decisions alone. -/
structure Schedules (globalMode : Bool) (state next : ProgramSchedulerState F T) : Prop where
  evolves : Evolves globalMode Label.scheduling state.core next.core
  policy : next.bindings.policy = state.bindings.policy
  lineage : next.lineage = state.lineage

variable {globalMode : Bool} {state next last : ProgramSchedulerState F T}

namespace Schedules

theorem refl : Schedules globalMode state state := ⟨.refl, rfl, rfl⟩

theorem trans (first : Schedules globalMode state next) (second : Schedules globalMode next last) :
    Schedules globalMode state last :=
  ⟨first.evolves.trans second.evolves, second.policy.trans first.policy,
    second.lineage.trans first.lineage⟩

theorem of_core (core : next.core = state.core) (bindings : next.bindings = state.bindings)
    (lineage : next.lineage = state.lineage) : Schedules globalMode state next :=
  ⟨.of_eq core, by rw [bindings], lineage⟩

theorem inv (taken : Schedules globalMode state next) (inv : state.Inv globalMode) :
    next.Inv globalMode :=
  taken.evolves.inv inv

end Schedules

/-- A paused Program with waiting work and decision state, and a target of its
pool: what an admission needs. -/
structure Resumable (state : ProgramSchedulerState F T) (program : ProgramRef)
    (target : String) : Prop where
  paused : ∃ record, state.runtime.find program = some record ∧ record.state = .paused
  waiting : state.runtime.requestPool.queue program ≠ []
  decided : ∃ decision, state.decisions.lookup program = some decision
  listed : target ∈ state.poolTargets program.modelPool

variable {program : ProgramRef} {target : String}

theorem Resumable.activates (resumable : Resumable state program target) :
    ∃ runtime, state.runtime.activate program target = some runtime := by
  obtain ⟨record, found, paused⟩ := resumable.paused
  obtain ⟨lookup, exact⟩ := find_eq_some.mp found
  have waiting : state.runtime.requestPool.programLen program ≠ 0 := by
    simpa [RequestPool.programLen] using resumable.waiting
  simp [activate, lookup, exact, paused, waiting]

def Quiet (state : ProgramSchedulerState F T) (program : ProgramRef) : Prop :=
  ∀ record, state.runtime.find program = some record →
    record.inFlightRequests = 0 ∧ state.runtime.requestPool.queue program = []

theorem Quiet.releases (quiet : Quiet state program)
    (now : Instant) {record : RuntimeProgram} (found : state.runtime.find program = some record) :
    ∃ runtime, state.runtime.releaseIdle program now = some runtime := by
  obtain ⟨idle, empty⟩ := quiet _ found
  obtain ⟨lookup, exact⟩ := find_eq_some.mp found
  simp [releaseIdle, lookup, exact, idle, RequestPool.programLen, empty]

section Queues

theorem ProgramSchedulerState.Inv.ranked (inv : state.Inv globalMode)
    (queued : program ∈ state.rankQueue target) :
    ∃ record decision, state.runtime.find program = some record ∧
      state.decisions.lookup program = some decision ∧
      (state.core.card program).Live globalMode program record decision.standing ∧
      decision.lastTarget = some target := by
  have counted : (state.core.card program).rank target ≠ 0 :=
    Nat.pos_iff_ne_zero.mp (List.count_pos_iff.mpr queued)
  cases inv.cards program with
  | absent _ _ _ rank => exact absurd (rank _) counted
  | live record _ found =>
    obtain ⟨decision, decided, facts⟩ := inv.decision found
    exact ⟨record, decision, found, decided, facts, (facts.rankSound _ counted).2.2.2.1⟩

theorem ProgramSchedulerState.Inv.pooled (inv : state.Inv globalMode)
    {pool : String} (queued : program ∈ state.globalQueue pool) :
    ∃ record decision, state.runtime.find program = some record ∧
      state.decisions.lookup program = some decision ∧
      (state.core.card program).Live globalMode program record decision.standing := by
  have counted : (state.core.card program).global pool ≠ 0 :=
    Nat.pos_iff_ne_zero.mp (List.count_pos_iff.mpr queued)
  cases inv.cards program with
  | absent _ _ _ _ global => exact absurd (global _) counted
  | live record _ found =>
    obtain ⟨decision, decided, facts⟩ := inv.decision found
    exact ⟨record, decision, found, decided, facts⟩

end Queues

/-- What ends the quiet time of a Program: since when it is paused, and until
when it may stay on its target without a request. -/
structure Timer where
  pausedAt : Option Instant
  ttlDeadline : Option Instant

def ProgramDecisionState.timer (decision : ProgramDecisionState F) : Timer :=
  ⟨decision.pausedAt, decision.ttlDeadline⟩

def ProgramSchedulerState.timer (state : ProgramSchedulerState F T) (program : ProgramRef) :
    Option Timer :=
  (state.decisions.lookup program).map (·.timer)

variable (state)

theorem timer_modifyDecision (program : ProgramRef)
    (change : ProgramDecisionState F → ProgramDecisionState F) :
    (state.modifyDecision program change).timer = update state.timer program
      ((state.decisions.lookup program).map fun decision => (change decision).timer) := by
  funext other
  simp only [ProgramSchedulerState.timer, modifyDecision, Table.lookup_modify, update_apply]
  by_cases same : other = program
  · rw [if_pos same, if_pos same, Option.map_map, comp_def]
  · rw [if_neg same, if_neg same]

variable {change : ProgramDecisionState F → ProgramDecisionState F}

theorem timer_modifyDecision_same (program : ProgramRef)
    (timer : ∀ decision, (change decision).timer = decision.timer) :
    (state.modifyDecision program change).timer = state.timer := by
  simp only [timer_modifyDecision, timer]
  exact update_eq_self _ state.timer

variable [F64 F] {runtime : ProgramRuntime} {now : Instant}

namespace ProgramScheduler

variable (self : ProgramScheduler F) {state}

theorem core_commitAdmission
    (plan : RankAdmissionPlan F) (now : Instant) {decision : ProgramDecisionState F}
    (decided : state.decisions.lookup program = some decision)
    (activated : state.runtime.activate program target = some runtime) :
    (self.commitAdmission state program target plan now).core =
      state.core.activate program target runtime := by
  have resumed :
      (({ state with runtime := runtime }.modifyDecision program
        (admittedDecision target now)).core) =
      { state.core with runtime := runtime }.setStanding program (some ⟨some target, none, none⟩) :=
    core_modifyDecision { state with runtime := runtime } decided (admittedDecision target now)
  have unrecorded : (self.commitAdmission state program target plan now).core =
      { ((adjustUsage ({ state with runtime := runtime }.modifyDecision program
          (admittedDecision target now)) target (self.privateTokens decision)).dequeue program).core
        with runtime := runtime.notifyFront program } := by
    simp only [commitAdmission, decided, activated]
    rfl
  rw [unrecorded, core_dequeue, core_adjustUsage, resumed]
  rfl

variable (program)

theorem commitAdmission_cases (target : String) (plan : RankAdmissionPlan F) (now : Instant) :
    self.commitAdmission state program target plan now = state ∨
      ∃ decision runtime, state.decisions.lookup program = some decision ∧
        state.runtime.activate program target = some runtime := by
  cases decided : state.decisions.lookup program with
  | none => exact .inl (by simp [commitAdmission, decided])
  | some decision =>
    cases activated : state.runtime.activate program target with
    | none => exact .inl (by simp [commitAdmission, activated])
    | some runtime => exact .inr ⟨decision, runtime, rfl, rfl⟩

theorem commitAdmission_schedules {target : String} (plan : RankAdmissionPlan F) (now : Instant)
    (listed : target ∈ state.poolTargets program.modelPool) :
    Schedules globalMode state (self.commitAdmission state program target plan now) := by
  rcases self.commitAdmission_cases program target plan now with
    unchanged | ⟨_, runtime, decided, activated⟩
  · rw [unchanged]
    exact .refl
  · constructor
    · rw [self.core_commitAdmission plan now decided activated]
      exact .move (.activate _ _ _ listed activated) trivial
    · simp only [commitAdmission, decided, activated]
      rfl
    · simp only [commitAdmission, decided, activated]
      rfl

section Pauses

variable {program reference : ProgramRef} {reason : ProgramPauseReason}

variable (paused : self.pauseIdle state program reason now = some next)

include paused

theorem pauseIdle_eq_some :
    ∃ target decision runtime, state.runtime.placement program = some target ∧
      state.decisions.lookup program = some decision ∧
      state.runtime.pauseIdle program = some runtime ∧
      next = adjustUsage ({ state with runtime := runtime }.modifyDecision program
        (pausedDecision reason now)) target (-self.privateTokens decision) := by
  simp only [pauseIdle, Option.bind_eq_bind, Option.bind_eq_some_iff, Option.pure_def,
    Option.some.injEq] at paused
  obtain ⟨target, placed, decision, decided, runtime, idled, rfl⟩ := paused
  exact ⟨target, decision, runtime, placed, decided, idled, rfl⟩

theorem pauseIdle_writes :
    ∃ record decision, state.runtime.find program = some record ∧
      state.decisions.lookup program = some decision ∧
      next.runtime.find = update state.runtime.find program
        (some { record with state := .paused, placement := none }) ∧
      next.runtime.requestPool = state.runtime.requestPool ∧
      next.decisions = state.decisions.modify program (pausedDecision reason now) := by
  obtain ⟨_, decision, _, _, decided, idled, rfl⟩ := self.pauseIdle_eq_some paused
  obtain ⟨record, found, _, _, rfl⟩ := pauseIdle_some idled
  obtain ⟨_, exact⟩ := find_eq_some.mp found
  exact ⟨record, decision, found, decided, find_update_of_insert found
    { record with state := .paused, placement := none } exact rfl, rfl, rfl⟩

theorem find_pauseIdle
    {record : RuntimeProgram} (found : state.runtime.find reference = some record) :
    ∃ later, next.runtime.find reference = some later ∧ later.status = record.status := by
  obtain ⟨_, _, stored, _, finds, _⟩ := self.pauseIdle_writes paused
  rw [finds, update_apply]
  split
  · rename_i same
    rw [same, stored] at found
    cases found
    exact ⟨_, rfl, rfl⟩
  · exact ⟨record, found, rfl⟩

def Acting (state : ProgramSchedulerState F T) (program : ProgramRef) : Prop :=
  ∃ record, state.runtime.find program = some record ∧ record.status = .acting

theorem pauseIdle_acting (acting : Acting state reference) : Acting next reference := by
  obtain ⟨_, found, status⟩ := acting
  obtain ⟨later, kept, same⟩ := self.find_pauseIdle paused found
  exact ⟨later, kept, same.trans status⟩

theorem pauseIdle_schedules (acting : Acting state program) : Schedules globalMode state next := by
  obtain ⟨_, _, _, _, _, idled, rfl⟩ := self.pauseIdle_eq_some paused
  refine ⟨?_, rfl, rfl⟩
  rw [core_adjustUsage, core_modifyDecision_same]
  · refine .move (.pause _ _ ?_ idled) trivial
    obtain ⟨_, stored, status⟩ := acting
    intro _ found
    cases stored.symm.trans found
    exact status
  · exact fun _ => rfl

end Pauses

end ProgramScheduler

theorem Core.dequeue_of_unqueued {core : Core}
    (rank : ∀ target, (core.card program).rank target = 0)
    (global : ∀ pool, (core.card program).global pool = 0) : core.dequeue program = core := by
  have unqueued (queue : List ProgramRef) (absent : queue.count program = 0) :
      queue.filter (· ≠ program) = queue := by
    rw [List.filter_eq_self]
    intro _ member
    rw [List.count_eq_zero] at absent
    exact decide_eq_true fun same => absent (same ▸ member)
  refine Core.ext rfl rfl ?_ ?_ rfl
  · funext target
    exact unqueued _ (rank _)
  · funext pool
    exact unqueued _ (global _)

namespace ProgramScheduler

variable (self : ProgramScheduler F) {state}

section

variable (released : state.runtime.releaseIdle program now = some runtime)

include released

theorem core_releaseProgram :
    (self.releaseProgram state program now).core = state.core.release program runtime := by
  simp only [releaseProgram, released]
  rw [core_eraseDecision]
  -- The ledger is adjusted only for a Program that was active; the machine
  -- does not see the ledger.
  split
  · rw [core_adjustUsage, core_runtime, core_dequeue]
    rfl
  · rw [core_runtime, core_dequeue]
    rfl

theorem releaseProgram_eq :
    ∃ observations ledger, self.releaseProgram state program now =
      { state.dequeue program with
        runtime := runtime
        decisions := state.decisions.erase program
        bindings := state.bindings.releaseProgram program
        observations := observations
        ledger := ledger } := by
  simp only [releaseProgram, released]
  split <;> exact ⟨_, _, rfl⟩

end

theorem releaseProgram_of_absent (kept : state.runtime.releaseIdle program now = none) :
    self.releaseProgram state program now = state.dequeue program := by
  simp [releaseProgram, kept]

theorem releaseProgram_schedules (inv : state.Inv globalMode) (quiet : Quiet state program)
    (now : Instant) : Schedules globalMode state (self.releaseProgram state program now) := by
  cases inv.cards program with
  | live _ _ found =>
    obtain ⟨_, released⟩ := quiet.releases now found
    obtain ⟨_, _, written⟩ := self.releaseProgram_eq released
    refine ⟨?_, by rw [written]; rfl, by rw [written]; rfl⟩
    rw [self.core_releaseProgram released]
    exact .move (.release _ now _ released) trivial
  | absent missing _ _ rank global =>
    rw [self.releaseProgram_of_absent (releaseIdle_of_absent missing now)]
    refine .of_core ?_ rfl rfl
    rw [core_dequeue, Core.dequeue_of_unqueued rank global]

end ProgramScheduler

/-- Nothing differs that the machine or the books see, nor a timer or the target
list. -/
structure Noted (state next : ProgramSchedulerState F T) : Prop where
  core : next.core = state.core
  books : next.books = state.books
  bindings : next.bindings = state.bindings
  lineage : next.lineage = state.lineage
  targets : SameTargets state next
  timer : next.timer = state.timer

namespace Noted

variable {state}

theorem modifyDecision (program : ProgramRef)
    (standing : ∀ decision, (change decision).standing = decision.standing)
    (account : ∀ decision, (change decision).account = decision.account)
    (timer : ∀ decision, (change decision).timer = decision.timer) :
    Noted state (state.modifyDecision program change) :=
  ⟨core_modifyDecision_same state program standing,
    books_modifyDecision_same state program account, rfl, rfl, ⟨rfl, rfl⟩,
    timer_modifyDecision_same state program timer⟩

theorem observation (target : String) {change : RankObservationState F → RankObservationState F}
    (kept : ∀ observation, (change observation).meter = observation.meter) :
    Noted state { state with observations := state.observations.update target change } := by
  refine ⟨rfl, ?_, rfl, rfl, ⟨rfl, rfl⟩, rfl⟩
  rw [books_updateObservation, kept]
  exact Books.ext rfl rfl (update_eq_self _ state.books.meter) rfl rfl

end Noted

/-- What a decision writes down without moving a Program. -/
inductive Remark (self : ProgramScheduler F) (state : ProgramSchedulerState F T) :
    ProgramSchedulerState F T → Prop where
  | sampled (program : ProgramRef) (decision : ProgramDecisionState F)
      (decided : state.decisions.lookup program = some decision) (target : String)
      (last : decision.lastTarget = some target) :
      Remark self state { state with
        rankFactors := state.rankFactors.update target fun factors =>
          factors.pushTtlPauseRounds
            (decision.segmentServedRounds - decision.ttlPauseSampledSegmentRounds)
            self.config.progressTtl.statsWindowSize }
  | restarted (program : ProgramRef) (decision : ProgramDecisionState F)
      (decided : state.decisions.lookup program = some decision) :
      Remark self state (state.modifyDecision program fun marked =>
        { marked with
          ttlPauseSampledSegmentRounds := decision.segmentServedRounds
          roundsSinceTtlPause := 0 })
  | marked (program : ProgramRef) :
      Remark self state (state.modifyDecision program fun decision =>
        { decision with pauseWhenIdle := true })
  | reported (target : String) (now : Instant) :
      Remark self state { state with
        observations := state.observations.update target fun observation =>
          { observation with reportedCapacitySource := some (self.capacityAccountingSource
            (state.observations.lookup target) now) } }

theorem Remark.noted {self : ProgramScheduler F} (remark : Remark self state next) :
    Noted state next := by
  cases remark with
  | sampled => exact ⟨rfl, rfl, rfl, rfl, ⟨rfl, rfl⟩, rfl⟩
  | restarted program | marked program =>
    exact .modifyDecision program (fun _ => rfl) (fun _ => rfl) fun _ => rfl
  | reported => exact .observation _ fun _ => rfl

/-- One commit of a scheduling decision. -/
inductive Commit (self : ProgramScheduler F) (state : ProgramSchedulerState F T) :
    ProgramSchedulerState F T → Prop where
  | resume (program : ProgramRef) (target : String) (plan : RankAdmissionPlan F) (now : Instant)
      (planned : self.rankAdmissionPlan state program target now = some plan)
      (listed : target ∈ state.poolTargets program.modelPool)
      (homeward : self.order.Stable → self.Homeward state program target now) :
      Commit self state (self.commitAdmission state program target plan now)
  | bind (program : ProgramRef) (target : String) (now : Instant)
      (mode : self.config.bindingOnly = true)
      (listed : target ∈ state.poolTargets program.modelPool)
      (home : (state.decisions.lookup program).bind (·.lastTarget) = some target) :
      Commit self state (self.commitAdmission state program target self.bindingOnlyPlan now)
  | pause (program : ProgramRef) (reason : ProgramPauseReason) (now : Instant)
      (next : ProgramSchedulerState F T) (acting : ProgramScheduler.Acting state program)
      (paused : self.pauseIdle state program reason now = some next) : Commit self state next
  | release (program : ProgramRef) (now : Instant) (quiet : Quiet state program) :
      Commit self state (self.releaseProgram state program now)
  | note (next : ProgramSchedulerState F T) (remark : Remark self state next) :
      Commit self state next
  | prune (now : Instant) (retention : Duration) :
      Commit self state
        { state with runtime := state.runtime.pruneReleasedGenerations now retention }
  | wake (program : ProgramRef) :
      Commit self state { state with runtime := state.runtime.notifyFront program }

def Commits (self : ProgramScheduler F) :
    ProgramSchedulerState F T → ProgramSchedulerState F T → Prop :=
  Relation.ReflTransGen (Commit self)

variable {self : ProgramScheduler F} {state}

theorem Commit.schedules (commit : Commit self state next) (inv : state.Inv globalMode) :
    Schedules globalMode state next := by
  cases commit with
  | resume program _ _ now _ listed =>
    exact self.commitAdmission_schedules _ _ now listed
  | bind _ _ now _ listed =>
    exact self.commitAdmission_schedules _ _ now listed
  | pause _ _ _ _ acting paused => exact self.pauseIdle_schedules paused acting
  | release _ now quiet => exact self.releaseProgram_schedules inv quiet now
  | note _ remark => exact .of_core remark.noted.core remark.noted.bindings remark.noted.lineage
  | prune now retention => exact ⟨.move (.prune now _) trivial, rfl, rfl⟩
  | wake _ => exact ⟨.move (.wake _) trivial, rfl, rfl⟩

namespace Commits

theorem refl : Commits self state state := Relation.ReflTransGen.refl

theorem one (commit : Commit self state next) : Commits self state next := .single commit

theorem noted (remark : Remark self state next) : Commits self state next :=
  .single (.note next remark)

theorem trans (first : Commits self state next) (second : Commits self next last) :
    Commits self state last := Relation.ReflTransGen.trans first second

theorem schedules (taken : Commits self state next) (inv : state.Inv globalMode) :
    Schedules globalMode state next := by
  induction taken with
  | refl => exact .refl
  | tail _ commit ih => exact ih.trans (commit.schedules (ih.inv inv))

theorem inv (taken : Commits self state next) (inv : state.Inv globalMode) :
    next.Inv globalMode := (taken.schedules inv).inv inv

theorem keeps (holds : ProgramSchedulerState F T → Prop) (taken : Commits self state next)
    (inv : state.Inv globalMode)
    (step : ∀ state next : ProgramSchedulerState F T, state.Inv globalMode →
      Commit self state next → holds state → holds next) (initially : holds state) :
    holds next := by
  have kept : next.Inv globalMode ∧ holds next := by
    induction taken with
    | refl => exact ⟨inv, initially⟩
    | tail _ commit ih =>
      exact ⟨(commit.schedules ih.1).inv ih.1, step _ _ ih.1 commit ih.2⟩
  exact kept.2

end Commits

end SmetricRouter.ProgramScheduling
