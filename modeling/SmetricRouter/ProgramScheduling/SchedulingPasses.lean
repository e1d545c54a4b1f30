import Mathlib.Data.String.Basic
import SmetricRouter.ProgramScheduling.Sections
import SmetricRouter.ProgramScheduling.WaitTimes
import Mathlib.Data.Prod.Lex

/-! What a scheduling pass leaves and what it may do on the way.

A pass ends when nobody in its queues can be resumed any more, neither where it
was last nor, with the global queue, elsewhere. It moves a Program to another
target only when nobody is left who could be resumed at home.
-/

namespace SmetricRouter.ProgramScheduling

open ProgramSchedulerState Sample ProgramScheduler

variable {F T : Type} [F64 F]

def ProgramSchedulerState.InQueue (state : ProgramSchedulerState F T) (program : ProgramRef) :
    Prop :=
  (∃ target, program ∈ state.rankQueue target) ∨ ∃ pool, program ∈ state.globalQueue pool

variable {self : ProgramScheduler F} {state : ProgramSchedulerState F T}

namespace ProgramScheduler

variable {now : Instant}

theorem backendIsWaiting_iff {target : String} :
    self.backendIsWaiting state target now = true ↔ ∃ observation waiting,
      state.observations.lookup target = some observation ∧
        self.observationIsFresh observation now ∧ observation.waitingRequests = some waiting ∧
        self.config.admissionWaitingRequestThreshold ≤ waiting := by
  simp only [backendIsWaiting, Option.any_eq_true, Option.bind_eq_some_iff,
    Option.filter_eq_some_iff, decide_eq_true_eq]
  grind

theorem backendIsWaiting_of_forced {globalMode : Bool} (inv : state.Inv globalMode)
    {program : ProgramRef} {decision : ProgramDecisionState F} {home : String} {deadline : Instant}
    (queued : state.InQueue program) (decided : state.decisions.lookup program = some decision)
    (last : decision.lastTarget = some home)
    (forced : decision.forceResumeDeadline = some deadline) (overdue : deadline ≤ now)
    (unplanned : self.rankAdmissionPlan state program home now = none) :
    0 < self.config.admissionWaitingRequestThreshold ∧
      self.backendIsWaiting state home now = true := by
  obtain ⟨record, found, facts⟩ := inv.record decided
  have held : record.state = .paused ∧ state.runtime.requestPool.queue program ≠ [] := by
    rcases queued with ⟨target, member⟩ | ⟨pool, member⟩
    · obtain ⟨_, paused, waiting, _⟩ :=
        facts.rankSound _ (List.count_pos_iff.mpr member).ne'
      exact ⟨paused, waiting⟩
    · obtain ⟨_, paused, waiting, _⟩ :=
        facts.globalSound _ (List.count_pos_iff.mpr member).ne'
      exact ⟨paused, waiting⟩
  have reasoning : record.status = .reasoning := by
    cases status : record.status with
    | reasoning => rfl
    | acting => exact absurd (facts.actingQuiet status).2 held.2
  have waiting : state.runtime.requestPool.programLen record.reference ≠ 0 := by
    rw [(ProgramRuntime.find_eq_some.mp found).2]
    simpa [RequestPool.programLen] using held.2
  by_contra idle
  simp only [rankAdmissionPlan, ProgramRuntime.view, found, Option.map_some, decided,
    Option.bind_eq_bind, Option.bind_some, last, held.1, reasoning, waiting, idle, forced,
    Option.any_some, overdue, ne_eq, not_true_eq_false, and_false, or_self, if_false,
    decide_true] at unplanned
  have granted : (self.capacityPlan state decision home ((state.runtime.frontRequestHints
      program).bind (·.expectedOutputTokens)) true now).isSome := by
    simp only [capacityPlan, Bool.true_or, if_true]
    split <;> rfl
  rw [unplanned] at granted
  cases granted

end ProgramScheduler

/-- The pass returns, and whoever it leaves in a queue can be resumed nowhere at this instant. A
Program that is overdue is left only behind requests that wait in the backend. -/
theorem scheduleWaiting_complete {self : ProgramScheduler F} {state : ProgramSchedulerState F T}
    (inv : state.Inv self.config.globalQueue)
    (single : ∃ pool, ∀ other ∈ state.globalQueues.keys, other = pool)
    (stable : self.order.Stable) (now : Instant) :
    ∃ next, self.scheduleWaiting state now = .ok next ∧
      ∀ program decision home, next.InQueue program →
        next.decisions.lookup program = some decision → decision.lastTarget = some home →
        self.rankAdmissionPlan next program home now = none ∧
        (self.config.globalQueue → decision.lastPauseReason.isSome →
          ∀ destination ∈ next.poolTargets program.modelPool,
            self.CrossRankGates next program home destination now →
            self.rankAdmissionPlan next program destination now = none) ∧
        ∀ deadline, decision.forceResumeDeadline = some deadline → deadline ≤ now →
          ∃ observation waiting, next.observations.lookup home = some observation ∧
            self.observationIsFresh observation now ∧ observation.waitingRequests = some waiting ∧
            0 < self.config.admissionWaitingRequestThreshold ∧
            self.config.admissionWaitingRequestThreshold ≤ waiting := by
  have ends : Returns (self.scheduleWaiting state now) fun next => Commits self state next ∧
      ∀ program, next.InQueue program → ∃ queue, program ∈ queue ∧
        self.Exhausted next queue now ∧ (self.config.globalQueue → self.Stays next queue now) := by
    unfold scheduleWaiting
    cases mode : self.config.globalQueue with
    | true =>
      rw [mode] at inv
      refine Ensures.mono (self.scheduleGlobalWaiting_exhausts inv now) ?_
      rintro next ⟨taken, done⟩
      refine ⟨taken, fun program queued => ?_⟩
      rcases queued with ⟨target, member⟩ | ⟨pool, member⟩
      · obtain ⟨_, _, _, _, facts, _⟩ := (taken.inv inv).ranked member
        cases (facts.rankSound target (List.count_pos_iff.mpr member).ne').1
      · obtain ⟨exhausted, stays⟩ := done single stable pool
        exact ⟨_, member, exhausted, fun _ => stays⟩
    | false =>
      rw [mode] at inv
      refine Ensures.mono (self.scheduleRankLocal_exhausts inv now) ?_
      rintro next ⟨taken, done⟩
      refine ⟨taken, fun program queued => ?_⟩
      rcases queued with ⟨target, member⟩ | ⟨pool, member⟩
      · exact ⟨_, member, done stable target, nofun⟩
      · obtain ⟨_, _, _, _, facts⟩ := (taken.inv inv).pooled member
        cases (facts.globalSound pool (List.count_pos_iff.mpr member).ne').1
  obtain ⟨next, returned, taken, done⟩ := ends.exists_ok
  refine ⟨next, returned, fun program decision home queued decided last => ?_⟩
  obtain ⟨_, member, exhausted, stays⟩ := done program queued
  have unplanned := exhausted program member decision decided home last
  refine ⟨unplanned, fun mode paused destination listed gates => ?_, ?_⟩
  · exact stays mode program member decision decided paused home last _ listed gates
  · intro _ forced overdue
    obtain ⟨gated, waits⟩ := backendIsWaiting_of_forced (taken.inv inv) queued
      decided last forced overdue unplanned
    obtain ⟨observation, waiting, observed, fresh, reports, reached⟩ :=
      backendIsWaiting_iff.mp waits
    exact ⟨observation, waiting, observed, fresh, reports, gated, reached⟩

namespace Sample

def sorted : IterationOrder where
  programs keys := keys.insertionSort fun left right =>
    toLex (left.modelPool, left.programId) ≤ toLex (right.modelPool, right.programId)
  programs_perm keys := List.perm_insertionSort _ keys
  names keys := keys
  names_perm keys := List.Perm.refl keys

theorem sorted_stable : sorted.Stable := by
  intro _ _ same
  have permuted := ((sorted.programs_perm _).trans same).trans (sorted.programs_perm _).symm
  refine permuted.eq_of_pairwise ?_ (List.pairwise_insertionSort _ _)
    (List.pairwise_insertionSort _ _)
  intro left right _ _ below above
  have named := toLex.injective (le_antisymm below above)
  cases left
  cases named
  rfl

end Sample

/-- The Program that waits behind the backend is overdue. -/
theorem scheduleWaiting_complete_refused :
    ∃ trace state next, Run Sample.gatedRouter trace state ∧
      (Sample.gatedRouter.scheduler Sample.sorted).scheduleWaiting state 12 =
        .ok (next : Sample.State) ∧
      next.InQueue ⟨"a", "p", 0⟩ ∧
      (Sample.gatedRouter.scheduler Sample.sorted).rankAdmissionPlan next ⟨"a", "p", 0⟩ "t" 12 =
        none := by
  obtain ⟨trace, state, _, _, run, _, pools, left⟩ :=
    step_of_play gatedRouter refused (.expire 12)
      (fun state _ => state.globalQueues.keys = ["a"] ∧
        (((gatedRouter.scheduler sorted).scheduleWaiting state 12).toOption.map
          fun next => (next.rankQueue "t",
            (next.decisions.lookup ⟨"a", "p", 0⟩).map (·.lastTarget))) =
          some ([⟨"a", "p", 0⟩], some (some "t"))) (by decide +kernel)
  obtain ⟨next, returned, complete⟩ : ∃ next,
      (gatedRouter.scheduler sorted).scheduleWaiting state 12 = .ok next ∧ _ :=
    scheduleWaiting_complete (run.sound sorted).inv ⟨"a", by simp [pools]⟩ sorted_stable 12
  rw [returned] at left
  simp only [Except.toOption, Option.map_some, Option.some.injEq, Prod.mk.injEq] at left
  obtain ⟨queue, home⟩ := left
  obtain ⟨decision, decided, last⟩ := Option.map_eq_some_iff.mp home
  have queued : next.InQueue ⟨"a", "p", 0⟩ := .inl ⟨"t", by rw [queue]; exact List.mem_cons_self⟩
  exact ⟨trace, state, next, run, returned, queued, (complete _ decision "t" queued decided last).1⟩

section Runs

variable [AffinityTree T]

/-- A commit of a section: an admission at home or as a last resort, or one that admits nobody. -/
inductive Decision (self : ProgramScheduler F) (state : ProgramSchedulerState F T) :
    ProgramSchedulerState F T → Prop where
  | admits (program : ProgramRef) (target : String) (plan : RankAdmissionPlan F) (now : Instant)
      (commit : Commit self state (self.commitAdmission state program target plan now))
      (homeward : self.Homeward state program target now) :
      Decision self state (self.commitAdmission state program target plan now)
  | otherwise (next : ProgramSchedulerState F T) (commit : Commit self state next)
      (unadmitted : next.admissions = state.admissions) : Decision self state next

omit [AffinityTree T] in
theorem Commit.decision {next : ProgramSchedulerState F T}
    (commit : Commit self state next) (stable : self.order.Stable) : Decision self state next := by
  have commits := commit
  cases commit with
  | resume _ _ _ now _ _ homeward => exact .admits _ _ _ now commits (homeward stable)
  | bind program _ now _ _ home =>
    obtain ⟨decision, decided, last⟩ := Option.bind_eq_some_iff.mp home
    exact .admits _ _ _ now commits (self.homeward_of_home ⟨decision, decided, last⟩)
  | pause _ _ _ _ _ paused =>
    refine .otherwise _ commits ?_
    obtain ⟨_, _, _, _, _, _, rfl⟩ := self.pauseIdle_eq_some paused
    rfl
  | release program now =>
    refine .otherwise _ commits ?_
    cases released : state.runtime.releaseIdle program now with
    | none => rw [self.releaseProgram_of_absent released, dequeue]
    | some =>
      obtain ⟨_, _, written⟩ := self.releaseProgram_eq released
      rw [written]
      rfl
  | note _ remark => exact .otherwise _ commits (congrArg Books.admissions remark.noted.books)
  | prune | _ => exact .otherwise _ commits rfl

end Runs

namespace Sample

def pooledRouter : Setup Exact where
  config :=
    { config false true with
      progressTtl := { (config false true).progressTtl with statsWindowSize := 1 }
      balance_capacity := nofun
      window_pos := by decide
      segment_pos := (config false true).segment_pos
      capacity_pos := nofun
      watermark_pos := (config false true).watermark_pos
      watermark_le := (config false true).watermark_le
      watermark_le_one := (config false true).watermark_le_one }
  fbiHash _ := 0

def served (program target : String) (epoch : Nat) : Event Exact :=
  .complete ⟨⟨"a", program, 0⟩, target, epoch, 1, 1, 1, true, none, {}⟩ true false {} none 2

def returned : List (Event Exact) :=
  [.sync (snapshot 0 "a" ["s", "t"]), .arrive (arrival "a" "p" 1) 1, .arrive (arrival "a" "q" 1) 1,
    .claim ⟨⟨"a", "p", 0⟩, 1, 0⟩ 1, .claim ⟨⟨"a", "q", 0⟩, 2, 1⟩ 1, served "p" "s" 1,
    served "q" "t" 2, .tick 20, .arrive (arrival "a" "r" 21) 21, .arrive (arrival "a" "p" 22) 22]

end Sample

end SmetricRouter.ProgramScheduling
