import SmetricRouter.ProgramScheduling.DecisionMoves
import Mathlib.Data.List.ReduceOption

/-! Resuming waiting Programs.

A resume loop ends because each admission takes a Program out of the queue the
loop selects from. The order in which candidates are tried is never used.
-/

namespace SmetricRouter.ProgramScheduling.ProgramScheduler

open ProgramSchedulerState Ensures

variable {F T : Type} {globalMode : Bool} {state : ProgramSchedulerState F T}

def Decided (state : ProgramSchedulerState F T) (queued : List ProgramRef) : Prop :=
  ∀ program ∈ queued, ∃ decision, state.decisions.lookup program = some decision

variable {queued : List ProgramRef}

theorem Decided.filter (decided : Decided state queued) (keep : ProgramRef → Bool) :
    Decided state (queued.filter keep) :=
  fun program kept => decided program (List.mem_filter.mp kept).1

theorem decided_rankQueue (inv : state.Inv globalMode) (target : String) :
    Decided state (state.rankQueue target) := by
  intro _ queued
  obtain ⟨_, decision, _, decided, _⟩ := inv.ranked queued
  exact ⟨decision, decided⟩

theorem decided_globalQueue (inv : state.Inv globalMode) (pool : String) :
    Decided state (state.globalQueue pool) := by
  intro _ queued
  obtain ⟨_, decision, _, decided, _⟩ := inv.pooled queued
  exact ⟨decision, decided⟩

theorem orderCandidates_perm (cmp : Ranked F → Ranked F → Ordering)
    (decided : Decided state queued) :
    Returns (orderCandidates state cmp queued) fun ordered => ordered.Perm queued := by
  unfold orderCandidates
  split
  · exact List.Perm.refl _
  · have ranking : Returns (queued.mapM (ranked state))
        (List.Forall₂ (fun program candidate => program = candidate.1) queued) := by
      apply mapM
      intro _ member
      obtain ⟨_, found⟩ := decided _ member
      simp only [ranked, decisionAt, found]
      exact pure rfl
    apply bind ranking
    intro candidates paired
    have named : queued = candidates.map (·.1) := by
      rw [← List.forall₂_eq_eq_eq, List.forall₂_map_right_iff]
      exact paired
    rw [named]
    exact (sortBy_perm cmp _).map _

variable [F64 F] (self : ProgramScheduler F) {program : ProgramRef} {target : String}
  {now : Instant}

theorem rankAdmissionPlan_some {plan : RankAdmissionPlan F}
    (planned : self.rankAdmissionPlan state program target now = some plan) :
    (∃ record, state.runtime.find program = some record ∧ record.state = .paused) ∧
      state.runtime.requestPool.queue program ≠ [] ∧
      ∃ decision, state.decisions.lookup program = some decision := by
  simp only [rankAdmissionPlan, Option.bind_eq_bind, Option.bind_eq_some_iff,
    Option.ite_none_left_eq_some, ne_eq, not_or, not_not] at planned
  obtain ⟨_, seen, decision, decided, _, ⟨paused, _, waits⟩, _⟩ := planned
  obtain ⟨record, found, same, _, _, _, waiting⟩ := ProgramRuntime.view_some seen
  refine ⟨⟨record, found, same.trans paused⟩, ?_, decision, decided⟩
  intro empty
  rw [empty] at waiting
  exact waits waiting.symm

def Selects (state : ProgramSchedulerState F T) (queue : List ProgramRef) (now : Instant)
    (choice : Option (ProgramRef × String × RankAdmissionPlan F)) : Prop :=
  ∀ program target plan, choice = some (program, target, plan) →
    program ∈ queue ∧ self.rankAdmissionPlan state program target now = some plan ∧
      target ∈ state.poolTargets program.modelPool

/-- A selection of Programs that are resumed where they were last. -/
structure Resumes (scheduler : ProgramScheduler F) (state : ProgramSchedulerState F T)
    (queue : List ProgramRef) (now : Instant)
    (choice : Option (ProgramRef × String × RankAdmissionPlan F)) : Prop where
  selects : scheduler.Selects state queue now choice
  home : ∀ program target plan, choice = some (program, target, plan) →
    ∃ decision, state.decisions.lookup program = some decision ∧ decision.lastTarget = some target
  exhausted : choice = none → scheduler.Exhausted state queue now

section

variable (inv : state.Inv globalMode)

include inv

theorem findSome_resumes {queue ordered : List ProgramRef}
    {now : Instant} (permuted : ordered.Perm (queue.filter (awaitsResume state)))
    {pick : ProgramRef → Option (ProgramRef × String × RankAdmissionPlan F)}
    (picks : ∀ program ∈ queue, pick program =
      ((state.decisions.lookup program).bind (·.lastTarget)).bind fun target =>
        (self.rankAdmissionPlan state program target now).map fun plan => (program, target, plan)) :
    self.Resumes state queue now (ordered.findSome? pick) := by
  have found {program target plan} (selected : ordered.findSome? pick = some (program, target, plan)) :
      program ∈ queue ∧ self.rankAdmissionPlan state program target now = some plan ∧
        ∃ decision, state.decisions.lookup program = some decision ∧
          decision.lastTarget = some target := by
    obtain ⟨candidate, member, planned⟩ := List.exists_of_findSome?_eq_some selected
    have queued := (List.mem_filter.mp (permuted.mem_iff.mp member)).1
    rw [picks candidate queued] at planned
    simp only [Option.bind_eq_some_iff, Option.map_eq_some_iff, Prod.mk.injEq] at planned
    obtain ⟨target, ⟨decision, known, last⟩, _, granted, rfl, rfl, rfl⟩ := planned
    exact ⟨queued, granted, decision, known, last⟩
  refine ⟨fun _ target plan selected => ?_, fun _ target _ selected => (found selected).2.2, ?_⟩
  · obtain ⟨queued, granted, _, known, last⟩ := found selected
    obtain ⟨_, _, facts⟩ := inv.record known
    exact ⟨queued, granted, facts.lastListed target last⟩
  · intro nothing waiter queued _ decided _ last
    rw [Option.eq_none_iff_forall_ne_some]
    intro _ planned
    have listed := permuted.mem_iff.mpr
      (List.mem_filter.mpr ⟨queued, self.rankAdmissionPlan_awaits planned⟩)
    have unpicked := List.findSome?_eq_none_iff.mp nothing _ listed
    simp only [picks waiter queued, decided, Option.bind_some, last, planned, Option.map_some]
      at unpicked
    cases unpicked

theorem selectRankLocal_selects (now : Instant) (target : String) :
    Returns (self.selectRankLocal now target state)
      (self.Resumes state (state.rankQueue target) now) := by
  have ordering := orderCandidates_perm (self.localResumeCmp state now)
    ((decided_rankQueue inv target).filter (awaitsResume state))
  apply bind ordering
  intro _ permuted
  refine self.findSome_resumes inv permuted fun _ queued => ?_
  obtain ⟨_, _, _, decided, _, last⟩ := inv.ranked queued
  simp [decided, last]

theorem selectGlobalLocal_selects (now : Instant) (pool : String) :
    Returns (self.selectGlobalLocal now pool state)
      (self.Resumes state (state.globalQueue pool) now) := by
  have ordering := orderCandidates_perm (self.localResumeCmp state now)
    ((decided_globalQueue inv pool).filter (awaitsResume state))
  apply bind ordering
  intro _ permuted
  exact self.findSome_resumes inv permuted fun _ _ => rfl

end

variable {decision : ProgramDecisionState F} {source : String}

section CrossRank

variable (decided : state.decisions.lookup program = some decision) (now : Instant)

include decided

variable (destination : String)

theorem crossRankCandidateIsMature_returns :
    Returns (self.crossRankCandidateIsMature state program destination now) fun _ => True := by
  simp only [crossRankCandidateIsMature, decisionAt_of decided, ok_bind]
  split <;> exact pure trivial

theorem higherPrioritySourceWaiters_returns :
    Returns (self.higherPrioritySourceWaiters state program now) fun _ => True := by
  simp only [higherPrioritySourceWaiters, decisionAt_of decided, ok_bind]
  split <;> exact pure trivial

theorem sourceHasResumePressure_returns :
    Returns (self.sourceHasResumePressure state program now) fun _ => True := by
  unfold sourceHasResumePressure
  split
  · exact pure trivial
  · simp only [decisionAt_of decided, ok_bind]
    split
    · exact pure trivial
    · exact bind (self.higherPrioritySourceWaiters_returns decided now) fun _ _ => pure trivial

theorem destinationHasContextHeadroom_returns :
    Returns (self.destinationHasContextHeadroom state program destination now) fun _ => True := by
  unfold destinationHasContextHeadroom
  split
  · exact pure trivial
  · simp only [decisionAt_of decided, ok_bind]
    split <;> exact pure trivial

/-- The filters that a destination has to pass, as the source evaluates them. -/
structure CrossRankGates (scheduler : ProgramScheduler F) (state : ProgramSchedulerState F T)
    (program : ProgramRef) (source destination : String) (now : Instant) : Prop where
  elsewhere : destination ≠ source
  unclaimed : destinationHasLocalWaiter state program destination = false
  mature : scheduler.crossRankCandidateIsMature state program destination now = .ok true
  pressure : scheduler.sourceHasResumePressure state program now = .ok true
  headroom : scheduler.destinationHasContextHeadroom state program destination now = .ok true

variable {destination : String}

omit decided in
theorem crossRankPlan_of_gates (gates : self.CrossRankGates state program source destination now) :
    self.crossRankPlan state program source destination now =
      .ok ((self.rankAdmissionPlan state program destination now).map fun plan =>
        (destination, plan)) := by
  simp only [crossRankPlan, if_neg gates.elsewhere, gates.unclaimed, gates.mature, gates.pressure,
    gates.headroom, ok_bind]
  rfl

theorem crossRankPlan_of_not_gates
    (shut : ¬ self.CrossRankGates state program source destination now) :
    self.crossRankPlan state program source destination now = .ok none := by
  obtain ⟨mature, matures, _⟩ :=
    (self.crossRankCandidateIsMature_returns decided now destination).exists_ok
  obtain ⟨pressure, presses, _⟩ := (self.sourceHasResumePressure_returns decided now).exists_ok
  obtain ⟨headroom, fits, _⟩ :=
    (self.destinationHasContextHeadroom_returns decided now destination).exists_ok
  simp only [crossRankPlan, matures, presses, fits, ok_bind]
  split
  · rfl
  rename_i elsewhere
  cases claimed : destinationHasLocalWaiter state program destination with
  | true => rfl
  | false =>
    cases mature <;> cases pressure <;> cases headroom <;> first
      | rfl
      | exact absurd ⟨elsewhere, claimed, matures, presses, fits⟩ shut

/-- A Program that may leave its target leaves it for a destination that passes the filters, and
stays only if it can be resumed on none of them. -/
theorem selectCrossRankAdmission_returns :
    Returns (self.selectCrossRankAdmission state program now) fun selected =>
      (∀ destination plan, selected = some (destination, plan) →
        destination ∈ state.poolTargets program.modelPool ∧
          self.rankAdmissionPlan state program destination now = some plan ∧
          decision.lastPauseReason.isSome ∧ ∃ source, decision.lastTarget = some source ∧
            self.CrossRankGates state program source destination now) ∧
      (selected = none → decision.lastPauseReason.isSome →
        ∀ source, decision.lastTarget = some source →
        ∀ destination ∈ state.poolTargets program.modelPool,
          self.CrossRankGates state program source destination now →
          self.rankAdmissionPlan state program destination now = none) := by
  simp only [selectCrossRankAdmission, decided]
  split
  · rename_i reason source targets paused last listed
    have pool : state.poolTargets program.modelPool = targets := by
      simp [poolTargets, listed]
    have planning : Returns
        (targets.mapM fun destination => self.crossRankPlan state program source destination now)
        (List.Forall₂ (fun destination planned =>
          self.crossRankPlan state program source destination now = .ok planned) targets) := by
      refine mapM fun destination _ => ?_
      by_cases gates : self.CrossRankGates state program source destination now
      · rw [self.crossRankPlan_of_gates now gates]
        exact pure rfl
      · rw [self.crossRankPlan_of_not_gates decided now gates]
        exact pure rfl
    apply bind planning
    intro plans paired
    rw [pool]
    refine ⟨fun destination plan best => ?_, fun nothing _ found same destination member gates => ?_⟩
    · have offered : some (destination, plan) ∈ plans :=
        List.reduceOption_mem_iff.mp (minBy_mem best)
      obtain ⟨target, member, planned⟩ := exists_left_of_mem paired offered
      by_cases gates : self.CrossRankGates state program source target now
      · rw [self.crossRankPlan_of_gates now gates] at planned
        obtain ⟨granted, found, same⟩ := Option.map_eq_some_iff.mp (Except.ok.inj planned)
        cases same
        exact ⟨member, found, by rw [paused]; rfl, source, last, gates⟩
      · rw [self.crossRankPlan_of_not_gates decided now gates] at planned
        cases planned
    · cases last.symm.trans same
      obtain ⟨_, within, computed⟩ := exists_left_of_mem paired.flip member
      rw [self.crossRankPlan_of_gates now gates] at computed
      cases granted : self.rankAdmissionPlan state program destination now with
      | none => rfl
      | some =>
        rw [granted] at computed
        cases computed
        have best : (minBy (self.destinationCmp state now) plans.reduceOption).isSome :=
          minBy_isSome (List.ne_nil_of_mem (List.reduceOption_mem_iff.mpr within))
        rw [nothing] at best
        cases best
  · rename_i blocked
    refine pure ⟨nofun, fun _ paused source last _ member _ => ?_⟩
    obtain ⟨reason, paused⟩ := Option.isSome_iff_exists.mp paused
    cases listed : state.modelTargets.lookup program.modelPool with
    | none =>
      simp only [poolTargets, listed, Option.getD_none] at member
      cases member
    | some targets => exact absurd listed (blocked reason source _ paused last)

end CrossRank

/-- A Program of the list has no destination. -/
def Stays (state : ProgramSchedulerState F T) (queue : List ProgramRef) (now : Instant) : Prop :=
  ∀ program ∈ queue, ∀ decision, state.decisions.lookup program = some decision →
    decision.lastPauseReason.isSome → ∀ source, decision.lastTarget = some source →
    ∀ destination ∈ state.poolTargets program.modelPool,
      self.CrossRankGates state program source destination now →
      self.rankAdmissionPlan state program destination now = none

/-- A selection of Programs that leave the target they were last on. -/
structure Crosses (scheduler : ProgramScheduler F) (state : ProgramSchedulerState F T)
    (queue : List ProgramRef) (now : Instant)
    (choice : Option (ProgramRef × String × RankAdmissionPlan F)) : Prop where
  selects : scheduler.Selects state queue now choice
  gates : ∀ program target plan, choice = some (program, target, plan) →
    ∃ decision source, state.decisions.lookup program = some decision ∧
      decision.lastPauseReason.isSome ∧ decision.lastTarget = some source ∧
      scheduler.CrossRankGates state program source target now
  stays : choice = none → scheduler.Stays state queue now

theorem firstCrossRank_crosses (now : Instant) {candidates : List ProgramRef}
    (decided : Decided state candidates) :
    Returns (self.firstCrossRank state now candidates) (self.Crosses state candidates now) := by
  induction candidates with
  | nil => exact pure ⟨nofun, nofun, fun _ => List.forall_mem_nil _⟩
  | cons _ _ ih =>
    obtain ⟨decision, found⟩ := decided _ List.mem_cons_self
    apply bind (self.selectCrossRankAdmission_returns found now)
    rintro selected ⟨destined, settled⟩
    cases selected with
    | some chosen =>
      obtain ⟨listed, granted, paused, source, last, gates⟩ := destined _ _ rfl
      refine pure ⟨?_, ?_, nofun⟩
      · rintro _ _ _ ⟨⟩
        exact ⟨List.mem_cons_self, granted, listed⟩
      · rintro _ _ _ ⟨⟩
        exact ⟨decision, source, found, paused, last, gates⟩
    | none =>
      refine mono (ih fun other member => decided other (List.mem_cons_of_mem _ member)) ?_
      intro _ crosses
      refine ⟨fun other target plan chosen => ?_, crosses.gates, fun nothing other member => ?_⟩
      · obtain ⟨queued, granted⟩ := crosses.selects other _ _ chosen
        exact ⟨List.mem_cons_of_mem _ queued, granted⟩
      · rcases List.mem_cons.mp member with rfl | later
        · intro _ decided
          cases found.symm.trans decided
          exact settled rfl
        · exact crosses.stays nothing _ later

theorem selectGlobalCrossRank_crosses (inv : state.Inv globalMode) (now : Instant) (pool : String) :
    Returns (self.selectGlobalCrossRank now pool state)
      (self.Crosses state (state.globalQueue pool) now) := by
  have waiters := ((decided_globalQueue inv pool).filter (awaitsResume state)).filter
    fun program => (state.decisions.lookup program).any fun decision =>
      decision.lastPauseReason.isSome
  apply bind (orderCandidates_perm (crossRankCmp state now) waiters)
  intro ordered permuted
  refine mono (self.firstCrossRank_crosses now fun program member =>
    waiters program (permuted.mem_iff.mp member)) fun _ crosses => ?_
  refine ⟨fun program target plan chosen => ?_, crosses.gates, ?_⟩
  · obtain ⟨member, granted⟩ := crosses.selects program target _ chosen
    exact ⟨(List.mem_filter.mp (List.mem_filter.mp (permuted.mem_iff.mp member)).1).1, granted⟩
  · intro nothing program queued decision decided paused source last destination listed gates
    rw [Option.eq_none_iff_forall_ne_some]
    intro _ planned
    have waits := self.rankAdmissionPlan_awaits planned
    have candidate : program ∈ ordered := by
      rw [permuted.mem_iff, List.mem_filter]
      exact ⟨List.mem_filter.mpr ⟨queued, waits⟩, by simpa [decided] using paused⟩
    have stayed := crosses.stays nothing program candidate decision decided paused _ last
      destination listed gates
    rw [stayed] at planned
    cases planned

/-- A loop that resumes Programs of one queue ends, because each round takes the
resumed Program out of the queue. -/
theorem resumeWhile_commits {select : ProgramSchedulerState F T →
      Except Fault (Option (ProgramRef × String × RankAdmissionPlan F))}
    (queue : Core → List ProgramRef) {now : Instant}
    (dequeued : ∀ core program target runtime, queue (core.activate program target runtime) =
      (queue core).filter (· ≠ program))
    (Good Done : ProgramSchedulerState F T → Prop)
    (selects : ∀ state : ProgramSchedulerState F T, state.Inv globalMode → Good state →
      Returns (select state) fun choice => self.Selects state (queue state.core) now choice ∧
        (choice = none → Done state) ∧
        ∀ program target plan decision runtime, choice = some (program, target, plan) →
          state.decisions.lookup program = some decision →
          state.runtime.activate program target = some runtime →
          (self.order.Stable → self.Homeward state program target now) ∧
            Good (self.commitAdmission state program target plan now))
    {rounds : Nat} (inv : state.Inv globalMode) (good : Good state)
    (bound : (queue state.core).length < rounds) :
    Returns (self.resumeWhile select now rounds state) fun next =>
      Commits self state next ∧ Good next ∧ Done next := by
  induction rounds generalizing state with
  | zero => omega
  | succ rounds ih =>
    apply bind (selects _ inv good)
    rintro choice ⟨selected, ends, goes⟩
    cases choice with
    | none => exact pure ⟨.refl, good, ends rfl⟩
    | some chosen =>
      obtain ⟨program, target, plan⟩ := chosen
      obtain ⟨queued, granted, listed⟩ := selected _ _ _ rfl
      obtain ⟨paused, waiting, decision, decided⟩ := self.rankAdmissionPlan_some granted
      obtain ⟨_, activated⟩ :=
        Resumable.activates ⟨paused, waiting, ⟨decision, decided⟩, listed⟩
      obtain ⟨homeward, kept⟩ := goes _ _ _ _ _ rfl decided activated
      have resumed : Commits self state (self.commitAdmission state program target plan now) :=
        .one (.resume _ _ _ now granted listed homeward)
      have fewer :
          (queue (self.commitAdmission state program target plan now).core).length < rounds := by
        rw [self.core_commitAdmission plan now decided activated, dequeued]
        have shorter : ((queue state.core).filter (· ≠ program)).length < (queue state.core).length :=
          List.length_filter_lt_length_iff_exists.mpr ⟨program, queued, by simp⟩
        omega
      exact mono (ih (resumed.inv inv) kept fewer)
        fun _ ⟨taken, facts⟩ => ⟨resumed.trans taken, facts⟩

theorem homeward_of_home (home : ∃ decision, state.decisions.lookup program = some decision ∧
      decision.lastTarget = some target) : self.Homeward state program target now := by
  intro _ decided away
  obtain ⟨_, found, last⟩ := home
  cases found.symm.trans decided
  exact absurd last away

theorem scheduleRankLocal_exhausts (inv : state.Inv globalMode) (now : Instant) :
    Returns (self.scheduleRankLocal state now) fun next => Commits self state next ∧
      (self.order.Stable → ∀ target, self.Exhausted next (next.rankQueue target) now) := by
  refine mono (foldlM
    (fun rest next => Commits self state next ∧ (self.order.Stable → ∀ target, target ∉ rest →
      self.Exhausted next (next.rankQueue target) now)) ?_ ?_)
    fun last ⟨taken, done⟩ => ⟨taken, fun stable target => done stable _ List.not_mem_nil⟩
  · refine ⟨.refl, fun _ target unlisted _ queued => ?_⟩
    have absent : state.rankQueues.lookup target = none := by
      rw [← Option.not_isSome_iff_eq_none, Option.isSome_iff_exists, ← Table.mem_keys_iff]
      simpa using unlisted
    rw [rankQueue, absent] at queued
    cases queued
  · rintro target rest next ⟨taken, done⟩
    refine mono (self.resumeWhile_commits (fun core => core.rankQueue target)
      (fun _ _ _ _ => rfl)
      (fun state => self.order.Stable → ∀ other, other ∉ target :: rest →
        self.Exhausted state (state.rankQueue other) now)
      (fun state => self.Exhausted state (state.rankQueue target) now) ?_ (taken.inv inv) done
      (Nat.lt_succ_self _)) ?_
    · intro state inv good
      refine mono (self.selectRankLocal_selects inv now target) fun _ resumes =>
        ⟨resumes.selects, resumes.exhausted, ?_⟩
      intro program chosen plan _ _ selected decided activated
      refine ⟨fun _ => self.homeward_of_home (resumes.home program _ _ selected),
        fun stable other outside => ?_⟩
      obtain ⟨queued, _⟩ := resumes.selects program _ _ selected
      obtain ⟨_, _, _, known, _, there⟩ := inv.ranked queued
      obtain ⟨_, found, last⟩ := resumes.home program _ _ selected
      cases known.symm.trans found
      cases there.symm.trans last
      have emptied : (self.commitAdmission state program target plan now).rankQueue other =
          (state.rankQueue other).filter (· ≠ program) :=
        congrFun (congrArg Core.rankQueue (self.core_commitAdmission plan now decided activated))
          other
      rw [emptied]
      refine (good stable _ outside).commit stable inv.stored decided activated ?_ _
      intro _ member _ _ _ decided same
      obtain ⟨_, _, _, known, _, there⟩ := inv.ranked member
      cases decided.symm.trans known
      cases there.symm.trans same
      exact outside List.mem_cons_self
    · rintro _ ⟨resumed, kept, finished⟩
      refine ⟨taken.trans resumed, fun stable other outside => ?_⟩
      by_cases same : other = target
      · rw [same]
        exact finished
      · exact kept stable _ (by simp [same, outside])

variable {destination : String}

omit [F64 F] in
theorem destinationHasLocalWaiter_eq_false
    (free : destinationHasLocalWaiter state program destination = false) {waiter : ProgramRef}
    (queued : waiter ∈ state.globalQueue program.modelPool) (apart : waiter ≠ program)
    (awaits : awaitsResume state waiter = true)
    (decided : state.decisions.lookup waiter = some decision) :
    decision.lastTarget ≠ some destination := by
  intro last
  have claims := List.any_eq_false.mp free waiter queued
  simp [apart, awaits, decided, last] at claims

theorem CrossRankGates.lastResort {self : ProgramScheduler F}
    (gates : self.CrossRankGates state program source destination now)
    (decided : state.decisions.lookup program = some decision)
    (paused : decision.lastPauseReason.isSome) (last : decision.lastTarget = some source)
    (exhausted : self.Exhausted state (state.globalQueue program.modelPool) now) :
    self.LastResort state program decision destination now := by
  have mature := gates.mature
  simp only [crossRankCandidateIsMature, decisionAt_of decided, ok_bind, last] at mature
  obtain ⟨windows, waited⟩ := Bool.and_eq_true_iff.mp (Except.ok.inj mature)
  obtain ⟨here, there⟩ := Bool.and_eq_true_iff.mp windows
  refine ⟨exhausted, fun _ queued apart awaits _ known =>
    destinationHasLocalWaiter_eq_false gates.unclaimed queued apart awaits known, paused, waited,
    source, last, here, there, fun _ limited => ?_⟩
  have headroom := gates.headroom
  simp only [destinationHasContextHeadroom, limited, decisionAt_of decided, ok_bind, last]
    at headroom
  exact of_decide_eq_true (Except.ok.inj headroom)

theorem resumePool_exhausts (inv : state.Inv globalMode) (now : Instant) (pool : String) :
    Returns (do
      let resumed ← self.resumeWhile (self.selectGlobalLocal now pool) now
        ((state.globalQueue pool).length + 1) state
      self.resumeWhile (self.selectGlobalCrossRank now pool) now
        ((resumed.globalQueue pool).length + 1) resumed) fun next => Commits self state next ∧
      (∀ other, state.globalQueue other = [] → next.globalQueue other = []) ∧
      (self.order.Stable → self.Exhausted next (next.globalQueue pool) now) ∧
      self.Stays next (next.globalQueue pool) now := by
  -- No queue gains a Program by an admission.
  have queues {state : ProgramSchedulerState F T} {program target plan decision runtime}
      (decided : state.decisions.lookup program = some decision)
      (activated : state.runtime.activate program target = some runtime) other :
      (self.commitAdmission state program target plan now).globalQueue other =
        (state.globalQueue other).filter (· ≠ program) :=
    congrFun (congrArg Core.globalQueue (self.core_commitAdmission plan now decided activated)) other
  apply bind (self.resumeWhile_commits (fun core => core.globalQueue pool) (fun _ _ _ _ => rfl)
    (fun next => ∀ other, state.globalQueue other = [] → next.globalQueue other = [])
    (fun state => self.Exhausted state (state.globalQueue pool) now) ?_ inv (fun _ empty => empty)
    (Nat.lt_succ_self _))
  · rintro resumed ⟨locally, emptied, exhausted⟩
    refine mono (self.resumeWhile_commits (fun core => core.globalQueue pool)
      (fun _ _ _ _ => rfl)
      (fun next => (∀ other, state.globalQueue other = [] → next.globalQueue other = []) ∧
        (self.order.Stable → self.Exhausted next (next.globalQueue pool) now))
      (fun state => self.Stays state (state.globalQueue pool) now) ?_ (locally.inv inv)
      ⟨emptied, fun _ => exhausted⟩ (Nat.lt_succ_self _))
      fun last ⟨crossed, ⟨empty, done⟩, stays⟩ => ⟨locally.trans crossed, empty, done, stays⟩
    intro _ inv ⟨empty, done⟩
    refine mono (self.selectGlobalCrossRank_crosses inv now pool) fun _ crosses =>
      ⟨crosses.selects, crosses.stays, ?_⟩
    intro program target plan _ _ chosen decided activated
    obtain ⟨known, _, found, paused, last, gates⟩ := crosses.gates program target _ chosen
    obtain ⟨queued, _⟩ := crosses.selects program target _ chosen
    obtain ⟨_, _, _, _, facts⟩ := inv.pooled queued
    obtain rfl : pool = program.modelPool :=
      (facts.globalSound pool (List.count_pos_iff.mpr queued).ne').2.2.2.1
    refine ⟨fun stable other decided _ => ?_, fun other before => ?_, fun stable => ?_⟩
    · cases decided.symm.trans found
      exact gates.lastResort found paused last (done stable)
    · rw [queues decided activated, empty other before]
      rfl
    · rw [queues decided activated]
      exact (done stable).commit stable inv.stored decided activated
        (fun _ member apart awaits other known =>
          destinationHasLocalWaiter_eq_false gates.unclaimed member apart awaits known) plan
  · intro _ inv empty
    refine mono (self.selectGlobalLocal_selects inv now pool) fun _ resumes =>
      ⟨resumes.selects, resumes.exhausted, ?_⟩
    intro program target plan _ _ selected decided activated
    refine ⟨fun _ => self.homeward_of_home (resumes.home program target _ selected),
      fun other before => ?_⟩
    rw [queues decided activated, empty other before]
    rfl

theorem scheduleGlobalWaiting_exhausts (inv : state.Inv globalMode) (now : Instant) :
    Returns (self.scheduleGlobalWaiting state now) fun next => Commits self state next ∧
      ((∃ pool, ∀ other ∈ state.globalQueues.keys, other = pool) → self.order.Stable →
        ∀ pool, self.Exhausted next (next.globalQueue pool) now ∧
          self.Stays next (next.globalQueue pool) now) := by
  refine mono (foldlM (fun rest next => Commits self state next ∧
      (∀ other ∈ rest, other ∈ state.globalQueues.keys) ∧
      (∀ other, other ∉ state.globalQueues.keys → next.globalQueue other = []) ∧
      ((∃ pool, ∀ other ∈ state.globalQueues.keys, other = pool) → self.order.Stable →
        ∀ pool ∈ state.globalQueues.keys, pool ∉ rest →
          self.Exhausted next (next.globalQueue pool) now ∧
            self.Stays next (next.globalQueue pool) now)) ?_ ?_) ?_
  · refine ⟨.refl, by simp, fun other unlisted => ?_, ?_⟩
    · have absent : state.globalQueues.lookup other = none := by
        rw [← Option.not_isSome_iff_eq_none, Option.isSome_iff_exists, ← Table.mem_keys_iff]
        exact unlisted
      rw [globalQueue, absent]
      rfl
    · intro _ _ pool listed unlisted
      exact absurd (self.order.mem_names.mpr listed) unlisted
  · rintro pool _ _ ⟨taken, known, empty, done⟩
    refine mono (self.resumePool_exhausts (taken.inv inv) now _) ?_
    rintro _ ⟨resumed, emptied, exhausted, stays⟩
    refine ⟨taken.trans resumed, fun other later => known _ (List.mem_cons_of_mem _ later),
      fun other unlisted => emptied _ (empty _ unlisted), ?_⟩
    rintro ⟨single, only⟩ stable other listed _
    obtain rfl : _ = pool :=
      (only _ listed).trans (only _ (known _ List.mem_cons_self)).symm
    exact ⟨exhausted stable, stays⟩
  · rintro _ ⟨taken, _, empty, done⟩
    refine ⟨taken, fun single stable pool => ?_⟩
    by_cases listed : pool ∈ state.globalQueues.keys
    · exact done single stable _ listed List.not_mem_nil
    · rw [empty pool listed]
      exact ⟨List.forall_mem_nil _, List.forall_mem_nil _⟩

theorem reportCapacityAccountingTransitions_commits (now : Instant) :
    Commits self state (self.reportCapacityAccountingTransitions state now) := by
  apply foldl_invariant (fun _ => Commits self state) .refl
  intro _ _ _ taken
  exact taken.trans (.noted (.reported _ now))

variable (inv : state.Inv globalMode) (now : Instant)

include inv

theorem scheduleWaiting_commits :
    Returns (self.scheduleWaiting state now) (Commits self state) := by
  unfold scheduleWaiting
  split
  · exact mono (self.scheduleGlobalWaiting_exhausts inv now) fun _ ends => ends.1
  · exact mono (self.scheduleRankLocal_exhausts inv now) fun _ ends => ends.1

theorem runRequestArrivalDecisions_commits :
    Returns (self.runRequestArrivalDecisions state now) (Commits self state) := by
  have released := self.releaseExpiredPaused_commits inv now
  have expired := released.trans (self.expireActingTtls_commits (released.inv inv) now)
  apply bind (self.repairCapacity_commits (expired.inv inv) now)
  intro _ repaired
  have taken := expired.trans repaired
  exact mono (self.scheduleWaiting_commits (taken.inv inv) now)
    fun _ scheduled => taken.trans scheduled

def prunedState (state : ProgramSchedulerState F T) (now : Instant) : ProgramSchedulerState F T :=
  { state with
    runtime := state.runtime.pruneReleasedGenerations now
      (max self.config.pausedRetentionTtl (60 * 10 ^ 9)) }

theorem tick_expires :
    let expires next := Commits self state (self.prunedState state now) ∧
      Commits self (self.prunedState state now)
        (self.expireActingTtls (self.prunedState state now) now) ∧
      Commits self (self.expireActingTtls (self.prunedState state now) now) next
    Returns (self.runPeriodicDecisions state now) expires ∧
      Returns (self.tick state now) expires := by
  have pruned : Commits self state (self.prunedState state now) := .one (.prune now _)
  have expired := self.expireActingTtls_commits (pruned.inv inv) now
  have expiredInv := expired.inv (pruned.inv inv)
  have released := self.releaseExpiredPaused_commits expiredInv now
  refine (and_iff_left_of_imp fun decides => ?_).mpr ?_
  · apply bind decides
    rintro _ ⟨_, _, taken⟩
    exact pure ⟨pruned, expired, taken.trans (self.reportCapacityAccountingTransitions_commits now)⟩
  · unfold runPeriodicDecisions
    split
    · exact pure ⟨pruned, expired, released⟩
    · apply bind (self.repairCapacity_commits (released.inv expiredInv) now)
      intro _ repaired
      have taken := released.trans repaired
      exact mono (self.scheduleWaiting_commits (taken.inv expiredInv) now)
        fun _ scheduled => ⟨pruned, expired, taken.trans scheduled⟩

theorem runPeriodicDecisions_commits :
    Returns (self.runPeriodicDecisions state now) (Commits self state) :=
  mono (self.tick_expires inv now).1
    fun _ ⟨pruned, expired, taken⟩ => (pruned.trans expired).trans taken

theorem tick_commits : Returns (self.tick state now) (Commits self state) :=
  mono (self.tick_expires inv now).2
    fun _ ⟨pruned, expired, taken⟩ => (pruned.trans expired).trans taken

end SmetricRouter.ProgramScheduling.ProgramScheduler
