import SmetricRouter.ProgramScheduling.Sections

/-! What ends the quiet time of a Program.

A Program that is on a target without a request keeps its capacity until its
acting TTL runs out, and a paused one is retained until its retention TTL does.
Both deadlines count from times that completions, pauses, failovers and
cancellations write and that admissions clear. Here it is shown that in every
run the time that is needed is there, and that a tick at the deadline of a quiet
active Program ends its placement.
-/

namespace SmetricRouter.ProgramScheduling

open ProgramSchedulerState ProgramRuntime Function ProgramScheduler RequestPool

variable {F T : Type}

/-- The timer is set as far as the Program depends on it. -/
structure Timer.Covers (timer : Timer) (record : RuntimeProgram)
    (waiting : List PendingProgramRequest) : Prop where
  active : record.state = .active → record.inFlightRequests ≠ 0 ∨ waiting ≠ [] ∨
    record.status = .acting ∧ timer.ttlDeadline.isSome
  paused : record.state = .paused → timer.pausedAt.isSome

variable {state next : ProgramSchedulerState F T} {program : ProgramRef}
  {decision : ProgramDecisionState F}

namespace ProgramSchedulerState

def TimedAt (state : ProgramSchedulerState F T) (program : ProgramRef) : Prop :=
  ∀ record, state.runtime.find program = some record →
    ∃ timer, state.timer program = some timer ∧ timer.Covers record (state.waiting program)

def Timed (state : ProgramSchedulerState F T) : Prop := ∀ program, state.TimedAt program

theorem TimedAt.congr (timed : state.TimedAt program)
    (finds : next.runtime.find program = state.runtime.find program)
    (waiting : next.waiting program = state.waiting program)
    (timer : next.timer program = state.timer program) : next.TimedAt program := by
  unfold TimedAt
  rw [finds, waiting, timer]
  exact timed

theorem Timed.congr (timed : state.Timed) (finds : next.runtime.find = state.runtime.find)
    (waiting : next.waiting = state.waiting) (timer : next.timer = state.timer) : next.Timed :=
  fun program => (timed _).congr (congrFun finds _) (congrFun waiting _) (congrFun timer program)

variable {record : Option RuntimeProgram}

theorem Timed.update (others : ∀ other, other ≠ program → state.TimedAt other)
    (finds : next.runtime.find = update state.runtime.find program record)
    (waiting : ∀ other, other ≠ program → next.waiting other = state.waiting other)
    (timer : ∀ other, other ≠ program → next.timer other = state.timer other)
    (own : ∀ after, record = some after →
      ∃ timer, next.timer program = some timer ∧ timer.Covers after (next.waiting program)) :
    next.Timed := by
  intro other
  by_cases same : other = program
  · subst same
    intro stored found
    rw [finds, update_self] at found
    exact own stored found
  · exact (others _ same).congr (by rw [finds, update_of_ne same]) (waiting other same)
      (timer _ same)

theorem Timed.frame (timed : state.Timed) (runtime : next.runtime = state.runtime)
    (timer : next.timer = state.timer) : next.Timed :=
  timed.congr (congrArg find runtime)
    (congrArg (fun runtime => runtime.requestPool.queue) runtime) timer

theorem Timed.of_others (others : ∀ other, other ≠ program → state.TimedAt other)
    (own : state.TimedAt program) : state.Timed := by
  intro other
  by_cases same : other = program
  · exact same ▸ own
  · exact others _ same

theorem timer_of (decided : state.decisions.lookup program = some decision) :
    state.timer program = some decision.timer := by
  simp [timer, decided]

theorem timer_congr (decisions : next.decisions = state.decisions) : next.timer = state.timer :=
  congrArg (fun decisions program => (decisions.lookup program).map (·.timer)) decisions

/-- The record and the decision state of one Program are rewritten. -/
theorem Timed.modify {change : ProgramDecisionState F → ProgramDecisionState F}
    (others : ∀ other, other ≠ program → state.TimedAt other)
    (finds : next.runtime.find = Function.update state.runtime.find program record)
    (waiting : ∀ other, other ≠ program → next.waiting other = state.waiting other)
    (decisions : next.decisions = state.decisions.modify program change)
    (decided : state.decisions.lookup program = some decision)
    (own : ∀ after, record = some after →
      (change decision).timer.Covers after (next.waiting program)) : next.Timed := by
  have timer : next.timer = (state.modifyDecision program change).timer := timer_congr decisions
  rw [timer_modifyDecision, decided, Option.map_some] at timer
  refine Timed.update others finds waiting (fun _ apart => ?_) (fun after stored => ?_)
  · rw [timer, Function.update_of_ne apart]
  · exact ⟨_, by rw [timer, Function.update_self], own after stored⟩

end ProgramSchedulerState

variable [F64 F] {now : Instant} {self : ProgramScheduler F} {globalMode : Bool}

section Commits

namespace ProgramScheduler

variable (self)

theorem commitAdmission_timed (timed : state.Timed) (target : String) (plan : RankAdmissionPlan F)
    (now : Instant) : (self.commitAdmission state program target plan now).Timed := by
  rcases self.commitAdmission_cases program target plan now with
    unchanged | ⟨_, runtime, decided, activated⟩
  · rw [unchanged]
    exact timed
  · obtain ⟨_, _, _, waiting, _⟩ := activate_some activated
    obtain ⟨_, lookup, own, _, programs, queue, decisions, _⟩ :=
      self.commitAdmission_eq _ now decided activated
    have finds := find_update_of_insert (find_eq_some.mpr ⟨lookup, own⟩)
      (state.runtime.opened _ _) own programs
    refine Timed.modify (fun _ _ => timed _) finds (fun _ _ => queue _) decisions decided ?_
    rintro _ ⟨⟩
    exact ⟨fun _ => .inr (.inl ((queue _).trans_ne waiting)), nofun⟩

variable (others : ∀ other, other ≠ program → state.TimedAt other)

include others

theorem pauseIdle_timed {reason : ProgramPauseReason}
    (paused : self.pauseIdle state program reason now = some next) : next.Timed := by
  obtain ⟨_, _, _, decided, finds, pool, decisions⟩ := self.pauseIdle_writes paused
  refine Timed.modify others finds (fun other _ => congrArg (·.queue other) pool) decisions
    decided ?_
  rintro _ ⟨⟩
  exact ⟨nofun, fun _ => rfl⟩

theorem releaseProgram_timed (quiet : Quiet state program) (now : Instant) :
    (self.releaseProgram state program now).Timed := by
  cases found : state.runtime.find program with
  | none =>
    rw [self.releaseProgram_of_absent (releaseIdle_of_absent found now)]
    refine Timed.of_others others fun _ live => ?_
    cases found.symm.trans live
  | some =>
    obtain ⟨_, released⟩ := quiet.releases now found
    obtain ⟨_, _, written⟩ := self.releaseProgram_eq released
    obtain ⟨before, stored, _, _, rfl⟩ := releaseIdle_some released
    obtain ⟨lookup, rfl⟩ := find_eq_some.mp stored
    rw [written]
    refine @Timed.update _ _ _ _ before.reference none others ?_ (fun _ _ => rfl)
      (fun other apart => ?_) nofun
    · funext other
      rw [update_apply]
      exact find_of_erase rfl lookup _
    · simp [timer, Table.lookup_erase_eq, if_neg apart]

end ProgramScheduler

theorem Commit.timed (commit : Commit self state next) (timed : state.Timed) : next.Timed := by
  cases commit with
  | resume _ _ _ now => exact self.commitAdmission_timed timed _ _ now
  | bind _ _ now => exact self.commitAdmission_timed timed _ _ now
  | pause _ _ _ _ _ paused =>
    exact self.pauseIdle_timed (fun other _ => timed _) paused
  | release _ now quiet =>
    exact self.releaseProgram_timed (fun other _ => timed _) quiet now
  | note _ remark =>
    exact timed.frame (congrArg Core.runtime remark.noted.core) remark.noted.timer
  | prune => exact timed.congr rfl rfl rfl
  | wake _ =>
    refine timed.congr rfl ?_ rfl
    funext other
    exact queue_notifyFront _ _ _

theorem Commits.timed (taken : Commits self state next) (inv : state.Inv globalMode)
    (timed : state.Timed) : next.Timed :=
  taken.keeps Timed inv (fun _ _ _ commit held => commit.timed held) timed

end Commits

section Openings

variable {middle : ProgramSchedulerState F T}

theorem Enters.timed {arrival : Arrival} (enters : Enters self state arrival middle)
    (inv : state.Inv globalMode) (timed : state.Timed) : middle.Timed := by
  obtain ⟨home, deadline, core⟩ := enters.core
  have runtime : middle.runtime = (state.core.retained arrival).2 :=
    (congrArg Core.runtime core).trans (Core.runtime_arrive state.core _ arrival _ _)
  have waiting_is other : (state.core.retained arrival).2.requestPool.queue other = _ :=
    queue_retainRequest state.runtime _ _ _ _ other
  have timer_is := enters.registers.timer
  generalize named : (state.core.retained arrival).1.program = program at timer_is
  have named_record : (state.runtime.materialize arrival.identity
      arrival.estimatedContextTokens).1.reference = program := named
  rw [named_record] at waiting_is
  have finds : middle.runtime.find = update state.runtime.find program (some
      { (state.runtime.materialize arrival.identity arrival.estimatedContextTokens).1 with
        status := .reasoning }) := by
    funext other
    rw [runtime, update_apply, ← named_record]
    exact find_retainRequest inv.stored _ _ _ _ other
  refine Timed.update (fun other _ => timed other) finds ?_ ?_ ?_
  · intro other apart
    unfold ProgramSchedulerState.waiting
    rw [runtime]
    exact (waiting_is other).trans (if_neg apart)
  · intro _ apart
    rw [timer_is, update_of_ne apart]
  · rintro _ ⟨⟩
    refine ⟨(state.timer program).getD ⟨some arrival.arrivedAt, none⟩, ?_, ?_, ?_⟩
    · rw [timer_is, update_self]
    · intro _
      refine .inr (.inl ?_)
      unfold ProgramSchedulerState.waiting
      rw [runtime]
      refine ((waiting_is program).trans (if_pos rfl)).trans_ne ?_
      exact List.append_ne_nil_of_right_ne_nil _ (List.cons_ne_nil _ _)
    · intro paused
      cases untimed : state.timer program with
      | none => rfl
      | some timer =>
        -- A Program with a timer is live, so the request continues its record.
        obtain ⟨_, decided, _⟩ := Option.map_eq_some_iff.mp untimed
        obtain ⟨old, found, _⟩ := inv.record decided
        obtain ⟨_, stored, covers⟩ := timed program old found
        cases untimed.symm.trans stored
        rcases materialize_find inv.stored arrival.identity arrival.estimatedContextTokens with
          ⟨_, live, continued⟩ | ⟨absent, _⟩
        · rw [named_record, found] at live
          cases live
          rw [continued] at paused
          exact covers.paused paused
        · rw [named_record, found] at absent
          cases absent

namespace ProgramScheduler

/-- A cancellation that leaves an active Program quiet pauses it at the time of
the cancellation; the last target it needs for that is where it was active. -/
theorem cancelledState_timed (inv : state.Inv globalMode) (timed : state.Timed)
    {handle : ProgramRequestHandle} {runtime : ProgramRuntime}
    (cancels : state.runtime.cancelRequest handle = some runtime) (pausedAt : Instant) :
    (self.cancelledState state runtime handle.program pausedAt).Timed := by
  obtain ⟨waiting, position, _, _, finds, pooled⟩ := Core.cancelRequest_leaves cancels
  generalize waiting.eraseIdx position = rest at finds pooled
  have queue other : runtime.requestPool.queue other =
      if other = handle.program then rest else state.waiting other := by
    rw [pooled.queue]
    exact queue_leaving _ _ _ _
  have elsewhere other (apart : other ≠ handle.program) :
      runtime.requestPool.queue other = state.waiting other := (queue other).trans (if_neg apart)
  have accounted : (self.accountCancellation state { state with runtime := runtime } handle.program
      pausedAt).Timed := by
    by_cases ends : ∃ old, state.runtime.find handle.program = some old ∧ old.state = .active ∧
        old.inFlightRequests = 0 ∧ rest = []
    · obtain ⟨old, found, active, idle, empty⟩ := ends
      obtain ⟨decision, decided, facts⟩ := inv.decision found
      obtain ⟨target, placed⟩ := Option.isSome_iff_exists.mp (facts.activePlaced.mp active)
      have left : (state.runtime.find handle.program).map (Card.quiesce rest) =
          some { old with status := .acting, state := .paused, placement := none } := by
        simp [found, Card.quiesce, idle, empty, active]
      rw [left] at finds
      rw [self.accountCancellation_refunds found active
        ((congrFun finds _).trans (Function.update_self _ _ _)) rfl decided
        (facts.placedLast target placed) pausedAt]
      refine Timed.modify (fun other _ => timed other) finds elsewhere rfl decided ?_
      rintro after ⟨⟩
      refine ⟨fun active => ?_, fun _ => rfl⟩
      cases active
    · -- No active Program is paused, so the timers stay.
      have kept old (found : state.runtime.find handle.program = some old) :
          (Card.quiesce rest old).state = old.state ∧
            (Card.quiesce rest old).inFlightRequests = old.inFlightRequests := by
        unfold Card.quiesce
        split
        · rename_i quiet
          rw [if_neg fun active => ends ⟨old, found, active, quiet⟩]
          exact ⟨rfl, rfl⟩
        · exact ⟨rfl, rfl⟩
      rw [self.accountCancellation_keeps ?_ pausedAt]
      · refine Timed.update (fun other _ => timed other) finds elsewhere (fun _ _ => rfl) ?_
        intro _ left
        obtain ⟨old, found, rfl⟩ := Option.map_eq_some_iff.mp left
        obtain ⟨timer, stored, covers⟩ := timed handle.program old found
        obtain ⟨same, counted⟩ := kept old found
        refine ⟨timer, stored, fun active => ?_, fun paused => covers.paused (same ▸ paused)⟩
        by_cases idle : old.inFlightRequests = 0
        · refine .inr (.inl fun emptied => ends ⟨old, found, same ▸ active, idle, ?_⟩)
          exact ((queue handle.program).trans (if_pos rfl)).symm.trans emptied
        · exact .inl (counted.trans_ne idle)
      · intro _ _ seen left active paused
        obtain ⟨record, found, was, _⟩ := view_some seen
        obtain ⟨_, stored, is, _⟩ := view_some left
        have left_is : runtime.find handle.program = some (Card.quiesce rest record) := by
          rw [finds, Function.update_self, found, Option.map_some]
        cases left_is.symm.trans stored
        have still := is.symm.trans ((kept record found).1.trans (was.trans active))
        cases still.symm.trans paused
  unfold cancelledState
  split
  · exact accounted
  · exact accounted.congr rfl rfl rfl

section Completion

variable {dispatch : ProgramDispatch} {usage : ProgramUsageObservation} {runtime : ProgramRuntime}
  {facts : CompletionFacts F} {action : Option CompletionAction}

variable (decision)

omit [F64 F] in
theorem timer_observeUsage (usage : ProgramUsageObservation) (facts : CompletionFacts F) :
    (observeUsage decision usage facts).timer = decision.timer := by
  unfold observeUsage ProgramDecisionState.observeCompletedContext
  simp only
  split_ifs <;> rfl

theorem timer_recordCompletion :
    (recordCompletion dispatch usage facts action now decision).timer =
      if action = some .startActingTtl then ⟨decision.pausedAt, some (now + facts.actingTtl)⟩
      else decision.timer := by
  have observed := timer_observeUsage decision usage facts
  have pausedAt : (observeUsage decision usage facts).pausedAt = decision.pausedAt :=
    congrArg Timer.pausedAt observed
  unfold recordCompletion startSegment recordSuccess
  by_cases arms : action = some .startActingTtl
  · simp only [if_pos arms]
    rw [← pausedAt]
    split_ifs <;> rfl
  · simp only [if_neg arms]
    rw [← observed]
    split_ifs <;> rfl

variable {accountedBefore : F}

theorem settleCompletion_timed (timed : state.Timed) (resting : action ≠ some .startActingTtl)
    (settles : self.settleCompletion state dispatch usage facts action accountedBefore now =
      .ok middle) : middle.Timed := by
  obtain ⟨runtime, decisions, _⟩ := self.settleCompletion_frame settles
  have timer : middle.timer = (state.modifyDecision dispatch.program
    (recordCompletion dispatch usage facts action now)).timer := timer_congr decisions
  refine timed.frame runtime (timer.trans (timer_modifyDecision_same state dispatch.program ?_))
  intro _
  rw [timer_recordCompletion, if_neg resting]

variable {record : RuntimeProgram}

theorem pauseIdle_of (inv : state.Inv globalMode)
    (found : state.runtime.find program = some record) (active : record.state = .active)
    (idle : record.inFlightRequests = 0) (reason : ProgramPauseReason) (now : Instant) :
    ∃ next, self.pauseIdle state program reason now = some next := by
  obtain ⟨decision, decided, live⟩ := inv.decision found
  obtain ⟨target, placed⟩ := Option.isSome_iff_exists.mp (live.activePlaced.mp active)
  obtain ⟨stored, exact⟩ := ProgramRuntime.find_eq_some.mp found
  have placement : state.runtime.placement program = some target := by
    simp [ProgramRuntime.placement, found, placed]
  have idles : state.runtime.pauseIdle program = some { state.runtime with
        programs := state.runtime.programs.insert program.key
          { record with state := .paused, placement := none } } := by
    simp [ProgramRuntime.pauseIdle, stored, exact, active, idle]
  simp only [pauseIdle, placement, decided, idles, Option.bind_eq_bind, Option.bind_some,
    Option.pure_def]
  exact ⟨_, rfl⟩

variable {decision : ProgramDecisionState F}

omit [F64 F] in
theorem outstanding_of_completionAction {success : Bool}
    (found : runtime.find program = some record)
    (none_taken : completionAction decision success (runtime.view program) = none) :
    record.inFlightRequests ≠ 0 ∨ runtime.requestPool.queue program ≠ [] := by
  obtain ⟨_, exact⟩ := ProgramRuntime.find_eq_some.mp found
  simp only [completionAction, ProgramRuntime.view, found, Option.map_some, Option.map_eq_none_iff,
    Option.filter_eq_none_iff, Option.some.injEq, forall_eq', Bool.and_eq_true, beq_iff_eq,
    programLen, List.length_eq_zero_iff, exact] at none_taken
  by_contra quiet
  simp only [not_or, not_not] at quiet
  exact none_taken quiet

variable {settled : ProgramSchedulerState F T}

/-- Whatever a completion does with its Program leaves it covered: something else
is outstanding, or the Program is released, paused, or armed with a TTL. -/
theorem releaseCompleted_timed (inv : state.Inv globalMode)
    (others : ∀ other, other ≠ dispatch.program → state.TimedAt other)
    (live : state.runtime.find dispatch.program = some record) (active : record.state = .active)
    (outstanding : action = none →
      record.inFlightRequests ≠ 0 ∨ state.waiting dispatch.program ≠ [])
    (quiet : ∀ chosen, action = some chosen → record.status = .acting ∧ record.inFlightRequests = 0)
    (releases : action = some .terminate → Quiet settled dispatch.program)
    (settles : self.settleCompletion (self.pauseCompleted state dispatch.program action now) dispatch
      usage facts action accountedBefore now = .ok settled) :
    (self.releaseCompleted settled dispatch action now).Timed := by
  obtain ⟨decision, decided, _⟩ := inv.decision live
  cases action with
  | none =>
    have resting : (none : Option CompletionAction) ≠ some .startActingTtl := by simp
    refine settleCompletion_timed (Timed.of_others others ?_) resting settles
    intro _ found
    cases live.symm.trans found
    refine ⟨decision.timer, timer_of decided, fun _ => (outstanding rfl).imp_right .inl, ?_⟩
    intro paused
    cases active.symm.trans paused
  | some chosen =>
    obtain ⟨acting, idle⟩ := quiet chosen rfl
    cases chosen with
    | terminate =>
      obtain ⟨runtime, decisions, _⟩ := self.settleCompletion_frame settles
      refine self.releaseProgram_timed ?_ (releases rfl) now
      intro other apart
      refine (others other apart).congr (by rw [runtime]; rfl)
        (congrArg (fun runtime => runtime.requestPool.queue other) runtime) ?_
      simp only [ProgramSchedulerState.timer, decisions, Table.lookup_modify, if_neg apart]
      rfl
    | pause reason =>
      obtain ⟨paused, pauses⟩ := self.pauseIdle_of inv live active idle reason now
      have resting : some (CompletionAction.pause reason) ≠ some .startActingTtl := by simp
      simp only [pauseCompleted, pauses, Option.getD_some] at settles
      exact settleCompletion_timed (self.pauseIdle_timed others pauses) resting settles
    | startActingTtl =>
      obtain ⟨runtime, decisions, _⟩ := self.settleCompletion_frame settles
      have finds : settled.runtime.find = Function.update state.runtime.find dispatch.program
          (state.runtime.find dispatch.program) :=
        (congrArg find runtime).trans (Function.update_eq_self dispatch.program _).symm
      refine Timed.modify others finds
        (fun other _ => congrArg (fun runtime => runtime.requestPool.queue other) runtime) decisions
        decided ?_
      intro _ found
      cases live.symm.trans found
      refine ⟨fun _ => .inr (.inr ⟨acting, rfl⟩), ?_⟩
      intro paused
      cases active.symm.trans paused

theorem Completes.timed {terminate : Bool}
    (completes : self.Completes state dispatch terminate usage now next runtime decision facts action
      settled) (inv : state.Inv globalMode) (timed : state.Timed) : next.Timed := by
  have moved : Move globalMode state.core (.complete dispatch usage) _ := completes.moved
  have releasedInv := (self.releaseCompleted_commits now completes.releases).inv
    (completes.settled_posts inv).1
  refine completes.finishes.timed releasedInv ?_
  obtain ⟨_, acts⟩ := completes.acts
  cases moved.runtimeStep inv.stored with
  | quiet _ grounded => exact absurd trivial grounded
  | completed _ _ _ after found _ _ kept _ finds silent =>
    have live : runtime.find dispatch.program = some after :=
      (congrFun finds dispatch.program).trans (Function.update_self _ _ _)
    refine releaseCompleted_timed (moved.inv inv) ?_ live ?_ ?_ ?_ completes.releases completes.settles
    · intro _ apart
      refine (timed _).congr ((congrFun finds _).trans (Function.update_of_ne apart _ _))
        (silent.pool.queue _) ?_
      exact (congrFun (timer_modifyDecision _ dispatch.program _) _).trans
        (Function.update_of_ne apart _ _)
    · exact kept.1.trans (inv.placement_active completes.placed _ found)
    · rintro rfl
      exact outstanding_of_completionAction live acts.symm
    · rintro _ rfl
      obtain ⟨_, seen, idle, empty⟩ := completionAction_some acts.symm
      obtain ⟨_, stored, acting, idles, _⟩ :=
        acting_of_completeRequest completes.completed seen idle empty
      cases live.symm.trans stored
      exact ⟨acting, idles⟩

end Completion

omit [F64 F] in
theorem timer_reboundDecision (replacement : Option String) (interrupted : Bool) (now : Instant)
    (decision : ProgramDecisionState F) :
    (reboundDecision replacement interrupted now decision).timer =
      if interrupted then ⟨some now, none⟩ else decision.timer := by
  unfold reboundDecision
  split <;> rfl

/-- A failover pauses what it interrupts. What it does not interrupt had no
placement, so clearing its TTL takes nothing from an active Program. -/
theorem FailedOver.timed {pool : String} {current removed : List String} {start : Core}
    {clock : ProgramRef → FailoverClock} {affected : AffectedProgram} {rest : List AffectedProgram}
    (failed : FailedOver state removed clock affected next)
    (failing : Failing self pool current removed start (affected :: rest) state)
    (inv : start.Inv self.config.globalQueue) (timed : state.Timed) : next.Timed := by
  obtain ⟨base, evolved, shrunk, _⟩ := failing.reached
  obtain ⟨_, _, standing, standing_is, homeless⟩ := failing.pending _ List.mem_cons_self
  obtain ⟨decision, decided, rfl⟩ := Option.map_eq_some_iff.mp standing_is
  obtain ⟨_, decisions⟩ := failed.decisions
  have runtime := failed.runtime
  have waiting : next.waiting = state.waiting := by
    unfold ProgramSchedulerState.waiting
    rw [runtime, requestPool_invalidatePlacement]
  cases invalidated : state.runtime.invalidatePlacement affected.program removed with
  | some =>
    rw [invalidated] at runtime
    rw [invalidated] at decisions
    obtain ⟨record, target, found, _, _, rfl⟩ :=
      invalidatePlacement_some invalidated
    obtain ⟨_, exact⟩ := find_eq_some.mp found
    have finds := find_update_of_insert found (state.runtime.evicted record) exact
      (congrArg programs runtime)
    refine Timed.modify (fun other _ => timed _) finds (fun other _ => congrFun waiting _)
      decisions decided ?_
    rintro _ ⟨⟩
    exact ⟨nofun, fun _ => rfl⟩
  | none =>
    rw [invalidated] at runtime
    have finds : next.runtime.find = Function.update state.runtime.find affected.program
        (state.runtime.find affected.program) :=
      (congrArg find runtime).trans (Function.update_eq_self affected.program _).symm
    refine Timed.modify (fun _ _ => timed _) finds (fun _ _ => congrFun waiting _)
      decisions decided ?_
    intro record found
    rw [timer_reboundDecision]
    constructor
    · intro active
      have live : (base.card affected.program).program = some record := by
        rw [← found]
        exact (congrArg (fun core : Core => core.runtime.find affected.program) shrunk).symm
      obtain ⟨_, known_is, facts⟩ := ((evolved.inv inv).cards affected.program).of_program live
      have same : base.standing affected.program = some decision.standing := by
        rw [← standing_is]
        exact (congrArg (fun core : Core => core.standing affected.program) shrunk).symm
      cases same.symm.trans known_is
      obtain ⟨_, placed⟩ := Option.isSome_iff_exists.mp (facts.activePlaced.mp active)
      exact absurd (homeless _ (facts.placedLast _ placed))
        (invalidatePlacement_none invalidated found placed)
    · intro paused
      split
      · rfl
      · obtain ⟨_, known_is, covers⟩ := timed affected.program _ found
        cases (timer_of decided).symm.trans known_is
        exact covers.paused paused

variable [AffinityTree T]

omit [F64 F] in
theorem claimDispatch_timed (inv : state.Inv globalMode) (timed : state.Timed)
    (handle : ProgramRequestHandle) (now : Instant) : (claimDispatch state handle now).2.Timed := by
  cases placed : state.runtime.placement handle.program with
  | none =>
    rw [claimDispatch_unplaced now placed]
    exact timed
  | some _ =>
    obtain ⟨_, found, placement⟩ := Option.bind_eq_some_iff.mp placed
    have active := inv.placement_active placed _ found
    obtain ⟨_, claimed, _⟩ := claimDispatch_placed now placed
    have timer : (claimDispatch state handle now).2.timer = state.timer := by
      rw [claimed]
      rfl
    have stepped : RuntimeStep state.runtime (claimDispatch state handle now).2.runtime
        (.dispatch handle now) := by
      rw [claimed]
      exact admitFront_step now found active placement
    obtain ⟨kept, stored, covers⟩ := timed handle.program _ found
    cases stepped with
    | quiet _ grounded => exact absurd trivial grounded
    | unmarked _ _ _ live finds silent =>
      cases found.symm.trans live
      refine Timed.update (fun other _ => timed _) finds (fun other _ => silent.pool.queue _)
        (fun other _ => congrFun timer _) ?_
      rintro _ ⟨⟩
      refine ⟨kept, (congrFun timer _).trans stored, ?_, covers.paused⟩
      rw [show (claimDispatch state handle now).2.waiting handle.program =
        state.waiting handle.program from silent.pool.queue handle.program]
      exact covers.active
    | dispatched _ _ _ _ _ _ live _ _ _ _ _ finds pool =>
      cases found.symm.trans live
      refine Timed.update (fun other _ => timed _) finds ?_ (fun _ _ => congrFun timer _) ?_
      · intro _ apart
        unfold ProgramSchedulerState.waiting
        rw [pool.queue, queue_leaving, if_neg apart]
      · rintro _ ⟨⟩
        refine ⟨kept, (congrFun timer _).trans stored, fun _ => .inl ?_, covers.paused⟩
        exact saturatingAdd_pos

theorem syncTargetSnapshotLocked_timed (sound : self.Sound state) (timed : state.Timed)
    {pool : PoolSnapshot}
    (synced : self.syncTargetSnapshotLocked state pool = .ok next) : next.Timed := by
  refine syncTargetSnapshotLocked_keeps sound synced Timed ?_ ?_ timed
  · intro _ _ runtime decisions _ _ held
    exact held.frame runtime (timer_congr decisions)
  · intro _ _ _ _ failing failed held
    exact failed.timed failing sound.inv held

theorem step_timed (sound : self.Sound state) (timed : state.Timed) {event : Event F}
    {output : Output F} (stepped : self.step state event = .ok (output, next)) : next.Timed := by
  cases step_section sound stepped with
  | synced _ | replaced _ =>
    obtain ⟨_, synced, ⟨⟩⟩ := bind_eq_ok stepped
    exact syncTargetSnapshotLocked_timed sound timed synced
  | arrived _ _ _ _ enters decides =>
    exact decides.timed enters.inv (enters.timed sound.inv timed)
  | claimed _ now => exact claimDispatch_timed sound.inv timed _ now
  | expired _ _ decides | ticked _ _ decides => exact decides.timed sound.inv timed
  | uncancelled | stale | observed => exact timed
  | cancelled _ _ _ _ _ _ cancels decides =>
    exact decides.timed (self.cancelledState_inv sound.inv cancels _)
      (cancelledState_timed sound.inv timed cancels _)
  | completed _ _ _ _ _ _ _ _ _ _ _ _ completes => exact completes.timed sound.inv timed
  | applied epoch _ =>
    obtain ⟨_, applied⟩ := self.applyObservations_eq _ epoch _
    rw [applied]
    exact timed.congr rfl rfl rfl
  | evicted => exact timed.congr rfl rfl rfl

end ProgramScheduler

end Openings

section Expiry

def ProgramSchedulerState.Suspended (state : ProgramSchedulerState F T) (program : ProgramRef) :
    Prop :=
  ∀ record, state.runtime.find program = some record → record.state = .paused

namespace ProgramScheduler

theorem expireActingTtl_runtime (now : Instant) (program : ProgramRef) :
    (self.expireActingTtl now state program).runtime =
      (self.pauseIdle state program .ttlExpired now).elim state.runtime (·.runtime) := by
  unfold expireActingTtl
  cases self.pauseIdle state program .ttlExpired now with
  | none => rfl
  | some =>
    simp only
    split <;> rfl

variable (inv : state.Inv globalMode)

include inv

theorem expireActingTtl_suspends (now : Instant) {reference : ProgramRef}
    (either : (program = reference ∧ Acting state program) ∨ state.Suspended reference) :
    (self.expireActingTtl now state program).Suspended reference := by
  intro later found
  rw [expireActingTtl_runtime] at found
  cases paused : self.pauseIdle state program .ttlExpired now with
  | none =>
    rw [paused] at found
    rcases either with ⟨rfl, _, stored, acting⟩ | suspended
    · -- An acting Program that is not paused now is not active.
      cases found.symm.trans stored
      obtain ⟨_, _, facts⟩ := inv.decision stored
      cases active : later.state with
      | paused => rfl
      | active =>
        obtain ⟨_, pauses⟩ := self.pauseIdle_of inv stored active
          (facts.actingQuiet acting).1 .ttlExpired now
        cases paused.symm.trans pauses
    · exact suspended later found
  | some =>
    rw [paused] at found
    obtain ⟨_, _, _, _, finds, _⟩ := self.pauseIdle_writes paused
    simp only [Option.elim_some, finds, update_apply] at found
    split at found
    · cases found
      rfl
    · rename_i apart
      rcases either with ⟨same, _⟩ | suspended
      · exact absurd same.symm apart
      · exact suspended later found

theorem expireActingTtls_suspends (expired : program ∈ self.expiredActing state now) :
    (self.expireActingTtls state now).Suspended program := by
  -- A Program that is still to be expired stays acting until its turn.
  have loop : Commits self state (self.expireActingTtls state now) ∧
      (∀ other ∈ ([] : List ProgramRef), Acting (self.expireActingTtls state now) other) ∧
      (program ∈ ([] : List ProgramRef) ∨ (self.expireActingTtls state now).Suspended program) := by
    apply foldl_invariant fun rest next =>
      Commits self state next ∧ (∀ other ∈ rest, Acting next other) ∧
        (program ∈ rest ∨ next.Suspended _)
    · exact ⟨.refl, self.expiredActing_acting inv, .inl expired⟩
    · rintro item _ _ ⟨taken, acting, pending⟩
      have current := acting item List.mem_cons_self
      obtain ⟨expires, kept⟩ := self.expireActingTtl_commits now current
      refine ⟨taken.trans expires, fun _ member =>
        kept _ (acting _ (List.mem_cons_of_mem item member)), ?_⟩
      rcases pending with member | suspended
      · rcases List.mem_cons.mp member with rfl | later
        · exact .inr (expireActingTtl_suspends (taken.inv inv) now (.inl ⟨rfl, current⟩))
        · exact .inl later
      · exact .inr (expireActingTtl_suspends (taken.inv inv) now (.inr suspended))
  rcases loop.2.2 with impossible | suspended
  · cases impossible
  · exact suspended

omit inv in
omit [F64 F] in
theorem suspended_of_schedules (taken : Schedules globalMode state next)
    (inv : state.Inv globalMode) (quiet : state.waiting program = [])
    (suspended : state.Suspended program) : next.Suspended program := by
  refine (taken.evolves.keeps_card (fun card => card.requests = [] ∧
    ∀ record, card.program = some record → record.state = .paused) inv _ ?_
    ⟨quiet, suspended⟩).2
  rintro _ _ _ allowed _ stepped ⟨empty, paused⟩
  refine ⟨(stepped.requests_scheduling allowed).trans empty, ?_⟩
  cases stepped with
  | stay => exact paused
  | activate _ _ _ _ _ waiting => exact absurd empty waiting
  | pause =>
    rintro _ ⟨⟩
    rfl
  | release => exact nofun
  | arrivePlaced | arriveHomeless | arriveQueued | unmark | dispatch | complete | cancel | extend
  | failOver | shrink | lose => exact allowed.elim

variable {record : RuntimeProgram} {deadline : Instant}
  (found : state.runtime.find program = some record) (active : record.state = .active)
  (acting : record.status = .acting) (decided : state.decisions.lookup program = some decision)
  (armed : decision.ttlDeadline = some deadline) (due : deadline ≤ now)

include found active acting decided armed due

theorem mem_expiredActing : program ∈ self.expiredActing state now := by
  obtain ⟨_, _, facts⟩ := inv.decision found
  obtain ⟨view, scanned, rfl⟩ := exists_iterViews self.order found
  obtain ⟨_, stored, _, state_is, status_is, idle_is, _⟩ :=
    mem_iterViews inv.stored scanned
  cases found.symm.trans stored
  refine List.mem_map.mpr ⟨view, List.mem_filter.mpr ⟨scanned, ?_⟩, rfl⟩
  simp [← state_is, ← status_is, ← idle_is, active, acting, (facts.actingQuiet acting).1, decided,
    armed, due]

theorem tick_suspends (ticked : self.tick state now = .ok next) : next.Suspended program := by
  obtain ⟨pruned, expires, settles⟩ := (self.tick_expires inv now).2.ok_of ticked
  have prunedInv := pruned.inv inv
  obtain ⟨_, _, facts⟩ := inv.decision found
  have expired : program ∈ self.expiredActing (self.prunedState state now) now :=
    mem_expiredActing prunedInv found active acting decided armed due
  have quiet : (self.expireActingTtls (self.prunedState state now) now).waiting program = [] := by
    rw [(expires.schedules prunedInv).waiting prunedInv]
    exact (facts.actingQuiet acting).2
  exact suspended_of_schedules (settles.schedules (expires.inv prunedInv)) (expires.inv prunedInv)
    quiet (expireActingTtls_suspends prunedInv expired)

end ProgramScheduler

end Expiry

/-- Nothing quiet is without a time that ends it. A quiet active Program has an
armed deadline, and a tick at that deadline takes it off its target; a paused
Program, which holds no target, knows since when it is paused. -/
structure TimerLaw [AffinityTree T] (setup : Setup F) (state : ProgramSchedulerState F T) :
    Prop where
  active : ∀ key program, state.runtime.programs.lookup key = some program →
    program.state = .active →
      program.inFlightRequests ≠ 0 ∨ state.runtime.requestPool.queue program.reference ≠ [] ∨
        ∃ decision deadline, state.decisions.lookup program.reference = some decision ∧
          decision.ttlDeadline = some deadline
  paused : ∀ key program, state.runtime.programs.lookup key = some program →
    program.state = .paused → program.placement = none ∧
      ∃ decision pausedAt, state.decisions.lookup program.reference = some decision ∧
        decision.pausedAt = some pausedAt
  ends : ∀ key program decision deadline order now output next,
    state.runtime.programs.lookup key = some program → program.state = .active →
    program.inFlightRequests = 0 → state.runtime.requestPool.queue program.reference = [] →
    state.decisions.lookup program.reference = some decision →
    decision.ttlDeadline = some deadline → deadline ≤ now →
    (setup.scheduler order).step state (.tick now) = .ok (output, next) →
      ∀ later, next.runtime.programs.lookup key = some later →
        later.reference = program.reference → later.state = .paused

section Runs

variable [AffinityTree T] {setup : Setup F} {trace : List (Event F × Output F)}
  {state : ProgramSchedulerState F T}

theorem Run.timed (run : Run setup trace state) : state.Timed := by
  induction run with
  | start => exact fun _ _ found => nomatch found
  | next _ run stepped ih => exact step_timed (run.sound _) ih stepped

theorem run_timerLaw (run : Run setup trace state) : TimerLaw setup state := by
  have inv := (run.sound .filled).inv
  have live key program (stored : state.runtime.programs.lookup key = some program) :
      state.runtime.find program.reference = some program :=
    find_eq_some.mpr ⟨inv.stored key _ stored ▸ stored, rfl⟩
  refine ⟨?_, ?_, ?_⟩
  · intro key program stored active
    obtain ⟨_, timer_is, covers⟩ := run.timed program.reference _ (live key _ stored)
    obtain ⟨decision, decided, rfl⟩ := Option.map_eq_some_iff.mp timer_is
    refine (covers.active active).imp_right (.imp_right ?_)
    rintro ⟨_, armed⟩
    obtain ⟨deadline, due⟩ := Option.isSome_iff_exists.mp armed
    exact ⟨decision, deadline, decided, due⟩
  · intro key program stored paused
    obtain ⟨_, _, facts⟩ := inv.decision (live key _ stored)
    obtain ⟨_, timer_is, covers⟩ := run.timed program.reference _ (live key _ stored)
    obtain ⟨decision, decided, rfl⟩ := Option.map_eq_some_iff.mp timer_is
    obtain ⟨pausedAt, since⟩ := Option.isSome_iff_exists.mp (covers.paused paused)
    refine ⟨?_, decision, pausedAt, decided, since⟩
    rw [← Option.not_isSome_iff_eq_none, ← facts.activePlaced, paused]
    exact nofun
  · intro key program _ _ _ _ _ _ stored active idle empty decided armed
      due stepped later after same
    obtain ⟨_, _, covers⟩ := run.timed program.reference _ (live key _ stored)
    have acting : program.status = .acting := by
      rcases covers.active active with busy | waiting | ⟨acting, _⟩
      · exact absurd idle busy
      · exact absurd empty waiting
      · exact acting
    obtain ⟨_, ticked, ⟨⟩⟩ := bind_eq_ok stepped
    refine tick_suspends inv (live key _ stored) active acting decided armed due ticked _ ?_
    exact find_eq_some.mpr ⟨by rw [inv.stored key program stored]; exact after, same⟩

/-- A request declares a retention of seven and completes at three: its Program
stays on the target until a tick at ten. -/
theorem run_timerLaw_retained :
    ∃ trace state output next, Run (Sample.router false false) trace state ∧
      ((Sample.router false false).scheduler .filled).step state (.tick 10) =
        .ok (output, (next : Sample.State)) ∧
      (state.runtime.find ⟨"pool", "program", 0⟩).map (fun program =>
        (program.state, program.inFlightRequests)) = some (.active, 0) ∧
      state.runtime.requestPool.queue ⟨"pool", "program", 0⟩ = [] ∧
      (next.runtime.find ⟨"pool", "program", 0⟩).map (·.state) = some .paused ∧
      TimerLaw (Sample.router false false) state := by
  obtain ⟨trace, state, output, next, run, stepped, active, empty, paused⟩ :=
    Sample.step_of_play (Sample.router false false)
      [.sync (Sample.snapshot 0 "pool" ["target"]),
        .arrive
          { Sample.arrival "pool" "program" 1 with
            identity :=
              { (Sample.arrival "pool" "program" 1).identity with
                requestHints := { kvRetentionTtl := some 7 } } } 1,
        .claim ⟨⟨"pool", "program", 0⟩, 1, 0⟩ 2,
        .complete ⟨⟨"pool", "program", 0⟩, "target", 1, 1, 2, 1, true, none,
          { kvRetentionTtl := some 7 }⟩ true false {} none 3]
      (.tick 10)
      (fun state next => (state.runtime.find ⟨"pool", "program", 0⟩).map (fun program =>
          (program.state, program.inFlightRequests)) = some (.active, 0) ∧
        state.runtime.requestPool.queue ⟨"pool", "program", 0⟩ = [] ∧
        (next.runtime.find ⟨"pool", "program", 0⟩).map (·.state) = some .paused) (by decide +kernel)
  exact ⟨trace, state, output, next, run, stepped, active, empty, paused, run_timerLaw run⟩

end Runs

end SmetricRouter.ProgramScheduling
