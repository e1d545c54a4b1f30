import SmetricRouter.ProgramScheduling.ResumeMoves

/-! Completion, cancellation and claim as moves of the machine.

Each of these events either changes nothing or is one move of its own, followed
by commits.
-/

namespace SmetricRouter.ProgramScheduling

open ProgramSchedulerState ProgramRuntime Ensures

variable {F T : Type}

/-- Nothing that the machine, the binding policy or the lineage sees differs. -/
structure Unseen (state next : ProgramSchedulerState F T) : Prop where
  core : next.core = state.core
  bindings : next.bindings = state.bindings
  lineage : next.lineage = state.lineage

variable {state next : ProgramSchedulerState F T}

theorem Unseen.schedules (unseen : Unseen state next)
    (globalMode : Bool) : Schedules globalMode state next :=
  .of_core unseen.core unseen.bindings unseen.lineage

theorem Unseen.inv {globalMode : Bool}
    (unseen : Unseen state next) (inv : state.Inv globalMode) : next.Inv globalMode :=
  (unseen.schedules globalMode).inv inv

/-- One move of its own, then scheduling decisions. -/
structure Follows (globalMode : Bool) (label : Label) (state next : ProgramSchedulerState F T) :
    Prop where
  moves : ∃ middle, Move globalMode state.core label middle ∧
    Evolves globalMode Label.scheduling middle next.core
  policy : next.bindings.policy = state.bindings.policy
  lineage : next.lineage = state.lineage

namespace ProgramScheduler

variable [F64 F] (self : ProgramScheduler F) {globalMode : Bool} {target : String}

section Yield

theorem yieldWaiters_returns (inv : state.Inv globalMode) {program : ProgramRef} (now : Instant) :
    Returns (self.yieldWaiters state program target now) fun _ => True := by
  unfold yieldWaiters
  split
  · apply bind (orderCandidates_perm (self.localResumeCmp _ now)
      ((decided_globalQueue inv program.modelPool).filter (awaitsResume _)))
    exact fun _ _ => pure trivial
  · exact mono (orderCandidates_perm (self.localResumeCmp _ now)
      ((decided_rankQueue inv _).filter (awaitsResume _))) fun _ _ => trivial

theorem yieldCompletedSegment_commits (inv : state.Inv globalMode) (program : ProgramRef)
    (now : Instant) :
    Returns (self.yieldCompletedSegment state program now) (Commits self state) := by
  fun_cases yieldCompletedSegment self state program now with
  | case3 _ _ _ seen guards _ =>
    simp only [ne_eq, not_or, not_not] at guards
    apply bind (self.yieldWaiters_returns inv now)
    intro _ _
    split
    · exact Commits.refl
    · simp only
      split
      · obtain ⟨record, found, _, status, _⟩ := view_some seen
        cases paused : self.pauseIdle state program .maxSegmentYield now with
        | none => exact Commits.refl
        | some next =>
          exact Commits.one (.pause _ .maxSegmentYield now next
            ⟨record, found, status.trans guards.2.1⟩ paused)
      · exact Commits.refl
  | _ => exact Commits.refl

end Yield

variable {decision : ProgramDecisionState F}

section Completion

omit [F64 F] in
theorem standing_observeUsage (decision : ProgramDecisionState F) (usage : ProgramUsageObservation)
    (facts : CompletionFacts F) :
    (observeUsage decision usage facts).standing = decision.standing := by
  unfold observeUsage ProgramDecisionState.observeCompletedContext
  simp only
  split_ifs <;> rfl

variable {dispatch : ProgramDispatch} {usage : ProgramUsageObservation}
  {action : Option CompletionAction}

theorem standing_recordCompletion (facts : CompletionFacts F) (now : Instant)
    (decision : ProgramDecisionState F) :
    (recordCompletion dispatch usage facts action now decision).standing = decision.standing := by
  rw [← standing_observeUsage decision usage facts]
  unfold recordCompletion startSegment recordSuccess
  simp only
  split_ifs <;> rfl

variable {facts : CompletionFacts F} {now : Instant}

theorem settleCompletion_frame {accountedBefore : F} (settles :
      self.settleCompletion state dispatch usage facts action accountedBefore now = .ok next) :
    next.runtime = state.runtime ∧
      next.decisions = state.decisions.modify dispatch.program
        (recordCompletion dispatch usage facts action now) ∧
      next.bindings = state.bindings ∧ next.lineage = state.lineage ∧ SameTargets state next := by
  have settled : Ensures (fun _ => True)
      (self.settleCompletion state dispatch usage facts action accountedBefore now) fun next =>
        next.runtime = state.runtime ∧
          next.decisions = state.decisions.modify dispatch.program
            (recordCompletion dispatch usage facts action now) ∧
          next.bindings = state.bindings ∧ next.lineage = state.lineage ∧
          SameTargets state next := by
    unfold settleCompletion
    simp only [pure_bind]
    split
    · refine bind (unclaimed _) fun _ _ => ?_
      split
      · split <;> exact pure ⟨rfl, rfl, rfl, rfl, ⟨rfl, rfl⟩⟩
      · exact pure ⟨rfl, rfl, rfl, rfl, ⟨rfl, rfl⟩⟩
    · split
      · split <;> exact pure ⟨rfl, rfl, rfl, rfl, ⟨rfl, rfl⟩⟩
      · exact pure ⟨rfl, rfl, rfl, rfl, ⟨rfl, rfl⟩⟩
  exact settled.ok_of settles

theorem window_returns {accounted : ProgramSchedulerState F T} (unseen : Unseen state accounted)
    (facts : CompletionFacts F) (now : Instant) :
    Returns (match state.decisions.lookup dispatch.program with
      | some before =>
        if facts.success then
          pure { accounted with
            rankFactors := accounted.rankFactors.update dispatch.targetId fun factors =>
              factors.pushRequest (completionSample before
                (recordCompletion dispatch usage facts action now before) dispatch usage facts now)
                self.config.progressTtl.statsWindowSize }
        else pure accounted
      | none => (pure accounted : Except Fault _)) (Unseen state) := by
  split
  · split
    · exact pure ⟨unseen.core, unseen.bindings, unseen.lineage⟩
    · exact pure unseen
  · exact pure unseen

theorem settleCompletion_returns (inv : state.Inv globalMode)
    (usage : ProgramUsageObservation) (facts : CompletionFacts F)
    (accountedBefore : F) (now : Instant) :
    Returns (self.settleCompletion state dispatch usage facts action accountedBefore now)
      (Unseen state) := by
  have recorded : Unseen state (state.modifyDecision dispatch.program
      (recordCompletion dispatch usage facts action now)) :=
    ⟨core_modifyDecision_same _ dispatch.program (standing_recordCompletion facts now), rfl, rfl⟩
  unfold settleCompletion
  simp only
  split
  · rename_i active
    simp only [Option.any_eq_true] at active
    obtain ⟨_, seen, _⟩ := active
    obtain ⟨_, found, _⟩ := view_some seen
    obtain ⟨decision, decided, _⟩ := (recorded.inv inv).decision found
    rw [decisionAt_of decided]
    refine self.window_returns ?_ facts now
    exact ⟨recorded.core, rfl, rfl⟩
  · exact self.window_returns recorded _ now

variable {action : Option CompletionAction} {success : Bool}

theorem pauseCompleted_commits {program : ProgramRef} (now : Instant)
    (acting : ∀ reason, action = some (.pause reason) → Acting state program) :
    Commits self state (self.pauseCompleted state program action now) := by
  unfold pauseCompleted
  split
  · rename_i reason
    cases paused : self.pauseIdle state program reason now with
    | none => exact .refl
    | some next => exact .one (.pause _ _ now next (acting _ rfl) paused)
  · exact .refl

def releaseCompleted (state : ProgramSchedulerState F T) (dispatch : ProgramDispatch)
    (action : Option CompletionAction) (now : Instant) : ProgramSchedulerState F T :=
  if action = some .terminate then self.releaseProgram state dispatch.program now else state

theorem releaseCompleted_commits {dispatch : ProgramDispatch} (now : Instant)
    (quiet : action = some .terminate → Quiet state dispatch.program) :
    Commits self state (self.releaseCompleted state dispatch action now) := by
  unfold releaseCompleted
  split
  · rename_i terminates
    exact .one (.release dispatch.program now (quiet terminates))
  · exact .refl

theorem finishCompletion_commits
    {now : Instant} (inv : (self.releaseCompleted state dispatch action now).Inv globalMode) :
    Returns (self.finishCompletion state dispatch action now)
      (Commits self (self.releaseCompleted state dispatch action now)) := by
  unfold finishCompletion
  simp only
  split
  · exact Commits.refl
  · exact self.yieldCompletedSegment_commits inv dispatch.program now

omit [F64 F] in
theorem completionAction_some {after : Option RuntimeProgramView} {action : CompletionAction}
    (taken : completionAction decision success after = some action) :
    ∃ view, after = some view ∧ view.inFlightRequests = 0 ∧ view.waitingRequests = 0 := by
  obtain ⟨view, quiet, _⟩ := Option.map_eq_some_iff.mp taken
  obtain ⟨seen, guards⟩ := Option.filter_eq_some_iff.mp quiet
  simp only [Bool.and_eq_true, beq_iff_eq] at guards
  exact ⟨view, seen, guards⟩

theorem acting_of_completeRequest {runtime next : ProgramRuntime}
    (completed : runtime.completeRequest dispatch usage = some next) {view : RuntimeProgramView}
    (seen : next.view dispatch.program = some view) (idle : view.inFlightRequests = 0)
    (empty : view.waitingRequests = 0) :
    ∃ record, next.find dispatch.program = some record ∧ record.status = .acting ∧
      record.inFlightRequests = 0 ∧ next.requestPool.queue dispatch.program = [] := by
  obtain ⟨record, found, _, _, _, inFlight, waiting⟩ := view_some seen
  have drained : next.requestPool.queue dispatch.program = [] :=
    List.length_eq_zero_iff.mp (waiting.trans empty)
  refine ⟨record, found, ?_, inFlight.trans idle, drained⟩
  obtain ⟨before, stored, _, _, rfl⟩ := completeRequest_some completed
  obtain ⟨_, exact⟩ := find_eq_some.mp stored
  obtain ⟨written, _⟩ := find_eq_some.mp found
  simp only [Table.lookup_insert_eq, if_true, Option.some.injEq] at written
  subst written
  have last : before.inFlightRequests - 1 = 0 := inFlight.trans idle
  have none_waiting : runtime.requestPool.programLen before.reference = 0 := by
    rw [exact]
    exact waiting.trans empty
  simp [last, none_waiting]

def markedState (state : ProgramSchedulerState F T) (runtime : ProgramRuntime)
    (dispatch : ProgramDispatch) (terminate : Bool) : ProgramSchedulerState F T :=
  { state with runtime := runtime }.modifyDecision dispatch.program
    (markCompletion terminate (runtime.view dispatch.program))

/-- An accepted completion, section by section. -/
structure Completes (scheduler : ProgramScheduler F) (state : ProgramSchedulerState F T)
    (dispatch : ProgramDispatch) (terminate : Bool) (usage : ProgramUsageObservation) (now : Instant)
    (next : ProgramSchedulerState F T) (runtime : ProgramRuntime)
    (decision : ProgramDecisionState F) (facts : CompletionFacts F)
    (action : Option CompletionAction) (settled : ProgramSchedulerState F T) : Prop where
  placed : state.runtime.placement dispatch.program = some dispatch.targetId
  decided : state.decisions.lookup dispatch.program = some decision
  completed : state.runtime.completeRequest dispatch usage = some runtime
  acts : ∃ success, action = completionAction
    (markCompletion terminate (runtime.view dispatch.program) decision) success
    (runtime.view dispatch.program)
  pauses : ∀ reason, action = some (.pause reason) →
    Acting (markedState state runtime dispatch terminate) dispatch.program
  settles : scheduler.settleCompletion
    (scheduler.pauseCompleted (markedState state runtime dispatch terminate) dispatch.program action
      now)
    dispatch usage facts action (scheduler.privateTokens decision) now = .ok settled
  releases : action = some .terminate → Quiet settled dispatch.program
  finishes : Commits scheduler (scheduler.releaseCompleted settled dispatch action now) next

omit [F64 F] in
theorem core_markedState (runtime : ProgramRuntime) (dispatch : ProgramDispatch)
    (terminate : Bool) :
    (markedState state runtime dispatch terminate).core = { state.core with runtime := runtime } :=
  core_modifyDecision_same { state with runtime := runtime } dispatch.program fun _ => rfl

section Completed

variable {self} {terminate : Bool} {settled : ProgramSchedulerState F T} {runtime : ProgramRuntime}
  (completes : self.Completes state dispatch terminate usage now next runtime decision facts action settled)
include completes

theorem Completes.decides : Commits self settled next :=
  (self.releaseCompleted_commits now completes.releases).trans completes.finishes

theorem Completes.moved : Move globalMode state.core (.complete dispatch usage)
    (markedState state runtime dispatch terminate).core := by
  rw [core_markedState]
  exact .complete _ _ _ completes.placed completes.completed

theorem Completes.schedules (inv : state.Inv globalMode) :
    Schedules globalMode (markedState state runtime dispatch terminate) settled := by
  have pausing := self.pauseCompleted_commits now completes.pauses
  have unseen := (self.settleCompletion_returns (pausing.inv (completes.moved.inv inv))
    usage facts (self.privateTokens _) now).ok_of completes.settles
  exact (pausing.schedules (completes.moved.inv inv)).trans (unseen.schedules _)

theorem Completes.follows (inv : state.Inv globalMode) :
    Follows globalMode (.complete dispatch usage) state next := by
  have settling := completes.schedules inv
  have after := settling.trans
    (completes.decides.schedules (settling.inv (completes.moved.inv inv)))
  exact ⟨⟨_, completes.moved, after.evolves⟩, after.policy, after.lineage⟩

end Completed

/-- The state in which `complete` takes its decisions. -/
def settledState (state : ProgramSchedulerState F T) (dispatch : ProgramDispatch)
    (success terminate : Bool) (usage : ProgramUsageObservation) (decodeSeconds : Option F)
    (now : Instant) : Except Fault (ProgramSchedulerState F T) :=
  match state.decisions.lookup dispatch.program,
      state.runtime.completeRequest dispatch usage with
  | some decision, some runtime =>
    let action := completionAction
      (markCompletion terminate (runtime.view dispatch.program) decision) success
      (runtime.view dispatch.program)
    self.settleCompletion
      (self.pauseCompleted (markedState state runtime dispatch terminate) dispatch.program action
        now)
      dispatch usage (self.completionFacts state dispatch decision success usage decodeSeconds)
      action (self.privateTokens decision) now
  | _, _ => .ok state

theorem complete_completes (inv : state.Inv globalMode) {terminate : Bool}
    (decodeSeconds : Option F) (now : Instant) :
    Returns (self.complete state dispatch success terminate usage decodeSeconds now) fun next =>
      (next = state ∧ (state.runtime.placement dispatch.program ≠ some dispatch.targetId ∨
        state.runtime.completeRequest dispatch usage = none)) ∨
      ∃ runtime decision facts action settled, self.Completes state dispatch terminate usage now
          next runtime decision facts action settled ∧
        self.settledState state dispatch success terminate usage decodeSeconds now =
          .ok settled := by
  unfold complete
  split
  · rename_i before decision seen decided
    have placement := view_placement state.runtime dispatch.program
    rw [seen, Option.bind_some] at placement
    split
    · rename_i elsewhere
      rw [placement] at elsewhere
      exact .inl ⟨rfl, .inl elsewhere⟩
    · rename_i placed
      rw [not_not, placement] at placed
      cases completed : state.runtime.completeRequest dispatch usage with
      | none => exact .inl ⟨rfl, .inr rfl⟩
      | some runtime =>
        simp only
        generalize measured :
          self.completionFacts state dispatch decision success usage decodeSeconds = facts
        have markedInv : (markedState state runtime dispatch terminate).Inv globalMode := by
          refine inv_of_core (core_markedState _ _ _) ?_
          exact (Move.complete _ _ _ placed completed).inv inv
        generalize taken : completionAction
          (markCompletion terminate (runtime.view dispatch.program) decision) success
          (runtime.view dispatch.program) = action
        have quiet : ∀ chosen, action = some chosen →
            ∃ record, runtime.find dispatch.program = some record ∧
              record.status = .acting ∧ record.inFlightRequests = 0 ∧
              runtime.requestPool.queue dispatch.program = [] := by
          intro _ some_action
          obtain ⟨view, after, idle, empty⟩ := completionAction_some (taken.trans some_action)
          exact acting_of_completeRequest completed after idle empty
        have acting : ∀ reason, action = some (.pause reason) →
            Acting (markedState state runtime dispatch terminate) dispatch.program := by
          intro _ pauses
          obtain ⟨record, found, acting, _⟩ := quiet _ pauses
          exact ⟨record, found, acting⟩
        have pausing := self.pauseCompleted_commits now acting
        obtain ⟨settled, settles, unseen⟩ := (self.settleCompletion_returns
          (pausing.inv markedInv) _ _ (self.privateTokens _)
          now).exists_ok
        have settledInv := unseen.inv (pausing.inv markedInv)
        have released : action = some .terminate → Quiet settled dispatch.program := by
          rintro rfl
          have unpaused : settled.runtime = runtime := congrArg Core.runtime unseen.core
          obtain ⟨_, found, _, idle, empty⟩ := quiet _ rfl
          intro _ stored
          rw [unpaused, found] at stored
          cases stored
          rw [unpaused]
          exact ⟨idle, empty⟩
        have settling := settles
        unfold markedState at settling
        rw [settling]
        have releasedInv := (self.releaseCompleted_commits now released).inv settledInv
        apply bind (self.finishCompletion_commits releasedInv)
        intro _ finishing
        refine mono (self.runPeriodicDecisions_commits (finishing.inv releasedInv) now) ?_
        intro _ deciding
        refine .inr ⟨runtime, decision, facts, action, settled, ⟨placed, decided, completed,
          ⟨success, taken.symm⟩, acting, settles, released, finishing.trans deciding⟩, ?_⟩
        simp only [settledState, decided, completed, taken, measured, settles]
  · rename_i unknown
    refine .inl ⟨rfl, .inl ?_⟩
    cases seen : state.runtime.view dispatch.program with
    | none =>
      rw [← view_placement, seen]
      exact nofun
    | some _ =>
      obtain ⟨_, found, _⟩ := view_some seen
      obtain ⟨decision, decided, _⟩ := inv.decision found
      exact absurd decided (unknown _ _ seen)

end Completion

section Cancellation

variable (before : ProgramSchedulerState F T) (runtime : ProgramRuntime) (program : ProgramRef)
  (pausedAt : Instant)

theorem accountCancellation_cases :
    self.accountCancellation before state program pausedAt = state ∨ ∃ target tokens,
      self.accountCancellation before state program pausedAt =
        (adjustUsage state target tokens).modifyDecision program (cancelledDecision pausedAt) := by
  fun_cases accountCancellation self before state program pausedAt with
  | case2 => exact .inr ⟨_, _, rfl⟩
  | _ => exact .inl rfl

theorem accountCancellation_keeps {before : ProgramSchedulerState F T} {program : ProgramRef}
    (kept : ∀ old after, before.runtime.view program = some old →
      state.runtime.view program = some after → old.state = .active → after.state ≠ .paused)
    (pausedAt : Instant) : self.accountCancellation before state program pausedAt = state := by
  unfold accountCancellation
  split
  · rename_i old after _ seen left _
    split
    · rfl
    · exact if_neg fun paused => kept old after seen left paused.1 paused.2
  · rfl

theorem accountCancellation_refunds {runtime : ProgramRuntime} {program : ProgramRef}
    {old after : RuntimeProgram}
    (found : state.runtime.find program = some old) (active : old.state = .active)
    (left : runtime.find program = some after) (paused : after.state = .paused)
    (decided : state.decisions.lookup program = some decision)
    (last : decision.lastTarget = some target) (pausedAt : Instant) :
    self.accountCancellation state { state with runtime := runtime } program pausedAt =
      (adjustUsage { state with runtime := runtime } target
        (-self.privateTokens decision)).modifyDecision program (cancelledDecision pausedAt) := by
  simp [accountCancellation, view, found, left, decided, last, active, paused]

theorem accountCancellation_unseen :
    Unseen state (self.accountCancellation before state program pausedAt) := by
  rcases self.accountCancellation_cases before program pausedAt with same | ⟨_, _, refunded⟩
  · rw [same]
    exact ⟨rfl, rfl, rfl⟩
  · rw [refunded]
    exact ⟨core_modifyDecision_same _ _ fun _ => rfl, rfl, rfl⟩

def cancelledState (state : ProgramSchedulerState F T) (runtime : ProgramRuntime)
    (program : ProgramRef) (pausedAt : Instant) : ProgramSchedulerState F T :=
  let kept := self.accountCancellation state { state with runtime := runtime } program pausedAt
  if (runtime.view program).any fun view => decide (0 < view.waitingRequests) then kept
  else kept.dequeue program

theorem core_cancelledState :
    (self.cancelledState state runtime program pausedAt).core = state.core.cancel program runtime := by
  have accounted : Unseen { state with runtime := runtime } _ :=
    self.accountCancellation_unseen state program pausedAt
  unfold cancelledState Core.cancel
  split
  · rw [accounted.core, core_runtime]
  · rw [core_dequeue, accounted.core, core_runtime]

variable {handle : ProgramRequestHandle}

theorem cancelledState_inv (inv : state.Inv globalMode)
    {runtime : ProgramRuntime} (cancelled : state.runtime.cancelRequest handle = some runtime)
    (pausedAt : Instant) :
    (self.cancelledState state runtime handle.program pausedAt).Inv globalMode :=
  inv_of_core (self.core_cancelledState runtime handle.program pausedAt)
    ((Move.cancel handle runtime cancelled).inv inv)

theorem accountCancellation_runtime :
    (self.accountCancellation state { state with runtime := runtime } program pausedAt).runtime =
      runtime := by
  have accounted : Unseen { state with runtime := runtime } _ :=
    self.accountCancellation_unseen state program pausedAt
  exact congrArg Core.runtime accounted.core

theorem removeUnstarted_commits (releasedAt : Instant) :
    Commits self (self.cancelledState state runtime program pausedAt)
      (self.removeUnstarted (self.accountCancellation state { state with runtime := runtime }
        program pausedAt) program releasedAt) := by
  have left_runtime : (self.cancelledState state runtime program pausedAt).runtime = runtime := by
    unfold cancelledState
    split <;> exact self.accountCancellation_runtime runtime program pausedAt
  unfold removeUnstarted
  simp only [accountCancellation_runtime]
  split
  · rename_i unstarted
    have quiet := unstarted.1
    simp only [Option.any_eq_true, Bool.and_eq_true, beq_iff_eq] at quiet
    obtain ⟨_, seen, idle, empty⟩ := quiet
    obtain ⟨_, found, _, _, _, inFlight, waiting⟩ := view_some seen
    refine .one (.release _ _ ?_)
    intro _ stored
    rw [left_runtime, found] at stored
    cases stored
    rw [left_runtime]
    exact ⟨inFlight.trans idle, List.length_eq_zero_iff.mp (waiting.trans empty)⟩
  · exact .refl

theorem cancelRetainedRequest_commits (inv : state.Inv globalMode)
    {pausedAt releasedAt : Instant} (scheduledAt : Instant) :
    Returns (self.cancelRetainedRequest state handle pausedAt releasedAt scheduledAt) fun result =>
      (state.runtime.cancelRequest handle = none ∧ result = (false, state)) ∨
        (result.1 = true ∧ ∃ runtime, state.runtime.cancelRequest handle = some runtime ∧
          Commits self (self.cancelledState state runtime handle.program pausedAt) result.2) := by
  unfold cancelRetainedRequest
  cases cancelled : state.runtime.cancelRequest handle with
  | none => exact .inl ⟨rfl, rfl⟩
  | some runtime =>
    have releasing : Commits self (self.cancelledState state runtime handle.program pausedAt) _ :=
      self.removeUnstarted_commits runtime handle.program _ releasedAt
    have leftInv := releasing.inv (self.cancelledState_inv inv cancelled pausedAt)
    apply bind (self.scheduleWaiting_commits leftInv _)
    intro _ scheduled
    exact pure (.inr ⟨rfl, runtime, rfl, releasing.trans scheduled⟩)

theorem cancelledState_follows (inv : state.Inv globalMode)
    {runtime : ProgramRuntime} {pausedAt : Instant}
    (cancelled : state.runtime.cancelRequest handle = some runtime)
    (taken : Commits self (self.cancelledState state runtime handle.program pausedAt) next) :
    Follows globalMode (.cancel handle) state next := by
  have moved : Move globalMode state.core (.cancel handle)
      (self.cancelledState state runtime handle.program pausedAt).core := by
    rw [core_cancelledState]
    exact .cancel _ _ cancelled
  have after := taken.schedules (moved.inv inv)
  have frame : (self.cancelledState state runtime handle.program pausedAt).bindings =
        state.bindings ∧
      (self.cancelledState state runtime handle.program pausedAt).lineage = state.lineage := by
    have accounted : Unseen { state with runtime := runtime } _ :=
      self.accountCancellation_unseen state handle.program pausedAt
    unfold cancelledState
    split <;> exact ⟨accounted.bindings, accounted.lineage⟩
  refine ⟨⟨_, moved, after.evolves⟩, ?_, ?_⟩
  · rw [after.policy, frame.1]
  · rw [after.lineage, frame.2]

end Cancellation

end ProgramScheduler

end SmetricRouter.ProgramScheduling
