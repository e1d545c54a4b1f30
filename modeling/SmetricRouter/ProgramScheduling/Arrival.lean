import SmetricRouter.ProgramScheduling.Completion

/-! The lock-held sections of one acquisition: arrival, claim and cancellation.

An acquisition retains its request in one section, claims it in a later one and
cancels it when it gives up. Between the sections other tasks may take the
lock.
-/

namespace SmetricRouter.ProgramScheduling.ProgramScheduler

variable {F T : Type} [F64 F] [AffinityTree T] (self : ProgramScheduler F)

def describe (identity : ProgramIdentity) (stepId : Nat) (decision : ProgramDecisionState F) :
    ProgramDecisionState F :=
  { decision with
    taskId := identity.taskId
    sessionId := identity.sessionId
    agentId := identity.agentId
    parentProgramId := identity.parentProgramId
    blocksParent := identity.blocksParent
    agentRole := identity.agentRole
    spawnReason := identity.spawnReason
    outputTokenReservation := identity.requestHints.expectedOutputTokens
    stepId := stepId }

def refreshDecision (identity : ProgramIdentity) (estimatedContextTokens : Nat)
    (decision : ProgramDecisionState F) : ProgramDecisionState F :=
  let grown :=
    if decision.estimatedContextTokens ≤ estimatedContextTokens then
      { decision with
        estimatedContextTokens := estimatedContextTokens
        contextShrinkObservations := 0 }
    else decision
  describe identity (identity.stepId.getD (saturatingAdd decision.stepId 1)) grown

variable (state : ProgramSchedulerState F T)

def ensureDecisionState (identity : ProgramIdentity) (reference : ProgramRef)
    (estimatedContextTokens : Nat) (now : Instant) (routingText : Option String) :
    Except Fault (ProgramSchedulerState F T) := do
  let (_, lineage) ← state.lineage.observe identity.modelPool identity.programId
    identity.parentProgramId identity.rootProgramId
  let observed := { state with lineage := lineage }
  match observed.decisions.lookup reference with
  | some _ =>
    return observed.modifyDecision reference (refreshDecision identity estimatedContextTokens)
  | none =>
    let candidates := self.bindingCandidates observed identity now
    let (homeTarget, bindings) ←
      observed.bindings.bind self.fbiHash identity candidates routingText
    let decision := describe identity (identity.stepId.getD 0)
      (ProgramDecisionState.new identity.placementKey identity.placementHashKey homeTarget
        estimatedContextTokens now)
    return { observed with
      bindings := bindings
      decisions := observed.decisions.insert reference decision }

variable (reference : ProgramRef)

def sampleContinuity (arrivedAt : Instant) : ProgramSchedulerState F T :=
  let idle := (state.runtime.view reference).any fun runtime => runtime.inFlightRequests == 0
  let sample := if idle then
      (state.decisions.lookup reference).bind fun decision =>
        decision.lastRequestFinishedAt.bind fun finishedAt =>
          decision.lastTarget.map fun target =>
            (target, (⟨F64.asSecs (arrivedAt - finishedAt),
              decision.lastCacheMissImpactSeconds⟩ : ContinuitySample F))
    else none
  match sample with
  | none => state
  | some (target, sample) =>
    if F64.isFinite sample.intervalSeconds ∧ F64.lit 0 ≤ sample.intervalSeconds then
      { state with
        rankFactors := state.rankFactors.update target fun factors =>
          factors.pushContinuity sample self.config.progressTtl.statsWindowSize }
    else state

def enqueueArrival (modelPool : String) (reference : ProgramRef) (targetId : String)
    (arrivedAt : Instant) : Except Fault (ProgramSchedulerState F T) :=
  let queued :=
    if self.config.globalQueue then
      { state with
        globalQueues := state.globalQueues.update modelPool fun queue =>
          pushWaiter queue reference }
    else
      { state with
        rankQueues := state.rankQueues.update targetId fun queue => pushWaiter queue reference }
  let stamped := queued.modifyDecision reference fun decision =>
    { decision with queuedAt := decision.queuedAt.or (some arrivedAt) }
  self.setForceResumeDeadline stamped targetId reference arrivedAt

def accountGrowth (placement : String) (previousTokens currentTokens : F) :
    ProgramSchedulerState F T :=
  if ((state.decisions.lookup reference).any fun decision => !decision.pauseWhenIdle)
      ∧ previousTokens < currentTokens then
    adjustUsage state placement (currentTokens - previousTokens)
  else state

def bindingOnlyPlan : RankAdmissionPlan F :=
  ⟨F64.lit 0, F64.lit 0, F64.lit 0, self.config.progressTtl.tokenCapacity, false, false, true⟩

def activateBindingOnly (program : ProgramRef) (now : Instant) : ProgramSchedulerState F T :=
  if (state.runtime.view program).any fun view => view.state == .active then
    { state with runtime := state.runtime.notifyFront program }
  else
    match (state.decisions.lookup program).bind (·.lastTarget) with
    | none => state
    | some targetId => self.commitAdmission state program targetId self.bindingOnlyPlan now

def decideArrival (arrivedAt activatedAt : Instant) : Except Fault (ProgramSchedulerState F T) :=
  if self.config.bindingOnly then .ok (self.activateBindingOnly state reference activatedAt)
  else self.runRequestArrivalDecisions state arrivedAt

/-- The first lock-held section of an acquisition.

The request is retained before its target is known, and a Program without a
target makes the section return an error with the request still retained. -/
def arrive (identity : ProgramIdentity) (estimatedContextTokens : Nat) (routingText : Option String)
    (arrivedAt activatedAt : Instant) :
    Except Fault (Except ScheduleError ProgramRequestHandle × ProgramSchedulerState F T) := do
  let (handle, runtime) :=
    state.runtime.retainRequest identity estimatedContextTokens routingText arrivedAt
  let reference := handle.program
  let sampled := self.sampleContinuity { state with runtime := runtime } reference arrivedAt
  let previousTokens :=
    ((sampled.decisions.lookup reference).map self.privateTokens).getD (F64.lit 0)
  let ensured ← self.ensureDecisionState sampled identity reference estimatedContextTokens
    arrivedAt routingText
  let decision ← ensured.decisionAt reference
  match (ensured.runtime.view reference).bind (·.placement) with
  | some placement =>
    let grown := accountGrowth ensured reference placement previousTokens
      (self.privateTokens decision)
    let decided ← self.decideArrival grown reference arrivedAt activatedAt
    return (.ok handle, decided)
  | none =>
    match decision.lastTarget with
    | none => return (.error .noTargets, ensured)
    | some targetId =>
      let queued ← self.enqueueArrival ensured identity.modelPool reference targetId arrivedAt
      let decided ← self.decideArrival queued reference arrivedAt activatedAt
      return (.ok handle, decided)

def claimDispatch (handle : ProgramRequestHandle) (now : Instant) :
    Option ProgramDispatch × ProgramSchedulerState F T :=
  match state.runtime.placement handle.program with
  | none => (none, state)
  | some target =>
    let (dispatch, runtime) := state.runtime.admitFront handle target now
    let admitted := { state with runtime := runtime }
    match dispatch with
    | none => (none, admitted)
    | some dispatch =>
      match dispatch.routingText with
      | none => (some dispatch, admitted)
      | some text =>
        (some dispatch,
          { admitted with
            bindings := admitted.bindings.commitPlacement dispatch.program text dispatch.targetId })

def cancelledDecision (now : Instant) (decision : ProgramDecisionState F) :
    ProgramDecisionState F :=
  { decision with
    pausedAt := some now
    lastPauseReason := some .requestCancelled
    roundsSinceActivation := 0
    pauseWhenIdle := false }.restartSharedPrefixFreshness now

def accountCancellation (before : ProgramSchedulerState F T) (state : ProgramSchedulerState F T)
    (program : ProgramRef) (pausedAt : Instant) : ProgramSchedulerState F T :=
  match before.runtime.view program, state.runtime.view program,
      state.decisions.lookup program with
  | some viewBefore, some viewAfter, some decision =>
    match decision.lastTarget with
    | none => state
    | some targetId =>
      if viewBefore.state = .active ∧ viewAfter.state = .paused then
        (adjustUsage state targetId (-self.privateTokens decision)).modifyDecision program
          (cancelledDecision pausedAt)
      else state
  | _, _, _ => state

def removeUnstarted (program : ProgramRef) (releasedAt : Instant) : ProgramSchedulerState F T :=
  let view := state.runtime.view program
  let dequeued :=
    if view.any fun view => decide (0 < view.waitingRequests) then state
    else state.dequeue program
  if (view.any fun view => view.inFlightRequests == 0 && view.waitingRequests == 0)
      ∧ (state.decisions.lookup program).any fun decision => decision.completedRequests == 0 then
    self.releaseProgram dequeued program releasedAt
  else dequeued

/-- Cancel the request of a handle, with the clock readings of its three
sections. The flag says whether the request was still retained. -/
def cancelRetainedRequest (handle : ProgramRequestHandle)
    (pausedAt releasedAt scheduledAt : Instant) : Except Fault (Bool × ProgramSchedulerState F T) :=
  match state.runtime.cancelRequest handle with
  | none => .ok (false, state)
  | some runtime => do
    let cancelled := self.accountCancellation state { state with runtime := runtime }
      handle.program pausedAt
    let removed := self.removeUnstarted cancelled handle.program releasedAt
    let scheduled ← self.scheduleWaiting removed scheduledAt
    return (true, scheduled)

end SmetricRouter.ProgramScheduling.ProgramScheduler
