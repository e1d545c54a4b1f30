import SmetricRouter.ProgramScheduling.Lifecycle

/-! Request completion.

A completion is fenced three times before it changes anything: its exact
Program must be live, placed on the target of the dispatch, and still in the
placement epoch of the dispatch with a request in flight.
-/

namespace SmetricRouter.ProgramScheduling.ProgramScheduler

variable {F T : Type} [F64 F] [AffinityTree T] (self : ProgramScheduler F)

variable (state : ProgramSchedulerState F T)

def completionFacts (dispatch : ProgramDispatch) (decision : ProgramDecisionState F)
    (success : Bool) (usage : ProgramUsageObservation) (decodeSeconds : Option F) :
    CompletionFacts F :=
  let observedPromptTokens := usage.promptTokens.getD dispatch.estimatedContextTokens
  let factors := state.rankFactors.lookup dispatch.targetId
  let fallbackCachedTokens := (factors.map fun factors =>
    F64.toUsize (F64.round factors.averageCachedPromptTokens)).getD 0
  let sharedPrefixForCost := min decision.sharedPrefixTokens observedPromptTokens
  let cacheMissImpactSeconds :=
    self.config.progressTtl.cacheMissImpactSeconds (observedPromptTokens - sharedPrefixForCost)
  let policyActingTtl := (factors.map fun factors =>
    self.config.progressTtl.fittedActingTtl factors cacheMissImpactSeconds).getD 0
  { observedPromptTokens := observedPromptTokens
    cachedPromptTokens :=
      min (usage.cachedPromptTokens.getD fallbackCachedTokens) observedPromptTokens
    explicitlyObservedCacheTokens := min (usage.cachedPromptTokens.getD 0) observedPromptTokens
    cacheMissImpactSeconds := cacheMissImpactSeconds
    actingTtl := dispatch.requestHints.kvRetentionTtl.getD policyActingTtl
    freshness := self.sharedPrefixFreshness state dispatch.targetId
    success := success
    decodeSeconds := decodeSeconds }

variable (decision : ProgramDecisionState F)

def completionAction (success : Bool) (runtimeAfter : Option RuntimeProgramView) :
    Option CompletionAction :=
  (runtimeAfter.filter fun runtime =>
    runtime.inFlightRequests == 0 && runtime.waitingRequests == 0).map fun _ =>
      if decision.terminateWhenIdle then .terminate
      else if decision.pauseWhenIdle then .pause .capacityRepair
      else if ¬ success then .pause .requestFailed
      else .startActingTtl

def cacheContinuous (facts : CompletionFacts F) : Bool :=
  decision.lastContextTokens.all fun previous =>
    decide ((F64.lit 0.9 * F64.ofNat previous : F) ≤ F64.ofNat facts.cachedPromptTokens)

variable (dispatch : ProgramDispatch)

def startsNewSegment (facts : CompletionFacts F) : Bool :=
  dispatch.placementStartRequest &&
    (decision.lastContextTokens.isNone || !cacheContinuous decision facts)

variable (usage : ProgramUsageObservation)

def observeUsage (facts : CompletionFacts F) : ProgramDecisionState F :=
  if usage.promptTokens.isSome then decision.observeCompletedContext facts.observedPromptTokens
  else if decision.estimatedContextTokens ≤ facts.observedPromptTokens then
    { decision with
      estimatedContextTokens := facts.observedPromptTokens
      contextShrinkObservations := 0 }
  else decision

def startSegment (facts : CompletionFacts F) (freshnessDue : Bool) : ProgramDecisionState F :=
  let started :=
    { decision with
      segmentServedRounds := 0
      ttlPauseSampledSegmentRounds := 0
      segmentStartedAt := some dispatch.dispatchedAt }
  if freshnessDue then
    { started with
      sharedPrefixTokens := facts.explicitlyObservedCacheTokens
      sharedPrefixObserved := true
      sharedPrefixFreshUntil := some (decision.sharedPrefixFreshnessAnchorAt + facts.freshness) }
  else started

def recordSuccess (facts : CompletionFacts F) (continuous : Bool) (now : Instant) :
    ProgramDecisionState F :=
  let completionTokens := usage.completionTokens.getD 0
  { decision with
    completedRequests := saturatingAdd decision.completedRequests 1
    segmentServedRounds := saturatingAdd decision.segmentServedRounds 1
    roundsSinceActivation := saturatingAdd decision.roundsSinceActivation continuous.toNat
    roundsSinceTtlPause := saturatingAdd decision.roundsSinceTtlPause continuous.toNat
    lastContextTokens := some facts.observedPromptTokens
    lastCompletionTokens := completionTokens
    lifetimeGeneratedTokens := saturatingAdd decision.lifetimeGeneratedTokens completionTokens
    lastRequestFinishedAt := some now
    lastCacheMissImpactSeconds := facts.cacheMissImpactSeconds }

def recordCompletion (facts : CompletionFacts F) (action : Option CompletionAction) (now : Instant)
    (decision : ProgramDecisionState F) : ProgramDecisionState F :=
  let continuous := cacheContinuous decision facts
  let newSegment := startsNewSegment decision dispatch facts
  let freshnessDue := newSegment && (!decision.sharedPrefixObserved ||
    decision.sharedPrefixFreshUntil.all fun deadline => decide (deadline ≤ now))
  let observed := observeUsage decision usage facts
  let succeeded :=
    if facts.success then
      recordSuccess
        (if newSegment then startSegment observed dispatch facts freshnessDue else observed)
        usage facts continuous now
    else observed
  let armed :=
    if action = some .startActingTtl then
      { succeeded with
        actingSince := some now
        ttlDeadline := some (now + facts.actingTtl) }
    else succeeded
  { armed with outputTokenReservation := none }

def completionSample (before after : ProgramDecisionState F) (dispatch : ProgramDispatch)
    (usage : ProgramUsageObservation) (facts : CompletionFacts F) (now : Instant) :
    RequestSample F :=
  { promptTokens := facts.observedPromptTokens
    completionTokens := usage.completionTokens.getD 0
    cachedPromptTokens := facts.cachedPromptTokens
    contextGrowthTokens := before.lastContextTokens.bind fun previous =>
      let growth := facts.observedPromptTokens - previous
      if 0 < previous ∧ 0 < growth ∧ growth < previous then some growth else none
    e2eSeconds := F64.asSecs (now - dispatch.requestArrivedAt)
    decodeSeconds := facts.decodeSeconds
    queueSeconds := F64.asSecs (dispatch.dispatchedAt - dispatch.requestArrivedAt)
    roundsSinceTtlPause := after.roundsSinceTtlPause
    finishedAt := now }

/-- The flags a completion sets before it decides what to do. A waiting
successor cancels a deferred capacity pause. -/
def markCompletion (terminate : Bool) (runtimeAfter : Option RuntimeProgramView)
    (decision : ProgramDecisionState F) : ProgramDecisionState F :=
  let succeeded := runtimeAfter.any fun runtime =>
    runtime.inFlightRequests == 0 && decide (0 < runtime.waitingRequests)
  { decision with
    pauseWhenIdle := if succeeded then false else decision.pauseWhenIdle
    terminateWhenIdle := decision.terminateWhenIdle || terminate }

def settleCompletion (facts : CompletionFacts F) (action : Option CompletionAction)
    (accountedBefore : F) (now : Instant) : Except Fault (ProgramSchedulerState F T) := do
  let recorded := state.modifyDecision dispatch.program
    (recordCompletion dispatch usage facts action now)
  let accounted ←
    if (recorded.runtime.view dispatch.program).any fun view => view.state == .active then do
      let decision ← recorded.decisionAt dispatch.program
      pure (adjustUsage recorded dispatch.targetId (self.privateTokens decision - accountedBefore))
    else pure recorded
  match state.decisions.lookup dispatch.program with
  | some before =>
    if facts.success then
      let after := recordCompletion dispatch usage facts action now before
      return { accounted with
        rankFactors := accounted.rankFactors.update dispatch.targetId fun factors =>
          factors.pushRequest (completionSample before after dispatch usage facts now)
            self.config.progressTtl.statsWindowSize }
    else return accounted
  | none => return accounted

def pauseCompleted (program : ProgramRef) (action : Option CompletionAction) (now : Instant) :
    ProgramSchedulerState F T :=
  match action with
  | some (.pause reason) => (self.pauseIdle state program reason now).getD state
  | _ => state

def finishCompletion (action : Option CompletionAction) (now : Instant) :
    Except Fault (ProgramSchedulerState F T) := do
  let released :=
    if action = some .terminate then self.releaseProgram state dispatch.program now else state
  if self.config.bindingOnly then return released
  self.yieldCompletedSegment released dispatch.program now

def complete (success terminate : Bool) (usage : ProgramUsageObservation) (decodeSeconds : Option F)
    (now : Instant) : Except Fault (ProgramSchedulerState F T) :=
  match state.runtime.view dispatch.program, state.decisions.lookup dispatch.program with
  | some runtimeBefore, some decisionBefore =>
    if runtimeBefore.placement ≠ some dispatch.targetId then .ok state
    else
      match state.runtime.completeRequest dispatch usage with
      | none => .ok state
      | some runtime => do
        let facts := self.completionFacts state dispatch decisionBefore success usage decodeSeconds
        let runtimeAfter := runtime.view dispatch.program
        let decision := markCompletion terminate runtimeAfter decisionBefore
        let completed := { state with runtime := runtime }.modifyDecision dispatch.program
          (markCompletion terminate runtimeAfter)
        let action := completionAction decision success runtimeAfter
        let paused := self.pauseCompleted completed dispatch.program action now
        let settled ← self.settleCompletion paused dispatch usage facts action
          (self.privateTokens decisionBefore) now
        let finished ← self.finishCompletion settled dispatch action now
        self.runPeriodicDecisions finished now
  | _, _ => .ok state

end SmetricRouter.ProgramScheduling.ProgramScheduler
