import SmetricRouter.ProgramScheduling.Accounting

/-! Resume order, capacity checks and rank-local Program admission.

The comparison of two waiting Programs indexes the decision map. A sort of at
least two Programs compares every one of them, so it panics exactly when one of
them has no decision state.
-/

namespace SmetricRouter.ProgramScheduling

variable {F T : Type} [F64 F] [AffinityTree T]

abbrev Ranked (F : Type) := ProgramRef × ProgramDecisionState F

def awaitsResume (state : ProgramSchedulerState F T) (program : ProgramRef) : Bool :=
  (state.runtime.view program).any fun view =>
    view.state == .paused && view.status == .reasoning && decide (0 < view.waitingRequests)

def falseFirst (left right : Bool) : Ordering := compare left.toNat right.toNat

/-- `None` sorts before every `Some`. -/
def compareOption (left right : Option Nat) : Ordering :=
  match left, right with
  | none, none => .eq
  | none, some _ => .lt
  | some _, none => .gt
  | some left, some right => compare left right

namespace ProgramScheduler

variable (self : ProgramScheduler F) (state : ProgramSchedulerState F T) (now : Instant)

/-- Past force-resume deadlines first, then higher front-request priority. -/
def resumeTierCmp (left right : Ranked F) : Ordering :=
  let forced := fun ranked : Ranked F =>
    ranked.2.forceResumeDeadline.any fun deadline => decide (deadline ≤ now)
  let priority := fun ranked : Ranked F =>
    ((state.runtime.frontRequestHints ranked.1).map (·.priority)).getD 0
  (falseFirst (forced right) (forced left)).then (compare (priority right) (priority left))

/-- A Program paused at the segment limit ranks behind its peers. -/
def segmentYieldCmp (left right : Ranked F) : Ordering :=
  let yielded := fun ranked : Ranked F => ranked.2.lastPauseReason == some .maxSegmentYield
  falseFirst (yielded left) (yielded right)

def fcfsResumeCmp (left right : Ranked F) : Ordering :=
  (compareOption left.2.queuedAt right.2.queuedAt).then
    (compare left.1.programId right.1.programId)

def ordinaryResumeCmp (left right : Ranked F) : Ordering :=
  match self.config.resumeOrder with
  | .fcfs => fcfsResumeCmp left right
  | .mru =>
    ((compareOption right.2.lastRequestFinishedAt left.2.lastRequestFinishedAt).then
      (compareOption left.2.queuedAt right.2.queuedAt)).then
      (compare left.1.programId right.1.programId)

def localResumeCmp (left right : Ranked F) : Ordering :=
  ((resumeTierCmp state now left right).then (segmentYieldCmp left right)).then
    (self.ordinaryResumeCmp left right)

def crossRankCmp (left right : Ranked F) : Ordering :=
  ((resumeTierCmp state now left right).then (segmentYieldCmp left right)).then
    (fcfsResumeCmp left right)

variable (program : ProgramRef)

def ranked : Except Fault (Ranked F) := do
  let decision ← state.decisionAt program
  return (program, decision)

def orderCandidates (cmp : Ranked F → Ranked F → Ordering) (queued : List ProgramRef) :
    Except Fault (List ProgramRef) :=
  if queued.length < 2 then .ok queued
  else do
    let candidates ← queued.mapM (ranked state)
    return (sortBy cmp candidates).map (·.1)

def orderResumeCandidates (queued : List ProgramRef) (now : Instant) :
    Except Fault (List ProgramRef) :=
  orderCandidates state (self.localResumeCmp state now) queued

def orderCrossRankCandidates (queued : List ProgramRef) (now : Instant) :
    Except Fault (List ProgramRef) :=
  orderCandidates state (crossRankCmp state now) queued

variable (targetId : String)

/-- The backend of a target reports at least the configured waiting requests. -/
def backendIsWaiting (now : Instant) : Bool :=
  (((state.observations.lookup targetId).filter fun observation =>
      self.observationIsFresh observation now).bind (·.waitingRequests)).any fun waiting =>
    decide (self.config.admissionWaitingRequestThreshold ≤ waiting)

def countFits (count : Nat) : Bool :=
  decide (saturatingAdd count 1 ≤ self.config.maxActiveProgramsPerTarget)

def remainingRounds (targetRounds : F) (decision : ProgramDecisionState F) : F :=
  max (targetRounds - F64.ofNat decision.roundsSinceActivation) (F64.lit 0)

def batchGainInputs (factors : ProgressTtlFactors F) (active : List RuntimeProgramViewRef)
    (decision : ProgramDecisionState F) (usedTokens requiredTokens : F) : BatchGainInputs F :=
  let targetRounds := self.config.progressTtl.targetRounds factors
  let running := active.filter (·.status == .reasoning)
  let protectedPrograms := active.filterMap fun program =>
    (state.decisions.lookup program.reference).bind fun decision =>
      let remaining := remainingRounds targetRounds decision
      if F64.lit 0 < remaining then some (remaining, decision.lastCacheMissImpactSeconds) else none
  { factors := factors
    batchSizeBefore := running.length
    totalContextTokensBefore := (running.filterMap fun program =>
      (state.decisions.lookup program.reference).map (·.estimatedContextTokens)).sum
    candidateContextTokens := decision.estimatedContextTokens
    usedTokens := usedTokens
    requiredTokens := requiredTokens
    protectedRemainingRounds := protectedPrograms.map (·.1)
    protectedRecoveryCostSeconds := protectedPrograms.map (·.2)
    candidateRecoveryCostSeconds := self.config.progressTtl.cacheMissImpactSeconds
      (decision.estimatedContextTokens - decision.sharedPrefixTokens) }

def growthReserve (factors : ProgressTtlFactors F) (active : List RuntimeProgramViewRef) : F :=
  self.config.progressTtl.continuousGrowthReserveTokens factors
    (active.filterMap fun program =>
      (state.decisions.lookup program.reference).map
        (remainingRounds (self.config.progressTtl.targetRounds factors)))

def capacityPlan (decision : ProgramDecisionState F) (targetId : String)
    (expectedOutputTokens : Option Nat) (forced : Bool) (now : Instant) :
    Option (RankAdmissionPlan F) :=
  let active := self.activeOn state targetId
  let usedTokens := self.targetUsage state targetId now
  let requiredTokens := decision.privateTokensWithOutput
    self.config.progressTtl.decodeBufferTokens expectedOutputTokens
  match self.config.progressTtl.tokenCapacity with
  | none =>
    if forced || self.countFits active.length then
      some ⟨usedTokens, requiredTokens, F64.lit 0, none, forced, false, false⟩
    else none
  | some capacity =>
    let low := F64.ofNat capacity * self.config.progressTtl.lowWatermarkRatio
    let immediateFits := decide (usedTokens + requiredTokens ≤ low)
    let factors := state.rankFactors.lookup targetId
    let reserveTokens :=
      (factors.map fun factors => self.growthReserve state factors active).getD (F64.lit 0)
    let reserveFits := decide (usedTokens + requiredTokens + reserveTokens ≤ low)
    if forced || (self.countFits active.length && immediateFits && reserveFits) then
      some ⟨usedTokens, requiredTokens, reserveTokens, some capacity, forced, false, false⟩
    else if ¬ self.countFits active.length ∨ ¬ immediateFits then none
    else factors.bind fun factors =>
      let estimate := self.config.progressTtl.estimateBatchGain
        (self.batchGainInputs state factors active decision usedTokens requiredTokens)
      if estimate.admits then
        some ⟨usedTokens, requiredTokens, reserveTokens, some capacity, forced, true, false⟩
      else none

def rankAdmissionPlan (now : Instant) : Option (RankAdmissionPlan F) := do
  let runtime ← state.runtime.view program
  let decision ← state.decisions.lookup program
  if ¬ self.config.globalQueue ∧ decision.lastTarget ≠ some targetId then none
  else if runtime.state ≠ .paused ∨ runtime.status ≠ .reasoning
      ∨ runtime.waitingRequests = 0 then none
  else if 0 < self.config.admissionWaitingRequestThreshold
      ∧ self.backendIsWaiting state targetId now then none
  else
    let forced := decision.forceResumeDeadline.any fun deadline => decide (deadline ≤ now)
    let expectedOutputTokens :=
      (state.runtime.frontRequestHints program).bind (·.expectedOutputTokens)
    self.capacityPlan state decision targetId expectedOutputTokens forced now

def admittedDecision (now : Instant) (decision : ProgramDecisionState F) : ProgramDecisionState F :=
  { decision with
    lastTarget := some targetId
    roundsSinceActivation := 0
    actingSince := none
    ttlDeadline := none
    segmentStartedAt := decision.segmentStartedAt.or (some now)
    pausedAt := none
    lastPauseReason := none
    pauseWhenIdle := false
    queuedAt := none
    forceResumeDeadline := none
    forceResumeTimeout := none
    forceResumeActiveRemainingRounds := F64.lit 0
    forceResumePoolRemainingRounds := F64.lit 0
    forceResumeRequestThroughputPerSecond := F64.lit 0 }

def commitAdmission (plan : RankAdmissionPlan F) (now : Instant) : ProgramSchedulerState F T :=
  match state.decisions.lookup program, state.runtime.activate program targetId with
  | some decision, some runtime =>
    let activated := { state with runtime := runtime }.modifyDecision program
      (admittedDecision targetId now)
    let accounted := (adjustUsage activated targetId (self.privateTokens decision)).dequeue program
    let notified := { accounted with runtime := accounted.runtime.notifyFront program }
    { notified with
      admissions := notified.admissions ++
        [⟨program, targetId, plan, self.targetUsage notified targetId now⟩] }
  | _, _ => state

def pausedDecision (reason : ProgramPauseReason) (now : Instant)
    (decision : ProgramDecisionState F) : ProgramDecisionState F :=
  { decision with
    pausedAt := some now
    lastPauseReason := some reason
    roundsSinceActivation := 0
    actingSince := none
    ttlDeadline := none
    pauseWhenIdle := false }.restartSharedPrefixFreshness now

def pauseIdle (state : ProgramSchedulerState F T) (program : ProgramRef)
    (reason : ProgramPauseReason) (now : Instant) : Option (ProgramSchedulerState F T) := do
  let targetId ← state.runtime.placement program
  let decision ← state.decisions.lookup program
  let runtime ← state.runtime.pauseIdle program
  let paused := { state with runtime := runtime }.modifyDecision program
    (pausedDecision reason now)
  return adjustUsage paused targetId (-self.privateTokens decision)

/-- Commit the resumes a selection finds until it finds none. The bound is one
more than the Programs the selection can still take. -/
def resumeWhile
    (select : ProgramSchedulerState F T →
      Except Fault (Option (ProgramRef × String × RankAdmissionPlan F)))
    (now : Instant) : Nat → ProgramSchedulerState F T → Except Fault (ProgramSchedulerState F T)
  | 0, _ => .error .loopRunning
  | rounds + 1, state => do
    match ← select state with
    | none => return state
    | some (program, targetId, plan) =>
      resumeWhile select now rounds (self.commitAdmission state program targetId plan now)

def selectRankLocal (state : ProgramSchedulerState F T) :
    Except Fault (Option (ProgramRef × String × RankAdmissionPlan F)) := do
  let queued ← self.orderResumeCandidates state
    ((state.rankQueue targetId).filter (awaitsResume state)) now
  return queued.findSome? fun candidate =>
    (self.rankAdmissionPlan state candidate targetId now).map fun plan =>
      (candidate, targetId, plan)

def scheduleRankLocal : Except Fault (ProgramSchedulerState F T) :=
  (self.order.names state.rankQueues.keys).foldlM
    (fun state targetId =>
      self.resumeWhile (self.selectRankLocal now targetId) now
        ((state.rankQueue targetId).length + 1) state)
    state

end ProgramScheduler

end SmetricRouter.ProgramScheduling
