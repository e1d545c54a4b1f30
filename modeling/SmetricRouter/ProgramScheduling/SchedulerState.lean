import SmetricRouter.ProgramScheduling.Runtime
import SmetricRouter.ProgramScheduling.Policy
import SmetricRouter.ProgramScheduling.Binding
import SmetricRouter.ProgramScheduling.Lineage

/-! Internal state shared by the Program scheduling decision modules.

All values are protected by one scheduler mutex. A configuration carries the
checks of the Router's configuration validation, so a scheduler built from an
unchecked one cannot be written down.
-/

namespace SmetricRouter.ProgramScheduling

inductive ProgramResumeOrder where
  | fcfs
  | mru
  deriving DecidableEq, Repr

variable (F : Type)

structure ProgramSchedulerConfig [F64 F] where
  bindingOnly : Bool
  globalQueue : Bool
  resumeOrder : ProgramResumeOrder
  crossRankHeadroomRatio : F
  bindingStrategy : ProgramBindingStrategy
  hashVirtualNodes : Nat
  maxActiveProgramsPerTarget : Nat
  metricsInterval : Duration
  admissionWaitingRequestThreshold : Nat
  queueTimeout : Duration
  forceResumeTimeout : Duration
  pausedRetentionTtl : Duration
  sharedPrefixFreshnessWarmup : Duration
  sharedPrefixFreshnessKvTurnovers : F
  progressTtl : ProgressTtlConfig F
  balance_capacity : bindingStrategy = .reasoningTokenBalance → progressTtl.tokenCapacity.isSome
  virtualNodes_pos : 0 < hashVirtualNodes
  maxActive_pos : 0 < maxActiveProgramsPerTarget
  window_pos : 0 < progressTtl.statsWindowSize
  segment_pos : 0 < progressTtl.maxSegmentRounds
  capacity_pos : progressTtl.tokenCapacity ≠ some 0
  headroom_ge : F64.lit 1 ≤ crossRankHeadroomRatio
  watermark_pos : F64.lit 0 < progressTtl.lowWatermarkRatio
  watermark_le : progressTtl.lowWatermarkRatio ≤ progressTtl.highWatermarkRatio
  watermark_le_one : progressTtl.highWatermarkRatio ≤ F64.lit 1
  timeout_le : forceResumeTimeout ≤ queueTimeout

inductive ProgramPauseReason where
  | ttlExpired
  | capacityRepair
  | maxSegmentYield
  | requestFailed
  | requestCancelled
  deriving DecidableEq, Repr

/-- Scheduling facts associated with one exact live Program generation. -/
structure ProgramDecisionState where
  placementKey : String
  placementHashKey : String
  taskId : Option String
  sessionId : Option String
  agentId : Option String
  parentProgramId : Option String
  blocksParent : Bool
  agentRole : Option String
  spawnReason : Option String
  stepId : Nat
  homeTarget : Option String
  lastTarget : Option String
  estimatedContextTokens : Nat
  outputTokenReservation : Option Nat
  contextShrinkObservations : Nat
  completedRequests : Nat
  segmentServedRounds : Nat
  roundsSinceActivation : Nat
  ttlPauseSampledSegmentRounds : Nat
  roundsSinceTtlPause : Nat
  segmentStartedAt : Option Instant
  lastContextTokens : Option Nat
  lastCompletionTokens : Nat
  sharedPrefixTokens : Nat
  sharedPrefixObserved : Bool
  sharedPrefixFreshnessAnchorAt : Instant
  sharedPrefixFreshUntil : Option Instant
  lifetimeGeneratedTokens : Nat
  lastRequestFinishedAt : Option Instant
  lastCacheMissImpactSeconds : F
  actingSince : Option Instant
  ttlDeadline : Option Instant
  queuedAt : Option Instant
  forceResumeDeadline : Option Instant
  forceResumeTimeout : Option Duration
  forceResumeActiveRemainingRounds : F
  forceResumePoolRemainingRounds : F
  forceResumeRequestThroughputPerSecond : F
  pausedAt : Option Instant
  lastPauseReason : Option ProgramPauseReason
  pauseWhenIdle : Bool
  terminateWhenIdle : Bool

inductive CapacityAccountingSource where
  | backendObservation
  | routerLedgerMissingObservation
  | routerLedgerStaleObservation
  | routerLedgerMissingTokenEstimate
  deriving DecidableEq, Repr

/-- Most recent raw backend observation plus Router epoch accounting. -/
structure RankObservationState where
  kvCacheUsage : Option F
  runningRequests : Option Nat
  waitingRequests : Option Nat
  routerActiveReasoningPrograms : Nat
  routerActiveReasoningRequests : Nat
  estimatedActiveReasoningTokens : Option F
  estimatedActiveProgramTokens : Option F
  observedAt : Option Instant
  activeProgramTokenDelta : F
  reportedCapacitySource : Option CapacityAccountingSource

/-- What an admission was granted on; the ledger and the queues do not read it. -/
structure RankAdmissionPlan where
  usedTokens : F
  requiredTokens : F
  reserveTokens : F
  capacityTokens : Option Nat
  forced : Bool
  batchGain : Bool
  /-- Binding alone granted it. A note for the record, not a field of the source. -/
  bindingOnly : Bool

/-- One committed admission and the usage of its target right after it. -/
structure AdmissionRecord where
  program : ProgramRef
  targetId : String
  plan : RankAdmissionPlan F
  usage : F

structure ProgramSchedulerState (F T : Type) where
  runtime : ProgramRuntime
  bindings : ProgramBindings T
  decisions : Table ProgramRef (ProgramDecisionState F)
  targets : Table String ProgramTarget
  /-- The ordered target identifiers of each model pool. -/
  modelTargets : Table String (List String)
  modelTargetSnapshots : Table String TargetSnapshot
  targetSnapshotRevision : Nat
  rankQueues : Table String (List ProgramRef)
  globalQueues : Table String (List ProgramRef)
  observations : Table String (RankObservationState F)
  rankFactors : Table String (ProgressTtlFactors F)
  lineage : ProgramLineage
  /-- The admissions recorded so far, oldest first. Written by each admission
  and read by none. -/
  admissions : List (AdmissionRecord F)
  /-- The ledger adjustments so far, oldest first. Written by each adjustment and
  read by none. -/
  ledger : List (String × F)

/-- The scheduler as one lock-held step sees it: its configuration, the hash of
consistent binding, and the order in which the step iterates its hash maps. -/
structure ProgramScheduler [F64 F] where
  config : ProgramSchedulerConfig F
  fbiHash : String → Nat
  order : IterationOrder

variable {F T : Type} [F64 F] [AffinityTree T]

instance : Inhabited (RankObservationState F) :=
  ⟨{ kvCacheUsage := none
     runningRequests := none
     waitingRequests := none
     routerActiveReasoningPrograms := 0
     routerActiveReasoningRequests := 0
     estimatedActiveReasoningTokens := none
     estimatedActiveProgramTokens := none
     observedAt := none
     activeProgramTokenDelta := F64.lit 0
     reportedCapacitySource := none }⟩

namespace ProgramDecisionState

def new (placementKey placementHashKey : String) (homeTarget : Option String)
    (estimatedContextTokens : Nat) (now : Instant) : ProgramDecisionState F where
  placementKey := placementKey
  placementHashKey := placementHashKey
  taskId := none
  sessionId := none
  agentId := none
  parentProgramId := none
  blocksParent := false
  agentRole := none
  spawnReason := none
  stepId := 0
  homeTarget := homeTarget
  lastTarget := homeTarget
  estimatedContextTokens := estimatedContextTokens
  outputTokenReservation := none
  contextShrinkObservations := 0
  completedRequests := 0
  segmentServedRounds := 0
  roundsSinceActivation := 0
  ttlPauseSampledSegmentRounds := 0
  roundsSinceTtlPause := 0
  segmentStartedAt := none
  lastContextTokens := none
  lastCompletionTokens := 0
  sharedPrefixTokens := 0
  sharedPrefixObserved := false
  sharedPrefixFreshnessAnchorAt := now
  sharedPrefixFreshUntil := none
  lifetimeGeneratedTokens := 0
  lastRequestFinishedAt := none
  lastCacheMissImpactSeconds := F64.lit 0
  actingSince := none
  ttlDeadline := none
  queuedAt := some now
  forceResumeDeadline := none
  forceResumeTimeout := none
  forceResumeActiveRemainingRounds := F64.lit 0
  forceResumePoolRemainingRounds := F64.lit 0
  forceResumeRequestThroughputPerSecond := F64.lit 0
  pausedAt := some now
  lastPauseReason := none
  pauseWhenIdle := false
  terminateWhenIdle := false

variable (decision : ProgramDecisionState F)

def privateTokensWithOutput (decodeBufferTokens : Nat) (expectedOutputTokens : Option Nat) : F :=
  F64.ofNat (saturatingAdd (decision.estimatedContextTokens - decision.sharedPrefixTokens)
    ((expectedOutputTokens.or decision.outputTokenReservation).getD decodeBufferTokens))

def privateTokens (decodeBufferTokens : Nat) : F :=
  decision.privateTokensWithOutput decodeBufferTokens none

def observeCompletedContext (observedContextTokens : Nat) : ProgramDecisionState F :=
  if decision.estimatedContextTokens ≤ observedContextTokens then
    { decision with
      estimatedContextTokens := observedContextTokens
      contextShrinkObservations := 0 }
  else
    let observations := min (decision.contextShrinkObservations + 1) 255
    if 2 ≤ observations then
      { decision with
        estimatedContextTokens := observedContextTokens
        contextShrinkObservations := 0 }
    else { decision with contextShrinkObservations := observations }

/-- A pause moves the freshness window of the shared prefix to the pause. -/
def restartSharedPrefixFreshness (pauseAt : Instant) : ProgramDecisionState F :=
  { decision with
    sharedPrefixFreshnessAnchorAt := pauseAt
    sharedPrefixFreshUntil := decision.sharedPrefixFreshUntil.map fun deadline =>
      pauseAt + (deadline - decision.sharedPrefixFreshnessAnchorAt) }

end ProgramDecisionState

namespace ProgramSchedulerState

def new (config : ProgramSchedulerConfig F) : ProgramSchedulerState F T where
  runtime := .empty
  bindings := .new config.bindingStrategy config.hashVirtualNodes
  decisions := ∅
  targets := ∅
  modelTargets := ∅
  modelTargetSnapshots := ∅
  targetSnapshotRevision := 0
  rankQueues := ∅
  globalQueues := ∅
  observations := ∅
  rankFactors := ∅
  lineage := .empty
  admissions := []
  ledger := []

variable (state : ProgramSchedulerState F T) (program : ProgramRef)

def decisionAt : Except Fault (ProgramDecisionState F) :=
  match state.decisions.lookup program with
  | some decision => .ok decision
  | none => .error .decisionMissing

def poolTargets (modelPool : String) : List String :=
  (state.modelTargets.lookup modelPool).getD []

def rankQueue (targetId : String) : List ProgramRef :=
  (state.rankQueues.lookup targetId).getD []

def globalQueue (modelPool : String) : List ProgramRef :=
  (state.globalQueues.lookup modelPool).getD []

def modifyDecision (change : ProgramDecisionState F → ProgramDecisionState F) :
    ProgramSchedulerState F T :=
  { state with decisions := state.decisions.modify program change }

def dequeue : ProgramSchedulerState F T :=
  { state with
    rankQueues := state.rankQueues.mapValues fun queue => queue.filter (· ≠ program)
    globalQueues := state.globalQueues.mapValues fun queue => queue.filter (· ≠ program) }

end ProgramSchedulerState

end SmetricRouter.ProgramScheduling
