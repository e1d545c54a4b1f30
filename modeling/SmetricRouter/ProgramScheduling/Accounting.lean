import SmetricRouter.ProgramScheduling.SchedulerState

/-! Capacity accounting and backend observation epochs.

Usage of a target is the latest fresh backend estimate plus the Router's ledger
delta, or the Router's own sum over the Programs active there.
-/

namespace SmetricRouter.ProgramScheduling

variable {F T : Type} [F64 F] [AffinityTree T]

structure BackendObservation (F : Type) where
  targetId : String
  kvCacheUsage : Option F
  runningRequests : Option Nat
  waitingRequests : Option Nat
  observedAt : Instant

structure ObservationCheckpoint (F : Type) where
  ledgerCheckpoint : F
  activeReasoningPrograms : Nat
  activeReasoningRequests : Nat
  activeReasoningPrivateTokens : F
  activeActingPrivateTokens : F

structure BackendObservationEpoch (F : Type) where
  targetSnapshotRevision : Nat
  checkpoints : Table String (ObservationCheckpoint F)

structure BindingRuntimeSummary (F : Type) where
  accountedPrograms : Nat
  accountedTokens : F
  pendingNewProgramTokens : F
  activePrograms : Nat
  routerUsage : F

instance : Inhabited (BindingRuntimeSummary F) := ⟨⟨0, F64.lit 0, F64.lit 0, 0, F64.lit 0⟩⟩

def adjustUsage (state : ProgramSchedulerState F T) (targetId : String) (deltaTokens : F) :
    ProgramSchedulerState F T :=
  { state with
    observations := state.observations.update targetId fun observation =>
      { observation with
        activeProgramTokenDelta := observation.activeProgramTokenDelta + deltaTokens }
    ledger := state.ledger ++ [(targetId, deltaTokens)] }

namespace ProgramScheduler

variable (self : ProgramScheduler F)

def privateTokens (decision : ProgramDecisionState F) : F :=
  decision.privateTokens self.config.progressTtl.decodeBufferTokens

def observationIsFresh (observation : RankObservationState F) (now : Instant) : Bool :=
  observation.observedAt.any fun observedAt =>
    decide (now - observedAt ≤ self.config.metricsInterval * 3)

def capacityAccountingSource (observation : Option (RankObservationState F)) (now : Instant) :
    CapacityAccountingSource :=
  match observation with
  | none => .routerLedgerMissingObservation
  | some observation =>
    match observation.observedAt with
    | none => .routerLedgerMissingObservation
    | some observedAt =>
      if self.config.metricsInterval * 3 < now - observedAt then .routerLedgerStaleObservation
      else if observation.estimatedActiveProgramTokens.isNone then
        .routerLedgerMissingTokenEstimate
      else .backendObservation

variable (state : ProgramSchedulerState F T) (targetId : String)

def activeOn : List RuntimeProgramViewRef :=
  (state.runtime.iterViews self.order).filter fun program =>
    program.state == .active && program.placement == some targetId

def observedTargetUsage (now : Instant) : Option F :=
  ((state.observations.lookup targetId).filter fun observation =>
      self.observationIsFresh observation now).bind fun observation =>
    observation.estimatedActiveProgramTokens.map fun tokens =>
      max (tokens + observation.activeProgramTokenDelta) (F64.lit 0)

def targetUsage (now : Instant) : F :=
  (self.observedTargetUsage state targetId now).getD
    (F64.sum (((self.activeOn state targetId).filterMap fun program =>
      state.decisions.lookup program.reference).map self.privateTokens))

variable (summaries : Table String (BindingRuntimeSummary F))

def summarizeProgram (program : RuntimeProgramViewRef) : Table String (BindingRuntimeSummary F) :=
  let decision := state.decisions.lookup program.reference
  let placed :=
    match program.state, program.placement with
    | .active, some target =>
      summaries.modify target fun summary =>
        { summary with
          activePrograms := summary.activePrograms + 1
          routerUsage := (decision.map fun decision =>
            summary.routerUsage + self.privateTokens decision).getD summary.routerUsage }
    | _, _ => summaries
  match decision with
  | none => placed
  | some decision =>
    match decision.lastTarget with
    | none => placed
    | some target =>
      placed.modify target fun summary =>
        let tokens := self.privateTokens decision
        let accounted := program.state = .active ∨ program.status = .reasoning
        let pending := program.state = .paused ∧ program.status = .reasoning
          ∧ program.placement = none ∧ 0 < program.waitingRequests
          ∧ decision.completedRequests = 0
        { summary with
          accountedPrograms :=
            if accounted then summary.accountedPrograms + 1 else summary.accountedPrograms
          accountedTokens :=
            if accounted then summary.accountedTokens + tokens else summary.accountedTokens
          pendingNewProgramTokens :=
            if pending then summary.pendingNewProgramTokens + tokens
            else summary.pendingNewProgramTokens }

def bindingCandidate (requiredTokens : F) (now : Instant) (targetId : String) :
    ProgramBindingCandidate F :=
  let summary := (summaries.lookup targetId).getD default
  let capacity := self.config.progressTtl.tokenCapacity
  let targetUsage := (self.observedTargetUsage state targetId now).getD summary.routerUsage
  { targetId := targetId
    accountedPrograms := summary.accountedPrograms
    accountedTokens := summary.accountedTokens
    capacityTokens := capacity
    kvPressure := (capacity.map fun capacity =>
      if capacity = 0 then F64.lit 1
      else F64.clamp ((targetUsage + summary.pendingNewProgramTokens) / F64.ofNat capacity)
        (F64.lit 0) (F64.lit 1)).getD (F64.lit 0)
    immediatelyAdmissible :=
      decide (saturatingAdd summary.activePrograms 1 ≤ self.config.maxActiveProgramsPerTarget) &&
        capacity.all fun capacity =>
          decide (targetUsage + requiredTokens ≤
            F64.ofNat capacity * self.config.progressTtl.lowWatermarkRatio) }

def bindingCandidates (identity : ProgramIdentity) (now : Instant) :
    List (ProgramBindingCandidate F) :=
  let targetIds := state.poolTargets identity.modelPool
  let views := state.runtime.iterViews self.order
  let empty : Table String (BindingRuntimeSummary F) :=
    targetIds.foldl (fun summaries target => summaries.insert target default) ∅
  let summaries := views.foldl (self.summarizeProgram state) empty
  let estimatedContextTokens := views.foldl
    (fun tokens program =>
      if program.reference.modelPool = identity.modelPool
          ∧ program.reference.programId = identity.programId
      then program.estimatedContextTokens else tokens) 0
  let requiredTokens :=
    F64.ofNat (saturatingAdd estimatedContextTokens self.config.progressTtl.decodeBufferTokens)
  targetIds.map (self.bindingCandidate state summaries requiredTokens now)

def targetIds : List String :=
  state.targets.keys.insertionSort (· ≤ ·)

def reportCapacityAccountingTransitions (now : Instant) : ProgramSchedulerState F T :=
  (targetIds state).foldl
    (fun state target =>
      let source := self.capacityAccountingSource (state.observations.lookup target) now
      { state with
        observations := state.observations.update target fun observation =>
          { observation with reportedCapacitySource := some source } })
    state

def checkpointProgram (checkpoints : Table String (ObservationCheckpoint F))
    (program : RuntimeProgramViewRef) : Table String (ObservationCheckpoint F) :=
  match program.state, program.placement with
  | .active, some target =>
    let tokens := (state.decisions.lookup program.reference).map self.privateTokens
    checkpoints.modify target fun checkpoint =>
      match program.status with
      | .reasoning =>
        { checkpoint with
          activeReasoningPrograms := checkpoint.activeReasoningPrograms + 1
          activeReasoningRequests :=
            checkpoint.activeReasoningRequests + program.inFlightRequests
          activeReasoningPrivateTokens := (tokens.map fun tokens =>
            checkpoint.activeReasoningPrivateTokens + tokens).getD
              checkpoint.activeReasoningPrivateTokens }
      | .acting =>
        { checkpoint with
          activeActingPrivateTokens := (tokens.map fun tokens =>
            checkpoint.activeActingPrivateTokens + tokens).getD
              checkpoint.activeActingPrivateTokens }
  | _, _ => checkpoints

def beginObservation (targets : List ProgramTarget) : BackendObservationEpoch F :=
  let checkpoints : Table String (ObservationCheckpoint F) :=
    targets.foldl
      (fun checkpoints target =>
        let ledger := ((state.observations.lookup target.id).map
          (·.activeProgramTokenDelta)).getD (F64.lit 0)
        checkpoints.insert target.id ⟨ledger, 0, 0, F64.lit 0, F64.lit 0⟩)
      ∅
  { targetSnapshotRevision := state.targetSnapshotRevision
    checkpoints :=
      (state.runtime.iterViews self.order).foldl (self.checkpointProgram state) checkpoints }

def applyObservation (epoch : BackendObservationEpoch F) (state : ProgramSchedulerState F T)
    (raw : BackendObservation F) : ProgramSchedulerState F T :=
  match epoch.checkpoints.lookup raw.targetId with
  | none => state
  | some checkpoint =>
    if (state.targets.lookup raw.targetId).isNone then state
    else
      let nativeUsedTokens := raw.kvCacheUsage.bind fun usage =>
        self.config.progressTtl.tokenCapacity.map fun capacity => usage * F64.ofNat capacity
      let estimatedReasoningTokens := nativeUsedTokens.map fun nativeUsed =>
        let running := raw.runningRequests.getD 0
        if 0 < running then
          nativeUsed * F64.ofNat (max checkpoint.activeReasoningPrograms running)
            / F64.ofNat running
        else if 0 < checkpoint.activeReasoningPrograms then
          checkpoint.activeReasoningPrivateTokens
        else nativeUsed
      { state with
        observations := state.observations.update raw.targetId fun observation =>
          { observation with
            activeProgramTokenDelta :=
              observation.activeProgramTokenDelta - checkpoint.ledgerCheckpoint
            kvCacheUsage := raw.kvCacheUsage
            runningRequests := raw.runningRequests
            waitingRequests := raw.waitingRequests
            routerActiveReasoningPrograms := checkpoint.activeReasoningPrograms
            routerActiveReasoningRequests := checkpoint.activeReasoningRequests
            estimatedActiveReasoningTokens := estimatedReasoningTokens
            estimatedActiveProgramTokens := estimatedReasoningTokens.map fun reasoning =>
              reasoning + checkpoint.activeActingPrivateTokens
            observedAt := some raw.observedAt } }

def applyObservations (epoch : BackendObservationEpoch F)
    (observations : List (BackendObservation F)) : ProgramSchedulerState F T :=
  if epoch.targetSnapshotRevision ≠ state.targetSnapshotRevision then state
  else observations.foldl (self.applyObservation epoch) state

end ProgramScheduler

end SmetricRouter.ProgramScheduling
