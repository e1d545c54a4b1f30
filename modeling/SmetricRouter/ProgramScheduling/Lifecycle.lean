import SmetricRouter.ProgramScheduling.Fairness

/-! Acting TTL, lifecycle release, capacity repair and request completion.

Completion is the only path that records request-derived rolling factors.
Periodic ticks evaluate existing deadlines and never create request facts.
-/

namespace SmetricRouter.ProgramScheduling

/-- What a completion does once its Program has become quiet. -/
inductive CompletionAction where
  | terminate
  | pause (reason : ProgramPauseReason)
  | startActingTtl
  deriving DecidableEq, Repr

structure CapacityVictim (F : Type) where
  reference : ProgramRef
  status : ProgramStatus
  score : F
  sortPrivateTokens : F

/-- What one scan over the Programs of a target collects for capacity repair. -/
structure RepairScan (F : Type) where
  reasoningCount : Nat
  markedReasoningCount : Nat
  futurePrivateRelief : F
  routerUsage : F
  victims : List (CapacityVictim F)

/-- The measurements of one completed request. -/
structure CompletionFacts (F : Type) where
  observedPromptTokens : Nat
  cachedPromptTokens : Nat
  explicitlyObservedCacheTokens : Nat
  cacheMissImpactSeconds : F
  actingTtl : Duration
  freshness : Duration
  success : Bool
  decodeSeconds : Option F

namespace ProgramScheduler

variable {F T : Type} [F64 F] [AffinityTree T] (self : ProgramScheduler F)

def releaseProgram (state : ProgramSchedulerState F T) (program : ProgramRef) (now : Instant) :
    ProgramSchedulerState F T :=
  let dequeued := state.dequeue program
  let activeRelief := do
    let runtime ← (state.runtime.view program).filter (·.state == .active)
    let targetId ← runtime.placement
    let decision ← state.decisions.lookup program
    return (targetId, self.privateTokens decision)
  match state.runtime.releaseIdle program now with
  | none => dequeued
  | some runtime =>
    let released := { dequeued with runtime := runtime }
    let relieved :=
      match activeRelief with
      | some (targetId, tokens) => adjustUsage released targetId (-tokens)
      | none => released
    { relieved with
      decisions := relieved.decisions.erase program
      bindings := relieved.bindings.releaseProgram program }

variable (state : ProgramSchedulerState F T) (now : Instant)

def expiredActing : List ProgramRef :=
  ((state.runtime.iterViews self.order).filter fun runtime =>
    runtime.state == .active && runtime.status == .acting && runtime.inFlightRequests == 0 &&
      ((state.decisions.lookup runtime.reference).bind (·.ttlDeadline)).any fun deadline =>
        decide (deadline ≤ now)).map (·.reference)

def expireActingTtl (state : ProgramSchedulerState F T) (program : ProgramRef) :
    ProgramSchedulerState F T :=
  let sampled : Option String × Nat × Nat :=
    ((state.decisions.lookup program).map fun decision =>
      (decision.lastTarget, decision.segmentServedRounds - decision.ttlPauseSampledSegmentRounds,
        decision.segmentServedRounds)).getD (none, 0, 0)
  match self.pauseIdle state program .ttlExpired now with
  | none => state
  | some paused =>
    let marked := paused.modifyDecision program fun decision =>
      { decision with
        ttlPauseSampledSegmentRounds := sampled.2.2
        roundsSinceTtlPause := 0 }
    match sampled.1 with
    | none => marked
    | some target =>
      { marked with
        rankFactors := marked.rankFactors.update target fun factors =>
          factors.pushTtlPauseRounds sampled.2.1 self.config.progressTtl.statsWindowSize }

def expireActingTtls : ProgramSchedulerState F T :=
  (self.expiredActing state now).foldl (self.expireActingTtl now) state

def expiredPaused : List ProgramRef :=
  ((state.runtime.iterViews self.order).filter fun runtime =>
    runtime.state == .paused && runtime.status == .acting && runtime.inFlightRequests == 0 &&
      runtime.waitingRequests == 0 &&
      ((state.decisions.lookup runtime.reference).bind (·.pausedAt)).any fun pausedAt =>
        decide (self.config.pausedRetentionTtl ≤ now - pausedAt)).map (·.reference)

def releaseExpiredPaused : ProgramSchedulerState F T :=
  (self.expiredPaused state now).foldl
    (fun state program => self.releaseProgram state program now) state

def isVictim (program : RuntimeProgramViewRef) (decision : ProgramDecisionState F) : Bool :=
  match program.status with
  | .acting => program.inFlightRequests == 0
  | .reasoning => !decision.pauseWhenIdle && decide (0 < program.inFlightRequests)

def victimScore (averagePrompt : F) (now : Instant) (program : RuntimeProgramViewRef)
    (decision : ProgramDecisionState F) : F :=
  let elapsed := (decision.segmentStartedAt.map fun started =>
    F64.asSecs (now - started)).getD (F64.lit 0)
  let input :=
    if program.status = .acting then
      decision.lastContextTokens.getD decision.estimatedContextTokens
    else decision.estimatedContextTokens
  elapsed * max (F64.lit 1 / F64.sqrt (max (F64.ofNat input / averagePrompt) (F64.lit 1e-6)))
    (F64.lit 0.5)

def scanProgram (averagePrompt : F) (now : Instant) (scan : RepairScan F)
    (program : RuntimeProgramViewRef) : RepairScan F :=
  let counted : RepairScan F :=
    match state.decisions.lookup program.reference with
    | none => scan
    | some decision =>
      let tokens := self.privateTokens decision
      let marked := program.status == .reasoning && decision.pauseWhenIdle
      { scan with
        routerUsage := scan.routerUsage + tokens
        markedReasoningCount :=
          if marked then scan.markedReasoningCount + 1 else scan.markedReasoningCount
        futurePrivateRelief :=
          if marked then scan.futurePrivateRelief + tokens else scan.futurePrivateRelief
        victims :=
          if isVictim program decision then
            scan.victims ++
              [⟨program.reference, program.status, victimScore averagePrompt now program decision,
                tokens⟩]
          else scan.victims }
  { counted with
    reasoningCount :=
      if program.status = .reasoning then counted.reasoningCount + 1 else counted.reasoningCount }

def victimCmp (left right : CapacityVictim F) : Ordering :=
  ((F64.totalCmp right.score left.score).then
    (F64.totalCmp right.sortPrivateTokens left.sortPrivateTokens)).then
    (compare left.reference.programId right.reference.programId)

/-- Relieve victims in order until the projected usage is at the low mark. The
tokens of a victim are read when it is taken, not when it was ranked. -/
def relieveVictims (averageCompletion low : F) (now : Instant) :
    List (CapacityVictim F) → F → ProgramSchedulerState F T →
      Except Fault (ProgramSchedulerState F T)
  | [], _, state => .ok state
  | victim :: rest, projected, state =>
    if projected ≤ low then .ok state
    else do
      let decision ← state.decisionAt victim.reference
      let relief := self.privateTokens decision
        + (if victim.status = .reasoning then averageCompletion else F64.lit 0)
      let relieved :=
        match victim.status with
        | .acting => self.pauseIdle state victim.reference .capacityRepair now
        | .reasoning => some (state.modifyDecision victim.reference fun decision =>
            { decision with pauseWhenIdle := true })
      match relieved with
      | some state =>
        relieveVictims averageCompletion low now rest (max (projected - relief) (F64.lit 0)) state
      | none => relieveVictims averageCompletion low now rest projected state

def repairTarget (capacity : Nat) (now : Instant) (state : ProgramSchedulerState F T)
    (targetId : String) : Except Fault (ProgramSchedulerState F T) :=
  let high := F64.ofNat capacity * self.config.progressTtl.highWatermarkRatio
  let low := F64.ofNat capacity * self.config.progressTtl.lowWatermarkRatio
  let factors := state.rankFactors.lookup targetId
  let averageCompletion :=
    (factors.map fun factors => F64.ceil factors.averageCompletionTokens).getD (F64.lit 0)
  let averagePrompt :=
    (factors.map fun factors => max factors.averagePromptTokens (F64.lit 1)).getD (F64.lit 1)
  let scan := (self.activeOn state targetId).foldl (self.scanProgram state averagePrompt now)
    ⟨0, 0, F64.lit 0, F64.lit 0, []⟩
  let futureCompletionRelief := averageCompletion * F64.ofNat scan.markedReasoningCount
  let targetUsage := (self.observedTargetUsage state targetId now).getD scan.routerUsage
  let projected := max
    (targetUsage + averageCompletion * F64.ofNat scan.reasoningCount
      - scan.futurePrivateRelief - futureCompletionRelief) (F64.lit 0)
  if projected ≤ high then .ok state
  else self.relieveVictims averageCompletion low now (sortBy victimCmp scan.victims) projected state

def repairCapacity : Except Fault (ProgramSchedulerState F T) :=
  match self.config.progressTtl.tokenCapacity with
  | none => .ok state
  | some capacity => (targetIds state).foldlM (self.repairTarget capacity now) state

def runRequestArrivalDecisions : Except Fault (ProgramSchedulerState F T) := do
  let expired := self.expireActingTtls (self.releaseExpiredPaused state now) now
  let repaired ← self.repairCapacity expired now
  self.scheduleWaiting repaired now

def runPeriodicDecisions : Except Fault (ProgramSchedulerState F T) := do
  let pruned := { state with
    runtime := state.runtime.pruneReleasedGenerations now
      (max self.config.pausedRetentionTtl (60 * 10 ^ 9)) }
  let expired := self.releaseExpiredPaused (self.expireActingTtls pruned now) now
  if self.config.bindingOnly then return expired
  let repaired ← self.repairCapacity expired now
  self.scheduleWaiting repaired now

def tick : Except Fault (ProgramSchedulerState F T) := do
  let decided ← self.runPeriodicDecisions state now
  return self.reportCapacityAccountingTransitions decided now

def sharedPrefixFreshness (targetId : String) : Duration :=
  let warmup := self.config.sharedPrefixFreshnessWarmup
  match state.rankFactors.lookup targetId, self.config.progressTtl.tokenCapacity with
  | some factors, some capacity =>
    if ¬ factors.requestWindowComplete self.config.progressTtl.statsWindowSize then warmup
    else
      let activeReasoning :=
        ((self.activeOn state targetId).filter (·.status == .reasoning)).length
      let averageUncached := factors.averageUncachedPromptTokens
      let averageLatency := factors.averageE2eSeconds
      if activeReasoning = 0 ∨ averageUncached ≤ F64.lit 0 ∨ averageLatency ≤ F64.lit 0 then warmup
      else
        let seconds := self.config.sharedPrefixFreshnessKvTurnovers * F64.ofNat capacity
          * averageLatency / F64.ofNat activeReasoning / averageUncached
        if F64.isFinite seconds ∧ F64.lit 0 ≤ seconds then F64.fromSecs seconds else warmup
  | _, _ => warmup

end ProgramScheduler

end SmetricRouter.ProgramScheduling
