import SmetricRouter.ProgramScheduling.GlobalQueue

/-! Dynamic force-resume deadlines and segment-yield fairness.

These mechanisms bound starvation while the ordinary local resume order stays
configurable.
-/

namespace SmetricRouter.ProgramScheduling

structure ForceResumeEstimate (F : Type) where
  timeout : Duration
  activeRemainingRounds : F
  poolRemainingRounds : F
  requestThroughputPerSecond : F

namespace ProgramScheduler

variable {F T : Type} [F64 F] [AffinityTree T] (self : ProgramScheduler F)

def fallbackEstimate : ForceResumeEstimate F :=
  ⟨self.config.forceResumeTimeout, F64.lit 0, F64.lit 0, F64.lit 0⟩

def workAheadEstimate (activeRemaining poolRemaining throughput : F) : ForceResumeEstimate F :=
  let maximum := F64.asSecs self.config.forceResumeTimeout
  let minimum := min (F64.lit 30) maximum
  { timeout := F64.fromSecs
      (F64.clamp (F64.lit 3 * (activeRemaining + poolRemaining) / throughput) minimum maximum)
    activeRemainingRounds := activeRemaining
    poolRemainingRounds := poolRemaining
    requestThroughputPerSecond := throughput }

def owedRounds (targetRounds : F) (program : RuntimeProgramViewRef)
    (decision : ProgramDecisionState F) : F :=
  max (targetRounds - F64.ofNat decision.roundsSinceActivation)
    (F64.ofNat (if program.status = .reasoning then 1 else 0))

variable (state : ProgramSchedulerState F T)

/-- The target rounds of every rank of a pool with their summed throughput, or
`none` while one of them is not mature. -/
def poolRounds (targets : List String) : Option (Table String F × F) :=
  targets.foldlM
    (fun (rounds : Table String F × F) target => do
      let factors ← state.rankFactors.lookup target
      let targetRounds := self.config.progressTtl.targetRounds factors
      let throughput := factors.requestThroughputPerSecond
      if targetRounds ≤ F64.lit 0 ∨ throughput ≤ F64.lit 0 then none
      else some (rounds.1.insert target targetRounds, rounds.2 + throughput))
    (∅, F64.lit 0)

def globalForceResumeTimeout (candidate : ProgramRef) (now : Instant) :
    Except Fault (ForceResumeEstimate F) :=
  match state.modelTargets.lookup candidate.modelPool with
  | none => .ok self.fallbackEstimate
  | some targets =>
    if targets = [] then .ok self.fallbackEstimate
    else
      match self.poolRounds state targets with
      | none => .ok self.fallbackEstimate
      | some (targetRounds, throughput) =>
        if throughput ≤ F64.lit 0 then .ok self.fallbackEstimate
        else do
          let activeRemaining := F64.sum <|
            ((state.runtime.iterViews self.order).filter (·.state == .active)).filterMap
              fun program => do
                let rounds ← targetRounds.lookup (← program.placement)
                let decision ← state.decisions.lookup program.reference
                return owedRounds rounds program decision
          let fallbackRounds :=
            F64.sum ((self.order.names targetRounds.keys).filterMap targetRounds.lookup)
              / F64.ofNat (max targetRounds.keys.length 1)
          let queued ← self.orderResumeCandidates state
            (globalReasoningWaiters state candidate.modelPool) now
          let ahead := (queued.takeWhile (· ≠ candidate)).filterMap fun program =>
            state.decisions.lookup program
          let poolRemaining := F64.sum <| ahead.map fun decision =>
            max ((decision.lastTarget.bind targetRounds.lookup).getD fallbackRounds) (F64.lit 1)
          return self.workAheadEstimate activeRemaining poolRemaining throughput

def rankForceResumeTimeout (targetId : String) (candidate : ProgramRef) (now : Instant) :
    Except Fault (ForceResumeEstimate F) :=
  match state.rankFactors.lookup targetId with
  | none => .ok self.fallbackEstimate
  | some factors =>
    let throughput := factors.requestThroughputPerSecond
    let targetRounds := self.config.progressTtl.targetRounds factors
    if targetRounds ≤ F64.lit 0 ∨ throughput ≤ F64.lit 0 then .ok self.fallbackEstimate
    else do
      let activeRemaining := F64.sum <| (self.activeOn state targetId).filterMap fun program =>
        (state.decisions.lookup program.reference).map (owedRounds targetRounds program)
      let queued ← self.orderResumeCandidates state
        ((state.rankQueue targetId).filter fun program =>
          awaitsResume state program &&
            (state.decisions.lookup program).any fun decision =>
              decision.lastTarget == some targetId)
        now
      let poolRemaining :=
        F64.ofNat (queued.takeWhile (· ≠ candidate)).length * max targetRounds (F64.lit 1)
      return self.workAheadEstimate activeRemaining poolRemaining throughput

def setForceResumeDeadline (targetId : String) (candidate : ProgramRef) (now : Instant) :
    Except Fault (ProgramSchedulerState F T) := do
  let estimate ←
    if self.config.globalQueue then self.globalForceResumeTimeout state candidate now
    else self.rankForceResumeTimeout state targetId candidate now
  let requested := (state.runtime.frontRequestHints candidate).bind (·.deadline)
  let timeout := min (requested.getD estimate.timeout) self.config.queueTimeout
  return state.modifyDecision candidate fun decision =>
    { decision with
      forceResumeDeadline := some (now + timeout)
      forceResumeTimeout := some timeout
      forceResumeActiveRemainingRounds := estimate.activeRemainingRounds
      forceResumePoolRemainingRounds := estimate.poolRemainingRounds
      forceResumeRequestThroughputPerSecond := estimate.requestThroughputPerSecond }

def yieldWaiters (program : ProgramRef) (targetId : String) (now : Instant) :
    Except Fault (List ProgramRef) := do
  if self.config.globalQueue then
    let queued ← self.orderResumeCandidates state
      (globalReasoningWaiters state program.modelPool) now
    return queued.filter fun waiter =>
      (state.decisions.lookup waiter).any fun decision => decision.lastTarget == some targetId
  else
    self.orderResumeCandidates state ((state.rankQueue targetId).filter (awaitsResume state)) now

def yieldCompletedSegment (program : ProgramRef) (now : Instant) :
    Except Fault (ProgramSchedulerState F T) :=
  match state.runtime.view program, state.decisions.lookup program with
  | some runtime, some decision =>
    if runtime.state ≠ .active ∨ runtime.status ≠ .acting
        ∨ decision.roundsSinceActivation < self.config.progressTtl.maxSegmentRounds then .ok state
    else
      match runtime.placement with
      | none => .ok state
      | some targetId => do
        let queued ← self.yieldWaiters state program targetId now
        match queued.find? (· ≠ program) with
        | none => return state
        | some waiter =>
          let waiterRequired :=
            ((state.decisions.lookup waiter).map self.privateTokens).getD (F64.lit 0)
          let futureRelief := F64.sum <|
            (((self.activeOn state targetId).filter (·.status == .reasoning)).filterMap
              fun program =>
                (state.decisions.lookup program.reference).filter (·.pauseWhenIdle)).map
              self.privateTokens
          if futureRelief < waiterRequired then
            return (self.pauseIdle state program .maxSegmentYield now).getD state
          else return state
  | _, _ => .ok state

end ProgramScheduler

end SmetricRouter.ProgramScheduling
