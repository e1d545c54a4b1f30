import SmetricRouter.ProgramScheduling.Admission

/-! Optional model-wide scheduling and cross-rank resume placement.

Every cycle exhausts the feasible cache-affine local resumes before it
considers relocation. Initial binding is never rerun here.
-/

namespace SmetricRouter.ProgramScheduling.ProgramScheduler

variable {F T : Type} [F64 F] [AffinityTree T] (self : ProgramScheduler F)

variable (state : ProgramSchedulerState F T) (modelPool : String)

def globalReasoningWaiters : List ProgramRef :=
  (state.globalQueue modelPool).filter (awaitsResume state)

def globalLocalResumeOrder (now : Instant) : Except Fault (List ProgramRef) :=
  self.orderResumeCandidates state (globalReasoningWaiters state modelPool) now

/-- Only Programs that were paused before may escape to another rank. -/
def globalCrossRankOrder (now : Instant) : Except Fault (List ProgramRef) :=
  orderCrossRankCandidates state
    ((globalReasoningWaiters state modelPool).filter fun program =>
      (state.decisions.lookup program).any fun decision => decision.lastPauseReason.isSome)
    now

def destinationHasLocalWaiter (candidate : ProgramRef) (destination : String) : Bool :=
  (state.globalQueue candidate.modelPool).any fun program =>
    program ≠ candidate && awaitsResume state program &&
      (state.decisions.lookup program).any fun decision =>
        decision.lastTarget == some destination

def waitedForObservation (decision : ProgramDecisionState F) (now : Instant) : Bool :=
  decision.queuedAt.any fun queuedAt => decide (self.config.metricsInterval ≤ now - queuedAt)

variable (targetId : String)

def windowComplete : Bool :=
  (state.rankFactors.lookup targetId).any fun factors =>
    factors.requestWindowComplete self.config.progressTtl.statsWindowSize

variable (program : ProgramRef)

def crossRankCandidateIsMature (destination : String) (now : Instant) : Except Fault Bool := do
  let decision ← state.decisionAt program
  match decision.lastTarget with
  | none => return false
  | some source =>
    return self.windowComplete state source && self.windowComplete state destination
      && self.waitedForObservation decision now

def higherPrioritySourceWaiters (candidate : ProgramRef) (now : Instant) : Except Fault Nat := do
  let decision ← state.decisionAt candidate
  match decision.lastTarget with
  | none => return 0
  | some source =>
    -- The scan compares only Programs whose decision state it has just read.
    let rivals := (globalReasoningWaiters state candidate.modelPool).filterMap fun program =>
      (state.decisions.lookup program).map fun decision => (program, decision)
    return (rivals.filter fun rival =>
      rival.1 ≠ candidate && rival.2.lastTarget == some source
        && self.waitedForObservation rival.2 now
        && (self.localResumeCmp state now rival (candidate, decision)) == .lt).length

def sourceHasResumePressure (now : Instant) : Except Fault Bool := do
  if self.config.admissionWaitingRequestThreshold = 0 then return true
  let decision ← state.decisionAt program
  if decision.lastTarget.any fun source => self.backendIsWaiting state source now then
    return true
  let rivals ← self.higherPrioritySourceWaiters state program now
  return decide (1 ≤ rivals)

def destinationHasContextHeadroom (destination : String) (now : Instant) : Except Fault Bool :=
  match self.config.progressTtl.tokenCapacity with
  | none => .ok true
  | some capacity => do
    let decision ← state.decisionAt program
    match decision.lastTarget with
    | none => return false
    | some source =>
      let limit := F64.ofNat capacity * self.config.progressTtl.lowWatermarkRatio
      let headroom := fun targetId =>
        max (limit - self.targetUsage state targetId now) (F64.lit 0)
      return decide (headroom source
        + self.config.crossRankHeadroomRatio * F64.ofNat decision.estimatedContextTokens
          ≤ headroom destination)

def crossRankPlan (source destination : String) (now : Instant) :
    Except Fault (Option (String × RankAdmissionPlan F)) := do
  if destination = source then return none
  if destinationHasLocalWaiter state program destination then return none
  let mature ← self.crossRankCandidateIsMature state program destination now
  if ¬ mature then return none
  let pressure ← self.sourceHasResumePressure state program now
  if ¬ pressure then return none
  let headroom ← self.destinationHasContextHeadroom state program destination now
  if ¬ headroom then return none
  return (self.rankAdmissionPlan state program destination now).map fun plan =>
    (destination, plan)

def backendWaiting (now : Instant) : Nat :=
  (((state.observations.lookup targetId).filter fun observation =>
      self.observationIsFresh observation now).bind (·.waitingRequests)).getD 0

def planPressure (plan : RankAdmissionPlan F) : F :=
  match plan.capacityTokens with
  | none => F64.ofNat ((self.activeOn state targetId).length + 1)
      / F64.ofNat (max self.config.maxActiveProgramsPerTarget 1)
  | some capacity =>
    (plan.usedTokens + plan.requiredTokens + plan.reserveTokens) / F64.ofNat (max capacity 1)

variable (now : Instant)

def destinationCmp (left right : String × RankAdmissionPlan F) : Ordering :=
  (((compare (self.backendWaiting state left.1 now) (self.backendWaiting state right.1 now)).then
    (F64.totalCmp (self.planPressure state left.1 left.2)
      (self.planPressure state right.1 right.2))).then
    (compare (self.activeOn state left.1).length (self.activeOn state right.1).length)).then
    (compare left.1 right.1)

def selectCrossRankAdmission (now : Instant) :
    Except Fault (Option (String × RankAdmissionPlan F)) :=
  match state.decisions.lookup program with
  | none => .ok none
  | some decision =>
    match decision.lastPauseReason, decision.lastTarget,
        state.modelTargets.lookup program.modelPool with
    | some _, some source, some targets => do
      let plans ← targets.mapM fun destination =>
        self.crossRankPlan state program source destination now
      return minBy (self.destinationCmp state now) plans.reduceOption
    | _, _, _ => .ok none

def selectGlobalLocal (modelPool : String) (state : ProgramSchedulerState F T) :
    Except Fault (Option (ProgramRef × String × RankAdmissionPlan F)) := do
  let queued ← self.globalLocalResumeOrder state modelPool now
  return queued.findSome? fun program =>
    ((state.decisions.lookup program).bind (·.lastTarget)).bind fun targetId =>
      (self.rankAdmissionPlan state program targetId now).map fun plan =>
        (program, targetId, plan)

def firstCrossRank (state : ProgramSchedulerState F T) (now : Instant) :
    List ProgramRef → Except Fault (Option (ProgramRef × String × RankAdmissionPlan F))
  | [] => .ok none
  | program :: rest => do
    match ← self.selectCrossRankAdmission state program now with
    | some (targetId, plan) => return some (program, targetId, plan)
    | none => firstCrossRank state now rest

def selectGlobalCrossRank (modelPool : String) (state : ProgramSchedulerState F T) :
    Except Fault (Option (ProgramRef × String × RankAdmissionPlan F)) := do
  let queued ← globalCrossRankOrder state modelPool now
  self.firstCrossRank state now queued

def scheduleGlobalWaiting : Except Fault (ProgramSchedulerState F T) :=
  (self.order.names state.globalQueues.keys).foldlM
    (fun state modelPool => do
      let resumed ← self.resumeWhile (self.selectGlobalLocal now modelPool) now
        ((state.globalQueue modelPool).length + 1) state
      self.resumeWhile (self.selectGlobalCrossRank now modelPool) now
        ((resumed.globalQueue modelPool).length + 1) resumed)
    state

def scheduleWaiting : Except Fault (ProgramSchedulerState F T) :=
  if self.config.globalQueue then self.scheduleGlobalWaiting state now
  else self.scheduleRankLocal state now

end SmetricRouter.ProgramScheduling.ProgramScheduler
