import SmetricRouter.ProgramScheduling.Arrival

/-! Target discovery.

A synchronization installs the target list of one pool. Targets the pool lost
are cleaned up, and the Programs of the pool that were bound to a lost target
fail over to a remaining one.
-/

namespace SmetricRouter.ProgramScheduling

/-- What a synchronization remembers of a Program it must bind again. -/
structure AffectedProgram where
  program : ProgramRef
  expectedResume : Bool
  waitingRequests : Nat
  targetDisappeared : Bool
  placementKey : String
  placementHashKey : String
  deriving DecidableEq, Repr

structure FailoverClock where
  boundAt : Instant
  pausedAt : Instant
  deriving DecidableEq, Repr

structure PoolSnapshot where
  modelPool : String
  snapshot : TargetSnapshot
  clock : ProgramRef → FailoverClock

namespace ProgramScheduler

variable {F T : Type} [F64 F] [AffinityTree T] (self : ProgramScheduler F)

/-- The targets of a snapshot by identifier; a later entry replaces an earlier
one with the same identifier. -/
def incomingTargets (targets : List ProgramTarget) : Table String ProgramTarget :=
  targets.foldl (fun incoming target => incoming.insert target.id target) ∅

def incomingIds (targets : List ProgramTarget) : List String :=
  (incomingTargets targets).keys.insertionSort (· ≤ ·)

variable (state : ProgramSchedulerState F T) (modelPool : String) (targets : List ProgramTarget)

def targetsUnchanged : Bool :=
  state.modelTargets.lookup modelPool == some (incomingIds targets) &&
    (incomingTargets targets).entries.all fun entry =>
      state.targets.lookup entry.1 == some entry.2

def installTargets : ProgramSchedulerState F T :=
  let currentIds := incomingIds targets
  { state with
    modelTargets := state.modelTargets.insert modelPool currentIds
    targets := (incomingTargets targets).entries.foldl
      (fun known entry => known.insert entry.1 entry.2) state.targets
    globalQueues := state.globalQueues.orDefault modelPool
    rankQueues := currentIds.foldl (fun queues target => queues.orDefault target) state.rankQueues
    rankFactors := currentIds.foldl (fun factors target => factors.orDefault target)
      state.rankFactors
    observations := currentIds.foldl (fun observations target => observations.orDefault target)
      state.observations }

def removeTarget (modelPool : String) (state : ProgramSchedulerState F T) (targetId : String) :
    ProgramSchedulerState F T :=
  { state with
    bindings := (state.bindings.removeTarget targetId).removeAffinityTarget modelPool targetId
    rankQueues := state.rankQueues.erase targetId
    rankFactors := state.rankFactors.erase targetId
    observations := state.observations.erase targetId }

def affectedPrograms (currentIds removed : List String) : List AffectedProgram :=
  ((state.runtime.iterViews self.order).filter fun program =>
    program.reference.modelPool == modelPool).filterMap fun program => do
      let decision ← state.decisions.lookup program.reference
      if decision.lastTarget.all fun target => target ∉ currentIds then
        some
          { program := program.reference
            expectedResume := program.expectedResume
            waitingRequests := program.waitingRequests
            targetDisappeared := decision.lastTarget.any fun target => target ∈ removed
            placementKey := decision.placementKey
            placementHashKey := decision.placementHashKey }
      else none

def reboundDecision (replacement : Option String) (interrupted : Bool) (now : Instant)
    (decision : ProgramDecisionState F) : ProgramDecisionState F :=
  let rebound := { decision with homeTarget := replacement, lastTarget := replacement }
  if interrupted then
    { rebound with
      pausedAt := some now
      pauseWhenIdle := false
      ttlDeadline := none
      segmentStartedAt := none }.restartSharedPrefixFreshness now
  else rebound

def requeue (program : ProgramRef) (replacement : Option String) : ProgramSchedulerState F T :=
  if self.config.globalQueue then
    { state with globalQueues := state.globalQueues.update modelPool (· ++ [program]) }
  else
    match replacement with
    | some target => { state with rankQueues := state.rankQueues.update target (· ++ [program]) }
    | none => state

omit [AffinityTree T] in
theorem requeue_eq (program : ProgramRef) {replacement : Option String} : ∃ ranks pools,
      self.requeue state modelPool program replacement =
        { state with rankQueues := ranks, globalQueues := pools } := by
  fun_cases requeue self state modelPool program replacement <;> exact ⟨_, _, rfl⟩

def failOver (removed : List String) (clock : ProgramRef → FailoverClock)
    (state : ProgramSchedulerState F T) (affected : AffectedProgram) :
    Except Fault (ProgramSchedulerState F T) := do
  let program := affected.program
  let invalidated := state.runtime.invalidatePlacement program removed
  let released := { state with
    runtime := invalidated.getD state.runtime
    bindings := state.bindings.releaseProgram program }.dequeue program
  let identity := ProgramIdentity.forRebinding program affected.placementHashKey
    affected.placementKey affected.expectedResume
  let candidates := self.bindingCandidates released identity (clock program).boundAt
  let (replacement, bindings) ← released.bindings.bind self.fbiHash identity candidates none
  let rebound := { released with bindings := bindings }.modifyDecision program
    (reboundDecision replacement (invalidated.isSome || affected.targetDisappeared)
      (clock program).pausedAt)
  if 0 < affected.waitingRequests then
    return self.requeue rebound modelPool program replacement
  else return rebound

def forgetUnreferenced : ProgramSchedulerState F T :=
  { state with
    targets := state.targets.retain fun target _ =>
      state.modelTargets.values.any fun ids => target ∈ ids }

def replaceTargets (clock : ProgramRef → FailoverClock) :
    Except Fault (ProgramSchedulerState F T) := do
  let currentIds := incomingIds targets
  let removed := (state.poolTargets modelPool).filter (· ∉ currentIds)
  let cleaned := removed.foldl (removeTarget modelPool) (installTargets state modelPool targets)
  let affected := self.affectedPrograms cleaned modelPool currentIds removed
  let rebound ← affected.foldlM (self.failOver modelPool removed clock) cleaned
  return forgetUnreferenced rebound

def syncTargetSnapshotLocked (pool : PoolSnapshot) : Except Fault (ProgramSchedulerState F T) :=
  let remembered := { state with
    modelTargetSnapshots := state.modelTargetSnapshots.insert pool.modelPool pool.snapshot }
  if (state.modelTargetSnapshots.lookup pool.modelPool).any fun current =>
      current.address == pool.snapshot.address then .ok state
  else if targetsUnchanged state pool.modelPool pool.snapshot.targets then .ok remembered
  else if state.targetSnapshotRevision = u64Max then .error .revisionExhausted
  else
    self.replaceTargets
      { remembered with targetSnapshotRevision := state.targetSnapshotRevision + 1 }
      pool.modelPool pool.snapshot.targets pool.clock

end ProgramScheduler

end SmetricRouter.ProgramScheduling
