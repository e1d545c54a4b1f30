import SmetricRouter.Library.Table
import SmetricRouter.Library.Outcome
import SmetricRouter.Library.Machine64
import SmetricRouter.Library.Notify

/-! Protocol-neutral Program values shared by the scheduler modules.

Identifiers are the strings of the source. A `ProgramRef` names one exact
generation of a Program, so a delayed completion or cancellation of an older
generation never compares equal to the current one.
-/

namespace SmetricRouter.ProgramScheduling

inductive ProgramState where
  | active
  | paused
  deriving DecidableEq, Repr

inductive ProgramStatus where
  | reasoning
  | acting
  deriving DecidableEq, Repr

structure ProgramRef where
  modelPool : String
  programId : String
  generation : Nat
  deriving DecidableEq, Repr

/-- The runtime, the binding table and the lineage key a Program by its pool
and its external identifier, without the generation. -/
structure RuntimeKey where
  modelPool : String
  programId : String
  deriving DecidableEq, Repr

def ProgramRef.key (reference : ProgramRef) : RuntimeKey :=
  ⟨reference.modelPool, reference.programId⟩

structure ProgramRequestHints where
  requestId : Option String := none
  priority : Int := 0
  deadline : Option Duration := none
  expectedOutputTokens : Option Nat := none
  kvRetentionTtl : Option Duration := none
  deriving DecidableEq, Repr

structure ProgramIdentity where
  modelPool : String
  programId : String
  placementHashKey : String
  placementKey : String
  expectedResume : Bool
  taskId : Option String := none
  sessionId : Option String := none
  agentId : Option String := none
  parentProgramId : Option String := none
  rootProgramId : Option String := none
  blocksParent : Bool := false
  agentRole : Option String := none
  spawnReason : Option String := none
  stepId : Option Nat := none
  requestHints : ProgramRequestHints := {}
  deriving DecidableEq, Repr

def ProgramIdentity.key (identity : ProgramIdentity) : RuntimeKey :=
  ⟨identity.modelPool, identity.programId⟩

def ProgramIdentity.forRebinding (reference : ProgramRef) (placementHashKey placementKey : String)
    (expectedResume : Bool) : ProgramIdentity where
  modelPool := reference.modelPool
  programId := reference.programId
  placementHashKey := placementHashKey
  placementKey := placementKey
  expectedResume := expectedResume

structure ProgramTarget where
  id : String
  baseUrl : String
  dpRank : Option Nat
  deriving DecidableEq, Repr

/-- A shared immutable target list. Two snapshots are the same allocation
exactly when their addresses agree; equal lists may live at two addresses. -/
structure TargetSnapshot where
  address : Nat
  targets : List ProgramTarget
  deriving DecidableEq, Repr

structure ProgramDispatch where
  program : ProgramRef
  targetId : String
  placementEpoch : Nat
  requestArrivedAt : Instant
  dispatchedAt : Instant
  estimatedContextTokens : Nat
  placementStartRequest : Bool
  routingText : Option String
  requestHints : ProgramRequestHints
  deriving DecidableEq, Repr

structure ProgramUsageObservation where
  promptTokens : Option Nat := none
  completionTokens : Option Nat := none
  cachedPromptTokens : Option Nat := none
  deriving DecidableEq, Repr

/-- Errors of an acquisition. Malformed identities are rejected before it. -/
inductive ScheduleError where
  | noTargets
  | queueTimeout
  deriving DecidableEq, Repr

/-- A panic of the scheduler, or a loop that has not ended. -/
inductive Fault where
  /-- `decisions[..]` on a Program without decision state. -/
  | decisionMissing
  /-- `expect` on the per-target capacity of token-balance binding. -/
  | capacityMissing
  /-- `expect` on the checked increment of the target revision. -/
  | revisionExhausted
  /-- A scheduling loop still running after its bound. -/
  | loopRunning
  deriving DecidableEq, Repr

/-- Put a Program at the tail of a queue it is not yet in. -/
def pushWaiter (queue : List ProgramRef) (program : ProgramRef) : List ProgramRef :=
  if program ∈ queue then queue else queue ++ [program]

/-- The order in which one lock-held step sees the entries of its hash maps.
The standard library leaves it open: any permutation of the keys may occur, and
a map keeps it only until its key set changes. -/
structure IterationOrder where
  programs : List RuntimeKey → List RuntimeKey
  programs_perm : ∀ keys, (programs keys).Perm keys
  names : List String → List String
  names_perm : ∀ keys, (names keys).Perm keys

def IterationOrder.filled : IterationOrder where
  programs := id
  programs_perm _ := List.Perm.refl _
  names := id
  names_perm _ := List.Perm.refl _

variable (order : IterationOrder)

@[simp] theorem IterationOrder.mem_names {keys : List String}
    {name : String} : name ∈ order.names keys ↔ name ∈ keys :=
  (order.names_perm keys).mem_iff

end SmetricRouter.ProgramScheduling
