import SmetricRouter.ProgramScheduling.Runtime

/-! The scheduler as an abstract machine.

The machine keeps the lifecycle facts whole and of the decision state only what
lifecycle decisions turn on: where a Program ran last, since when it waits and
when it must be resumed. A move is one atomic change of a Program or of a pool.
Which move is taken is left open; capacity, observations and ordering hints
only choose among moves.
-/

namespace SmetricRouter.ProgramScheduling

/-- The part of a Program's decision state that the machine keeps. -/
structure Standing where
  lastTarget : Option String
  queuedAt : Option Instant
  forceResumeDeadline : Option Instant
  deriving DecidableEq, Repr

@[ext] structure Core where
  runtime : ProgramRuntime
  standing : ProgramRef → Option Standing
  rankQueue : String → List ProgramRef
  globalQueue : String → List ProgramRef
  targets : String → List String

structure Arrival where
  identity : ProgramIdentity
  estimatedContextTokens : Nat
  routingText : Option String
  arrivedAt : Instant

namespace Core

variable (core : Core) (program : ProgramRef)

def dequeue : Core :=
  { core with
    rankQueue := fun target => (core.rankQueue target).filter (· ≠ program)
    globalQueue := fun pool => (core.globalQueue pool).filter (· ≠ program) }

def setStanding (standing : Option Standing) : Core :=
  { core with standing := Function.update core.standing program standing }

variable (globalMode : Bool)

/-- Change one waiting queue: the pool's in global mode, the target's otherwise. -/
def editQueue (pool target : String) (change : List ProgramRef → List ProgramRef) : Core :=
  if globalMode then
    { core with
      globalQueue := Function.update core.globalQueue pool (change (core.globalQueue pool)) }
  else
    { core with
      rankQueue := Function.update core.rankQueue target (change (core.rankQueue target)) }

def arrivingStanding (reference : ProgramRef) (home : Option String) (arrivedAt : Instant) :
    Standing :=
  (core.standing reference).getD ⟨home, some arrivedAt, none⟩

def retained (arrival : Arrival) : ProgramRequestHandle × ProgramRuntime :=
  core.runtime.retainRequest arrival.identity arrival.estimatedContextTokens arrival.routingText
    arrival.arrivedAt

/-- A request arrives. Its Program waits in a queue unless it is placed or has
no target to wait for. -/
def arrive (arrival : Arrival) (home : Option String) (deadline : Instant) : Core :=
  let (handle, runtime) := core.runtime.retainRequest arrival.identity
    arrival.estimatedContextTokens arrival.routingText arrival.arrivedAt
  let standing := core.arrivingStanding handle.program home arrival.arrivedAt
  let retained := { core with runtime := runtime }.setStanding handle.program (some standing)
  if (runtime.placement handle.program).isSome then retained
  else
    match standing.lastTarget with
    | none => retained
    | some target =>
      (retained.setStanding handle.program (some
        { standing with
          queuedAt := standing.queuedAt.or (some arrival.arrivedAt)
          forceResumeDeadline := some deadline })).editQueue globalMode
        arrival.identity.modelPool target fun queue => pushWaiter queue handle.program

def activate (target : String) (runtime : ProgramRuntime) : Core :=
  ({ core with runtime := runtime.notifyFront program }.setStanding program
    (some ⟨some target, none, none⟩)).dequeue program

def cancel (runtime : ProgramRuntime) : Core :=
  let cancelled := { core with runtime := runtime }
  if (runtime.view program).any fun view => decide (0 < view.waitingRequests) then cancelled
  else cancelled.dequeue program

def release (runtime : ProgramRuntime) : Core :=
  ({ core with runtime := runtime }.setStanding program none).dequeue program

def failOver (program : ProgramRef) (removed : List String) (standing : Standing)
    (replacement : Option String) : Core :=
  let moved := ({ core with
    runtime := (core.runtime.invalidatePlacement program removed).getD core.runtime }.setStanding
      program (some { standing with lastTarget := replacement })).dequeue program
  if core.runtime.requestPool.queue program = [] then moved
  else if globalMode then moved.editQueue true program.modelPool "" (· ++ [program])
  else
    match replacement with
    | some target => moved.editQueue false program.modelPool target (· ++ [program])
    | none => moved

/-- A pool lists exactly `ids`; the queues of the targets it lost are dropped. -/
def shrink (pool : String) (ids removed : List String) : Core :=
  { core with
    targets := Function.update core.targets pool ids
    rankQueue := fun target => if target ∈ removed then [] else core.rankQueue target }

end Core

inductive Label where
  | arrive (arrival : Arrival)
  | activate (program : ProgramRef) (target : String)
  | pause (program : ProgramRef)
  | dispatch (handle : ProgramRequestHandle) (now : Instant)
  | complete (dispatch : ProgramDispatch) (usage : ProgramUsageObservation)
  | cancel (handle : ProgramRequestHandle)
  | release (program : ProgramRef)
  | prune
  | wake (program : ProgramRef)
  | extend (pool : String)
  | failOver (program : ProgramRef) (removed : List String)
  | shrink (pool : String) (removed : List String)

def Label.scheduling : Label → Prop
  | .activate _ _ | .pause _ | .release _ | .prune | .wake _ => True
  | _ => False

def Label.syncing (pool : String) (removed : List String) : Label → Prop
  | .extend other => other = pool
  | .failOver program lost => program.modelPool = pool ∧ lost = removed
  | _ => False

inductive Move (globalMode : Bool) (core : Core) : Label → Core → Prop where
  | arrive (arrival home deadline)
      (bound : ∀ target, home = some target → target ∈ core.targets arrival.identity.modelPool)
      (unbound : home = none → core.targets arrival.identity.modelPool = []) :
      Move globalMode core (.arrive arrival) (core.arrive globalMode arrival home deadline)
  | activate (program target runtime) (listed : target ∈ core.targets program.modelPool)
      (activated : core.runtime.activate program target = some runtime) :
      Move globalMode core (.activate program target) (core.activate program target runtime)
  | pause (program runtime)
      (acting : ∀ record, core.runtime.find program = some record → record.status = .acting)
      (paused : core.runtime.pauseIdle program = some runtime) :
      Move globalMode core (.pause program) { core with runtime := runtime }
  | dispatch (handle target now) (placed : core.runtime.placement handle.program = some target)
      (active : ∀ record, core.runtime.find handle.program = some record → record.state = .active) :
      Move globalMode core (.dispatch handle now)
        { core with runtime := (core.runtime.admitFront handle target now).2 }
  | complete (dispatch usage runtime)
      (placed : core.runtime.placement dispatch.program = some dispatch.targetId)
      (completed : core.runtime.completeRequest dispatch usage = some runtime) :
      Move globalMode core (.complete dispatch usage) { core with runtime := runtime }
  | cancel (handle runtime) (cancelled : core.runtime.cancelRequest handle = some runtime) :
      Move globalMode core (.cancel handle) (core.cancel handle.program runtime)
  | release (program now runtime) (released : core.runtime.releaseIdle program now = some runtime) :
      Move globalMode core (.release program) (core.release program runtime)
  | prune (now retention) :
      Move globalMode core .prune
        { core with runtime := core.runtime.pruneReleasedGenerations now retention }
  | wake (program) :
      Move globalMode core (.wake program) { core with runtime := core.runtime.notifyFront program }
  | extend (pool ids) (kept : ∀ target ∈ core.targets pool, target ∈ ids) :
      Move globalMode core (.extend pool)
        { core with targets := Function.update core.targets pool ids }
  | failOver (program current removed standing replacement)
      (standing_eq : core.standing program = some standing)
      (homeless : ∀ target, standing.lastTarget = some target → target ∈ removed)
      (listed : ∀ target ∈ current, target ∈ core.targets program.modelPool)
      (bound : ∀ target, replacement = some target → target ∈ current)
      (unbound : replacement = none → current = []) :
      Move globalMode core (.failOver program removed)
        (core.failOver globalMode program removed standing replacement)
  | shrink (pool ids removed)
      (settled : ∀ program standing, program.modelPool = pool →
        core.standing program = some standing →
          (∀ target, standing.lastTarget = some target → target ∈ ids) ∧
          (standing.lastTarget = none → ids = []))
      (lost : ∀ target ∈ removed, target ∉ ids) :
      Move globalMode core (.shrink pool removed) (core.shrink pool ids removed)

def Evolves (globalMode : Bool) (kind : Label → Prop) : Core → Core → Prop :=
  Relation.ReflTransGen fun core next => ∃ label, kind label ∧ Move globalMode core label next

namespace Evolves

variable {globalMode : Bool} {kind : Label → Prop} {core next last : Core}

theorem refl : Evolves globalMode kind core core := Relation.ReflTransGen.refl

theorem of_eq (same : next = core) : Evolves globalMode kind core next := same ▸ refl

theorem trans (first : Evolves globalMode kind core next) (second : Evolves globalMode kind next last) :
    Evolves globalMode kind core last :=
  Relation.ReflTransGen.trans first second

theorem move {label : Label} (taken : Move globalMode core label next) (allowed : kind label) :
    Evolves globalMode kind core next :=
  Relation.ReflTransGen.single ⟨label, allowed, taken⟩

theorem invariant {holds : Core → Prop} (evolved : Evolves globalMode kind core next)
    (step : ∀ core label next, kind label → Move globalMode core label next →
      holds core → holds next)
    (initially : holds core) : holds next := by
  induction evolved with
  | refl => exact initially
  | tail _ taken ih =>
    obtain ⟨label, allowed, moved⟩ := taken
    exact step _ _ _ allowed moved ih

end Evolves

end SmetricRouter.ProgramScheduling
