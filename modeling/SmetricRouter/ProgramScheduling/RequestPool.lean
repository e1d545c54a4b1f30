import SmetricRouter.ProgramScheduling.Domain

/-! Retained request storage and per-Program FIFO wake-ups.

The pool owns request blocking data only. Notifiers live in a heap beside the
queues: a handle and the request it names share one notifier identifier, as
they share one allocation in the program.
-/

namespace SmetricRouter.ProgramScheduling

structure ProgramRequestHandle where
  program : ProgramRef
  requestId : Nat
  notifier : Nat
  deriving DecidableEq, Repr

structure PendingProgramRequest where
  id : Nat
  arrivedAt : Instant
  estimatedContextTokens : Nat
  routingText : Option String
  hints : ProgramRequestHints
  notifier : Nat
  deriving DecidableEq, Repr

structure RequestPool where
  requests : Table ProgramRef (List PendingProgramRequest)
  nextRequestId : Nat
  retainedRequestCount : Nat
  /-- The heap of notifiers; `nextNotifier` is the next fresh allocation. -/
  notifiers : Nat → Notify
  nextNotifier : Nat

namespace RequestPool

def empty : RequestPool := ⟨∅, 0, 0, fun _ => {}, 0⟩

variable (pool : RequestPool) (program : ProgramRef)

def queue : List PendingProgramRequest :=
  (pool.requests.lookup program).getD []

def storeQueue (requests : Table ProgramRef (List PendingProgramRequest)) (program : ProgramRef)
    (rest : List PendingProgramRequest) : Table ProgramRef (List PendingProgramRequest) :=
  if rest = [] then requests.erase program else requests.insert program rest

def retain (arrivedAt : Instant) (estimatedContextTokens : Nat) (routingText : Option String)
    (hints : ProgramRequestHints) : ProgramRequestHandle × RequestPool :=
  let requestId := wrappingSucc pool.nextRequestId
  let notifier := pool.nextNotifier
  let request := ⟨requestId, arrivedAt, estimatedContextTokens, routingText, hints, notifier⟩
  (⟨program, requestId, notifier⟩,
    { requests := pool.requests.insert program (pool.queue program ++ [request])
      nextRequestId := requestId
      retainedRequestCount := saturatingAdd pool.retainedRequestCount 1
      notifiers := Function.update pool.notifiers notifier {}
      nextNotifier := notifier + 1 })

def takeFront (handle : ProgramRequestHandle) : Option (PendingProgramRequest × RequestPool) :=
  match pool.requests.lookup handle.program with
  | none => none
  | some [] => none
  | some (front :: rest) =>
    if front.id ≠ handle.requestId then none
    else some (front,
      { pool with
        requests := storeQueue pool.requests handle.program rest
        retainedRequestCount := pool.retainedRequestCount - 1 })

/-- Cancel one request regardless of its position in the Program FIFO, and say
whether it was the front request. -/
def cancel (handle : ProgramRequestHandle) : Option (Bool × RequestPool) := do
  let waiting ← pool.requests.lookup handle.program
  let position ← waiting.findIdx? fun request => request.id == handle.requestId
  return (position == 0,
    { pool with
      requests := storeQueue pool.requests handle.program (waiting.eraseIdx position)
      retainedRequestCount := pool.retainedRequestCount - 1 })

def notifyFront : RequestPool :=
  match (pool.queue program).head? with
  | some request =>
    { pool with
      notifiers := Function.update pool.notifiers request.notifier
        (pool.notifiers request.notifier).notifyOne }
  | none => pool

def len : Nat := pool.retainedRequestCount

def programLen : Nat := (pool.queue program).length

def frontHints : Option ProgramRequestHints :=
  (pool.queue program).head?.map (·.hints)

variable {pool : RequestPool} {program : ProgramRef}

theorem queue_eq_of_lookup {waiting : List PendingProgramRequest}
    (found : pool.requests.lookup program = some waiting) : pool.queue program = waiting := by
  simp [queue, found]

variable {request : PendingProgramRequest}

theorem lookup_of_queue {rest : List PendingProgramRequest}
    (waiting : pool.queue program = request :: rest) :
    pool.requests.lookup program = some (request :: rest) := by
  unfold queue at waiting
  cases stored : pool.requests.lookup program with
  | none =>
    rw [stored] at waiting
    cases waiting
  | some =>
    rw [stored, Option.getD_some] at waiting
    rw [waiting]

theorem lookup_storeQueue (requests : Table ProgramRef (List PendingProgramRequest))
    (program other : ProgramRef) (rest : List PendingProgramRequest) :
    (storeQueue requests program rest).lookup other =
      if other = program then (if rest = [] then none else some rest)
      else requests.lookup other := by
  unfold storeQueue
  by_cases emptied : rest = []
  · simp [emptied, Table.lookup_erase_eq]
  · simp [emptied, Table.lookup_insert_eq]

variable (pool : RequestPool)

/-- The pool after one request has left the queue of a Program. -/
def leaving (program : ProgramRef) (rest : List PendingProgramRequest) : RequestPool :=
  { pool with
    requests := storeQueue pool.requests program rest
    retainedRequestCount := pool.retainedRequestCount - 1 }

theorem queue_leaving (program other : ProgramRef) (rest : List PendingProgramRequest) :
    (pool.leaving program rest).queue other =
      if other = program then rest else pool.queue other := by
  simp only [leaving, queue, lookup_storeQueue]
  by_cases same : other = program
  · by_cases emptied : rest = [] <;> simp [same, emptied]
  · simp [same]

variable (program : ProgramRef)

theorem queue_retain (program other : ProgramRef) (arrivedAt : Instant)
    (tokens : Nat) (routingText : Option String) (hints : ProgramRequestHints) :
    (pool.retain program arrivedAt tokens routingText hints).2.queue other =
      if other = program then
        pool.queue program ++
          [⟨wrappingSucc pool.nextRequestId, arrivedAt, tokens, routingText, hints,
            pool.nextNotifier⟩]
      else pool.queue other := by
  simp only [retain, queue, Table.lookup_insert_eq]
  by_cases same : other = program <;> simp [same]

@[simp] theorem requests_notifyFront : (pool.notifyFront program).requests = pool.requests := by
  unfold notifyFront
  cases (pool.queue program).head? <;> rfl

@[simp] theorem queue_notifyFront (program other : ProgramRef) :
    (pool.notifyFront program).queue other = pool.queue other := by
  simp [queue]

/-- The same requests and numbers; only wake-ups may differ. -/
structure Same (pool next : RequestPool) : Prop where
  requests : next.requests = pool.requests
  nextRequestId : next.nextRequestId = pool.nextRequestId
  count : next.retainedRequestCount = pool.retainedRequestCount

namespace Same

theorem refl (pool : RequestPool) : Same pool pool := ⟨rfl, rfl, rfl⟩

variable {pool next : RequestPool}

theorem notifyFront (same : Same pool next) (program : ProgramRef) :
    Same pool (next.notifyFront program) := by
  unfold RequestPool.notifyFront
  cases (next.queue program).head? with
  | none => exact same
  | some => exact ⟨same.requests, same.nextRequestId, same.count⟩

theorem queue (same : Same pool next) (program : ProgramRef) :
    next.queue program = pool.queue program := by
  simp [RequestPool.queue, same.requests]

end Same

variable {handle : ProgramRequestHandle}

theorem takeFront_some {pool taken : RequestPool}
    (took : pool.takeFront handle = some (request, taken)) :
    ∃ rest, pool.requests.lookup handle.program = some (request :: rest) ∧
      request.id = handle.requestId ∧ taken = pool.leaving handle.program rest := by
  unfold takeFront at took
  split at took
  · cases took
  · cases took
  · rename_i front rest found
    by_cases named : front.id = handle.requestId
    · rw [if_neg (not_not.mpr named)] at took
      cases took
      exact ⟨rest, found, named, rfl⟩
    · rw [if_pos named] at took
      cases took

theorem cancel_some {pool cancelled : RequestPool} {wasFront : Bool}
    (removed : pool.cancel handle = some (wasFront, cancelled)) :
    ∃ waiting position, pool.requests.lookup handle.program = some waiting ∧
      waiting.findIdx? (fun request => request.id == handle.requestId) = some position ∧
      wasFront = (position == 0) ∧
      cancelled = pool.leaving handle.program (waiting.eraseIdx position) := by
  unfold cancel at removed
  cases found : pool.requests.lookup handle.program with
  | none => simp [found] at removed
  | some waiting =>
    cases located : waiting.findIdx? fun request => request.id == handle.requestId with
    | none => simp [found, located] at removed
    | some position =>
      simp only [found, located, Option.bind_eq_bind, Option.bind_some, Option.pure_def,
        Option.some.injEq, Prod.mk.injEq] at removed
      obtain ⟨front, rest⟩ := removed
      exact ⟨waiting, position, rfl, located, front.symm, rest.symm⟩

end RequestPool

end SmetricRouter.ProgramScheduling
