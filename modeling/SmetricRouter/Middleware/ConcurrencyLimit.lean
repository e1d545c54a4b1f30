import SmetricRouter.Library.StepRuns
import SmetricRouter.Library.Table
import SmetricRouter.Middleware.TokenBucket

/-! Admission of requests by a token bucket with a queue behind it.

The system is the bucket, the middleware of every request, the queue with its
processor, and the tasks that wait for a token on behalf of queued requests. An event
is what one of them does between two of its await points, a timer that fires, a request
whose future is dropped, or time that passes.
-/

namespace SmetricRouter.Middleware

structure LimiterConfig where
  maxConcurrentRequests : Nat
  rateLimitTokensPerSecond : Option Nat
  queueSize : Nat
  queueTimeoutSecs : Nat
  deriving DecidableEq, Repr

variable (config : LimiterConfig)

def LimiterConfig.rateLimiter : TokenBucket :=
  .new config.maxConcurrentRequests
    (config.rateLimitTokensPerSecond.getD config.maxConcurrentRequests)

def LimiterConfig.queueTimeout : Duration :=
  config.queueTimeoutSecs * 1000000000

/-- What the middleware answers. A timeout remembers when its request was queued. -/
inductive Answer where
  | response
  | tooManyRequests
  | requestTimeout (queuedAt : Instant)
  deriving DecidableEq, Repr

inductive Request where
  /-- Before its first attempt to take a token. -/
  | arriving
  /-- In the queue, waiting for the answer on its permit channel. -/
  | queued (queuedAt : Instant)
  /-- The channel holds the permit. -/
  | granted
  /-- The channel holds the refusal `REQUEST_TIMEOUT`. -/
  | denied (queuedAt : Instant)
  /-- Inside the handler. -/
  | running
  /-- The handler has answered and the token goes back. -/
  | returning
  | answered (answer : Answer)
  /-- The future was dropped. -/
  | disconnected
  deriving DecidableEq, Repr

def Request.holds : Request → Bool
  | .granted | .running | .returning => true
  | _ => false

def Request.alive : Request → Bool
  | .answered _ | .disconnected => false
  | _ => true

structure QueuedRequest where
  request : Nat
  queuedAt : Instant
  deriving DecidableEq, Repr

/-- Where a task stands that waits for a token, with the deadlines of the two timeouts
around its wait. -/
inductive Waiting where
  | spawned (remaining : Duration)
  /-- Before the first attempt of `acquire`. -/
  | acquiring (deadline : Instant)
  /-- Before it computes its wait time. -/
  | measuring (deadline : Instant)
  /-- Before an attempt inside the loop. -/
  | retrying (deadline waitUntil : Instant)
  /-- Until it is notified or the interval is over. -/
  | pausing (deadline waitUntil wakeAt : Instant)
  deriving DecidableEq, Repr

structure Waiter where
  queued : QueuedRequest
  waiting : Waiting
  deriving DecidableEq, Repr

structure Limiter where
  now : Instant
  bucket : TokenBucketInner
  requests : Table Nat Request
  queue : List QueuedRequest
  /-- The request the queue processor is at, with its remaining timeout. -/
  processing : Option (QueuedRequest × Duration)
  waiters : Table Nat Waiter

def Limiter.new : Limiter where
  now := 0
  bucket := config.rateLimiter.newInner 0
  requests := ∅
  queue := []
  processing := none
  waiters := ∅

namespace Limiter

variable (config : LimiterConfig) (state : Limiter) (request : Nat)

def enter (phase : Request) : Limiter :=
  { state with requests := state.requests.insert request phase }

/-- `permit_tx.send(Ok(()))`. Nobody listens where the request is gone. -/
def grant : Limiter :=
  match state.requests.lookup request with
  | some (.queued _) => state.enter request .granted
  | _ => state

def deny : Limiter :=
  match state.requests.lookup request with
  | some (.queued queuedAt) => state.enter request (.denied queuedAt)
  | _ => state

/-- `try_acquire(1.0)` and what follows on success and on failure. -/
def attempt (taken missed : Limiter → Limiter) : Limiter :=
  match config.rateLimiter.tryAcquire state.bucket state.now 1 with
  | (true, bucket) => taken { state with bucket }
  | (false, bucket) => missed { state with bucket }

variable {config state} in
theorem attempt_rule {Result : Limiter → Prop} {taken missed : Limiter → Limiter}
    (success : ∀ bucket, Result (taken { state with bucket }))
    (failure : ∀ bucket, Result (missed { state with bucket })) :
    Result (state.attempt config taken missed) := by
  unfold attempt
  split
  · exact success _
  · exact failure _

def enqueue : Limiter :=
  if state.queue.length < config.queueSize then
    { state.enter request (.queued state.now) with
      queue := state.queue ++ [⟨request, state.now⟩] }
  else state.enter request (.answered .tooManyRequests)

def receive (queued : QueuedRequest) (rest : List QueuedRequest) : Limiter :=
  let elapsed := state.now - queued.queuedAt
  if config.queueTimeout ≤ elapsed then { state.deny queued.request with queue := rest }
  else { state with queue := rest, processing := some (queued, config.queueTimeout - elapsed) }

def process (queued : QueuedRequest) (remaining : Duration) : Limiter :=
  { state with processing := none }.attempt config
    (fun state => state.grant queued.request)
    (fun state => { state with
      waiters := state.waiters.insert queued.request ⟨queued, .spawned remaining⟩ })

def retire : Limiter := { state with waiters := state.waiters.erase request }

def wait (waiter : Waiter) (waiting : Waiting) : Limiter :=
  { state with
    waiters := state.waiters.insert waiter.queued.request { waiter with waiting := waiting } }

def acquire (waiter : Waiter) (waiting : Waiting) : Limiter :=
  state.attempt config
    (fun state => (state.retire waiter.queued.request).grant waiter.queued.request)
    (fun state => state.wait waiter waiting)

def interval : Duration := 10000000

def poll (waiter : Waiter) : Option Limiter :=
  match waiter.waiting with
  | .spawned remaining => some (state.wait waiter (.acquiring (state.now + remaining)))
  | .acquiring deadline => some (state.acquire config waiter (.measuring deadline))
  | .measuring deadline =>
    let waitTime := config.rateLimiter.waitTime state.bucket 1
    some (state.wait waiter (.retrying deadline (state.now + waitTime)))
  | .retrying deadline waitUntil =>
    some (state.acquire config waiter (.pausing deadline waitUntil (state.now + interval)))
  | .pausing deadline waitUntil wakeAt =>
    if wakeAt ≤ state.now then some (state.wait waiter (.retrying deadline waitUntil)) else none

/-- A timeout of the task can fire. A task that waits for the bucket's lock is
pending, one that pauses is so until it wakes. -/
def expired (now : Instant) : Waiting → Bool
  | .spawned _ => false
  | .acquiring deadline | .measuring deadline => deadline ≤ now
  | .retrying deadline waitUntil => deadline ≤ now || waitUntil ≤ now
  | .pausing deadline waitUntil wakeAt => (deadline ≤ now || waitUntil ≤ now) && now < wakeAt

def Waiting.notified (now : Instant) : Waiting → Waiting
  | .pausing deadline waitUntil wakeAt => .pausing deadline waitUntil (min wakeAt now)
  | waiting => waiting

def returnTokens : Limiter :=
  { state.enter request (.answered .response) with
    bucket := config.rateLimiter.returnTokens state.bucket 1
    waiters := state.waiters.mapValues fun waiter =>
      { waiter with waiting := Waiting.notified state.now waiter.waiting } }

end Limiter

inductive LimiterEvent where
  | arrive (request : Nat)
  | tryAcquire (request : Nat)
  /-- The request reads its permit channel. -/
  | proceed (request : Nat)
  /-- The handler answers. -/
  | finish (request : Nat)
  | returnTokens (request : Nat)
  /-- The request's future is dropped, at whichever await point it is. -/
  | disconnect (request : Nat)
  | receive
  | process
  /-- The task of a queued request runs to its next await point. -/
  | poll (request : Nat)
  /-- A timeout of that task fires. -/
  | expire (request : Nat)
  | advance (elapsed : Duration)
  deriving DecidableEq, Repr

open Limiter

def step (state : Limiter) : LimiterEvent → Option Limiter
  | .arrive request =>
    match state.requests.lookup request with
    | none => some (state.enter request .arriving)
    | some _ => none
  | .tryAcquire request =>
    match state.requests.lookup request with
    | some .arriving =>
      some (state.attempt config (fun state => state.enter request .running)
        (fun state => state.enqueue config request))
    | _ => none
  | .proceed request =>
    match state.requests.lookup request with
    | some .granted => some (state.enter request .running)
    | some (.denied queuedAt) => some (state.enter request (.answered (.requestTimeout queuedAt)))
    | _ => none
  | .finish request =>
    match state.requests.lookup request with
    | some .running => some (state.enter request .returning)
    | _ => none
  | .returnTokens request =>
    match state.requests.lookup request with
    | some .returning => some (state.returnTokens config request)
    | _ => none
  | .disconnect request =>
    match state.requests.lookup request with
    | some phase => if phase.alive then some (state.enter request .disconnected) else none
    | none => none
  | .receive =>
    match state.processing, state.queue with
    | none, queued :: rest => some (state.receive config queued rest)
    | _, _ => none
  | .process =>
    match state.processing with
    | some (queued, remaining) => some (state.process config queued remaining)
    | none => none
  | .poll request =>
    match state.waiters.lookup request with
    | some waiter => state.poll config waiter
    | none => none
  | .expire request =>
    match state.waiters.lookup request with
    | some waiter =>
      if expired state.now waiter.waiting then
        some ((state.retire request).deny waiter.queued.request)
      else none
    | none => none
  | .advance elapsed => some { state with now := state.now + elapsed }

inductive Polled (config : LimiterConfig) (state : Limiter) (waiter : Waiter) : Limiter → Prop where
  | starts (remaining) (phase : waiter.waiting = .spawned remaining) :
      Polled config state waiter (state.wait waiter (.acquiring (state.now + remaining)))
  | acquires (deadline) (phase : waiter.waiting = .acquiring deadline) :
      Polled config state waiter (state.acquire config waiter (.measuring deadline))
  | measures (deadline) (phase : waiter.waiting = .measuring deadline) :
      Polled config state waiter (state.wait waiter
        (.retrying deadline (state.now + config.rateLimiter.waitTime state.bucket 1)))
  | retries (deadline waitUntil) (phase : waiter.waiting = .retrying deadline waitUntil) :
      Polled config state waiter
        (state.acquire config waiter (.pausing deadline waitUntil (state.now + interval)))
  | wakes (deadline waitUntil wakeAt) (phase : waiter.waiting = .pausing deadline waitUntil wakeAt)
      (due : wakeAt ≤ state.now) :
      Polled config state waiter (state.wait waiter (.retrying deadline waitUntil))

inductive Stepped (config : LimiterConfig) (state : Limiter) : LimiterEvent → Limiter → Prop where
  | arrive (request) (missing : state.requests.lookup request = none) :
      Stepped config state (.arrive request) (state.enter request .arriving)
  | tryAcquire (request) (found : state.requests.lookup request = some .arriving) :
      Stepped config state (.tryAcquire request)
        (state.attempt config (fun state => state.enter request .running)
          (fun state => state.enqueue config request))
  | proceed (request) (found : state.requests.lookup request = some .granted) :
      Stepped config state (.proceed request) (state.enter request .running)
  | refuse (request queuedAt) (found : state.requests.lookup request = some (.denied queuedAt)) :
      Stepped config state (.proceed request)
        (state.enter request (.answered (.requestTimeout queuedAt)))
  | finish (request) (found : state.requests.lookup request = some .running) :
      Stepped config state (.finish request) (state.enter request .returning)
  | returnTokens (request) (found : state.requests.lookup request = some .returning) :
      Stepped config state (.returnTokens request) (state.returnTokens config request)
  | disconnect (request phase) (found : state.requests.lookup request = some phase)
      (alive : phase.alive) :
      Stepped config state (.disconnect request) (state.enter request .disconnected)
  | receive (queued : QueuedRequest) (rest : List QueuedRequest) (idle : state.processing = none)
      (waiting : state.queue = queued :: rest) :
      Stepped config state .receive (state.receive config queued rest)
  | process (queued remaining) (found : state.processing = some (queued, remaining)) :
      Stepped config state .process (state.process config queued remaining)
  | poll (request waiter next) (found : state.waiters.lookup request = some waiter)
      (polled : Polled config state waiter next) : Stepped config state (.poll request) next
  | expire (request waiter) (found : state.waiters.lookup request = some waiter)
      (late : expired state.now waiter.waiting) :
      Stepped config state (.expire request) ((state.retire request).deny waiter.queued.request)
  | advance (elapsed) :
      Stepped config state (.advance elapsed) { state with now := state.now + elapsed }

section Inversion

variable {config} {state next : Limiter} {event : LimiterEvent}

theorem poll_polled {waiter : Waiter} (steps : state.poll config waiter = some next) :
    Polled config state waiter next := by
  revert steps
  fun_cases Limiter.poll config state waiter with
  | case1 remaining phase =>
    rintro ⟨⟩
    exact .starts remaining phase
  | case2 deadline phase =>
    rintro ⟨⟩
    exact .acquires deadline phase
  | case3 deadline phase =>
    rintro ⟨⟩
    exact .measures deadline phase
  | case4 deadline waitUntil phase =>
    rintro ⟨⟩
    exact .retries deadline _ phase
  | case5 deadline waitUntil wakeAt phase due =>
    rintro ⟨⟩
    exact .wakes deadline _ _ phase due
  | case6 => rintro ⟨⟩

theorem step_stepped (steps : step config state event = some next) :
    Stepped config state event next := by
  revert steps
  fun_cases step config state event with
  | case1 request missing =>
    rintro ⟨⟩
    exact .arrive _ missing
  | case3 request found =>
    rintro ⟨⟩
    exact .tryAcquire _ found
  | case5 request found =>
    rintro ⟨⟩
    exact .proceed _ found
  | case6 request _ found =>
    rintro ⟨⟩
    exact .refuse _ _ found
  | case8 request found =>
    rintro ⟨⟩
    exact .finish _ found
  | case10 request found =>
    rintro ⟨⟩
    exact .returnTokens _ found
  | case12 request _ found alive =>
    rintro ⟨⟩
    exact .disconnect _ _ found alive
  | case15 _ _ waiting idle =>
    rintro ⟨⟩
    exact .receive _ _ idle waiting
  | case17 _ _ found =>
    rintro ⟨⟩
    exact .process _ _ found
  | case19 _ _ found =>
    intro polls
    exact .poll _ _ next found (poll_polled polls)
  | case21 _ _ found late =>
    rintro ⟨⟩
    exact .expire _ _ found late
  | case24 _ =>
    rintro ⟨⟩
    exact .advance _
  -- In the other cases the event is not possible.
  | _ => rintro ⟨⟩

end Inversion

end SmetricRouter.Middleware
