import SmetricRouter.Middleware.ConcurrencyLimit
import Mathlib.Algebra.Order.BigOperators.Group.List
import Mathlib.Tactic.Linarith

/-! Where the tokens of the limiter are.

A token is in the bucket or with a request that was granted it. Every event that loses
none moves tokens between the two or lets the bucket fill with time; the bound on
running requests and the conservation of tokens both follow from this.
-/

namespace SmetricRouter.Middleware

open Limiter

variable {config : LimiterConfig} {state next : Limiter} {event : LimiterEvent} {request : Nat}

namespace Limiter

def held (state : Limiter) : Nat :=
  state.requests.total fun request => if request.holds then 1 else 0

def running (state : Limiter) : Nat :=
  state.requests.total fun request => if request = .running then 1 else 0

theorem running_le_held : state.running ≤ state.held := by
  refine List.sum_le_sum fun request _ => ?_
  by_cases inside : request = .running
  · subst inside
    exact le_refl 1
  · rw [if_neg inside]
    exact Nat.zero_le _

def available (config : LimiterConfig) (state : Limiter) : ℚ :=
  (config.rateLimiter.refill state.bucket state.now).tokens

def taken (config : LimiterConfig) (state : Limiter) : TokenBucketInner :=
  { config.rateLimiter.refill state.bucket state.now with tokens := state.available config - 1 }

variable {old : Request}

theorem held_enter (found : state.requests.lookup request = some old) (phase : Request) :
    (state.enter request phase).held + (if old.holds then 1 else 0) =
      state.held + if phase.holds then 1 else 0 := by
  have counted := Table.total_insert state.requests
    (fun request => if request.holds then 1 else 0) request phase
  rw [found] at counted
  exact counted

theorem held_enter_same {phase : Request} (found : state.requests.lookup request = some old)
    (same : old.holds = phase.holds) : (state.enter request phase).held = state.held := by
  have counted := held_enter found phase
  rw [same] at counted
  exact Nat.add_right_cancel counted

theorem held_deny : (state.deny request).held = state.held := by
  unfold deny
  split
  case h_1 queuedAt found => exact held_enter_same found rfl
  case h_2 => rfl

theorem held_enqueue (found : state.requests.lookup request = some .arriving) :
    (state.enqueue config request).held = state.held := by
  unfold enqueue
  split
  · exact held_enter_same found rfl
  · exact held_enter_same found rfl

@[simp] theorem deny_bucket : (state.deny request).bucket = state.bucket := by
  unfold deny
  split <;> rfl

@[simp] theorem grant_bucket : (state.grant request).bucket = state.bucket := by
  unfold grant
  split <;> rfl

@[simp] theorem enqueue_bucket : (state.enqueue config request).bucket = state.bucket := by
  unfold enqueue
  split <;> rfl

theorem attempt_of_le (enough : 1 ≤ state.available config) (taken missed : Limiter → Limiter) :
    state.attempt config taken missed = taken { state with bucket := state.taken config } := by
  unfold attempt
  rw [TokenBucket.tryAcquire_of_le enough]
  rfl

theorem attempt_of_lt (short : state.available config < 1) (taken missed : Limiter → Limiter) :
    state.attempt config taken missed =
      missed { state with bucket := config.rateLimiter.refill state.bucket state.now } := by
  unfold attempt
  rw [TokenBucket.tryAcquire_of_lt short]

def awaits (state : Limiter) (request : Nat) : Bool :=
  match state.requests.lookup request with
  | some (.queued _) => true
  | _ => false

theorem held_grant (awaits : state.awaits request) :
    (state.grant request).held = state.held + 1 := by
  unfold Limiter.awaits at awaits
  split at awaits
  case h_1 queuedAt found =>
    unfold grant
    rw [found]
    have counted := held_enter found .granted
    simpa [Request.holds] using counted
  case h_2 => cases awaits

theorem grant_of_gone (gone : state.awaits request = false) : state.grant request = state := by
  unfold Limiter.awaits at gone
  split at gone
  case h_1 => cases gone
  case h_2 waitsNot =>
    unfold grant
    split
    case h_1 queuedAt found => exact (waitsNot queuedAt found).elim
    case h_2 => rfl

end Limiter

def Waiting.tries : Waiting → Bool
  | .acquiring _ | .retrying _ _ => true
  | _ => false

def Limiter.Delivers (config : LimiterConfig) (state : Limiter) (request : Nat) : Prop :=
  state.available config < 1 ∨ state.awaits request

/-- The event neither drops a request that has a token nor takes one for a request that
is gone. -/
def KeepsTokens (config : LimiterConfig) (state : Limiter) : LimiterEvent → Prop
  | .disconnect request => ∀ phase ∈ state.requests.lookup request, phase.holds = false
  | .process => ∀ entry ∈ state.processing, state.Delivers config entry.1.request
  | .poll request => ∀ waiter ∈ state.waiters.lookup request,
      waiter.waiting.tries → state.Delivers config waiter.queued.request
  | _ => True

def Tries (state : Limiter) : LimiterEvent → Bool
  | .tryAcquire _ | .process => true
  | .poll request => (state.waiters.lookup request).any fun waiter => waiter.waiting.tries
  | _ => false

variable {waiter : Waiter}

theorem tries_poll
    (found : state.waiters.lookup request = some waiter) (tries : waiter.waiting.tries) :
    Tries state (.poll request) := by
  rw [Tries, found]
  exact tries

/-- How an event that keeps every token moves them. -/
inductive Moves (config : LimiterConfig) (state : Limiter) (event : LimiterEvent) (next : Limiter) :
    Prop where
  | none (bucket : next.bucket = state.bucket) (held : next.held = state.held)
  | refills (tries : Tries state event)
      (bucket : next.bucket = config.rateLimiter.refill state.bucket state.now)
      (held : next.held = state.held)
  | takes (tries : Tries state event) (enough : 1 ≤ state.available config)
      (bucket : next.bucket = state.taken config) (held : next.held = state.held + 1)
  | returns (bucket : next.bucket = config.rateLimiter.returnTokens state.bucket 1)
      (held : next.held + 1 = state.held)

inductive Loses (config : LimiterConfig) (state : Limiter) (event : LimiterEvent) (next : Limiter) :
    Prop where
  | drops (bucket : next.bucket = state.bucket) (held : next.held + 1 = state.held)
  | wastes (tries : Tries state event) (enough : 1 ≤ state.available config)
      (bucket : next.bucket = state.taken config) (held : next.held = state.held)

inductive Offers (config : LimiterConfig) (state : Limiter) (request : Nat) (next : Limiter) :
    Prop where
  | grants (enough : 1 ≤ state.available config) (bucket : next.bucket = state.taken config)
      (requests : next.requests = (state.grant request).requests)
  | misses (short : state.available config < 1)
      (bucket : next.bucket = config.rateLimiter.refill state.bucket state.now)
      (requests : next.requests = state.requests)

theorem Limiter.held_congr (same : next.requests = state.requests) : next.held = state.held := by
  unfold held
  rw [same]

theorem Limiter.grant_requests_congr (same : next.requests = state.requests) (request : Nat) :
    (next.grant request).requests = (state.grant request).requests := by
  unfold grant
  rw [same]
  split
  · unfold enter
    rw [same]
  · exact same

theorem Limiter.process_offers (config : LimiterConfig) (state : Limiter) (queued : QueuedRequest)
    (remaining : Duration) :
    Offers config state queued.request (state.process config queued remaining) := by
  have same : ({ state with processing := none } : Limiter).available config =
    state.available config := rfl
  unfold process
  rcases le_or_gt 1 (state.available config) with enough | short
  · rw [attempt_of_le (same ▸ enough)]
    refine .grants enough grant_bucket ?_
    apply grant_requests_congr
    rfl
  · rw [attempt_of_lt (same ▸ short)]
    exact .misses short rfl rfl

theorem Limiter.acquire_offers (config : LimiterConfig) (state : Limiter) (waiter : Waiter)
    (waiting : Waiting) :
    Offers config state waiter.queued.request (state.acquire config waiter waiting) := by
  unfold acquire
  rcases le_or_gt 1 (state.available config) with enough | short
  · rw [attempt_of_le enough]
    refine .grants enough grant_bucket ?_
    apply grant_requests_congr
    rfl
  · rw [attempt_of_lt short]
    exact .misses short rfl rfl

section

variable (offers : Offers config state request next) (tries : Tries state event)

include offers tries

theorem Offers.moves (delivers : state.Delivers config request) :
    Moves config state event next := by
  cases offers with
  | grants enough bucket requests =>
    have awaits := delivers.resolve_left (not_lt.mpr enough)
    exact .takes tries enough bucket ((held_congr requests).trans (held_grant awaits))
  | misses _ bucket requests => exact .refills tries bucket (held_congr requests)

theorem Offers.loses (fails : ¬ state.Delivers config request) :
    Loses config state event next := by
  obtain ⟨enough, gone⟩ := not_or.mp fails
  cases offers with
  | grants _ bucket requests =>
    rw [grant_of_gone (Bool.eq_false_iff.mpr gone)] at requests
    exact .wastes tries (not_lt.mp enough) bucket (held_congr requests)
  | misses short => exact (enough short).elim

end

theorem Polled.offers (polled : Polled config state waiter next) :
    (waiter.waiting.tries ∧ Offers config state waiter.queued.request next) ∨
      waiter.waiting.tries = false ∧ next.bucket = state.bucket ∧ next.requests = state.requests := by
  cases polled with
  | acquires _ phase | retries _ _ phase =>
    rw [phase]
    exact .inl ⟨rfl, acquire_offers _ _ _ _⟩
  | starts _ phase | measures _ phase | wakes _ _ _ phase =>
    rw [phase]
    exact .inr ⟨rfl, rfl, rfl⟩

theorem tryAcquire_moves (found : state.requests.lookup request = some .arriving) :
    Moves config state (.tryAcquire request)
      (state.attempt config (fun state => state.enter request .running)
        (fun state => state.enqueue config request)) := by
  rcases le_or_gt 1 (state.available config) with enough | short
  · rw [attempt_of_le enough]
    exact .takes rfl enough rfl (held_enter found .running)
  · rw [attempt_of_lt short]
    exact .refills rfl enqueue_bucket (held_enqueue found)

theorem receive_moves (queued : QueuedRequest) (rest : List QueuedRequest) :
    Moves config state .receive (state.receive config queued rest) := by
  unfold receive
  simp only
  split
  · exact .none deny_bucket held_deny
  · exact .none rfl rfl

theorem Stepped.moves (stepped : Stepped config state event next)
    (keeps : KeepsTokens config state event) : Moves config state event next := by
  cases stepped with
  | arrive request missing =>
    have counted := Table.total_insert state.requests
      (fun request => if request.holds then 1 else 0) request .arriving
    rw [missing] at counted
    exact .none rfl counted
  | tryAcquire _ found => exact tryAcquire_moves found
  | proceed _ found | refuse _ _ found | finish _ found =>
    exact .none rfl (held_enter_same found rfl)
  | returnTokens _ found => exact .returns rfl (held_enter found (.answered .response))
  | disconnect _ _ found => exact .none rfl (held_enter_same found (keeps _ found))
  | receive _ _ => exact receive_moves _ _
  | process _ _ found =>
    exact (process_offers _ _ _ _).moves rfl (keeps _ found)
  | poll _ _ _ found polled =>
    rcases polled.offers with ⟨tries, offers⟩ | ⟨_, bucket, requests⟩
    · exact offers.moves (tries_poll found tries) (keeps _ found tries)
    · exact .none bucket (held_congr requests)
  | expire => exact .none deny_bucket held_deny
  | advance => exact .none rfl rfl

theorem Stepped.loses (stepped : Stepped config state event next)
    (loses : ¬ KeepsTokens config state event) : Loses config state event next := by
  cases stepped with
  | disconnect _ phase found =>
    refine .drops rfl ?_
    have holds : phase.holds := by
      by_contra without
      refine loses fun other same => ?_
      cases found.symm.trans same
      exact Bool.eq_false_iff.mpr without
    have counted := held_enter found .disconnected
    rw [if_pos holds] at counted
    exact counted
  | process _ _ found =>
    refine (process_offers _ _ _ _).loses rfl fun delivers => loses ?_
    intro _ same
    cases found.symm.trans same
    exact delivers
  | poll _ _ _ found polled =>
    rcases polled.offers with ⟨tries, offers⟩ | ⟨idle, _, _⟩
    · refine offers.loses (tries_poll found tries) fun delivers => loses fun _ same _ => ?_
      cases found.symm.trans same
      exact delivers
    · refine (loses fun _ same tries => ?_).elim
      cases found.symm.trans same
      rw [idle] at tries
      cases tries
  | arrive | tryAcquire | proceed | refuse | finish | returnTokens | receive | expire | advance =>
    exact (loses trivial).elim

/-! ### The bound on running requests -/

/-- An attempt that finds a token finds fewer requests with one than may run. -/
def Fits (config : LimiterConfig) (state : Limiter) (event : LimiterEvent) : Prop :=
  Tries state event → 1 ≤ state.available config → state.held < config.maxConcurrentRequests

theorem held_step (bounded : state.held ≤ config.maxConcurrentRequests)
    (steps : step config state event = some next) (fits : Fits config state event) :
    next.held ≤ config.maxConcurrentRequests := by
  by_cases keeps : KeepsTokens config state event
  · cases (step_stepped steps).moves keeps with
    | none _ held | refills _ _ held =>
      rw [held]
      exact bounded
    | takes tries enough _ held =>
      rw [held]
      exact fits tries enough
    | returns _ held => omega
  · cases (step_stepped steps).loses keeps with
    | drops _ held => omega
    | wastes _ _ _ held =>
      rw [held]
      exact bounded

instance : Decidable (Fits config state event) :=
  inferInstanceAs (Decidable (Tries state event = true → _ → _ < _))

/-- One request at a time, with the refill rate that follows from it and the queue the
program sets up. -/
def oneAtATime : LimiterConfig := ⟨1, none, 100, 60⟩

def stillStep (config : LimiterConfig) (state : Limiter) (event : LimiterEvent) : Option Limiter :=
  match event with
  | .advance _ => none
  | event => step config state event

def Conserved (config : LimiterConfig) (state : Limiter) : Prop :=
  state.bucket.tokens + state.held = config.maxConcurrentRequests

/-- Nothing is missing, and the last refill was now. -/
structure Still (config : LimiterConfig) (state : Limiter) : Prop where
  conserved : Conserved config state
  refilled : state.bucket.lastRefill = state.now

theorem still_new (config : LimiterConfig) : Still config (Limiter.new config) where
  conserved := add_zero _
  refilled := rfl

variable (still : Still config state)

include still

theorem Still.refill_eq : config.rateLimiter.refill state.bucket state.now = state.bucket := by
  refine TokenBucket.refill_of_still still.refilled ?_
  have conserved : state.bucket.tokens + state.held = config.rateLimiter.capacity := still.conserved
  rw [← conserved]
  exact le_add_of_nonneg_right (Nat.cast_nonneg _)

theorem Still.available_eq : state.available config = state.bucket.tokens := by
  rw [available, still.refill_eq]

theorem Still.moves (moves : Moves config state event next)
    (now : next.now = state.now) : Still config next := by
  have conserved : state.bucket.tokens + state.held = config.maxConcurrentRequests :=
    still.conserved
  cases moves with
  | none bucket held =>
    constructor
    · rw [Conserved, bucket, held]
      exact conserved
    · rw [bucket, now]
      exact still.refilled
  | refills _ bucket held =>
    constructor
    · rw [Conserved, bucket, held, still.refill_eq]
      exact conserved
    · rw [bucket, now]
      rfl
  | takes _ _ bucket held =>
    constructor
    · have left : next.bucket.tokens = state.bucket.tokens - 1 := by
        rw [bucket, taken, still.available_eq]
      rw [Conserved, held]
      push_cast
      linarith
    · rw [bucket, now]
      rfl
  | returns bucket held =>
    have count : (next.held : ℚ) + 1 = state.held := by exact_mod_cast held
    constructor
    · have left : next.bucket.tokens = min (state.bucket.tokens + 1) config.maxConcurrentRequests := by
        rw [bucket]
        rfl
      -- A request with a token leaves room for it in the bucket.
      have room : state.bucket.tokens + 1 ≤ config.maxConcurrentRequests := by
        linarith
      rw [Conserved, left, min_eq_left room]
      linarith
    · rw [bucket, now]
      exact still.refilled

theorem Still.loses (loses : Loses config state event next) : ¬ Conserved config next := by
  have conserved : state.bucket.tokens + state.held = config.maxConcurrentRequests :=
    still.conserved
  unfold Conserved
  cases loses with
  | drops bucket held =>
    have count : (next.held : ℚ) + 1 = state.held := by exact_mod_cast held
    rw [bucket]
    intro _
    linarith
  | wastes _ _ bucket held =>
    have left : next.bucket.tokens = state.bucket.tokens - 1 := by
      rw [bucket, taken, still.available_eq]
    rw [held]
    intro _
    linarith

omit still

namespace Limiter

theorem deny_now : (state.deny request).now = state.now := by
  unfold deny
  split <;> rfl

theorem grant_now : (state.grant request).now = state.now := by
  unfold grant
  split <;> rfl

theorem enqueue_now : (state.enqueue config request).now = state.now := by
  unfold enqueue
  split <;> rfl

theorem attempt_now {taken missed : Limiter → Limiter}
    (takenNow : ∀ state, (taken state).now = state.now)
    (missedNow : ∀ state, (missed state).now = state.now) :
    (state.attempt config taken missed).now = state.now := by
  unfold attempt
  split
  · exact takenNow _
  · exact missedNow _

theorem receive_now (queued : QueuedRequest) (rest : List QueuedRequest) :
    (state.receive config queued rest).now = state.now := by
  unfold receive
  simp only
  split
  · exact deny_now
  · rfl

end Limiter

theorem Polled.now_eq (polled : Polled config state waiter next) : next.now = state.now := by
  cases polled with
  | acquires | retries => exact attempt_now (fun _ => grant_now) fun _ => rfl
  | starts | measures | wakes => rfl

theorem Stepped.now_eq (stepped : Stepped config state event next)
    (still : ∀ elapsed, event ≠ .advance elapsed) : next.now = state.now := by
  cases stepped with
  | advance _ => exact (still _ rfl).elim
  | tryAcquire => exact attempt_now (fun _ => rfl) fun _ => enqueue_now
  | process => exact attempt_now (fun _ => grant_now) fun _ => rfl
  | poll _ _ _ _ polled => exact polled.now_eq
  | receive _ _ => exact receive_now _ _
  | expire => exact deny_now
  | arrive | proceed | refuse | finish | returnTokens | disconnect => rfl

variable (steps : stillStep config state event = some next)

include steps

theorem stillStep_step : step config state event = some next := by
  unfold stillStep at steps
  split at steps
  · cases steps
  · exact steps

theorem stillStep_now : next.now = state.now := by
  refine (step_stepped (stillStep_step steps)).now_eq ?_
  rintro _ rfl
  cases steps

omit steps

/-- While the clock stands, the tokens of the bucket and of the requests make up the
capacity in every state of a run exactly if no event drops a request that has a token or
takes a token for a request that is gone. -/
theorem run_conserved (config : LimiterConfig) (events : List LimiterEvent) :
    Along (stillStep config) (Limiter.new config) (Conserved config) events ↔
      Throughout (stillStep config) (Limiter.new config) (KeepsTokens config) events := by
  refine along_iff_throughout (still_new _) (fun still => still.conserved) ?_ ?_
  · intro _ _ _ still steps keeps
    exact still.moves ((step_stepped (stillStep_step steps)).moves keeps) (stillStep_now steps)
  · intro _ _ _ still steps loses
    exact still.loses ((step_stepped (stillStep_step steps)).loses loses)

instance : Decidable (Conserved config state) :=
  inferInstanceAs (Decidable (_ = _))

/-- The token of a request that is dropped inside the handler is lost, and so is the one
that the processor takes for a request that left while it was queued. -/
theorem run_conserved_fails :
    (¬ Along (stillStep oneAtATime) (Limiter.new oneAtATime) (Conserved oneAtATime)
      [.arrive 0, .tryAcquire 0, .disconnect 0]) ∧
    ¬ Along (stillStep oneAtATime) (Limiter.new oneAtATime) (Conserved oneAtATime)
      [.arrive 0, .tryAcquire 0, .arrive 1, .tryAcquire 1, .disconnect 1, .finish 0,
        .returnTokens 0, .receive, .process] := by
  constructor
  · decide +kernel
  · decide +kernel

end SmetricRouter.Middleware
