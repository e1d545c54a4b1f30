import SmetricRouter.Library.Machine64

/-! The token bucket that admits requests.

Amounts are exact rationals and times are nanoseconds. The bucket is what its lock
guards, so each function below is one critical section, with the clock read inside it.
-/

namespace SmetricRouter.Middleware

structure TokenBucket where
  capacity : ℚ
  refillRate : ℚ
  capacityNonneg : 0 ≤ capacity
  refillPositive : 0 < refillRate

structure TokenBucketInner where
  tokens : ℚ
  lastRefill : Instant
  deriving DecidableEq, Repr

namespace TokenBucket

def new (capacity refillRate : Nat) : TokenBucket where
  capacity := capacity
  refillRate := if 0 < refillRate then refillRate else 1
  capacityNonneg := Nat.cast_nonneg capacity
  refillPositive := by
    split
    · exact Nat.cast_pos.mpr ‹_›
    · exact one_pos

def newInner (bucket : TokenBucket) (now : Instant) : TokenBucketInner := ⟨bucket.capacity, now⟩

variable (bucket : TokenBucket) (inner : TokenBucketInner) (now : Instant) (tokens : ℚ)

def refill : TokenBucketInner where
  tokens := min (inner.tokens + secs (now - inner.lastRefill) * bucket.refillRate) bucket.capacity
  lastRefill := now

def tryAcquire : Bool × TokenBucketInner :=
  let inner := bucket.refill inner now
  if tokens ≤ inner.tokens then (true, { inner with tokens := inner.tokens - tokens })
  else (false, inner)

/-- How long `acquire` waits after its first attempt: the time in which the missing
tokens come in for one waiter alone. -/
def waitTime : Duration :=
  let tokensNeeded := max (tokens - inner.tokens) 0
  nanosFromSecs (max (tokensNeeded / bucket.refillRate) 0)

def returnTokens : TokenBucketInner :=
  { inner with tokens := min (inner.tokens + tokens) bucket.capacity }

def availableTokens : ℚ × TokenBucketInner :=
  let inner := bucket.refill inner now
  (inner.tokens, inner)

variable {bucket inner now tokens}

theorem refill_tokens_nonneg (nonneg : 0 ≤ inner.tokens) : 0 ≤ (bucket.refill inner now).tokens := by
  have elapsed : 0 ≤ secs (now - inner.lastRefill) :=
    div_nonneg (Nat.cast_nonneg _) (by norm_num)
  exact le_min (add_nonneg nonneg (mul_nonneg elapsed bucket.refillPositive.le))
    bucket.capacityNonneg

theorem refill_of_still (still : inner.lastRefill = now) (fits : inner.tokens ≤ bucket.capacity) :
    bucket.refill inner now = inner := by
  subst still
  unfold refill
  rw [Nat.sub_self, secs, Nat.cast_zero, zero_div, zero_mul, add_zero, min_eq_left fits]

theorem tryAcquire_of_le (enough : tokens ≤ (bucket.refill inner now).tokens) :
    bucket.tryAcquire inner now tokens = (true, { bucket.refill inner now with
      tokens := (bucket.refill inner now).tokens - tokens }) :=
  if_pos enough

theorem tryAcquire_of_lt (short : (bucket.refill inner now).tokens < tokens) :
    bucket.tryAcquire inner now tokens = (false, bucket.refill inner now) :=
  if_neg (not_le.mpr short)

end TokenBucket

/-- A critical section of the bucket. -/
inductive BucketCall where
  | tryAcquire (tokens : ℚ)
  | returnTokens (tokens : ℚ)
  | availableTokens

namespace BucketCall

def amount : BucketCall → ℚ
  | tryAcquire tokens | returnTokens tokens => tokens
  | availableTokens => 0

def returned : BucketCall → ℚ
  | returnTokens tokens => tokens
  | _ => 0

end BucketCall

namespace TokenBucket

variable (bucket : TokenBucket)

/-- What a section grants, and the bucket it leaves. -/
def call (inner : TokenBucketInner) (now : Instant) :
    BucketCall → ℚ × TokenBucketInner
  | .tryAcquire tokens =>
    let (acquired, next) := bucket.tryAcquire inner now tokens
    (if acquired then tokens else 0, next)
  | .returnTokens tokens => (0, bucket.returnTokens inner tokens)
  | .availableTokens => (0, (bucket.availableTokens inner now).2)

def run (inner : TokenBucketInner) (calls : List (Instant × BucketCall)) : TokenBucketInner :=
  calls.foldl (fun inner (now, call) => (bucket.call inner now call).2) inner

/-- An amount if it moves between two times. -/
def within (start stop now : Instant) (amount : ℚ) : ℚ :=
  if start ≤ now ∧ now ≤ stop then amount else 0

def granted (bucket : TokenBucket) (start stop : Instant) :
    TokenBucketInner → List (Instant × BucketCall) → ℚ
  | _, [] => 0
  | inner, (now, call) :: rest =>
    within start stop now (bucket.call inner now call).1 +
      granted bucket start stop (bucket.call inner now call).2 rest

def returned (start stop : Instant) (calls : List (Instant × BucketCall)) : ℚ :=
  (calls.map fun (now, call) => within start stop now call.returned).sum

/-- The bucket at some time after its last refill. -/
structure Level (clock : Instant) (inner : TokenBucketInner) : Prop where
  nonneg : 0 ≤ inner.tokens
  fits : inner.tokens ≤ bucket.capacity
  past : inner.lastRefill ≤ clock

/-- What can still be granted in an interval if nothing is returned. -/
def allowance (start stop clock : Instant) (inner : TokenBucketInner) : ℚ :=
  if clock < start then bucket.capacity + secs (stop - start) * bucket.refillRate
  else if clock ≤ stop then
    (bucket.refill inner clock).tokens + secs (stop - clock) * bucket.refillRate
  else 0

section Rate

variable {bucket} {inner : TokenBucketInner} {clock now start stop : Instant} {kind : BucketCall}
  {calls : List (Instant × BucketCall)}

theorem income_nonneg (bucket : TokenBucket) (span : Duration) : 0 ≤ secs span * bucket.refillRate :=
  mul_nonneg (div_nonneg (Nat.cast_nonneg _) (by norm_num)) bucket.refillPositive.le

theorem secs_add_secs (past : start ≤ clock) (later : clock ≤ stop) :
    secs (stop - start) = secs (clock - start) + secs (stop - clock) := by
  rw [← Nat.sub_add_sub_cancel later past, Nat.add_comm, secs, Nat.cast_add, add_div]
  rfl

/-- In some time no more comes in than the refill rate allows. -/
theorem refill_le_of_later (bucket : TokenBucket) (past : inner.lastRefill ≤ clock)
    (later : clock ≤ now) : (bucket.refill inner now).tokens ≤
      (bucket.refill inner clock).tokens + secs (now - clock) * bucket.refillRate := by
  simp only [refill, secs_add_secs past later, add_mul, ← add_assoc, ← min_add_add_right]
  exact min_le_min_left _ (le_add_of_nonneg_right (bucket.income_nonneg _))

theorem Level.refill (level : Level bucket clock inner) (now : Instant) :
    Level bucket now (bucket.refill inner now) :=
  ⟨refill_tokens_nonneg level.nonneg, min_le_right _ _, le_rfl⟩

theorem Level.call (level : Level bucket clock inner) (later : clock ≤ now)
    (nonneg : 0 ≤ kind.amount) :
    Level bucket now (bucket.call inner now kind).2 ∧ (bucket.call inner now kind).1 +
        (bucket.refill (bucket.call inner now kind).2 now).tokens ≤
      (bucket.refill inner now).tokens + kind.returned := by
  have filled := level.refill now
  have still : bucket.refill (bucket.refill inner now) now = bucket.refill inner now :=
    refill_of_still rfl filled.fits
  cases kind with
  | tryAcquire tokens =>
    rcases le_or_gt tokens (bucket.refill inner now).tokens with enough | short
    · have left : Level bucket now ⟨(bucket.refill inner now).tokens - tokens, now⟩ :=
        ⟨sub_nonneg.mpr enough, (sub_le_self _ nonneg).trans filled.fits, le_rfl⟩
      simp only [TokenBucket.call, tryAcquire_of_le enough, if_true]
      refine ⟨left, ?_⟩
      change tokens + (bucket.refill ⟨_, now⟩ now).tokens ≤ _ + 0
      rw [refill_of_still rfl left.fits, add_sub_cancel, add_zero]
    · simp only [TokenBucket.call, tryAcquire_of_lt short]
      refine ⟨filled, ?_⟩
      rw [still]
      exact (add_comm _ _).le
  | returnTokens tokens =>
    refine ⟨⟨le_min (add_nonneg level.nonneg nonneg) bucket.capacityNonneg, min_le_right _ _,
      level.past.trans later⟩, ?_⟩
    have more : min (inner.tokens + tokens) bucket.capacity ≤ inner.tokens + tokens :=
      min_le_left _ _
    simp only [TokenBucket.call, TokenBucket.refill, TokenBucket.returnTokens, BucketCall.returned,
      zero_add]
    rw [← min_add_add_right _ _ tokens]
    refine min_le_min ?_ (le_add_of_nonneg_right nonneg)
    linarith
  | availableTokens =>
    refine ⟨filled, ?_⟩
    simp only [TokenBucket.call, TokenBucket.availableTokens, still]
    exact (add_comm _ _).le

theorem balance_le (bucket : TokenBucket) (inner : TokenBucketInner) (begun : start ≤ now)
    (going : now ≤ stop) :
    (bucket.refill inner now).tokens + secs (stop - now) * bucket.refillRate ≤
      bucket.capacity + secs (stop - start) * bucket.refillRate := by
  have full : (bucket.refill inner now).tokens ≤ bucket.capacity := min_le_right _ _
  rw [secs_add_secs begun going]
  linarith [bucket.income_nonneg (now - start)]

section

variable (level : Level bucket clock inner)

include level

theorem Level.allowance_nonneg (start stop : Instant) :
    0 ≤ bucket.allowance start stop clock inner := by
  unfold allowance
  split
  · exact add_nonneg bucket.capacityNonneg (bucket.income_nonneg _)
  · split
    · exact add_nonneg (level.refill _).nonneg (bucket.income_nonneg _)
    · exact le_rfl

theorem Level.allowance_call (later : clock ≤ now)
    (nonneg : 0 ≤ kind.amount) (start stop : Instant) :
    within start stop now (bucket.call inner now kind).1 +
        bucket.allowance start stop now (bucket.call inner now kind).2 ≤
      bucket.allowance start stop clock inner + within start stop now kind.returned := by
  obtain ⟨_, spent⟩ := level.call later nonneg
  by_cases early : now < start
  · simp [within, allowance, early, later.trans_lt early, Nat.not_le.mpr early]
  · have begun := Nat.not_lt.mp early
    by_cases going : now ≤ stop
    · have balance : (bucket.refill inner now).tokens + secs (stop - now) * bucket.refillRate ≤
          bucket.allowance start stop clock inner := by
        unfold allowance
        split
        · exact bucket.balance_le inner begun going
        · rw [if_pos (later.trans going), secs_add_secs later going]
          linarith [bucket.refill_le_of_later level.past later]
      simp only [within, if_pos (And.intro begun going)]
      rw [allowance, if_neg early, if_pos going]
      linarith
    · simpa [within, allowance, early, going] using level.allowance_nonneg start stop

theorem Level.run (ordered : (clock :: calls.map Prod.fst).Pairwise (· ≤ ·))
    (nonneg : ∀ call ∈ calls, 0 ≤ call.2.amount) :
    (0 ≤ (bucket.run inner calls).tokens ∧ (bucket.run inner calls).tokens ≤ bucket.capacity) ∧
      ∀ start stop, bucket.granted start stop inner calls ≤
        bucket.allowance start stop clock inner + returned start stop calls := by
  induction calls generalizing inner clock with
  | nil =>
    exact ⟨⟨level.nonneg, level.fits⟩, fun start stop =>
      add_nonneg (level.allowance_nonneg _ _) le_rfl⟩
  | cons first rest ih =>
    obtain ⟨now, call⟩ := first
    obtain ⟨next, sorted⟩ := List.pairwise_cons.mp ordered
    have later : clock ≤ now := next now List.mem_cons_self
    have amount : 0 ≤ call.amount := nonneg _ List.mem_cons_self
    obtain ⟨balance, rest_le⟩ := ih (level.call later amount).1 sorted fun other member =>
      nonneg _ (List.mem_cons_of_mem _ member)
    refine ⟨balance, fun start stop => ?_⟩
    have first_le := level.allowance_call later amount start stop
    have later_le := rest_le start stop
    simp only [granted, returned, List.map_cons, List.sum_cons] at later_le ⊢
    linarith

end

/-- However the sections follow on each other, the balance stays between nothing and the
capacity, and an interval grants at most the capacity, what comes in and what is returned. -/
theorem rate_law (bucket : TokenBucket) (created : Instant) (calls : List (Instant × BucketCall))
    (ordered : (created :: calls.map Prod.fst).Pairwise (· ≤ ·))
    (nonneg : ∀ call ∈ calls, 0 ≤ call.2.amount) :
    (0 ≤ (bucket.run (bucket.newInner created) calls).tokens ∧
        (bucket.run (bucket.newInner created) calls).tokens ≤ bucket.capacity) ∧
      ∀ start stop, bucket.granted start stop (bucket.newInner created) calls ≤
        bucket.capacity + bucket.refillRate * secs (stop - start) + returned start stop calls := by
  have level : Level bucket created (bucket.newInner created) :=
    ⟨bucket.capacityNonneg, le_rfl, le_rfl⟩
  obtain ⟨balance, grants⟩ := level.run ordered nonneg
  refine ⟨balance, fun start stop => (grants _ _).trans ?_⟩
  rw [mul_comm bucket.refillRate]
  refine add_le_add_left ?_ _
  unfold allowance
  split_ifs with early going
  · exact le_rfl
  · exact bucket.balance_le _ (Nat.not_lt.mp early) going
  · exact add_nonneg bucket.capacityNonneg (bucket.income_nonneg _)

/-- The bucket is emptied three times in three seconds, once behind a return: the bound is
met exactly. -/
theorem rate_law_burst :
    let bucket := TokenBucket.new 2 1
    let calls := [(0, .tryAcquire 2), (10 ^ 9, .tryAcquire 2), (10 ^ 9, .returnTokens 1),
      (10 ^ 9, .tryAcquire 2), (2 * 10 ^ 9, .availableTokens), (3 * 10 ^ 9, .tryAcquire 2)]
    let granted := bucket.granted 0 (3 * 10 ^ 9) (bucket.newInner 0) calls
    granted = 6 ∧ returned 0 (3 * 10 ^ 9) calls = 1 ∧
      granted ≤ bucket.capacity + bucket.refillRate * secs (3 * 10 ^ 9 - 0) +
        returned 0 (3 * 10 ^ 9) calls :=
  ⟨by decide +kernel, by decide +kernel,
    (rate_law _ 0 _ (by decide) (by decide +kernel)).2 0 (3 * 10 ^ 9)⟩

end Rate

end TokenBucket

end SmetricRouter.Middleware
