import SmetricRouter.ProgramScheduling.Domain

/-! Bounded observations used as Progress-TTL decision factors.

A factor record owns recent-workload windows and the values derived from them.
It owns no lifecycle state and takes no decision.
-/

namespace SmetricRouter.ProgramScheduling

variable {F : Type}

/-- One completed request used by capacity, fairness and throughput estimates. -/
structure RequestSample (F : Type) where
  promptTokens : Nat
  completionTokens : Nat
  cachedPromptTokens : Nat
  contextGrowthTokens : Option Nat
  e2eSeconds : F
  decodeSeconds : Option F
  queueSeconds : F
  roundsSinceTtlPause : Nat
  finishedAt : Instant

structure ContinuitySample (F : Type) where
  intervalSeconds : F
  cacheMissImpactSeconds : F

/-- Fixed-size recent-workload windows kept per data-parallel rank. -/
structure ProgressTtlFactors (F : Type) where
  requests : List (RequestSample F) := []
  continuities : List (ContinuitySample F) := []
  ttlPauseRounds : List Nat := []

instance : Inhabited (ProgressTtlFactors F) := ⟨{}⟩

namespace ProgressTtlFactors

def pushBounded {α : Type} (window : List α) (sample : α) (limit : Nat) : List α :=
  if limit = 0 then window
  else if window.length = limit then window.tail ++ [sample]
  else window ++ [sample]

variable (factors : ProgressTtlFactors F)

def pushRequest (sample : RequestSample F) (limit : Nat) : ProgressTtlFactors F :=
  { factors with requests := pushBounded factors.requests sample limit }

def pushContinuity (sample : ContinuitySample F) (limit : Nat) : ProgressTtlFactors F :=
  { factors with continuities := pushBounded factors.continuities sample limit }

def pushTtlPauseRounds (rounds limit : Nat) : ProgressTtlFactors F :=
  { factors with ttlPauseRounds := pushBounded factors.ttlPauseRounds rounds limit }

def requestWindowComplete (limit : Nat) : Bool :=
  decide (0 < limit) && decide (limit ≤ factors.requests.length)

def continuityWindowComplete (limit : Nat) : Bool :=
  decide (0 < limit) && decide (limit ≤ factors.continuities.length)

variable [F64 F] (factors : ProgressTtlFactors F)

def optionalAverage (values : List F) : Option F :=
  if 0 < values.length then some (F64.sum values / F64.ofNat values.length) else none

def average (values : List F) : F := (optionalAverage values).getD (F64.lit 0)

def averageContextGrowthTokens : F :=
  average (factors.requests.filterMap fun sample => sample.contextGrowthTokens.map F64.ofNat)

def averagePromptTokens : F :=
  average (factors.requests.map fun sample => F64.ofNat sample.promptTokens)

def averageCompletionTokens : F :=
  average (factors.requests.map fun sample => F64.ofNat sample.completionTokens)

def averageE2eSeconds : F :=
  average (factors.requests.map (·.e2eSeconds))

def averageDecodeSeconds : Option F :=
  optionalAverage ((factors.requests.filterMap (·.decodeSeconds)).filter fun seconds =>
    F64.isFinite seconds && decide (F64.lit 0 ≤ seconds))

def averageCachedPromptTokens : F :=
  average (factors.requests.map fun sample => F64.ofNat sample.cachedPromptTokens)

def averageUncachedPromptTokens : F :=
  average (factors.requests.map fun sample =>
    F64.ofNat (sample.promptTokens - sample.cachedPromptTokens))

def requestThroughputPerSecond : F :=
  match factors.requests.head?, factors.requests.getLast? with
  | some first, some last =>
    if factors.requests.length < 2 then F64.lit 0
    else
      let elapsed := last.finishedAt - first.finishedAt
      if elapsed = 0 then F64.lit 0
      else F64.ofNat (factors.requests.length - 1) / F64.asSecs elapsed
  | _, _ => F64.lit 0

def averageRoundsSinceTtlPause : F :=
  average (factors.requests.map fun sample => F64.ofNat sample.roundsSinceTtlPause)

end ProgressTtlFactors

end SmetricRouter.ProgramScheduling
