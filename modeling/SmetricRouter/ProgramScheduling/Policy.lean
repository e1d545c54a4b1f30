import SmetricRouter.ProgramScheduling.Factors

/-! Pure Progress-TTL calculations shared by the lifecycle entry points.

The formulas are translated operation by operation over the abstract `F64`
operations. The one infinite value of the batch-gain estimate is `none`.
-/

namespace SmetricRouter.ProgramScheduling

variable (F : Type)

structure PrefillCostModel where
  interceptSeconds : F
  linearSecondsPer1kTokens : F
  quadraticSecondsPer1kTokensSquared : F
  decodeThroughputAlpha : F

structure DecodeThroughputModel where
  fixedStepSeconds : F
  batchStepSecondsPerRequest : F
  contextStepSecondsPerToken : F

structure ProgressTtlConfig where
  tokenCapacity : Option Nat
  decodeBufferTokens : Nat
  maxActingTtl : Duration
  highWatermarkRatio : F
  lowWatermarkRatio : F
  maxSegmentRounds : Nat
  statsWindowSize : Nat
  enableBatchGainAdmission : Bool
  prefill : PrefillCostModel F
  decode : DecodeThroughputModel F

structure BatchGainInputs where
  factors : ProgressTtlFactors F
  batchSizeBefore : Nat
  totalContextTokensBefore : Nat
  candidateContextTokens : Nat
  usedTokens : F
  requiredTokens : F
  protectedRemainingRounds : List F
  protectedRecoveryCostSeconds : List F
  candidateRecoveryCostSeconds : F

/-- Breakdown of the batch-gain comparison; an infinite loss is `none`. -/
structure BatchGainEstimate where
  batchGainSeconds : F
  candidateRecoveryCostSeconds : F
  continuityLossSeconds : Option F
  admits : Bool

namespace ProgressTtlConfig

variable {F} [F64 F] (config : ProgressTtlConfig F)

def cacheMissImpactSeconds (uncachedPromptTokens : Nat) : F :=
  if uncachedPromptTokens = 0 then F64.lit 0
  else
    let x := F64.ofNat uncachedPromptTokens / F64.lit 1000
    let prefill := config.prefill.interceptSeconds
      + config.prefill.linearSecondsPer1kTokens * x
      + config.prefill.quadraticSecondsPer1kTokensSquared * x * x
    prefill * (F64.lit 2 - config.prefill.decodeThroughputAlpha)

def normalCdf (value : F) : F :=
  let signed := value / F64.lit 1.41421356237309504880168872420969808
  let sign : F := if signed < F64.lit 0 then F64.lit (-1) else F64.lit 1
  let x := F64.abs signed
  let t := F64.lit 1 / (F64.lit 1 + F64.lit 0.3275911 * x)
  let polynomial :=
    (((((F64.lit 1.061405429 * t - F64.lit 1.453152027) * t) + F64.lit 1.421413741) * t
      - F64.lit 0.284496736) * t + F64.lit 0.254829592) * t
  let erf := sign * (F64.lit 1 - polynomial * F64.exp (-x * x))
  F64.clamp (F64.lit 0.5 * (F64.lit 1 + erf)) (F64.lit 0) (F64.lit 1)

/-- The TTL values the fit compares: zero, the bounds, and a logarithmic grid
of 32 points between them. -/
def ttlCandidates (minTtl maxTtl : F) : List F :=
  let grid :=
    if minTtl < maxTtl then
      let logMin := F64.ln minTtl
      let logMax := F64.ln maxTtl
      (List.range 32).map fun index =>
        F64.exp (logMin + (logMax - logMin) * (F64.ofNat index / F64.lit 31))
    else []
  [F64.lit 0, minTtl, maxTtl] ++ grid

variable (factors : ProgressTtlFactors F)

def fittedActingTtl (cacheMissImpactSeconds : F) : Duration :=
  if ¬ factors.continuityWindowComplete config.statsWindowSize then 0
  else
    let intervals := (factors.continuities.map (·.intervalSeconds)).filter fun interval =>
      F64.isFinite interval && decide (F64.lit 0 < interval)
    if intervals = [] then 0
    else
      let logMean := F64.sum (intervals.map F64.ln) / F64.ofNat intervals.length
      let logVariance :=
        F64.sum (intervals.map fun interval =>
          (F64.ln interval - logMean) * (F64.ln interval - logMean))
        / F64.ofNat intervals.length
      let logSigma := max (F64.sqrt logVariance) (F64.lit 1e-6)
      let maxTtl := min (F64.asSecs config.maxActingTtl) cacheMissImpactSeconds
      if maxTtl ≤ F64.lit 0 ∨ cacheMissImpactSeconds ≤ F64.lit 0 then 0
      else
        let minTtl := min (F64.lit 0.05) maxTtl
        let lognormalMean := F64.exp (logMean + logSigma * logSigma / F64.lit 2)
        let utility := fun ttl : F =>
          if ttl ≤ F64.lit 0 then F64.lit 0
          else
            let z := (F64.ln ttl - logMean) / logSigma
            let hitProbability := normalCdf z
            let truncatedInterval := lognormalMean
              * normalCdf ((F64.ln ttl - logMean - logSigma * logSigma) / logSigma)
            cacheMissImpactSeconds * hitProbability - truncatedInterval
              - ttl * (F64.lit 1 - hitProbability)
        -- The best utility starts below every value, which `none` stands for.
        let best := (ttlCandidates minTtl maxTtl).foldl
          (fun (best : F × Option F) ttl =>
            if best.2.all fun bound => decide (bound ≤ utility ttl) then
              (ttl, some (utility ttl)) else best)
          (F64.lit 0, none)
        if best.2.all fun bound => decide (bound < F64.lit 0) then 0
        else F64.fromSecs best.1

def targetRounds : F :=
  if ¬ factors.requestWindowComplete config.statsWindowSize then F64.lit 0
  else F64.clamp (F64.ceil (F64.lit 2 * factors.averageRoundsSinceTtlPause)) (F64.lit 1)
    (F64.ofNat config.maxSegmentRounds)

/-- Growth reserve for the candidate plus remaining active Program rounds. -/
def continuousGrowthReserveTokens (activeRemainingRounds : List F) : F :=
  let targetRounds := config.targetRounds factors
  let growth := factors.averageContextGrowthTokens
  if targetRounds ≤ F64.lit 0 ∨ growth ≤ F64.lit 0 then F64.lit 0
  else growth * (targetRounds + F64.sum activeRemainingRounds)

def decodeThroughput (batchSize totalContextTokens : Nat) : F :=
  let batch : F := F64.ofNat batchSize
  batch / (config.decode.fixedStepSeconds + config.decode.batchStepSecondsPerRequest * batch
    + config.decode.contextStepSecondsPerToken * F64.ofNat totalContextTokens)

def continuityLossSeconds (capacity : Nat) (input : BatchGainInputs F) : Option F :=
  let growth := input.factors.averageContextGrowthTokens
  let epsilon : F := F64.lit (1 / 2 ^ 52)
  if growth ≤ F64.lit 0 then some (F64.lit 0)
  else
    let totalProtectedRounds := F64.sum input.protectedRemainingRounds
    let remaining :=
      max (F64.ofNat capacity * config.lowWatermarkRatio - input.usedTokens) (F64.lit 0)
    let before := min totalProtectedRounds (remaining / growth)
    let after := min totalProtectedRounds
      (max (remaining - input.requiredTokens - growth * config.targetRounds input.factors)
        (F64.lit 0) / growth)
    if F64.lit 0 < before ∧ after ≤ epsilon then none
    else if input.protectedRecoveryCostSeconds = [] ∨ after ≤ epsilon then some (F64.lit 0)
    else some (max (before - after) (F64.lit 0) / after
      * ProgressTtlFactors.average input.protectedRecoveryCostSeconds)

def estimateBatchGain (input : BatchGainInputs F) : BatchGainEstimate F :=
  let disabled : BatchGainEstimate F :=
    { batchGainSeconds := F64.lit 0
      candidateRecoveryCostSeconds := input.candidateRecoveryCostSeconds
      continuityLossSeconds := some (F64.lit 0)
      admits := false }
  match config.tokenCapacity with
  | none => disabled
  | some capacity =>
    if ¬ config.enableBatchGainAdmission
        ∨ ¬ input.factors.requestWindowComplete config.statsWindowSize
        ∨ input.batchSizeBefore = 0 then disabled
    else
      let throughputBefore :=
        config.decodeThroughput input.batchSizeBefore input.totalContextTokensBefore
      let throughputAfter := config.decodeThroughput (input.batchSizeBefore + 1)
        (saturatingAdd input.totalContextTokensBefore input.candidateContextTokens)
      if throughputBefore ≤ F64.lit 0 then disabled
      else
        let relativeBatchGain :=
          max (throughputAfter / throughputBefore - F64.lit 1) (F64.lit 0)
        let averageDecodeSeconds := input.factors.averageDecodeSeconds.getD
          (F64.ofNat input.batchSizeBefore * input.factors.averageCompletionTokens
            / throughputBefore)
        if ¬ F64.isFinite averageDecodeSeconds ∨ averageDecodeSeconds ≤ F64.lit 0 then disabled
        else
          let batchGainSeconds := averageDecodeSeconds * relativeBatchGain
          let loss := config.continuityLossSeconds capacity input
          { batchGainSeconds := batchGainSeconds
            candidateRecoveryCostSeconds := input.candidateRecoveryCostSeconds
            continuityLossSeconds := loss
            admits := loss.any fun seconds =>
              decide (input.candidateRecoveryCostSeconds + seconds ≤ batchGainSeconds) }

end ProgressTtlConfig

end SmetricRouter.ProgramScheduling
