import SmetricRouter.ProgramScheduling.Policy
import Mathlib.Tactic.Linarith
import Mathlib.Tactic.Positivity

/-! Batch-gain admission is monotone in the usage.

While the candidate fits below the low watermark, freed tokens extend the protected
rounds before and after the admission alike, so the share of them that the admission
costs can only fall.
-/

namespace SmetricRouter.ProgramScheduling

section RoundsLoss

variable {K : Type} [Field K] [LinearOrder K] [IsStrictOrderedRing K]
  {total growth spent epsilon average more less freed remaining loss : K}

/-- What the loss of continuity is for: the protected rounds that `spent` tokens take
from those which fit into `remaining`, as a share of the rounds left, times the
average cost of a recovery. -/
def roundsLoss (total growth spent epsilon average remaining : K) : Option K :=
  let before := min total (remaining / growth)
  let after := min total (max (remaining - spent) 0 / growth)
  if 0 < before ∧ after ≤ epsilon then none
  else if after ≤ epsilon then some 0
  else some (max (before - after) 0 / after * average)

theorem min_mul_min_le (freed_nonneg : 0 ≤ freed) (positive : 0 < less) (ordered : less ≤ more) :
    min total (more + freed) * min total less ≤ min total more * min total (less + freed) := by
  rcases le_total total (less + freed) with full | short
  · rw [min_eq_left full, min_eq_left (by linarith : total ≤ more + freed), mul_comm]
    rcases le_total 0 total with nonneg | _
    · exact mul_le_mul_of_nonneg_right (min_le_min_left _ ordered) nonneg
    · rw [min_eq_left (by linarith : total ≤ less), min_eq_left (by linarith : total ≤ more)]
  · rw [min_eq_right short, min_eq_right (by linarith : less ≤ total)]
    rcases le_total total more with clipped | free
    · rw [min_eq_left clipped, min_eq_left (by linarith : total ≤ more + freed)]
      exact mul_le_mul_of_nonneg_left (by linarith) (by linarith)
    · rw [min_eq_right free]
      have gained := mul_le_mul_of_nonneg_left ordered freed_nonneg
      calc min total (more + freed) * less
          ≤ (more + freed) * less := mul_le_mul_of_nonneg_right (min_le_right _ _) positive.le
        _ ≤ more * (less + freed) := by linarith

theorem lostShare_le (protects : 0 < total) (freed_nonneg : 0 ≤ freed) (positive : 0 < less)
    (ordered : less ≤ more) :
    max (min total (more + freed) - min total (less + freed)) 0 / min total (less + freed) ≤
      max (min total more - min total less) 0 / min total less := by
  have gains : min total (more + freed) * min total less ≤
      min total more * min total (less + freed) := min_mul_min_le freed_nonneg positive ordered
  have first := min_le_min_left total ordered
  have second := min_le_min_left total (add_le_add_left ordered freed)
  rw [max_eq_left (sub_nonneg.mpr first), max_eq_left (sub_nonneg.mpr second),
    div_le_div_iff₀ (lt_min protects (by linarith)) (lt_min protects positive)]
  linarith

theorem roundsLoss_antitone (epsilon_nonneg : 0 ≤ epsilon) (average_nonneg : 0 ≤ average)
    (spent_nonneg : 0 ≤ spent) (grows : 0 < growth) (room : 0 < remaining)
    (freed_nonneg : 0 ≤ freed)
    (finite : roundsLoss total growth spent epsilon average remaining = some loss) :
    ∃ smaller ≤ loss,
      roundsLoss total growth spent epsilon average (remaining + freed) = some smaller := by
  rcases le_or_gt total 0 with idle | protects
  · -- Without protected rounds nothing is lost, whatever remains.
    have nothing rest : roundsLoss total growth spent epsilon average rest = some 0 := by
      have before : ¬ 0 < min total (rest / growth) :=
        not_lt.mpr ((min_le_left _ _).trans idle)
      have after : min total (max (rest - spent) 0 / growth) ≤ epsilon :=
        (min_le_left _ _).trans (idle.trans epsilon_nonneg)
      simp [roundsLoss, before, after]
    rw [nothing] at finite
    exact ⟨0, (Option.some.inj finite).le, nothing _⟩
  · have before : 0 < min total (remaining / growth) := lt_min protects (div_pos room grows)
    have kept : epsilon < min total (max (remaining - spent) 0 / growth) := by
      by_contra exhausted
      simp [roundsLoss, before, not_lt.mp exhausted] at finite
    have fits : 0 < remaining - spent := by
      by_contra short
      rw [max_eq_right (not_lt.mp short), zero_div] at kept
      exact absurd (lt_min_iff.mp kept).2 (not_lt.mpr epsilon_nonneg)
    have later : max (remaining + freed - spent) 0 / growth =
        (remaining - spent) / growth + freed / growth := by
      rw [max_eq_left (by linarith)]
      ring
    rw [max_eq_left fits.le] at kept
    have still : epsilon < min total ((remaining - spent) / growth + freed / growth) :=
      kept.trans_le (min_le_min_left _ (le_add_of_nonneg_right (div_nonneg freed_nonneg grows.le)))
    have share := lostShare_le protects (div_nonneg freed_nonneg grows.le) (div_pos fits grows)
      (div_le_div_of_nonneg_right (sub_le_self _ spent_nonneg) grows.le)
    simp only [roundsLoss, max_eq_left fits.le, not_le.mpr kept, and_false, if_false,
      Option.some.injEq] at finite
    simp only [roundsLoss, later, add_div, not_le.mpr still, and_false, if_false]
    exact ⟨_, finite ▸ mul_le_mul_of_nonneg_right share average_nonneg, rfl⟩

end RoundsLoss

namespace ProgressTtlConfig

variable {sqrt ln exp : ℚ → ℚ} {config : ProgressTtlConfig (Rationals sqrt ln exp)}

theorem targetRounds_nonneg {factors : ProgressTtlFactors (Rationals sqrt ln exp)} :
    0 ≤ config.targetRounds factors := by
  unfold targetRounds F64.clamp
  split
  · exact le_rfl
  · split
    · exact zero_le_one
    · split
      · exact Nat.cast_nonneg (α := ℚ) _
      · rename_i low _
        exact zero_le_one.trans (not_lt.mp low)

theorem average_nonneg {values : List (Rationals sqrt ln exp)}
    (nonneg : ∀ value ∈ values, 0 ≤ value) : 0 ≤ ProgressTtlFactors.average values := by
  unfold ProgressTtlFactors.average ProgressTtlFactors.optionalAverage
  split
  · rw [F64.sum_eq_sum]
    exact div_nonneg (List.sum_nonneg nonneg) (Nat.cast_nonneg _)
  · exact le_rfl

theorem continuityLossSeconds_eq (capacity : Nat)
    (input : BatchGainInputs (Rationals sqrt ln exp)) :
    config.continuityLossSeconds capacity input =
      if input.factors.averageContextGrowthTokens ≤ 0 then some 0
      else roundsLoss (F64.sum input.protectedRemainingRounds)
        input.factors.averageContextGrowthTokens (input.requiredTokens +
          input.factors.averageContextGrowthTokens * config.targetRounds input.factors)
        (F64.lit (1 / 2 ^ 52)) (ProgressTtlFactors.average input.protectedRecoveryCostSeconds)
        (max (F64.ofNat capacity * config.lowWatermarkRatio - input.usedTokens) 0) := by
  unfold continuityLossSeconds roundsLoss
  simp only [← sub_sub]
  by_cases unpriced : input.protectedRecoveryCostSeconds = []
  · have free : ProgressTtlFactors.average ([] : List (Rationals sqrt ln exp)) = 0 := rfl
    simp only [unpriced, true_or, if_true, free, mul_zero, ite_self]
    rfl
  · simp only [unpriced, false_or]
    rfl

theorem continuityLossSeconds_antitone {capacity : Nat}
    {input : BatchGainInputs (Rationals sqrt ln exp)} {loss usedTokens : Rationals sqrt ln exp}
    (costs : ∀ cost ∈ input.protectedRecoveryCostSeconds, 0 ≤ cost)
    (required : 0 < input.requiredTokens)
    (fits : input.usedTokens + input.requiredTokens ≤ F64.ofNat capacity * config.lowWatermarkRatio)
    (smaller : usedTokens ≤ input.usedTokens)
    (finite : config.continuityLossSeconds capacity input = some loss) :
    ∃ reduced ≤ loss,
      config.continuityLossSeconds capacity { input with usedTokens } = some reduced := by
  have room : 0 < F64.ofNat capacity * config.lowWatermarkRatio - input.usedTokens := by linarith
  have more : max (F64.ofNat capacity * config.lowWatermarkRatio - usedTokens) 0 =
      F64.ofNat capacity * config.lowWatermarkRatio - input.usedTokens +
        (input.usedTokens - usedTokens) := by
    rw [max_eq_left (by linarith)]
    ring
  simp only [continuityLossSeconds_eq, max_eq_left room.le, more] at finite ⊢
  split at finite
  · exact ⟨loss, le_rfl, by simp_all⟩
  · rename_i flat
    have grows := not_le.mp flat
    rw [if_neg flat]
    refine roundsLoss_antitone ?_ (average_nonneg costs) ?_ grows room (by linarith) finite
    · exact (by norm_num : (0 : ℚ) ≤ 1 / 2 ^ 52)
    · exact add_nonneg required.le (mul_nonneg grows.le targetRounds_nonneg)

/-- A candidate admitted at a usage with room for it below the low watermark is admitted
at every smaller usage. -/
theorem estimateBatchGain_antitone (config : ProgressTtlConfig (Rationals sqrt ln exp))
    (input : BatchGainInputs (Rationals sqrt ln exp))
    (costs : ∀ cost ∈ input.protectedRecoveryCostSeconds, 0 ≤ cost)
    (required : 0 < input.requiredTokens)
    (fits : ∀ capacity, config.tokenCapacity = some capacity →
      input.usedTokens + input.requiredTokens ≤ F64.ofNat capacity * config.lowWatermarkRatio)
    (admits : (config.estimateBatchGain input).admits = true) (usedTokens : Rationals sqrt ln exp)
    (smaller : usedTokens ≤ input.usedTokens) :
    (config.estimateBatchGain { input with usedTokens }).admits = true := by
  unfold estimateBatchGain at admits ⊢
  cases limit : config.tokenCapacity with
  | none => simp [limit] at admits
  | some capacity =>
    simp only [limit] at admits ⊢
    split at admits
    · cases admits
    · split at admits
      · cases admits
      · split at admits
        · cases admits
        · rename_i enabled decodes timed
          rw [if_neg enabled, if_neg decodes, if_neg timed]
          cases finite : config.continuityLossSeconds capacity input with
          | none => simp [finite] at admits
          | some =>
            obtain ⟨_, less, lighter⟩ := continuityLossSeconds_antitone costs required
              (fits capacity limit) smaller finite
            rw [finite, Option.any_some, decide_eq_true_eq] at admits
            rw [lighter, Option.any_some, decide_eq_true_eq]
            exact (add_le_add_right less _).trans admits

/-- A candidate that costs a third of a second of continuity, and nothing once the
target is empty. -/
theorem estimateBatchGain_antitone_empty :
    ∃ (config : ProgressTtlConfig Exact) (input : BatchGainInputs Exact),
      (config.estimateBatchGain input).continuityLossSeconds = some (F64.lit (1 / 3)) ∧
        (config.estimateBatchGain input).admits = true ∧
        (config.estimateBatchGain { input with usedTokens := F64.lit 0 }).admits = true := by
  let config : ProgressTtlConfig Exact :=
    ⟨some 1000, 0, 10, F64.lit 1, F64.lit (1 / 2), 4, 1, true,
      ⟨F64.lit 0, F64.lit 0, F64.lit 0, F64.lit 0⟩, ⟨F64.lit 1, F64.lit 0, F64.lit 0⟩⟩
  let input : BatchGainInputs Exact :=
    ⟨{ requests := [⟨1, 1, 0, some 10, F64.lit 1, some (F64.lit 1), F64.lit 0, 1, 0⟩] }, 1, 1, 1,
      F64.lit 400, F64.lit 50, [F64.lit 4], [F64.lit 1], F64.lit (1 / 2)⟩
  have admits : (config.estimateBatchGain input).admits = true := by decide +kernel
  refine ⟨config, input, by decide +kernel, admits,
    estimateBatchGain_antitone _ _ (by decide +kernel) (by decide +kernel) ?_ admits _
      (by decide +kernel)⟩
  intro _ limit
  cases limit
  decide +kernel

end ProgressTtlConfig

end SmetricRouter.ProgramScheduling
