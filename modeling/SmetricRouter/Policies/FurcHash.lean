import Mathlib.Algebra.BigOperators.Group.Finset.Piecewise
import Mathlib.Data.Nat.Log
import Mathlib.Data.Finset.Powerset
import Mathlib.Data.Finset.SymmDiff

/-! The search for a bucket by the bits of a key's hash.

The search starts at the level of the number of buckets. A clear bit takes it one level
down, a set one makes it draw a bucket among those of its level. A bucket that does not
exist is drawn anew, with the bits that follow.
-/

namespace SmetricRouter.Policies

def maxTries : Nat := 32

def furcShift : Nat := 23

variable (bit : Nat → Bool)

/-- Finds the level and the place of a set bit, if there is one before the levels end. -/
def descend : Nat → Nat → Option (Nat × Nat)
  | 0, a => if bit a then some (0, a) else none
  | d + 1, a => if bit a then some (d + 1, a) else descend d d

/-- Appends bits to a number, and says which place is next. -/
def appendBits : Nat → Nat → Nat → Nat × Nat
  | 0, num, a => (num, a)
  | rounds + 1, num, a => appendBits rounds (2 * num + (bit a).toNat) (a + furcShift)

variable (m : Nat)

/-- The bucket that is found with some tries left; none if they run out. -/
def search : Nat → Nat → Nat → Option Nat
  | 0, _, _ => none
  | tries + 1, d, a =>
    match descend bit d a with
    | none => some 0
    | some (d, a) =>
      let (num, a) := appendBits bit (d - 1) 1 (a + furcShift)
      if num < m then some num else search tries d a

def furcSearch : Option Nat := search bit m maxTries (Nat.clog 2 m) (Nat.clog 2 m)

def furcHash : Nat := if m ≤ 1 then 0 else (furcSearch bit m).getD 0

/-- The bucket at a level all of whose buckets exist. -/
def settle : Nat → Nat → Nat
  | 0, a => (bit a).toNat
  | d + 1, a => if bit a then (appendBits bit d 1 (a + furcShift)).1 else settle d d

variable {bit m} {d a tries found : Nat}

theorem appendBits_bounds {rounds num : Nat} :
    num * 2 ^ rounds ≤ (appendBits bit rounds num a).1 ∧
      (appendBits bit rounds num a).1 < (num + 1) * 2 ^ rounds := by
  induction rounds generalizing num a with
  | zero => simp [appendBits]
  | succ rounds ih =>
    have bounds := @ih (a + furcShift) (2 * num + (bit a).toNat)
    rw [appendBits, Nat.pow_succ', Nat.mul_left_comm, Nat.mul_left_comm (num + 1)]
    cases value : bit a <;>
      simp only [value, Bool.toNat_false, Bool.toNat_true, Nat.add_mul, Nat.mul_assoc,
        Nat.zero_mul] at bounds ⊢ <;>
      omega

theorem search_succ :
    search bit m (tries + 1) (d + 1) a =
      if bit a then
        if (appendBits bit d 1 (a + furcShift)).1 < m then
          some (appendBits bit d 1 (a + furcShift)).1
        else search bit m tries (d + 1) (appendBits bit d 1 (a + furcShift)).2
      else search bit m (tries + 1) d d := by
  rw [search, descend]
  cases bit a <;> rfl

theorem search_settles (above : 1 < m) (exist : 2 ^ d ≤ m) :
    search bit m (tries + 1) d a = some (settle bit d a) := by
  induction d generalizing a with
  | zero =>
    rw [search, descend, settle]
    cases bit a with
    | true => exact if_pos above
    | false => rfl
  | succ d ih =>
    have bound := (@appendBits_bounds bit (a + furcShift) d 1).2
    rw [search_succ, settle, ih (by omega)]
    split
    · exact if_pos (by omega)
    · rfl

theorem search_lt (some_bucket : 0 < m) (ends : search bit m tries d a = some found) :
    found < m := by
  induction tries generalizing d a with
  | zero => cases ends
  | succ _ ih =>
    rw [search] at ends
    split at ends
    · cases ends
      exact some_bucket
    · dsimp only at ends
      split at ends
      · cases ends
        assumption
      · exact ih ends

/-- With one bucket more the search takes the same steps until it draws the new one. -/
theorem search_step (ends : search bit (m + 1) tries d a = some found) :
    search bit m tries d a = some found ∨ found = m := by
  induction tries generalizing d a with
  | zero => cases ends
  | succ _ ih =>
    rw [search] at ends ⊢
    split at ends
    · exact .inl ends
    · dsimp only at ends ⊢
      split at ends
      · rename_i drawn
        rcases Nat.lt_or_eq_of_le (Nat.le_of_lt_succ drawn) with old | new
        · rw [if_pos old]
          exact .inl ends
        · cases ends
          exact .inr new
      · rw [if_neg (by omega)]
        exact ih ends

/-- Above a power of two, the level added holds no other bucket than the new one. -/
theorem search_above (ends : search bit (2 ^ d + 1) tries (d + 1) a = some found) :
    found = settle bit d d ∨ found = 2 ^ d := by
  induction tries generalizing a with
  | zero => cases ends
  | succ _ ih =>
    rw [search_succ] at ends
    split at ends
    · split at ends
      · cases ends
        have bound := (@appendBits_bounds bit (a + furcShift) d 1).1
        omega
      · exact ih ends
    · rw [search_settles (Nat.lt_succ_of_le Nat.one_le_two_pow) (Nat.le_succ _)] at ends
      exact .inl (Option.some.inj ends).symm

theorem furcHash_lt (some_bucket : 0 < m) : furcHash bit m < m := by
  unfold furcHash
  split
  · exact some_bucket
  · cases ends : furcSearch bit m with
    | none => exact some_bucket
    | some => exact search_lt some_bucket ends

theorem furcHash_pow (deep : 0 < d) : furcHash bit (2 ^ d) = settle bit d d := by
  have many : 1 < 2 ^ d := Nat.one_lt_two_pow (Nat.ne_of_gt deep)
  rw [furcHash, if_neg (by omega), furcSearch, Nat.clog_pow 2 d (by decide), maxTries,
    search_settles many (Nat.le_refl _)]
  rfl

/-- Of `m + 1` buckets one is found, and with one bucket more the search, if it finds one
at all, finds the same or the new one. -/
theorem furcHash_consistent (bit : Nat → Bool) (m : Nat) :
    furcHash bit (m + 1) < m + 1 ∧
      (furcSearch bit (m + 2) ≠ none →
        furcHash bit (m + 2) = furcHash bit (m + 1) ∨ furcHash bit (m + 2) = m + 1) := by
  refine ⟨furcHash_lt (Nat.succ_pos m), fun finds => ?_⟩
  obtain ⟨found, ends⟩ := Option.ne_none_iff_exists'.mp finds
  have hash : furcHash bit (m + 2) = found := by
    rw [furcHash, ends]
    rfl
  rw [hash]
  rw [furcSearch] at ends
  by_cases same : Nat.clog 2 (m + 1) = Nat.clog 2 (m + 2)
  · rw [← same] at ends
    refine (search_step ends).imp_left fun kept => ?_
    cases m with
    | zero => exact absurd same (by decide)
    | succ => rw [furcHash, if_neg (by omega), furcSearch, kept, Option.getD_some]
  · rw [Nat.clog_eq_clog_succ_iff (by decide), not_not] at same
    have next : Nat.clog 2 (m + 2) = Nat.clog 2 (m + 1) + 1 := by
      refine Nat.le_antisymm (Nat.clog_le_of_le_pow ?_)
        ((Nat.clog_lt_clog_succ_iff (by decide)).mpr same)
      omega
    generalize Nat.clog 2 (m + 1) = d at same next
    rw [next, show m + 2 = 2 ^ d + 1 by omega] at ends
    rw [← same]
    cases d with
    | zero =>
      have below : found < 2 := search_lt (by decide) ends
      have alone : furcHash bit (2 ^ 0) = 0 := rfl
      omega
    | succ d =>
      rw [furcHash_pow (Nat.succ_pos d)]
      exact search_above ends

section Balance

/-- The number of assignments to the positions, each given by those it sets, that are
counted. -/
def tally (positions : Finset Nat) (counts : (Nat → Bool) → Bool) : Nat :=
  (positions.powerset.filter fun set => counts fun place => decide (place ∈ set)).card

variable {positions : Finset Nat} {counts : (Nat → Bool) → Bool} {place : Nat}

theorem tally_flip (listed : place ∈ positions) :
    tally positions (fun bit => counts (Function.update bit place (!bit place))) =
      tally positions counts := by
  have flips (set : Finset Nat) :
      (fun index => decide (index ∈ symmDiff set {place})) =
        Function.update (fun index => decide (index ∈ set)) place (!decide (place ∈ set)) := by
    funext index
    by_cases here : index = place <;> simp [here, Finset.mem_symmDiff]
  have stays {set : Finset Nat} (within : set ⊆ positions) : symmDiff set {place} ⊆ positions :=
    Finset.symmDiff_subset_union.trans
      (Finset.union_subset within (Finset.singleton_subset_iff.mpr listed))
  refine Finset.card_nbij' (symmDiff · {place}) (symmDiff · {place}) (fun set member => ?_)
    (fun set member => ?_) (fun set _ => symmDiff_symmDiff_cancel_right _ set)
    (fun set _ => symmDiff_symmDiff_cancel_right _ set)
  · rw [Finset.mem_coe, Finset.mem_filter, Finset.mem_powerset] at member ⊢
    exact ⟨stays member.1, by rw [flips]; exact member.2⟩
  · rw [Finset.mem_coe, Finset.mem_filter, Finset.mem_powerset] at member ⊢
    refine ⟨stays member.1, ?_⟩
    dsimp only
    rw [← flips, symmDiff_symmDiff_cancel_right]
    exact member.2

/-- The value of a position that is read once splits the assignments in two halves. -/
theorem tally_read {reads : Bool → (Nat → Bool) → Bool} (listed : place ∈ positions)
    (blind : ∀ value other bit, reads value (Function.update bit place other) = reads value bit) :
    2 * tally positions (fun bit => reads (bit place) bit) =
      tally positions (reads true) + tally positions (reads false) := by
  have flipped : tally positions (fun bit => reads (!bit place) bit) =
      tally positions fun bit => reads (bit place) bit := by
    rw [← tally_flip listed]
    simp [blind]
  rw [Nat.two_mul]
  nth_rewrite 1 [← flipped]
  simp only [tally, Finset.card_filter, ← Finset.sum_add_distrib]
  refine Finset.sum_congr rfl fun set _ => ?_
  cases decide (place ∈ set)
  · rfl
  · exact Nat.add_comm _ _

theorem shift_succ {step : Nat} :
    a + furcShift * (step + 1) = a + furcShift + furcShift * step := by
  rw [Nat.mul_succ]
  omega

theorem appendBits_update {rounds num : Nat} {value : Bool}
    (apart : ∀ step, a + furcShift * step ≠ place) :
    appendBits (Function.update bit place value) rounds num a = appendBits bit rounds num a := by
  induction rounds generalizing num a with
  | zero => rfl
  | succ _ ih =>
    have here : a ≠ place := apart 0
    rw [appendBits, appendBits, Function.update_of_ne here, ih]
    intro step
    rw [← shift_succ]
    exact apart _

theorem settle_update {value : Bool} (above : d < place) (most : place ≤ furcShift) :
    settle (Function.update bit place value) d d = settle bit d d := by
  induction d with
  | zero => rw [settle, settle, Function.update_of_ne (Nat.ne_of_lt above)]
  | succ d ih =>
    rw [settle, settle, Function.update_of_ne (Nat.ne_of_lt above), ih (by omega),
      appendBits_update]
    intro step
    omega

variable {bucket : Nat}

theorem tally_appendBits {rounds num : Nat} (later : 0 < a)
    (listed : ∀ step < rounds, a + furcShift * step ∈ positions) :
    tally positions (fun bit => !bit 0 && (appendBits bit rounds num a).1 == bucket) * 2 ^ rounds =
      if num * 2 ^ rounds ≤ bucket ∧ bucket < (num + 1) * 2 ^ rounds then
        tally positions fun bit => !bit 0
      else 0 := by
  induction rounds generalizing num a with
  | zero =>
    by_cases only : num = bucket
    · simp [appendBits, only]
    · rw [if_neg (by omega)]
      simp [appendBits, only, tally]
  | succ rounds ih =>
    have halves := @tally_read positions a (fun value bit => !bit 0 &&
      (appendBits bit rounds (2 * num + value.toNat) (a + furcShift)).1 == bucket)
      (listed 0 (Nat.succ_pos _)) (fun value other bit => by
        rw [Function.update_of_ne (Nat.ne_of_lt later), appendBits_update]
        intro step
        unfold furcShift
        omega)
    have after : ∀ step < rounds, a + furcShift + furcShift * step ∈ positions :=
      fun step inside => shift_succ ▸ listed _ (Nat.succ_lt_succ inside)
    simp only [appendBits]
    rw [Nat.pow_succ', ← Nat.mul_assoc, Nat.mul_comm _ 2, halves, Nat.add_mul,
      ih (by omega) after, ih (by omega) after, Nat.mul_left_comm, Nat.mul_left_comm (num + 1)]
    simp only [Bool.toNat_true, Bool.toNat_false, Nat.add_mul, Nat.mul_assoc, Nat.zero_mul]
    split_ifs <;> omega

theorem tally_settle (most : d ≤ furcShift)
    (listed : ∀ level ≤ d, ∀ step < level, level + furcShift * step ∈ positions) :
    tally positions (fun bit => !bit 0 && settle bit d d == bucket) * 2 ^ d =
      if bucket < 2 ^ d then tally positions fun bit => !bit 0 else 0 := by
  induction d with
  | zero =>
    have lowest value :
        (!value && value.toNat == bucket) = if bucket < 1 then !value else false := by
      cases value <;> cases bucket <;> rfl
    simp only [settle, lowest, Nat.pow_zero, Nat.mul_one]
    split
    · rfl
    · simp [tally]
  | succ d ih =>
    have halves := @tally_read positions (d + 1) (fun value bit => !bit 0 &&
      (if value then (appendBits bit d 1 (d + 1 + furcShift)).1 else settle bit d d) == bucket)
      (listed _ (Nat.le_refl _) 0 (Nat.succ_pos _)) (fun value other bit => by
        rw [Function.update_of_ne (Nat.succ_ne_zero d).symm, settle_update (Nat.lt_succ_self d) most,
          appendBits_update]
        intro step
        omega)
    have upper := @tally_appendBits (d + 1 + furcShift) positions bucket d 1 (by omega)
      fun step inside => shift_succ ▸ listed _ (Nat.le_refl _) _ (Nat.succ_lt_succ inside)
    have lower := ih (by omega) fun level below => listed level (Nat.le_succ_of_le below)
    simp only [settle]
    simp only [if_true, Bool.false_eq_true, if_false] at halves
    rw [Nat.pow_succ', ← Nat.mul_assoc, Nat.mul_comm _ 2, halves, Nat.add_mul, upper, lower]
    split_ifs <;> omega

theorem tally_split : tally positions counts =
    tally positions (fun bit => bit place && counts bit) +
      tally positions fun bit => !bit place && counts bit := by
  simp only [tally, Finset.card_filter, ← Finset.sum_add_distrib]
  refine Finset.sum_congr rfl fun set _ => ?_
  cases decide (place ∈ set) <;> simp

theorem settle_zero (none_found : settle bit d d = 0) : bit 0 = false := by
  induction d with
  | zero => exact Bool.toNat_eq_zero.mp none_found
  | succ d ih =>
    rw [settle] at none_found
    split at none_found
    · have drawn := (@appendBits_bounds bit (d + 1 + furcShift) d 1).1
      have := Nat.two_pow_pos d
      omega
    · exact ih none_found

theorem settle_lowest (clear : ∀ level, 0 < level → bit level = false) :
    settle bit d d = (bit 0).toNat := by
  induction d with
  | zero => rfl
  | succ d ih => rw [settle, clear _ (Nat.succ_pos d), if_neg Bool.false_ne_true, ih]

/-- The buckets are balanced if and only if the bit of the last level is always clear:
that level draws bucket 1 with it, and no level draws bucket 0. -/
theorem furcHash_balanced_iff {k : Nat} (deep : 0 < k) (most : k ≤ furcShift)
    (listed : ∀ level ≤ k, ∀ step < level, level + furcShift * step ∈ positions) :
    (∀ one < 2 ^ k, ∀ two < 2 ^ k,
      tally positions (fun bit => furcHash bit (2 ^ k) == one) =
        tally positions fun bit => furcHash bit (2 ^ k) == two) ↔ 0 ∉ positions := by
  have even one two (first : one < 2 ^ k) (second : two < 2 ^ k) :
      tally positions (fun bit => !bit 0 && settle bit k k == one) =
        tally positions fun bit => !bit 0 && settle bit k k == two := by
    refine Nat.eq_of_mul_eq_mul_right (Nat.two_pow_pos k) ?_
    rw [tally_settle most listed, tally_settle most listed, if_pos first, if_pos second]
  simp only [furcHash_pow deep]
  constructor
  · intro balanced last
    have many : 1 < 2 ^ k := Nat.one_lt_two_pow (Nat.ne_of_gt deep)
    have never : tally positions (fun bit => bit 0 && settle bit k k == 0) = 0 := by
      refine Finset.card_eq_zero.mpr (Finset.filter_eq_empty_iff.mpr fun set _ found => ?_)
      rw [Bool.and_eq_true, beq_iff_eq] at found
      exact Bool.noConfusion ((settle_zero found.2).symm.trans found.1)
    have ever : 0 < tally positions (fun bit => bit 0 && settle bit k k == 1) := by
      refine Finset.card_pos.mpr ⟨{0}, Finset.mem_filter.mpr ⟨?_, ?_⟩⟩
      · exact Finset.mem_powerset.mpr (Finset.singleton_subset_iff.mpr last)
      · dsimp only
        rw [settle_lowest fun level above => by simp [Nat.ne_of_gt above]]
        rfl
    have same := balanced 0 (Nat.two_pow_pos k) 1 many
    have parts bucket := @tally_split positions (fun bit => settle bit k k == bucket) 0
    rw [parts, parts, even 0 1 (Nat.two_pow_pos k) many] at same
    omega
  · intro absent one first two second
    have clear bucket : tally positions (fun bit => settle bit k k == bucket) =
        tally positions fun bit => !bit 0 && settle bit k k == bucket := by
      refine congrArg Finset.card (Finset.filter_congr fun set member => ?_)
      have unset : 0 ∉ set := fun here => absent (Finset.mem_powerset.mp member here)
      simp [unset]
    rw [clear, clear, even one two first second]

theorem furcHash_balanced_eight :
    let positions : Finset Nat := {1, 2, 25, 3, 26, 49}
    tally positions (fun bit => furcHash bit (2 ^ 3) == 5) = 8 ∧
      ∀ one < 2 ^ 3, ∀ two < 2 ^ 3, tally positions (fun bit => furcHash bit (2 ^ 3) == one) =
        tally positions fun bit => furcHash bit (2 ^ 3) == two :=
  ⟨by decide +kernel, (furcHash_balanced_iff (by decide) (by decide) (by decide)).mpr (by decide)⟩

theorem furcHash_balanced_fails :
    tally {0, 1} (fun bit => furcHash bit 2 == 0) = 1 ∧
      tally {0, 1} (fun bit => furcHash bit 2 == 1) = 3 := by
  decide +kernel

end Balance

end SmetricRouter.Policies
