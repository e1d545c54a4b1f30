import Mathlib.Data.Rat.Defs
import Mathlib.Algebra.Order.Round
import Mathlib.Data.Rat.Floor

/-! Machine numbers: 64-bit counters, clock readings and binary floating point.

Counters are natural numbers with the saturation or the wrap of the operation
that changes them written out. Floating point is a class of its own: decisions
are taken on an arbitrary type with the operations of `f64`, so what is proved
about a decision does not depend on rounding. Exact rationals are one instance.
-/

namespace SmetricRouter

/-- The largest `u64` and, on the 64-bit targets the program runs on, `usize`. -/
def u64Max : Nat := 2 ^ 64 - 1

def saturatingAdd (left right : Nat) : Nat := min (left + right) u64Max

def saturatingMul (left right : Nat) : Nat := min (left * right) u64Max

def wrappingSucc (value : Nat) : Nat := (value + 1) % 2 ^ 64

def wrappingSub (left right : Nat) : Nat := (left + 2 ^ 64 - right) % 2 ^ 64

theorem saturatingAdd_of_lt {value : Nat} (room : value < u64Max) :
    saturatingAdd value 1 = value + 1 := by
  unfold saturatingAdd
  omega

theorem saturatingAdd_pos {value : Nat} : saturatingAdd value 1 ≠ 0 := by
  unfold saturatingAdd u64Max
  omega

/-- A point of the monotonic clock, in nanoseconds from its origin. -/
abbrev Instant := Nat

abbrev Duration := Nat

def secs (span : Duration) : ℚ := (span : ℚ) / 1000000000

def roundTiesEven (value : ℚ) : ℤ :=
  let low := ⌊value⌋
  let rest := value - low
  if rest < 1 / 2 then low
  else if 1 / 2 < rest then low + 1
  else if low % 2 = 0 then low else low + 1

def nanosFromSecs (value : ℚ) : Duration := (roundTiesEven (value * 1000000000)).toNat

/-- Durations are below `2^64` seconds. -/
def durationLimit : Nat := 2 ^ 64 * 1000000000

/-- Points of the monotonic clock are below `2^63` seconds; a sum that is not panics. -/
def instantLimit : Nat := 2 ^ 63 * 1000000000

/-- `Duration::from_secs_f64`, which panics where this has no value. -/
def durationFromSecs (value : ℚ) : Option Duration :=
  if 0 ≤ value ∧ nanosFromSecs value < durationLimit then some (nanosFromSecs value) else none

/-- The operations of `f64` the program uses, with no law required of them.
`lit` is a literal or an integer cast, rounded to the format; `toUsize` is the
saturating `as usize` cast. -/
class F64 (F : Type) extends Add F, Sub F, Mul F, Div F, Neg F, Max F, Min F, LE F, LT F where
  decLe : ∀ left right : F, Decidable (left ≤ right)
  decLt : ∀ left right : F, Decidable (left < right)
  lit : ℚ → F
  totalCmp : F → F → Ordering
  isFinite : F → Bool
  ceil : F → F
  round : F → F
  abs : F → F
  sqrt : F → F
  ln : F → F
  exp : F → F
  toUsize : F → Nat
  fromSecs : F → Duration
  asSecs : Duration → F

namespace F64

variable {F : Type} [F64 F]

instance (left right : F) : Decidable (left ≤ right) := F64.decLe left right

instance (left right : F) : Decidable (left < right) := F64.decLt left right

def ofNat (value : Nat) : F := lit (value : ℚ)

def clamp (value low high : F) : F :=
  if value < low then low else if high < value then high else value

def sum (values : List F) : F := values.foldl (· + ·) (lit 0)

def toU64 (value : F) : Nat := min (toUsize value) u64Max

end F64

/-- Exact rational arithmetic in place of `f64`. The square root, logarithm and
exponential are parameters, for no rational function computes them. -/
@[reducible] def exactArithmetic (sqrt ln exp : ℚ → ℚ) : F64 ℚ where
  decLe := inferInstance
  decLt := inferInstance
  lit := id
  totalCmp left right := compare left right
  isFinite _ := true
  ceil value := (⌈value⌉ : ℚ)
  round value := (round value : ℚ)
  abs value := |value|
  sqrt := sqrt
  ln := ln
  exp := exp
  toUsize value := ⌊value⌋.toNat
  fromSecs value := ⌊value * 1000000000⌋.toNat
  asSecs span := (span : ℚ) / 1000000000

def Rationals (_sqrt _ln _exp : ℚ → ℚ) : Type := ℚ

section Rationals

variable {sqrt ln exp : ℚ → ℚ}

instance : F64 (Rationals sqrt ln exp) := exactArithmetic sqrt ln exp

instance : Field (Rationals sqrt ln exp) := inferInstanceAs (Field ℚ)

instance : LinearOrder (Rationals sqrt ln exp) := inferInstanceAs (LinearOrder ℚ)

instance : IsStrictOrderedRing (Rationals sqrt ln exp) := inferInstanceAs (IsStrictOrderedRing ℚ)

theorem F64.lit_zero : (F64.lit 0 : Rationals sqrt ln exp) = 0 := rfl

theorem F64.ofNat_eq_cast (value : Nat) :
    (F64.ofNat value : Rationals sqrt ln exp) = (value : Rationals sqrt ln exp) := rfl

theorem F64.sum_eq_sum (values : List (Rationals sqrt ln exp)) : F64.sum values = values.sum :=
  List.sum_eq_foldl.symm

end Rationals

/-- Exact arithmetic with placeholders for the three functions that only shape
rates. -/
abbrev Exact : Type := Rationals id (fun _ => 0) (fun _ => 1)

end SmetricRouter
