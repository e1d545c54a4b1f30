import Mathlib.Data.List.Basic
import Mathlib.Data.Char

/-! Text as characters and as the bytes of their UTF-8 encoding.

Code that works on bytes is compared here with what it means for characters. A
byte below 128 stands for a whole character, so as long as only such bytes are
seen, positions of bytes are positions of characters.
-/

namespace SmetricRouter

section CommonPrefix

variable {α : Type} [DecidableEq α]

def commonPrefix : List α → List α → Nat
  | left :: lefts, right :: rights => if left = right then commonPrefix lefts rights + 1 else 0
  | _, _ => 0

variable (left right : List α)

theorem commonPrefix_le_left : commonPrefix left right ≤ left.length := by
  fun_induction commonPrefix left right with
  | case1 _ _ _ ih => exact Nat.succ_le_succ ih
  | case2 | _ => exact Nat.zero_le _

theorem commonPrefix_le_right : commonPrefix left right ≤ right.length := by
  fun_induction commonPrefix left right with
  | case1 _ _ _ ih => exact Nat.succ_le_succ ih
  | case2 | _ => exact Nat.zero_le _

theorem take_commonPrefix :
    left.take (commonPrefix left right) = right.take (commonPrefix left right) := by
  fun_induction commonPrefix left right with
  | case1 _ _ _ ih => rw [List.take_succ_cons, List.take_succ_cons, ih]
  | case2 | _ => rw [List.take_zero, List.take_zero]

theorem take_isPrefix_iff {count : Nat} (within : count ≤ left.length) :
    left.take count <+: right ↔ count ≤ commonPrefix left right := by
  induction left generalizing right count with
  | nil =>
    obtain rfl := Nat.le_zero.mp within
    exact iff_of_true List.nil_prefix (Nat.zero_le _)
  | cons letter _ ih =>
    cases count with
    | zero => exact iff_of_true List.nil_prefix (Nat.zero_le _)
    | succ =>
      cases right with
      | nil => simp [commonPrefix]
      | cons other rights =>
        rw [List.take_succ_cons, List.cons_prefix_cons, ih rights (Nat.le_of_succ_le_succ within),
          commonPrefix]
        by_cases same : letter = other
        · simp [same]
        · simp [same]

theorem commonPrefix_append (front left right : List α) :
    commonPrefix (front ++ left) (front ++ right) = front.length + commonPrefix left right := by
  induction front with
  | nil => rw [List.nil_append, List.nil_append, List.length_nil, Nat.zero_add]
  | cons _ _ ih =>
    rw [List.cons_append, List.cons_append, commonPrefix, if_pos rfl, List.length_cons]
    omega

theorem commonPrefix_append_right {left right : List α} {more : List α}
    (inside : commonPrefix left right < right.length) :
    commonPrefix left (right ++ more) = commonPrefix left right := by
  fun_induction commonPrefix left right with
  | case1 _ _ _ ih =>
    rw [List.cons_append, commonPrefix, if_pos rfl, ih (Nat.lt_of_succ_lt_succ inside)]
  | case2 _ _ _ _ differ => rw [List.cons_append, commonPrefix, if_neg differ]
  | case3 left right none =>
    cases right with
    | nil => exact absurd inside (Nat.not_lt_zero _)
    | cons =>
      cases left with
      | nil => rfl
      | cons => exact (none _ _ _ _ rfl rfl).elim

theorem findIdx_zip :
    ((left.zip right).findIdx? fun pair => pair.1 ≠ pair.2).getD (min left.length right.length) =
      commonPrefix left right := by
  fun_induction commonPrefix left right with
  | case1 lefts _ rights ih =>
    rw [List.zip_cons_cons, List.findIdx?_cons, ← ih]
    simp only [ne_eq, not_true_eq_false, decide_false, Bool.false_eq_true, if_false,
      List.length_cons, Nat.succ_min_succ]
    cases (lefts.zip rights).findIdx? fun pair => decide (¬ pair.1 = pair.2) <;> rfl
  | case2 _ _ _ _ differ =>
    rw [List.zip_cons_cons, List.findIdx?_cons]
    simp [differ]
  | case3 left right ended =>
    cases left with
    | nil => rfl
    | cons _ _ =>
      cases right with
      | nil => rfl
      | cons _ _ => exact (ended _ _ _ _ rfl rfl).elim

theorem length_takeWhile_zip :
    ((left.zip right).takeWhile fun pair => pair.1 == pair.2).length = commonPrefix left right := by
  fun_induction commonPrefix left right with
  | case1 _ letter _ ih =>
    rw [List.zip_cons_cons, List.takeWhile_cons, if_pos (beq_self_eq_true letter), List.length_cons,
      ih]
  | case2 _ _ _ _ differ =>
    rw [List.zip_cons_cons, List.takeWhile_cons, if_neg (by simpa using differ), List.length_nil]
  | case3 left right ended =>
    cases left with
    | nil => rfl
    | cons _ _ =>
      cases right with
      | nil => rfl
      | cons _ _ => exact (ended _ _ _ _ rfl rfl).elim

end CommonPrefix

def utf8 (text : List Char) : List UInt8 := text.flatMap String.utf8EncodeChar

def isAscii (bytes : List UInt8) : Bool := bytes.all fun byte => byte < 128

def dropBytes : List Char → Nat → List Char
  | [], _ => []
  | letter :: rest, count =>
    if count = 0 then letter :: rest
    else dropBytes rest (count - (String.utf8EncodeChar letter).length)

def takeBytes : List Char → Nat → List Char
  | [], _ => []
  | letter :: rest, count =>
    if count = 0 then []
    else letter :: takeBytes rest (count - (String.utf8EncodeChar letter).length)

def charIndex (text : List Char) (number : Nat) : Option Nat :=
  if number < text.length then some (utf8 (text.take number)).length else none

theorem utf8_cons (letter : Char) (rest : List Char) :
    utf8 (letter :: rest) = String.utf8EncodeChar letter ++ utf8 rest := List.flatMap_cons

theorem length_utf8EncodeChar_pos (letter : Char) : 0 < (String.utf8EncodeChar letter).length :=
  List.length_pos_of_ne_nil String.utf8EncodeChar_ne_nil

variable (text : List Char)

theorem length_le_utf8 : text.length ≤ (utf8 text).length := by
  induction text with
  | nil => exact Nat.le_refl _
  | cons letter =>
    have some_byte := length_utf8EncodeChar_pos letter
    rw [utf8_cons, List.length_append, List.length_cons]
    omega

theorem dropBytes_utf8 (number : Nat) :
    dropBytes text (utf8 (text.take number)).length = text.drop number := by
  induction text generalizing number with
  | nil => rw [dropBytes, List.drop_nil]
  | cons letter _ ih =>
    cases number with
    | zero => rfl
    | succ =>
      have some_byte := length_utf8EncodeChar_pos letter
      rw [List.take_succ_cons, utf8_cons, List.length_append, dropBytes, if_neg (by omega),
        Nat.add_sub_cancel_left, ih, List.drop_succ_cons]

theorem takeBytes_utf8 (number : Nat) :
    takeBytes text (utf8 (text.take number)).length = text.take number := by
  induction text generalizing number with
  | nil => rw [takeBytes, List.take_nil]
  | cons letter _ ih =>
    cases number with
    | zero => rfl
    | succ =>
      have some_byte := length_utf8EncodeChar_pos letter
      rw [List.take_succ_cons, utf8_cons, List.length_append, takeBytes, if_neg (by omega),
        Nat.add_sub_cancel_left, ih]

theorem utf8EncodeChar_of_ascii {letter : Char} {byte : UInt8} {rest : List UInt8}
    (encoded : String.utf8EncodeChar letter = byte :: rest) (ascii : byte < 128) :
    rest = [] ∧ letter.val.toNat = byte.toNat := by
  have small : byte.toNat < 128 := UInt8.lt_iff_toNat_lt.mp ascii
  -- The first byte of a longer encoding is 192 or more.
  have large value (first : UInt8.ofNat value = byte) (low : 192 ≤ value)
      (high : value < 256) : False := by
    rw [← first, UInt8.toNat_ofNat'] at small
    omega
  unfold String.utf8EncodeChar at encoded
  simp only at encoded
  split at encoded
  · obtain ⟨first, ended⟩ := List.cons.inj encoded
    refine ⟨ended.symm, ?_⟩
    rw [← first, UInt8.toNat_ofNat', Nat.mod_eq_of_lt (by omega)]
  · split at encoded
    · exact (large _ (List.cons.inj encoded).1 (by omega) (by omega)).elim
    · split at encoded
      · exact (large _ (List.cons.inj encoded).1 (by omega) (by omega)).elim
      · exact (large _ (List.cons.inj encoded).1 (by omega) (by omega)).elim

theorem commonPrefix_utf8_of_ne {letter other : Char} (differ : letter ≠ other)
    {lefts rights : List Char}
    (ascii : isAscii ((utf8 (letter :: lefts)).take
      (commonPrefix (utf8 (letter :: lefts)) (utf8 (other :: rights))))) :
    commonPrefix (utf8 (letter :: lefts)) (utf8 (other :: rights)) = 0 := by
  obtain ⟨first, _, encoded⟩ := List.exists_cons_of_ne_nil
    (String.utf8EncodeChar_ne_nil (c := letter))
  obtain ⟨second, _, shown⟩ := List.exists_cons_of_ne_nil
    (String.utf8EncodeChar_ne_nil (c := other))
  rw [utf8_cons, utf8_cons, encoded, shown, List.cons_append, List.cons_append, commonPrefix] at ascii ⊢
  by_cases same : first = second
  · subst same
    rw [if_pos rfl, List.take_succ_cons, isAscii, List.all_cons, Bool.and_eq_true,
      decide_eq_true_eq] at ascii
    obtain ⟨_, value⟩ := utf8EncodeChar_of_ascii encoded ascii.1
    obtain ⟨_, equal⟩ := utf8EncodeChar_of_ascii shown ascii.1
    exact (differ (Char.ext (UInt32.toNat_inj.mp (value.trans equal.symm)))).elim
  · rw [if_neg same]

theorem commonPrefix_utf8 {left right : List Char}
    (ascii : isAscii ((utf8 left).take (commonPrefix (utf8 left) (utf8 right)))) :
    commonPrefix (utf8 left) (utf8 right) = commonPrefix left right := by
  fun_induction commonPrefix left right with
  | case1 _ letter _ ih =>
    rw [utf8_cons, utf8_cons, commonPrefix_append] at ascii ⊢
    rw [List.take_length_add_append, isAscii, List.all_append, Bool.and_eq_true] at ascii
    obtain ⟨_, _, encoded⟩ := List.exists_cons_of_ne_nil
      (String.utf8EncodeChar_ne_nil (c := letter))
    have single : (String.utf8EncodeChar letter).length = 1 := by
      have low := ascii.1
      rw [encoded, List.all_cons, Bool.and_eq_true, decide_eq_true_eq] at low
      rw [encoded, (utf8EncodeChar_of_ascii encoded low.1).1]
      rfl
    rw [single, ih ascii.2, Nat.add_comm]
  | case2 _ _ _ _ differ => exact commonPrefix_utf8_of_ne differ ascii
  | case3 left right ended =>
    cases left with
    | nil => rfl
    | cons letter lefts =>
      cases right with
      | nil => cases utf8 (letter :: lefts) <;> rfl
      | cons _ _ => exact (ended _ _ _ _ rfl rfl).elim

theorem length_utf8_take_of_ascii (count : Nat) (within : count ≤ (utf8 text).length)
    (ascii : isAscii ((utf8 text).take count)) : (utf8 (text.take count)).length = count := by
  induction text generalizing count with
  | nil =>
    obtain rfl := Nat.le_zero.mp within
    rfl
  | cons letter _ ih =>
    cases count with
    | zero => rfl
    | succ count =>
      obtain ⟨_, _, encoded⟩ := List.exists_cons_of_ne_nil
        (String.utf8EncodeChar_ne_nil (c := letter))
      rw [utf8_cons, encoded, List.cons_append] at ascii within
      rw [List.take_succ_cons, isAscii, List.all_cons, Bool.and_eq_true, decide_eq_true_eq] at ascii
      obtain ⟨rfl, _⟩ := utf8EncodeChar_of_ascii encoded ascii.1
      rw [List.take_succ_cons, utf8_cons, encoded, List.length_append,
        ih count (Nat.le_of_succ_le_succ within) ascii.2, List.length_singleton, Nat.add_comm]

end SmetricRouter
