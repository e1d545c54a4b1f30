import SmetricRouter.Library.Utf8Text

/-! The texts of tree nodes, compared and cut by bytes where that is enough.

Each function works on bytes as long as they are below 128 and on characters
otherwise. What it computes is a matter of characters alone.
-/

namespace SmetricRouter.PrefixTree

def sharedPrefixCountChars (left right : List Char) : Nat :=
  ((left.zip right).takeWhile fun pair => pair.1 == pair.2).length

def sharedPrefixCount (left right : List Char) : Nat :=
  let commonByteLen := (((utf8 left).zip (utf8 right)).findIdx? fun pair =>
    pair.1 ≠ pair.2).getD (min (utf8 left).length (utf8 right).length)
  if isAscii ((utf8 left).take commonByteLen) then commonByteLen
  else sharedPrefixCountChars left right

def advanceByChars (text : List Char) (count : Nat) : List Char :=
  if count = 0 then text
  else if (utf8 text).length ≤ count then []
  else if isAscii ((utf8 text).take count) then dropBytes text count
  else ((charIndex text count).map (dropBytes text)).getD []

def takeChars (text : List Char) (count : Nat) : List Char :=
  if count = 0 then []
  else ((charIndex text count).map (takeBytes text)).getD text

/-- Node text with its cached character count. -/
structure NodeText where
  text : List Char
  charCount : Nat
  deriving DecidableEq, Repr

namespace NodeText

def new (text : List Char) : NodeText := ⟨text, text.length⟩

def empty : NodeText := ⟨[], 0⟩

def firstChar (text : NodeText) : Option Char := text.text.head?

def splitAtChar (self : NodeText) (index : Nat) : NodeText × NodeText :=
  if index = 0 then (empty, self)
  else if self.charCount ≤ index then (self, empty)
  else
    let byteIndex := (charIndex self.text index).getD (utf8 self.text).length
    (⟨takeBytes self.text byteIndex, index⟩,
      ⟨dropBytes self.text byteIndex, self.charCount - index⟩)

end NodeText

theorem sharedPrefixCount_eq (left right : List Char) :
    sharedPrefixCount left right = commonPrefix left right := by
  unfold sharedPrefixCount
  simp only [findIdx_zip]
  split
  · rename_i ascii
    exact commonPrefix_utf8 ascii
  · exact length_takeWhile_zip _ _

theorem advanceByChars_eq (text : List Char) (count : Nat) :
    advanceByChars text count = text.drop count := by
  fun_cases advanceByChars text count with
  | case1 none => rw [none, List.drop_zero]
  | case2 _ past => exact (List.drop_eq_nil_of_le (Nat.le_trans (length_le_utf8 _) past)).symm
  | case3 _ inside ascii =>
    have bytes := length_utf8_take_of_ascii _ _ (Nat.le_of_not_le inside) ascii
    have cut := dropBytes_utf8 text count
    rwa [bytes] at cut
  | case4 =>
    fun_cases charIndex text count with
    | case1 => exact dropBytes_utf8 _ _
    | case2 past => exact (List.drop_eq_nil_of_le (Nat.le_of_not_lt past)).symm

theorem takeChars_eq (text : List Char) (count : Nat) : takeChars text count = text.take count := by
  fun_cases takeChars text count with
  | case1 none => rw [none, List.take_zero]
  | case2 =>
    fun_cases charIndex text count with
    | case1 => exact takeBytes_utf8 _ _
    | case2 past => exact (List.take_of_length_le (Nat.le_of_not_lt past)).symm

theorem NodeText.splitAtChar_eq {text : NodeText} {index : Nat}
    (counted : text.charCount = text.text.length) (some_front : index ≠ 0)
    (inside : index < text.text.length) :
    text.splitAtChar index = (.new (text.text.take index), .new (text.text.drop index)) := by
  unfold splitAtChar
  rw [if_neg some_front, if_neg (by omega)]
  simp only [charIndex, if_pos inside, Option.getD_some, takeBytes_utf8, dropBytes_utf8, counted]
  unfold new
  rw [List.length_take, List.length_drop, Nat.min_eq_left (Nat.le_of_lt inside)]

theorem NodeText.splitAtChar_new {text : List Char} {index : Nat} :
    (NodeText.new text).splitAtChar index = (.new (text.take index), .new (text.drop index)) := by
  by_cases none : index = 0
  · subst none
    rfl
  · by_cases inside : index < text.length
    · exact splitAtChar_eq rfl none inside
    · have past : text.length ≤ index := Nat.le_of_not_lt inside
      rw [List.take_of_length_le past, List.drop_eq_nil_of_le past]
      unfold splitAtChar
      rw [if_neg none]
      exact if_pos past

/-- The helpers count and cut by characters, whichever path they take. -/
theorem textHelpers_agree (left right : List Char) (count : Nat) :
    sharedPrefixCount left right = commonPrefix left right ∧
      advanceByChars left count = left.drop (min count left.length) ∧
      (NodeText.new left).splitAtChar count = (.new (left.take count), .new (left.drop count)) := by
  refine ⟨sharedPrefixCount_eq _ _, ?_, NodeText.splitAtChar_new⟩
  rw [advanceByChars_eq, ← List.drop_eq_drop_min]

end SmetricRouter.PrefixTree
