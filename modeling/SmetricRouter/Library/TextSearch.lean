import Mathlib.Data.List.Infix

/-! Searching and trimming text.

A pattern is searched for from the left; what is found is given by the text around the
first place where it stands.
-/

namespace SmetricRouter

section Search

variable {α : Type} [DecidableEq α]

/-- The text before and after the first place where a pattern stands. -/
def splitFirst (pattern : List α) : List α → Option (List α × List α)
  | [] => if pattern = [] then some ([], []) else none
  | letter :: text =>
    if pattern.isPrefixOf (letter :: text) then
      some ([], (letter :: text).drop pattern.length)
    else (splitFirst pattern text).map fun parts => (letter :: parts.1, parts.2)

/-- The pattern stands after `before` and at no earlier place. -/
structure FirstAt (pattern before after text : List α) : Prop where
  text_eq : text = before ++ (pattern ++ after)
  first : ∀ earlier later, text = earlier ++ (pattern ++ later) → before.length ≤ earlier.length

variable {pattern text before after : List α}

theorem splitFirst_firstAt (found : splitFirst pattern text = some (before, after)) :
    FirstAt pattern before after text := by
  induction text generalizing before after with
  | nil =>
    simp only [splitFirst] at found
    split at found
    case isTrue empty =>
      cases found
      subst empty
      exact ⟨rfl, fun _ _ _ => Nat.zero_le _⟩
    case isFalse => cases found
  | cons _ _ ih =>
    simp only [splitFirst] at found
    split at found
    case isTrue starts =>
      cases found
      obtain ⟨_, whole⟩ := List.isPrefixOf_iff_prefix.mp starts
      refine ⟨?_, fun _ _ _ => Nat.zero_le _⟩
      rw [← whole, List.drop_left, List.nil_append]
    case isFalse otherwise =>
      obtain ⟨⟨_, _⟩, inner, same⟩ := Option.map_eq_some_iff.mp found
      cases same
      obtain ⟨whole, first⟩ := ih inner
      refine ⟨by rw [whole, List.cons_append], ?_⟩
      intro earlier later split
      cases earlier with
      | nil =>
        refine (otherwise (List.isPrefixOf_iff_prefix.mpr ?_)).elim
        exact ⟨later, by rw [split, List.nil_append]⟩
      | cons _ earlier =>
        rw [List.cons_append, List.cons.injEq] at split
        exact Nat.succ_le_succ (first earlier _ split.2)

theorem splitFirst_isSome (inside : pattern <:+: text) : (splitFirst pattern text).isSome := by
  induction text with
  | nil =>
    rw [splitFirst, if_pos (List.infix_nil.mp inside)]
    rfl
  | cons _ _ ih =>
    rw [splitFirst]
    split
    case isTrue => rfl
    case isFalse otherwise =>
      rw [Option.isSome_map]
      rcases List.infix_cons_iff.mp inside with starts | later
      · exact (otherwise (List.isPrefixOf_iff_prefix.mpr starts)).elim
      · exact ih later

theorem FirstAt.splitFirst_eq (stands : FirstAt pattern before after text) :
    splitFirst pattern text = some (before, after) := by
  have inside : pattern <:+: text :=
    ⟨before, after, by rw [stands.text_eq, List.append_assoc]⟩
  obtain ⟨⟨start, _⟩, found⟩ := Option.isSome_iff_exists.mp (splitFirst_isSome inside)
  obtain ⟨whole, first⟩ := splitFirst_firstAt found
  have same : before.length = start.length :=
    Nat.le_antisymm (stands.first _ _ whole) (first _ _ stands.text_eq)
  obtain ⟨rfl, tails⟩ := List.append_inj (stands.text_eq.symm.trans whole) same
  rw [found, List.append_cancel_left tails]

omit [DecidableEq α] in
theorem firstAt_of_absent (absent : ¬ pattern <:+: before)
    (apart : ∀ letter ∈ before.getLast?, letter ∉ pattern) :
    FirstAt pattern before after (before ++ (pattern ++ after)) := by
  refine ⟨rfl, ?_⟩
  intro earlier later split
  by_contra short
  obtain ⟨middle, reach, rest⟩ | ⟨middle, reach, rest⟩ := List.append_eq_append_iff.mp split
  · rw [reach, List.length_append] at short
    omega
  · have starts : middle <+: pattern ++ later := ⟨_, rest.symm⟩
    have within : pattern <+: pattern ++ later := List.prefix_append _ _
    have some : middle ≠ [] := by
      rintro rfl
      rw [List.append_nil] at reach
      rw [reach] at short
      exact short (le_refl _)
    rcases Nat.le_total middle.length pattern.length with less | more
    · obtain ⟨tail, whole⟩ := List.prefix_of_prefix_length_le starts within less
      refine apart (middle.getLast some) ?_ ?_
      · rw [reach, List.getLast?_append_of_ne_nil _ some, List.getLast?_eq_some_getLast some]
        rfl
      · rw [← whole]
        exact List.mem_append_left _ (List.getLast_mem some)
    · obtain ⟨tail, whole⟩ := List.prefix_of_prefix_length_le within starts more
      refine absent ⟨earlier, tail, ?_⟩
      rw [reach, ← whole, List.append_assoc]

omit [DecidableEq α] in
theorem eq_of_replicate {letter other another : α} {count : Nat} {left right lead rest : List α}
    (same : left ++ (List.replicate count letter ++ right) =
      lead ++ other :: (List.replicate count letter ++ another :: rest))
    (different : other ≠ letter) (another_ne : another ≠ letter)
    (longer : lead.length + 1 < count) (longest : rest.length + 1 < count) :
    left = lead ++ [other] := by
  have sizes := congrArg List.length same
  simp only [List.length_append, List.length_replicate, List.length_cons] at sizes
  -- Whatever stands inside the row on the left is the letter.
  have inside : ∀ place, left.length ≤ place → place < left.length + count →
      (left ++ (List.replicate count letter ++ right))[place]? = some letter := by
    intro place reached _
    rw [List.getElem?_append_right reached, List.getElem?_append_left (by simp; omega),
      List.getElem?_replicate, if_pos (by omega)]
  rcases Nat.lt_trichotomy left.length (lead.length + 1) with _ | equal | _
  · have found := inside lead.length (by omega) (by omega)
    rw [same, List.getElem?_append_right (le_refl _), Nat.sub_self] at found
    exact (different (Option.some.inj found)).elim
  · have split : left ++ (List.replicate count letter ++ right) =
        (lead ++ [other]) ++ (List.replicate count letter ++ another :: rest) := by
      rw [same, List.append_assoc, List.singleton_append]
    refine (List.append_inj split ?_).1
    rw [equal, List.length_append, List.length_singleton]
  · have found := inside (lead.length + 1 + count) (by omega) (by omega)
    rw [same, List.getElem?_append_right (by omega)] at found
    have place : lead.length + 1 + count - lead.length = count + 1 := by omega
    rw [place, List.getElem?_cons_succ, List.getElem?_append_right (by simp),
      List.length_replicate, Nat.sub_self] at found
    exact (another_ne (Option.some.inj found)).elim

end Search

def isWhitespace (letter : Char) : Bool :=
  let code := letter.toNat
  (9 ≤ code && code ≤ 13) || code == 32 || code == 133 || code == 160 || code == 5760 ||
    (8192 ≤ code && code ≤ 8202) || code == 8232 || code == 8233 || code == 8239 ||
    code == 8287 || code == 12288

def trimStart (text : List Char) : List Char := text.dropWhile isWhitespace

def trim (text : String) : String :=
  String.ofList (trimStart (trimStart text.toList).reverse).reverse

def afterBeginning (beginning text : String) : Option String :=
  if beginning.toList.isPrefixOf text.toList then
    some (String.ofList (text.toList.drop beginning.toList.length))
  else none

def beforeEnding (ending text : String) : Option String :=
  if ending.toList.isSuffixOf text.toList then
    some (String.ofList (text.toList.take (text.toList.length - ending.toList.length)))
  else none

theorem afterBeginning_eq_some {beginning text rest : String} :
    afterBeginning beginning text = some rest ↔ text = beginning ++ rest := by
  unfold afterBeginning
  constructor
  · intro found
    split at found
    case isTrue starts =>
      obtain ⟨_, whole⟩ := List.isPrefixOf_iff_prefix.mp starts
      cases found
      rw [← String.toList_inj, String.toList_append, String.toList_ofList, ← whole, List.drop_left]
    case isFalse => cases found
  · rintro rfl
    rw [String.toList_append, if_pos (List.isPrefixOf_iff_prefix.mpr (List.prefix_append _ _)),
      List.drop_left, String.ofList_toList]

end SmetricRouter
