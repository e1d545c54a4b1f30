import Mathlib.Data.List.Basic

/-! Texts cut into lines.

A boundary ends a line and belongs to no line; text after the last boundary is a
line of its own. A file of lines that hold no boundary is cut back into its
lines. A line that does hold one is cut there too.
-/

namespace SmetricRouter

variable {α : Type} {boundary : α → Bool} {line rest text : List α} {mark : α}

def splitLines (boundary : α → Bool) : List α → List (List α)
  | [] => []
  | letter :: rest =>
    if boundary letter then [] :: splitLines boundary rest
    else
      match splitLines boundary rest with
      | [] => [[letter]]
      | line :: lines => (letter :: line) :: lines

theorem splitLines_line (plain : ∀ letter ∈ line, boundary letter = false)
    (ends : boundary mark = true) :
    splitLines boundary (line ++ mark :: rest) = line :: splitLines boundary rest := by
  induction line with
  | nil => simp [splitLines, ends]
  | cons letter _ ih =>
    have tail := ih fun other within => plain _ (List.mem_cons_of_mem _ within)
    simp [splitLines, plain letter List.mem_cons_self, tail]

variable (ends : boundary mark = true)

include ends

theorem splitLines_append :
    splitLines boundary (text ++ mark :: rest)
      = splitLines boundary (text ++ [mark]) ++ splitLines boundary rest := by
  induction text with
  | nil => simp [splitLines, ends]
  | cons letter text ih =>
    by_cases cut : boundary letter = true
    · simp [splitLines, cut, ih]
    · -- The letter joins the first line, and the text up to the mark has one.
      have some_line : splitLines boundary (text ++ [mark]) ≠ [] := by
        intro no_line
        cases text with
        | nil => simp [splitLines, ends] at no_line
        | cons =>
          simp only [List.cons_append, splitLines] at no_line
          split at no_line <;> [cases no_line; skip]
          split at no_line <;> cases no_line
      obtain ⟨_, _, lines⟩ := List.exists_cons_of_ne_nil some_line
      simp [splitLines, cut, ih, lines]

theorem splitLines_file (lines : List (List α)) :
    splitLines boundary (lines.flatMap (· ++ [mark]))
      = lines.flatMap fun line => splitLines boundary (line ++ [mark]) := by
  induction lines with
  | nil => rfl
  | cons _ _ ih =>
    rw [List.flatMap_cons, List.append_assoc, List.singleton_append, splitLines_append ends, ih,
      List.flatMap_cons]

variable {lines : List (List α)}

theorem splitLines_file_plain (plain : ∀ line ∈ lines, ∀ letter ∈ line, boundary letter = false) :
    splitLines boundary (lines.flatMap (· ++ [mark])) = lines := by
  rw [splitLines_file ends]
  induction lines with
  | nil => rfl
  | cons line _ ih =>
    rw [List.flatMap_cons, splitLines_line (plain line List.mem_cons_self) ends,
      ih fun other within => plain other (List.mem_cons_of_mem _ within)]
    rfl

theorem front_mem_splitLines_file (within : line ∈ lines)
    (cut : ∃ letter ∈ line, boundary letter = true) :
    ∃ front letter back, line = front ++ letter :: back ∧ boundary letter = true
      ∧ front ∈ splitLines boundary (lines.flatMap (· ++ [mark])) := by
  obtain ⟨front, letter, back, split, bound, plain⟩ :
      ∃ front letter back, line = front ++ letter :: back ∧ boundary letter = true
        ∧ ∀ other ∈ front, boundary other = false := by
    obtain ⟨letter, found⟩ := List.find?_isSome.mpr cut |> Option.isSome_iff_exists.mp
    obtain ⟨bound, front, back, split, plain⟩ := List.find?_eq_some_iff_append.mp found
    exact ⟨front, letter, back, split, bound, fun other before => by simpa using plain other before⟩
  refine ⟨front, letter, back, split, bound, ?_⟩
  rw [splitLines_file ends]
  refine List.mem_flatMap.mpr ⟨line, within, ?_⟩
  rw [split, List.append_assoc, List.cons_append, splitLines_line plain bound]
  exact List.mem_cons_self

end SmetricRouter
