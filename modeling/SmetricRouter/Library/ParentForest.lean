import SmetricRouter.Library.Table
import Mathlib.Logic.Relation
import Mathlib.Data.List.Basic

/-! Forests kept as a table of parents.

A key points at its parent; a key that points at itself or is unknown is a root.
A table is a forest when some height strictly falls along every proper edge.
The height also bounds how long a climb to a root can take.
-/

namespace SmetricRouter.ParentForest

variable {K : Type} [DecidableEq K] {parents : Table K K} {height : K → Nat}

def Edge (parents : Table K K) (child parent : K) : Prop :=
  parents.lookup child = some parent ∧ parent ≠ child

def Reaches (parents : Table K K) : K → K → Prop := Relation.ReflTransGen (Edge parents)

def Graded (parents : Table K K) (height : K → Nat) : Prop :=
  ∀ child parent, Edge parents child parent → height parent < height child

def Forest (parents : Table K K) : Prop := ∃ height, Graded parents height

/-- How many known keys are at most as high as a key. -/
def below (parents : Table K K) (height : K → Nat) (key : K) : Nat :=
  (parents.keys.filter fun other => decide (height other ≤ height key)).length

omit [DecidableEq K] in
theorem below_le (parents : Table K K) (height : K → Nat) (key : K) :
    below parents height key ≤ parents.entries.length := by
  have keys : parents.keys.length = parents.entries.length := List.length_map _
  rw [← keys]
  exact List.length_filter_le _ _

variable {child parent : K}

theorem below_lt (graded : Graded parents height) (edge : Edge parents child parent) :
    below parents height parent < below parents height child := by
  have falls := graded _ _ edge
  have known : child ∈ parents.keys := (Table.mem_keys_iff _ _).mpr ⟨parent, edge.1⟩
  have nested : parents.keys.filter (fun other => decide (height other ≤ height parent)) =
      (parents.keys.filter fun other => decide (height other ≤ height child)).filter
        fun other => decide (height other ≤ height parent) := by
    rw [List.filter_filter]
    apply List.filter_congr
    intro other _
    by_cases low : height other ≤ height parent
    · have lower : height other ≤ height child := by omega
      simp [low, lower]
    · simp [low]
  unfold below
  rw [nested]
  apply List.length_filter_lt_length_iff_exists.mpr
  refine ⟨child, List.mem_filter.mpr ⟨known, by simp⟩, ?_⟩
  simp only [decide_eq_true_eq]
  omega

theorem Forest.link (forest : Forest parents) {ancestor : K}
    (unreached : ¬ Reaches parents ancestor child) : Forest (parents.insert child ancestor) := by
  classical
  obtain ⟨height, graded⟩ := forest
  -- Everything that reaches the child is lifted above the ancestor.
  let lift := fun key => if Reaches parents key child then height ancestor + 1 else 0
  refine ⟨fun key => height key + lift key, ?_⟩
  intro node target edge
  obtain ⟨found, proper⟩ := edge
  rw [Table.lookup_insert_eq] at found
  by_cases same : node = child
  · rw [if_pos same] at found
    cases found
    have lifted : lift node = height ancestor + 1 := if_pos (same ▸ Relation.ReflTransGen.refl)
    have grounded : lift ancestor = 0 := if_neg unreached
    simp only [lifted, grounded]
    omega
  · rw [if_neg same] at found
    have falls := graded _ _ ⟨found, proper⟩
    by_cases reaches : Reaches parents target child
    · have above : Reaches parents node child := Relation.ReflTransGen.head ⟨found, proper⟩ reaches
      simp only [lift, reaches, above, if_true]
      omega
    · simp only [lift, reaches, if_false]
      omega

/-- The key at the end of a chain. -/
def IsEnd (next : K → K → Prop) (key last : K) : Prop :=
  Relation.ReflTransGen next key last ∧ ∀ other, ¬ next last other

/-- Every parent is somewhere on the chain of its child, and only the end of a chain
is a root. -/
structure Shortcuts (next : K → K → Prop) (parents : Table K K) : Prop where
  leads : ∀ child parent, Edge parents child parent → Relation.TransGen next child parent
  proper : ∀ child other, next child other → ∃ parent, Edge parents child parent

section Shortcuts

variable {next : K → K → Prop} {key last other : K} {shorter : Table K K}

omit [DecidableEq K] in
theorem IsEnd.unique (functional : Relator.RightUnique next) (left : IsEnd next key last)
    (right : IsEnd next key other) : last = other := by
  rcases Relation.ReflTransGen.total_of_right_unique functional left.1 right.1 with ahead | behind
  · rcases ahead.cases_head with same | ⟨step, moves, _⟩
    · exact same
    · exact absurd moves (left.2 _)
  · rcases behind.cases_head with same | ⟨step, moves, _⟩
    · exact same.symm
    · exact absurd moves (right.2 _)

theorem edge_rightUnique (parents : Table K K) : Relator.RightUnique (Edge parents) := by
  intro _ _ _ first second
  exact Option.some.inj (first.1.symm.trans second.1)

variable (shortcuts : Shortcuts next parents)

include shortcuts

theorem Shortcuts.isEnd (ends : IsEnd (Edge parents) key last) : IsEnd next key last := by
  refine ⟨ends.1.lift' id fun _ _ edge => (shortcuts.leads _ _ edge).to_reflTransGen,
    fun _ moves => ?_⟩
  obtain ⟨_, edge⟩ := shortcuts.proper _ _ moves
  exact ends.2 _ edge

theorem Shortcuts.trans (further : Shortcuts (Edge parents) shorter) : Shortcuts next shorter where
  leads _ _ edge := (further.leads _ _ edge).lift' id shortcuts.leads
  proper _ _ moves := by
    obtain ⟨_, edge⟩ := shortcuts.proper _ _ moves
    exact further.proper _ _ edge

theorem Shortcuts.insert {more : K → K → Prop}
    (extends_by : ∀ key other, more key other ↔ next key other ∨ key = child ∧ other = parent)
    (proper : parent ≠ child) : Shortcuts more (parents.insert child parent) where
  leads key other edge := by
    obtain ⟨found, apart⟩ := edge
    rw [Table.lookup_insert_eq] at found
    split at found
    · rename_i own
      cases found
      exact .single ((extends_by key _).mpr (.inr ⟨own, rfl⟩))
    · exact Relation.TransGen.mono (fun _ _ moves =>
        (extends_by _ _).mpr (.inl moves)) _ _ (shortcuts.leads key _ ⟨found, apart⟩)
  proper key _ moves := by
    by_cases own : key = child
    · exact ⟨parent, by rw [Table.lookup_insert_eq, if_pos own], own ▸ proper⟩
    · obtain ⟨parent, edge⟩ := shortcuts.proper key _
        (((extends_by key _).mp moves).resolve_right fun new => own new.1)
      exact ⟨parent, by rw [Table.lookup_insert_eq, if_neg own, edge.1], edge.2⟩

omit shortcuts

theorem Graded.lt_of_transGen (graded : Graded parents height)
    (chain : Relation.TransGen (Edge parents) key last) : height last < height key := by
  induction chain with
  | single edge => exact graded _ _ edge
  | tail _ edge ih => exact Nat.lt_trans (graded _ _ edge) ih

theorem Shortcuts.graded (shortcuts : Shortcuts (Edge parents) shorter)
    (graded : Graded parents height) : Graded shorter height :=
  fun _ _ edge => graded.lt_of_transGen (shortcuts.leads _ _ edge)

theorem Graded.compress (graded : Graded parents height) {root : K} {path : List K}
    (below : ∀ node ∈ path, Relation.TransGen (Edge parents) node root) :
    Shortcuts (Edge parents)
      (path.foldl (fun parents node => AList.insert node root parents) parents) := by
  have apart {node : K} (member : node ∈ path) : root ≠ node := by
    have falls := graded.lt_of_transGen (below _ member)
    rintro rfl
    omega
  constructor
  · rintro child _ ⟨found, proper⟩
    rw [Table.lookup_foldl_insert] at found
    split at found
    · rename_i member
      cases found
      exact below _ member
    · exact .single ⟨found, proper⟩
  · rintro child other edge
    by_cases member : child ∈ path
    · exact ⟨root, by rw [Table.lookup_foldl_insert, if_pos member], apart member⟩
    · exact ⟨other, by rw [Table.lookup_foldl_insert, if_neg member, edge.1], edge.2⟩

end Shortcuts

end SmetricRouter.ParentForest
