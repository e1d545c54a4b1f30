import Mathlib.Data.List.Sort
import Mathlib.Data.List.Perm.Basic

/-! Selection and stable sorting by a comparison function.

The comparison is an arbitrary function into `Ordering`; nothing here asks it
to be transitive. Ties are broken as iterator adaptors break them: the first
minimum and the last maximum win, and sorting keeps equal elements in order.
-/

namespace SmetricRouter

variable {α : Type} (cmp : α → α → Ordering)

/-- The first element that no later element is smaller than, scanning left to
right. -/
def minBy : List α → Option α
  | [] => none
  | first :: rest => some (rest.foldl (fun best item => if cmp best item = .gt then item else best)
      first)

/-- The last element that no earlier element is greater than. -/
def maxBy : List α → Option α
  | [] => none
  | first :: rest => some (rest.foldl (fun best item => if cmp best item = .gt then best else item)
      first)

def sortBy (items : List α) : List α :=
  items.insertionSort fun left right => cmp left right ≠ .gt

theorem foldl_choice_mem (choose : α → α → Prop) [∀ best item, Decidable (choose best item)]
    (items : List α) (start : α) :
    items.foldl (fun best item => if choose best item then item else best) start
      ∈ start :: items := by
  induction items generalizing start with
  | nil => exact List.mem_singleton.mpr rfl
  | cons item _ ih =>
    rw [List.foldl_cons]
    have chosen := ih (if choose start item then item else start)
    by_cases take : choose start item
    · rw [if_pos take] at chosen ⊢
      exact List.mem_cons_of_mem _ chosen
    · rw [if_neg take] at chosen ⊢
      rcases List.mem_cons.mp chosen with same | later
      · rw [same]
        exact List.mem_cons_self
      · exact List.mem_cons_of_mem _ (List.mem_cons_of_mem _ later)

variable {cmp} {items : List α} {best : α}

theorem minBy_mem (found : minBy cmp items = some best) : best ∈ items := by
  cases items with
  | nil => cases found
  | cons first _ =>
    cases found
    exact foldl_choice_mem (fun best item => cmp _ item = .gt) _ first

theorem maxBy_mem (found : maxBy cmp items = some best) : best ∈ items := by
  cases items with
  | nil => cases found
  | cons first rest =>
    cases found
    have chosen := foldl_choice_mem (fun best item => ¬ cmp best item = .gt) rest first
    simpa using chosen

theorem minBy_isSome (some_item : items ≠ []) : (minBy cmp items).isSome := by
  cases items with
  | nil => exact absurd rfl some_item
  | cons => rfl

theorem maxBy_isSome (some_item : items ≠ []) : (maxBy cmp items).isSome := by
  cases items with
  | nil => exact absurd rfl some_item
  | cons => rfl

theorem sortBy_perm (cmp : α → α → Ordering) (items : List α) : (sortBy cmp items).Perm items :=
  List.perm_insertionSort _ items

@[simp] theorem mem_sortBy {item : α} : item ∈ sortBy cmp items ↔ item ∈ items :=
  (sortBy_perm cmp items).mem_iff

section Sorting

variable {cmp : α → α → Ordering} [Std.TransCmp cmp] {other : List α}

instance total_ne_gt : Std.Total fun left right => cmp left right ≠ .gt where
  total left right := by
    by_cases above : cmp left right = .gt
    · right
      rw [Std.OrientedCmp.gt_iff_lt.mp above]
      decide
    · exact .inl above

instance isTrans_ne_gt : IsTrans α fun left right => cmp left right ≠ .gt where
  trans first second third := by
    simp only [← Ordering.isLE_iff_ne_gt]
    exact Std.TransCmp.isLE_trans

theorem sortBy_eq_of_perm (same : items.Perm other)
    (antisymm : ∀ left ∈ items, ∀ right ∈ items, cmp left right = .eq → left = right) :
    sortBy cmp items = sortBy cmp other := by
  refine List.Perm.eq_of_pairwise ?_ (List.pairwise_insertionSort _ _)
    (List.pairwise_insertionSort _ _)
    (((sortBy_perm cmp _).trans same).trans (sortBy_perm cmp _).symm)
  intro _ _ among listed below above
  refine antisymm _ (mem_sortBy.mp among) _ (same.mem_iff.mpr (mem_sortBy.mp listed)) ?_
  exact Std.OrientedCmp.isLE_antisymm (Ordering.isLE_iff_ne_gt.mpr below)
    (Ordering.isLE_iff_ne_gt.mpr above)

theorem sortBy_filter {keep : α → Bool}
    (antisymm : ∀ left ∈ items, ∀ right ∈ items, cmp left right = .eq → left = right) :
    sortBy cmp (items.filter keep) = (sortBy cmp items).filter keep := by
  have ordered := (List.pairwise_insertionSort (fun left right => cmp left right ≠ .gt) items).filter keep
  rw [sortBy_eq_of_perm ((sortBy_perm cmp items).filter keep).symm]
  · exact ordered.insertionSort_eq
  · intro _ among _ listed
    exact antisymm _ (List.mem_of_mem_filter among) _ (List.mem_of_mem_filter listed)

end Sorting

section FirstLeast

variable {β : Type} [LinearOrder β] {key : α → β} {item : α}

/-- The element with the least key, the first of them in a list. For the greatest
key take the dual order. -/
structure FirstLeast (key : α → β) (items : List α) (item : α) : Prop where
  mem : item ∈ items
  least : ∀ other ∈ items, key item ≤ key other
  first : ∃ before after, items = before ++ item :: after ∧ ∀ other ∈ before, key item < key other

theorem FirstLeast.singleton (key : α → β) (item : α) : FirstLeast key [item] item where
  mem := List.mem_singleton.mpr rfl
  least other member := by rw [List.mem_singleton.mp member]
  first := ⟨[], [], rfl, fun _ absent => absurd absent List.not_mem_nil⟩

variable {next : α}

theorem FirstLeast.snoc_lt (found : FirstLeast key items item) (less : key next < key item) :
    FirstLeast key (items ++ [next]) next where
  mem := List.mem_append_right _ (List.mem_singleton.mpr rfl)
  least other member := by
    rcases List.mem_append.mp member with earlier | last
    · exact le_of_lt (lt_of_lt_of_le less (found.least _ earlier))
    · rw [List.mem_singleton.mp last]
  first := ⟨items, [], rfl, fun other member => lt_of_lt_of_le less (found.least other member)⟩

theorem FirstLeast.snoc_le (found : FirstLeast key items item) (stays : ¬ key next < key item) :
    FirstLeast key (items ++ [next]) item where
  mem := List.mem_append_left _ found.mem
  least other member := by
    rcases List.mem_append.mp member with earlier | last
    · exact found.least _ earlier
    · rw [List.mem_singleton.mp last]
      exact not_lt.mp stays
  first := by
    obtain ⟨before, after, split, earlier⟩ := found.first
    refine ⟨before, after ++ [next], ?_, earlier⟩
    rw [split, List.append_assoc, List.cons_append]

variable {γ : Type} {code : α → γ} {best : Option γ}

/-- The memory of a loop over a list: nothing yet, or what it notes of the first
element with the least key. -/
structure HoldsLeast (key : α → β) (code : α → γ) (items : List α) (best : Option γ) : Prop where
  vacant : best = none ↔ items = []
  holds : ∀ value, best = some value → ∃ item, FirstLeast key items item ∧ value = code item

theorem HoldsLeast.nil (key : α → β) (code : α → γ) : HoldsLeast key code [] none where
  vacant := iff_of_true rfl rfl
  holds _ absent := by cases absent

theorem HoldsLeast.snoc (held : HoldsLeast key code items best) {takes : Bool}
    (fresh : best = none → takes = true)
    (compares : ∀ item, best = some (code item) → FirstLeast key items item →
      (takes = true ↔ key next < key item)) :
    HoldsLeast key code (items ++ [next]) (if takes then some (code next) else best) := by
  cases known : best with
  | none =>
    rw [fresh known, held.vacant.mp known]
    constructor
    · exact iff_of_false (Option.some_ne_none _) (List.cons_ne_nil _ _)
    · intro value same
      cases same
      exact ⟨next, FirstLeast.singleton key next, rfl⟩
  | some _ =>
    obtain ⟨item, found, rfl⟩ := held.holds _ known
    have test := compares item known found
    by_cases take : takes = true
    · rw [if_pos take]
      constructor
      · exact iff_of_false (Option.some_ne_none _) (by simp)
      · intro _ same
        cases same
        exact ⟨next, found.snoc_lt (test.mp take), rfl⟩
    · rw [if_neg take]
      constructor
      · exact iff_of_false (Option.some_ne_none _) (by simp)
      · intro _ same
        cases same
        exact ⟨item, found.snoc_le fun less => take (test.mpr less), rfl⟩

end FirstLeast

theorem length_le_of_increasing {times : List Nat} {start finish : Nat}
    (increasing : times.Pairwise (· < ·)) (within : ∀ time ∈ times, start ≤ time ∧ time ≤ finish) :
    times.length ≤ finish + 1 - start := by
  induction times generalizing start with
  | nil => exact Nat.zero_le _
  | cons time rest ih =>
    obtain ⟨first, later⟩ := List.pairwise_cons.mp increasing
    have tail : rest.length ≤ finish + 1 - (time + 1) := by
      refine ih later fun _ member => ⟨first _ member, ?_⟩
      exact (within _ (List.mem_cons_of_mem _ member)).2
    have head := within _ List.mem_cons_self
    rw [List.length_cons]
    omega

end SmetricRouter
