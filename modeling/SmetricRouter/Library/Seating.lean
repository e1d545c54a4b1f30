import Mathlib.Algebra.BigOperators.Finprod

/-! The load of places that occupants take.

Every occupant sits at one place or nowhere and has a weight. The load of a
place is the sum of the weights of those who sit there, finitely many. A change
of one occupant changes a load by the difference of its own shares.
-/

namespace SmetricRouter.Seating

variable {P K M : Type} [DecidableEq K] [AddCommGroup M] {seat seat' : P → Option K}
  {weight weight' : P → M} {place : K}

def share (seat : P → Option K) (weight : P → M) (place : K) (occupant : P) : M :=
  if seat occupant = some place then weight occupant else 0

noncomputable def load (seat : P → Option K) (weight : P → M) (place : K) : M :=
  ∑ᶠ occupant, share seat weight place occupant

/-- Finitely many occupants sit anywhere. -/
def Settled (seat : P → Option K) : Prop := {occupant | seat occupant ≠ none}.Finite

omit [DecidableEq K] in
theorem Settled.update [DecidableEq P] (settled : Settled seat) (occupant : P) (taken : Option K) :
    Settled (Function.update seat occupant taken) := by
  refine (settled.insert occupant).subset ?_
  intro other sits
  by_cases same : other = occupant
  · exact .inl same
  · refine .inr ?_
    change seat other ≠ none
    rw [← Function.update_of_ne same taken seat]
    exact sits

theorem Settled.support (settled : Settled seat) :
    Function.HasFiniteSupport (share seat weight place) := by
  refine Set.Finite.subset settled ?_
  intro _ shares unseated
  apply shares
  unfold share
  rw [unseated]
  exact if_neg nofun

theorem load_change (settled : Settled seat) {occupant : P}
    (others : ∀ other, other ≠ occupant →
      share seat' weight' place other = share seat weight place other) :
    load seat' weight' place = load seat weight place +
      (share seat' weight' place occupant - share seat weight place occupant) := by
  classical
  generalize gap_is : share seat' weight' place occupant - share seat weight place occupant = gap
  have split other : share seat' weight' place other =
      share seat weight place other + (Pi.single occupant gap : P → M) other := by
    by_cases same : other = occupant
    · rw [same, Pi.single_eq_same, ← gap_is, add_sub_cancel]
    · rw [Pi.single_eq_of_ne same, add_zero, others other same]
  have single : Function.HasFiniteSupport (Pi.single occupant gap : P → M) :=
    Set.Finite.subset (Set.finite_singleton _) Pi.support_single_subset
  calc load seat' weight' place
      = ∑ᶠ other, (share seat weight place other + (Pi.single occupant gap : P → M) other) :=
        finsum_congr split
    _ = load seat weight place + ∑ᶠ other, (Pi.single occupant gap : P → M) other :=
        finsum_add_distrib settled.support single
    _ = load seat weight place + gap := by
        have elsewhere : ∀ other, other ≠ occupant → (Pi.single occupant gap : P → M) other = 0 := by
          intro _ different
          rw [Pi.single_eq_of_ne different]
        rw [finsum_eq_single _ occupant elsewhere, Pi.single_eq_same]

theorem load_eq_sum {occupants : List P} (nodup : occupants.Nodup)
    (members : ∀ occupant, occupant ∈ occupants ↔ seat occupant = some place) :
    load seat weight place = (occupants.map weight).sum := by
  classical
  have inside : Function.support (share seat weight place) ⊆ occupants.toFinset := by
    intro occupant shares
    rw [Finset.mem_coe, List.mem_toFinset, members]
    by_contra elsewhere
    exact shares (if_neg elsewhere)
  unfold load
  rw [finsum_eq_sum_of_support_subset _ inside, List.sum_toFinset _ nodup]
  refine congrArg List.sum (List.map_congr_left ?_)
  intro occupant sits
  exact if_pos ((members _).mp sits)

end SmetricRouter.Seating
