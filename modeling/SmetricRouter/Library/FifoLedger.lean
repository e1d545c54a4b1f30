import Mathlib.Data.List.Nodup

/-! The history of a queue that is served from the front.

Items may also be cancelled, from any position. Every item that arrived is then
in one of three places, and what was served left in the order of arrival.
-/

namespace SmetricRouter

variable {α : Type} [DecidableEq α]

/-- Served and waiting items, in this order, are the arrivals that were not cancelled. -/
structure FifoLedger (arrived served waiting cancelled : List α) : Prop where
  distinct : arrived.Nodup
  ordered : served ++ waiting = arrived.filter (· ∉ cancelled)
  known : ∀ item ∈ cancelled, item ∈ arrived
  once : cancelled.Nodup

namespace FifoLedger

variable {arrived served waiting cancelled : List α}

theorem empty : FifoLedger ([] : List α) [] [] [] :=
  ⟨.nil, rfl, nofun, .nil⟩

variable (ledger : FifoLedger arrived served waiting cancelled)

include ledger

variable {item : α}

theorem arrive (fresh : item ∉ arrived) :
    FifoLedger (arrived ++ [item]) served (waiting ++ [item]) cancelled where
  distinct := List.nodup_append.mpr ⟨ledger.distinct, List.nodup_singleton item, by
    intro old member _ single same
    rw [List.mem_singleton] at single
    subst single same
    exact fresh member⟩
  ordered := by
    have uncancelled : item ∉ cancelled := fun member => fresh (ledger.known item member)
    rw [← List.append_assoc, ledger.ordered]
    simp [uncancelled]
  known := fun old member => List.mem_append_left _ (ledger.known old member)
  once := ledger.once

omit ledger in
theorem serve {rest : List α} (ledger : FifoLedger arrived served (item :: rest) cancelled) :
    FifoLedger arrived (served ++ [item]) rest cancelled where
  distinct := ledger.distinct
  ordered := by
    rw [List.append_assoc]
    exact ledger.ordered
  known := ledger.known
  once := ledger.once

theorem nodup : (served ++ waiting).Nodup := by
  rw [ledger.ordered]
  exact ledger.distinct.filter _

theorem mem_iff (item : α) : item ∈ served ++ waiting ↔ item ∈ arrived ∧ item ∉ cancelled := by
  rw [ledger.ordered, List.mem_filter, decide_eq_true_eq]

theorem cancel (position : Nat) (present : position < waiting.length) :
    FifoLedger arrived served (waiting.eraseIdx position) (cancelled ++ [waiting[position]]) := by
  obtain ⟨_, waitingOnce, apart⟩ := List.nodup_append.mp ledger.nodup
  have member : waiting[position] ∈ waiting := List.getElem_mem present
  obtain ⟨known, uncancelled⟩ := (ledger.mem_iff _).mp (List.mem_append_right _ member)
  refine ⟨ledger.distinct, ?_, ?_, ?_⟩
  · -- Erasing the one occurrence is filtering, and the served items do not have it.
    have erased : waiting.eraseIdx position = waiting.filter (· ≠ waiting[position]) := by
      rw [← waitingOnce.erase_getElem position present, waitingOnce.erase_eq_filter]
      exact List.filter_congr fun item _ => by simp [bne, beq_eq_decide]
    have kept : served.filter (· ≠ waiting[position]) = served :=
      List.filter_eq_self.mpr fun item old =>
        decide_eq_true (apart item old waiting[position] member)
    rw [erased, ← kept, ← List.filter_append, ledger.ordered, List.filter_filter]
    apply List.filter_congr
    intro item _
    simp [Bool.and_comm]
  · intro item old
    rcases List.mem_append.mp old with before | now
    · exact ledger.known item before
    · rw [List.mem_singleton] at now
      exact now ▸ known
  · refine List.nodup_append.mpr ⟨ledger.once, List.nodup_singleton _, ?_⟩
    intro _ old _ single same
    rw [List.mem_singleton] at single
    subst single same
    exact uncancelled old

theorem served_eq : served = arrived.filter fun item => item ∉ cancelled ∧ item ∉ waiting := by
  obtain ⟨_, _, apart⟩ := List.nodup_append.mp ledger.nodup
  have kept : served.filter (· ∉ waiting) = served :=
    List.filter_eq_self.mpr fun item old =>
      decide_eq_true fun both => apart item old item both rfl
  have dropped : waiting.filter (· ∉ waiting) = [] :=
    List.filter_eq_nil_iff.mpr fun item member => by simp [member]
  calc
    served = (served ++ waiting).filter (· ∉ waiting) := by
      rw [List.filter_append, kept, dropped, List.append_nil]
    _ = arrived.filter fun item => item ∉ cancelled ∧ item ∉ waiting := by
      rw [ledger.ordered, List.filter_filter]
      apply List.filter_congr
      intro _ _
      simp [and_comm]

theorem placed (member : item ∈ arrived) :
    waiting.count item + served.count item + cancelled.count item = 1 := by
  have together := ledger.nodup.count (a := item)
  have apart := ledger.once.count (a := item)
  rw [List.count_append] at together
  by_cases gone : item ∈ cancelled
  · have absent : item ∉ served ++ waiting := fun present =>
      ((ledger.mem_iff item).mp present).2 gone
    rw [if_neg absent] at together
    rw [if_pos gone] at apart
    omega
  · rw [if_pos ((ledger.mem_iff item).mpr ⟨member, gone⟩)] at together
    rw [if_neg gone] at apart
    omega

end FifoLedger

end SmetricRouter
