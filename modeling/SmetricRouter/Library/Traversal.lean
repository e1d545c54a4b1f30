import Mathlib.Logic.Relation
import Mathlib.Data.List.Nodup
import Mathlib.Data.Finset.Card

/-! Depth-first traversal with a stack.

Below a root where every node is a child of at most one other, the traversal
visits each node once, whatever the order in which children are pushed.
-/

namespace SmetricRouter

variable {N : Type}

/-- Pop a node, push its children, until the stack is empty. -/
def visit (children : N → List N) : Nat → List N → Option (List N)
  | _, [] => some []
  | 0, _ :: _ => none
  | fuel + 1, node :: rest =>
    (visit children fuel ((children node).reverse ++ rest)).map (node :: ·)

variable (children : N → List N)

/-- Children know their parent and are listed once; the root has none. -/
structure Branching (parent : N → Option N) (root : N) : Prop where
  top : parent root = none
  back : ∀ node, ∀ child ∈ children node, parent child = some node
  once : ∀ node, (children node).Nodup

def Below : N → N → Prop :=
  Relation.ReflTransGen fun upper child => child ∈ children upper

/-- What is visited and what is still on the stack. -/
structure Traversing (parent : N → Option N) (root : N) (visited stack : List N) : Prop where
  nodup : (visited ++ stack).Nodup
  rooted : root ∈ visited ++ stack
  closed : ∀ node ∈ visited, ∀ child ∈ children node, child ∈ visited ++ stack
  above : ∀ node ∈ visited ++ stack, node ≠ root → ∃ upper ∈ visited, node ∈ children upper
  below : ∀ node ∈ visited ++ stack, Below children root node

variable {children} {parent : N → Option N} {root node : N} {visited stack rest : List N}

theorem Traversing.start : Traversing children parent root [] [root] where
  nodup := List.nodup_singleton root
  rooted := List.mem_singleton_self root
  closed := nofun
  above _ only proper := (proper (List.mem_singleton.mp only)).elim
  below _ only := List.mem_singleton.mp only ▸ .refl

variable (branching : Branching children parent root)

include branching

theorem Traversing.pop (traversing : Traversing children parent root visited (node :: rest)) :
    Traversing children parent root (visited ++ [node]) ((children node).reverse ++ rest) := by
  have listed item : item ∈ visited ++ [node] ++ ((children node).reverse ++ rest) ↔
      item ∈ visited ++ node :: rest ∨ item ∈ children node := by
    simp only [List.mem_append, List.mem_cons, List.mem_reverse, List.not_mem_nil, or_false]
    tauto
  have unvisited : node ∉ visited := fun member =>
    (List.nodup_append.mp traversing.nodup).2.2 _ member _ List.mem_cons_self rfl
  -- A child already seen would have been pushed by its only parent, which is being popped.
  have fresh : ∀ child ∈ children node, child ∉ visited ++ node :: rest := by
    intro child member seen
    have up := branching.back _ _ member
    have proper : child ≠ root := by
      rintro rfl
      rw [branching.top] at up
      cases up
    obtain ⟨upper, known, pushed⟩ := traversing.above _ seen proper
    have same := up.symm.trans (branching.back _ _ pushed)
    exact unvisited (Option.some.inj same ▸ known)
  refine ⟨?_, (listed root).mpr (.inl traversing.rooted), ?_, ?_, ?_⟩
  · have shuffled : (visited ++ [node] ++ ((children node).reverse ++ rest)).Perm
        (children node ++ (visited ++ node :: rest)) := by
      have reversed := (List.reverse_perm (children node)).append_right rest
      calc (visited ++ [node] ++ ((children node).reverse ++ rest)).Perm
            (visited ++ [node] ++ (children node ++ rest)) := reversed.append_left _
        _ = visited ++ ([node] ++ children node) ++ rest := by simp
        _ = (visited ++ [node]) ++ children node ++ rest := by simp
        (visited ++ [node] ++ children node ++ rest).Perm
            (children node ++ (visited ++ [node]) ++ rest) :=
          List.perm_append_comm.append_right rest
        _ = children node ++ (visited ++ node :: rest) := by
          simp
    rw [shuffled.nodup_iff, List.nodup_append]
    refine ⟨branching.once _, traversing.nodup, ?_⟩
    rintro _ member _ seen rfl
    exact fresh _ member seen
  · intro known member _ below
    rw [listed]
    rcases List.mem_append.mp member with old | new
    · exact .inl (traversing.closed known old _ below)
    · rw [List.mem_singleton.mp new] at below
      exact .inr below
  · intro item member proper
    rcases (listed item).mp member with old | new
    · obtain ⟨upper, known, pushed⟩ := traversing.above item old proper
      exact ⟨upper, List.mem_append_left _ known, pushed⟩
    · exact ⟨node, List.mem_append_right _ (List.mem_singleton_self _), new⟩
  · intro item member
    rcases (listed item).mp member with old | new
    · exact traversing.below item old
    · exact (traversing.below _ (List.mem_append_right _ List.mem_cons_self)).tail new

variable [DecidableEq N] {within : Finset N} {fuel : Nat}

theorem Traversing.finish (traversing : Traversing children parent root visited stack)
    (bounded : ∀ item, Below children root item → item ∈ within)
    (enough : within.card ≤ fuel + visited.length) :
    ∃ later, visit children fuel stack = some later ∧
      Traversing children parent root (visited ++ later) [] := by
  induction fuel generalizing visited stack with
  | zero =>
    cases stack with
    | nil => exact ⟨[], rfl, by rwa [List.append_nil]⟩
    | cons node rest =>
      have subset : (visited ++ node :: rest).toFinset ⊆ within := by
        intro item member
        exact bounded item (traversing.below item (List.mem_toFinset.mp member))
      have count := Finset.card_le_card subset
      rw [List.toFinset_card_of_nodup traversing.nodup, List.length_append, List.length_cons] at count
      omega
  | succ _ ih =>
    cases stack with
    | nil => exact ⟨[], rfl, by rwa [List.append_nil]⟩
    | cons node =>
      obtain ⟨later, visits, finished⟩ := ih (traversing.pop branching)
        (by rw [List.length_append, List.length_singleton]; omega)
      refine ⟨node :: later, by rw [visit, visits, Option.map_some], ?_⟩
      rwa [List.append_assoc] at finished

theorem visit_root (bounded : ∀ item, Below children root item → item ∈ within)
    (enough : within.card ≤ fuel) :
    ∃ visited, visit children fuel [root] = some visited ∧ visited.Nodup ∧
      ∀ item, item ∈ visited ↔ Below children root item := by
  obtain ⟨visited, visits, finished⟩ := Traversing.start.finish branching bounded enough
  have nodup := finished.nodup
  have below := finished.below
  have closed := finished.closed
  have rooted := finished.rooted
  simp only [List.nil_append, List.append_nil] at nodup below closed rooted
  refine ⟨visited, visits, nodup, fun item => ⟨below item, fun under => ?_⟩⟩
  induction under with
  | refl => exact rooted
  | tail _ child ih => exact closed _ ih _ child

end SmetricRouter
