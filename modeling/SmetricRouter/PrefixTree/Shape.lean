import SmetricRouter.Library.RadixGraph
import SmetricRouter.PrefixTree.Tree
import Mathlib.Algebra.BigOperators.Group.Finset.Basic

/-! The representation invariant of the radix tree.

The heap is read as a graph of labelled nodes with an owner relation on it. A
sound heap is a compressed trie, each of whose nodes is owned by somebody and
whose owners own every node above. Each elementary change of the heap is shown
once: what it does to the graph, to the owners, and that the heap stays sound.
-/

namespace SmetricRouter.PrefixTree.Tree

open RadixGraph Function Table

def graph (tree : Tree) : RadixGraph NodeRef Char where
  child reference := (tree.node reference).children.lookup
  label reference := (tree.node reference).text.text
  parent reference := (tree.node reference).parent

def Owns (tree : Tree) (tenant : String) (reference : NodeRef) : Prop :=
  (tree.node reference).hasTenant tenant = true

instance (tree : Tree) (tenant : String) (reference : NodeRef) :
    Decidable (tree.Owns tenant reference) := inferInstanceAs (Decidable (_ = true))

structure Shaped (tree : Tree) : Prop where
  rooted : tree.graph.Rooted root
  rootText : (tree.node root).text = .empty
  inside : root < tree.allocated
  fresh : ∀ reference, tree.allocated ≤ reference → tree.node reference = default
  linked : ∀ {upper key lower}, tree.graph.child upper key = some lower → lower < tree.allocated
  counted : ∀ reference,
    (tree.node reference).text.charCount = (tree.node reference).text.text.length
  owned : ∀ {upper key lower}, tree.graph.child upper key = some lower →
    ∃ tenant, tree.Owns tenant lower
  inherited : ∀ {upper key lower tenant}, tree.graph.child upper key = some lower →
    tree.Owns tenant lower → tree.Owns tenant upper
  reached : ∀ {reference tenant}, tree.Owns tenant reference →
    ∃ word, tree.graph.Leads root word reference

variable {tree next : Tree} {reference upper lower : NodeRef} {tenant other : String}
  {word front : List Char} {key : Char}

theorem shaped_new : new.Shaped where
  rooted := ⟨rfl, nofun, nofun⟩
  rootText := rfl
  inside := Nat.one_pos
  fresh _ _ := rfl
  linked := nofun
  counted _ := rfl
  owned := nofun
  inherited := nofun
  reached := nofun

namespace Shaped

variable (shaped : tree.Shaped)

include shaped

theorem owns_above (leads : tree.graph.Leads upper word lower) (owns : tree.Owns tenant lower) :
    tree.Owns tenant upper := by
  induction leads with
  | stay => exact owns
  | down edge _ ih => exact shaped.inherited edge (ih owns)

theorem owns_root (owns : tree.Owns tenant reference) : tree.Owns tenant root := by
  obtain ⟨_, leads⟩ := shaped.reached owns
  exact shaped.owns_above leads owns

theorem unowned_fresh (free : tree.allocated ≤ reference) : ¬ tree.Owns tenant reference := by
  unfold Owns
  rw [shaped.fresh reference free]
  exact nofun

theorem unused_fresh : tree.graph.Unused tree.allocated where
  unreached _ key edge := (shaped.linked edge).false
  bare key := by
    change (tree.node tree.allocated).children.lookup key = none
    rw [shaped.fresh _ (Nat.le_refl _)]
    rfl

theorem leads_lt (leads : tree.graph.Leads root word reference) : reference < tree.allocated := by
  rcases leads.end_cases with ⟨_, rfl⟩ | ⟨_, _, _, _, edge, _⟩
  · exact shaped.inside
  · exact shaped.linked edge

end Shaped

/-- The two heaps differ in tenants and caches only. -/
structure Alike (tree next : Tree) : Prop where
  graph : next.graph = tree.graph
  text : ∀ reference, (next.node reference).text = (tree.node reference).text
  allocated : next.allocated = tree.allocated
  fresh : ∀ reference, tree.allocated ≤ reference → next.node reference = tree.node reference

/-- A change of owners keeps the heap sound if owners stay owners of what is
above, and no node is left without one. -/
theorem Shaped.recolour (shaped : tree.Shaped) (alike : Alike tree next)
    (owned : ∀ {upper key lower}, tree.graph.child upper key = some lower →
      ∃ tenant, next.Owns tenant lower)
    (inherited : ∀ {upper key lower tenant}, tree.graph.child upper key = some lower →
      next.Owns tenant lower → next.Owns tenant upper)
    (reached : ∀ {reference tenant}, next.Owns tenant reference →
      ∃ word, tree.graph.Leads root word reference) : next.Shaped where
  rooted := alike.graph ▸ shaped.rooted
  rootText := (alike.text root).trans shaped.rootText
  inside := alike.allocated ▸ shaped.inside
  fresh reference free := by
    rw [alike.allocated] at free
    rw [alike.fresh reference free, shaped.fresh reference free]
  linked edge := by
    rw [alike.graph] at edge
    rw [alike.allocated]
    exact shaped.linked edge
  counted reference := by
    rw [alike.text]
    exact shaped.counted _
  owned edge := owned (alike.graph ▸ edge)
  inherited edge := inherited (alike.graph ▸ edge)
  reached owns := by
    rw [alike.graph]
    exact reached owns

section Touch

theorem node_modify (tree : Tree) (reference : NodeRef) (change : Node → Node) (at_node : NodeRef) :
    (tree.modify reference change).node at_node =
      if at_node = reference then change (tree.node reference) else tree.node at_node := by
  exact update_apply _ _ _ _

variable {change : Node → Node}

theorem kept_modify {α : Type} (field : Node → α) (same : ∀ node, field (change node) = field node)
    (at_node : NodeRef) :
    field ((tree.modify reference change).node at_node) = field (tree.node at_node) := by
  rw [node_modify]
  split_ifs with own
  · rw [same, own]
  · rfl

theorem alike_modify (used : reference < tree.allocated)
    (children : ∀ node, (change node).children = node.children)
    (text : ∀ node, (change node).text = node.text)
    (parent : ∀ node, (change node).parent = node.parent) :
    Alike tree (tree.modify reference change) := by
  refine ⟨?_, kept_modify (·.text) text, rfl, ?_⟩
  · unfold graph
    congr 1
    · funext at_node
      exact congrArg (fun table : Table Char NodeRef => table.lookup)
        (kept_modify (·.children) children at_node)
    · funext at_node
      exact kept_modify (·.text.text) (fun node => congrArg NodeText.text (text _)) at_node
    · funext at_node
      exact kept_modify (·.parent) parent at_node
  · intro _ free
    rw [node_modify, if_neg]
    rintro rfl
    exact absurd used (Nat.not_lt.mpr free)

theorem owns_touch (time : Nat) : (tree.touch reference tenant time).Owns other lower ↔
    tree.Owns other lower ∨ other = tenant ∧ lower = reference := by
  unfold Owns touch
  rw [node_modify]
  split
  · rename_i own
    subst own
    simp only [Node.hasTenant]
    rw [lookup_insert_eq]
    by_cases same : other = tenant
    · simp [same]
    · simp [same]
  · rename_i apart
    simp [apart]

theorem alike_touch (used : reference < tree.allocated) (tenant : String) (time : Nat) :
    Alike tree (tree.touch reference tenant time) :=
  alike_modify used (fun _ => rfl) (fun _ => rfl) fun _ => rfl

theorem Shaped.touch (shaped : tree.Shaped) (leads : tree.graph.Leads root word reference)
    (above : ∀ {upper key}, tree.graph.child upper key = some reference → tree.Owns tenant upper)
    (time : Nat) : (tree.touch reference tenant time).Shaped := by
  refine shaped.recolour (alike_touch (shaped.leads_lt leads) _ _) ?_ ?_ ?_
  · intro upper key lower edge
    obtain ⟨owner, owns⟩ := shaped.owned edge
    exact ⟨owner, (owns_touch _).mpr (.inl owns)⟩
  · intro _ _ _ owner edge owns
    rw [owns_touch] at owns ⊢
    rcases owns with old | ⟨rfl, rfl⟩
    · exact .inl (shaped.inherited edge old)
    · exact .inl (above edge)
  · intro _ _ owns
    rcases (owns_touch time).mp owns with old | ⟨_, rfl⟩
    · exact shaped.reached old
    · exact ⟨word, leads⟩

end Touch

variable {previous : NodeRef} {firstChar : Char}

section Attach

variable {remaining : List Char}

theorem node_attachLeaf (tree : Tree) (previous : NodeRef) (firstChar : Char)
    (remaining : List Char) (tenant : String) (epoch : Nat) (at_node : NodeRef) :
    (tree.attachLeaf previous firstChar remaining tenant epoch).node at_node =
      if at_node = tree.allocated then
        ⟨∅, .new remaining, (∅ : Table String Nat).insert tenant epoch, some previous, some tenant⟩
      else if at_node = previous then
        { tree.node previous with
          children := (tree.node previous).children.insert firstChar tree.allocated }
      else tree.node at_node := by
  unfold attachLeaf
  simp [update_apply]

variable (shaped : tree.Shaped)

include shaped

theorem graph_attachLeaf (used : previous < tree.allocated) (epoch : Nat) :
    (tree.attachLeaf previous firstChar remaining tenant epoch).graph =
      tree.graph.attach previous firstChar tree.allocated remaining := by
  have apart : tree.allocated ≠ previous := (Nat.ne_of_lt used).symm
  unfold graph attach
  congr 1
  · funext at_node
    rw [node_attachLeaf]
    by_cases new : at_node = tree.allocated
    · rw [new, update_of_ne apart]
      simp only [shaped.fresh _ (Nat.le_refl _)]
      rfl
    · rw [if_neg new]
      by_cases own : at_node = previous
      · rw [if_pos own, own, update_self]
        funext letter
        rw [update_apply]
        exact lookup_insert_eq _ _ _ _
      · rw [if_neg own, update_of_ne own]
  -- Labels and parents change at the new node only.
  all_goals
    funext at_node
    rw [node_attachLeaf, update_apply]
    split_ifs with _ own
    · rfl
    · rw [own]
    · rfl

theorem owns_attachLeaf (used : previous < tree.allocated) (epoch : Nat) :
    (tree.attachLeaf previous firstChar remaining tenant epoch).Owns other lower ↔
      tree.Owns other lower ∨ other = tenant ∧ lower = tree.allocated := by
  unfold Owns
  rw [node_attachLeaf]
  by_cases new : lower = tree.allocated
  · have unowned : ¬ (tree.node lower).hasTenant other = true :=
      shaped.unowned_fresh (Nat.le_of_eq new.symm)
    rw [if_pos new]
    simp only [Node.hasTenant] at unowned ⊢
    rw [lookup_insert_eq]
    by_cases same : other = tenant
    · simp [same, new]
    · simp [same, unowned]
  · by_cases own : lower = previous
    · rw [own]
      simp [Node.hasTenant, Nat.ne_of_lt used]
    · rw [if_neg own]
      simp [new]

theorem Shaped.attachLeaf (leads : tree.graph.Leads root front previous)
    (vacant : tree.graph.child previous firstChar = none)
    (starts : ∃ rest, remaining = firstChar :: rest) (owns : tree.Owns tenant previous)
    (epoch : Nat) : (tree.attachLeaf previous firstChar remaining tenant epoch).Shaped := by
  have used := shaped.leads_lt leads
  have apart : tree.allocated ≠ previous := (Nat.ne_of_lt used).symm
  have proper : root ≠ tree.allocated := Nat.ne_of_lt shaped.inside
  have same : (tree.attachLeaf previous firstChar remaining tenant epoch).graph = _ :=
    graph_attachLeaf shaped used epoch
  have words : ∀ reached path, (tree.graph.attach previous firstChar tree.allocated remaining).Leads
      root path reached ↔ _ :=
    leads_attach shaped.unused_fresh apart shaped.rooted proper vacant leads
  have edges {upper : NodeRef} {key : Char} {lower : NodeRef}
      (edge : (tree.attachLeaf previous firstChar remaining tenant epoch).graph.child upper key =
        some lower) :
      upper = previous ∧ lower = tree.allocated ∨
        tree.graph.child upper key = some lower ∧ lower ≠ tree.allocated := by
    rw [same, child_attach] at edge
    split at edge
    · rename_i new
      cases edge
      exact .inl ⟨new.1, rfl⟩
    · exact .inr ⟨edge, Nat.ne_of_lt (shaped.linked edge)⟩
  refine ⟨?_, ?_, ?_, ?_, ?_, ?_, ?_, ?_, ?_⟩
  · rw [same]
    exact shaped.rooted.attach shaped.unused_fresh apart proper starts
  · rw [node_attachLeaf, if_neg proper]
    split
    · rename_i own
      rw [← own]
      exact shaped.rootText
    · exact shaped.rootText
  · exact Nat.lt_succ_of_lt shaped.inside
  · intro at_node free
    have above : tree.allocated < at_node := free
    rw [node_attachLeaf, if_neg (Nat.ne_of_gt above),
      if_neg (Nat.ne_of_gt (Nat.lt_trans used above))]
    exact shaped.fresh at_node (Nat.le_of_lt above)
  · intro upper key lower edge
    rcases edges edge with ⟨_, rfl⟩ | ⟨old, _⟩
    · exact Nat.lt_succ_self _
    · exact Nat.lt_succ_of_lt (shaped.linked old)
  · intro at_node
    rw [node_attachLeaf]
    split
    · rfl
    · split
      · exact shaped.counted previous
      · exact shaped.counted at_node
  · intro upper key lower edge
    rcases edges edge with ⟨_, rfl⟩ | ⟨old, _⟩
    · exact ⟨tenant, (owns_attachLeaf shaped used epoch).mpr (.inr ⟨rfl, rfl⟩)⟩
    · obtain ⟨owner, known⟩ := shaped.owned old
      exact ⟨owner, (owns_attachLeaf shaped used epoch).mpr (.inl known)⟩
  · intro _ _ _ owner edge known
    rw [owns_attachLeaf shaped used] at known ⊢
    rcases edges edge with ⟨rfl, rfl⟩ | ⟨old, old_node⟩
    · rcases known with old | ⟨rfl, _⟩
      · exact (shaped.unowned_fresh (Nat.le_refl _) old).elim
      · exact .inl owns
    · rcases known with held | ⟨_, new⟩
      · exact .inl (shaped.inherited old held)
      · exact (old_node new).elim
  · intro _ _ known
    rw [same]
    rcases (owns_attachLeaf shaped used epoch).mp known with held | ⟨_, rfl⟩
    · obtain ⟨path, path_leads⟩ := shaped.reached held
      exact ⟨path, (words _ _).mpr (.inl path_leads)⟩
    · exact ⟨_, (words _ _).mpr (.inr ⟨rfl, rfl⟩)⟩

end Attach

section Split

variable {matchedNode : NodeRef} {letter : Char} {upperText back : List Char}

/-- The heap after a node with the first part of a text was put above its child. -/
def splitHeap (tree : Tree) (previous : NodeRef) (firstChar : Char) (matchedNode : NodeRef)
    (upperText : List Char) (letter : Char) (back : List Char) : Tree :=
  { tree with
    node := fun at_node =>
      if at_node = tree.allocated then
        { text := .new upperText
          children := (∅ : Table Char NodeRef).insert letter matchedNode
          parent := some previous
          tenantLastAccessTime := (tree.node matchedNode).tenantLastAccessTime
          lastTenant := (tree.node matchedNode).lastTenant }
      else if at_node = matchedNode then
        { tree.node matchedNode with text := .new (letter :: back), parent := some tree.allocated }
      else if at_node = previous then
        { tree.node previous with
          children := (tree.node previous).children.insert firstChar tree.allocated }
      else tree.node at_node
    allocated := tree.allocated + 1 }

theorem splitNode_eq (shaped : tree.Shaped) {sharedCount : Nat} (some_front : sharedCount ≠ 0)
    (text : tree.graph.label matchedNode = upperText ++ letter :: back)
    (count : upperText.length = sharedCount) :
    tree.splitNode previous firstChar matchedNode sharedCount =
      some (tree.splitHeap previous firstChar matchedNode upperText letter back) := by
  have whole : (tree.node matchedNode).text.text = upperText ++ letter :: back := text
  have inside : sharedCount < (tree.node matchedNode).text.text.length := by
    rw [whole, List.length_append, List.length_cons]
    omega
  have parts := NodeText.splitAtChar_eq (shaped.counted _) some_front inside
  rw [whole, ← count, List.take_left, List.drop_left, count] at parts
  unfold splitNode splitHeap
  simp only [parts, NodeText.firstChar, NodeText.new, List.head?_cons, Option.bind_eq_bind,
    Option.bind_some, Option.pure_def, Option.some.injEq, Tree.mk.injEq, and_self, and_true]
  funext at_node
  simp [update_apply]

/-- The edge that the heap splits, below a node that the root leads to. -/
structure SplitsAt (tree : Tree) (front : List Char) (previous : NodeRef) (firstChar : Char)
    (matchedNode : NodeRef) (upperText : List Char) (letter : Char) (back : List Char) : Prop where
  shaped : tree.Shaped
  leads : tree.graph.Leads root front previous
  edge : tree.graph.child previous firstChar = some matchedNode
  text : tree.graph.label matchedNode = upperText ++ letter :: back
  starts : ∃ rest, upperText = firstChar :: rest

namespace SplitsAt

variable (splits : tree.SplitsAt front previous firstChar matchedNode upperText letter back)

include splits

theorem splits_graph : tree.graph.Splits previous firstChar tree.allocated matchedNode upperText
    letter back where
  edge := splits.edge
  text := splits.text
  starts := splits.starts
  unused := splits.shaped.unused_fresh
  apart := (Nat.ne_of_lt (splits.shaped.leads_lt splits.leads)).symm

theorem matched_ne_fresh : matchedNode ≠ tree.allocated :=
  Nat.ne_of_lt (splits.shaped.linked splits.edge)

theorem graph_splitHeap :
    (tree.splitHeap previous firstChar matchedNode upperText letter back).graph =
      tree.graph.split previous firstChar tree.allocated matchedNode upperText letter back := by
  have loop : matchedNode ≠ previous := splits.shaped.rooted.no_loop splits.leads splits.edge
  unfold graph splitHeap split
  congr 1
  · funext at_node
    simp only [update_apply]
    by_cases new : at_node = tree.allocated
    · rw [if_pos new, if_pos new]
      funext turn
      simp only [update_apply]
      exact lookup_insert_eq _ _ _ _
    · rw [if_neg new, if_neg new]
      by_cases moved : at_node = matchedNode
      · rw [if_pos moved, moved, if_neg loop]
      · rw [if_neg moved]
        by_cases own : at_node = previous
        · rw [if_pos own, if_pos own]
          funext turn
          simp only [update_apply]
          exact lookup_insert_eq _ _ _ _
        · rw [if_neg own, if_neg own]
  -- Labels and parents change at the new node and at the one below it.
  all_goals
    funext at_node
    simp only [update_apply]
    by_cases new : at_node = tree.allocated
    · rw [if_pos new, if_neg (new ▸ splits.matched_ne_fresh.symm), if_pos new] <;> rfl
    · rw [if_neg new]
      by_cases moved : at_node = matchedNode
      · rw [if_pos moved, if_pos moved] <;> rfl
      · split_ifs with own
        · rw [own]
        · rfl

theorem owns_splitHeap :
    (tree.splitHeap previous firstChar matchedNode upperText letter back).Owns other lower ↔
      tree.Owns other lower ∨ lower = tree.allocated ∧ tree.Owns other matchedNode := by
  unfold Owns splitHeap
  simp only
  by_cases new : lower = tree.allocated
  · have unowned : ¬ (tree.node tree.allocated).hasTenant other = true :=
      splits.shaped.unowned_fresh (Nat.le_refl _)
    rw [new]
    simp only [unowned, Bool.false_eq_true, false_or, true_and]
    rfl
  · rw [if_neg new]
    simp only [new, false_and, or_false]
    split
    · rename_i moved
      rw [moved]
      rfl
    · split
      · rename_i own
        rw [own]
        rfl
      · rfl

theorem leads_splitHeap (reached : NodeRef) (path : List Char) :
    (tree.splitHeap previous firstChar matchedNode upperText letter back).graph.Leads root path
        reached ↔
      tree.graph.Leads root path reached ∨ reached = tree.allocated ∧ path = front ++ upperText := by
  rw [splits.graph_splitHeap]
  exact splits.splits_graph.leads_split splits.shaped.rooted (Nat.ne_of_lt splits.shaped.inside)
    splits.leads

theorem edge_cases {turn : Char}
    (edge : (tree.splitHeap previous firstChar matchedNode upperText letter back).graph.child upper
      turn = some lower) :
    upper = tree.allocated ∧ lower = matchedNode ∨ upper = previous ∧ lower = tree.allocated ∨
      tree.graph.child upper turn = some lower ∧ lower ≠ tree.allocated := by
  rw [splits.graph_splitHeap, child_split] at edge
  split at edge
  · rename_i new
    split at edge
    · cases edge
      exact .inl ⟨new, rfl⟩
    · cases edge
  · split at edge
    · rename_i touched
      cases edge
      exact .inr (.inl ⟨touched.1, rfl⟩)
    · exact .inr (.inr ⟨edge, Nat.ne_of_lt (splits.shaped.linked edge)⟩)

theorem shaped_splitHeap :
    (tree.splitHeap previous firstChar matchedNode upperText letter back).Shaped := by
  have shaped := splits.shaped
  have proper : root ≠ tree.allocated := Nat.ne_of_lt shaped.inside
  refine ⟨?_, ?_, ?_, ?_, ?_, ?_, ?_, ?_, ?_⟩
  · rw [splits.graph_splitHeap]
    exact splits.splits_graph.rooted_split shaped.rooted proper
  · have not_matched : root ≠ matchedNode := (shaped.rooted.not_child splits.edge).symm
    unfold splitHeap
    simp only
    rw [if_neg proper, if_neg not_matched]
    split
    · rename_i own
      rw [← own]
      exact shaped.rootText
    · exact shaped.rootText
  · exact Nat.lt_succ_of_lt shaped.inside
  · intro at_node free
    have above : tree.allocated < at_node := free
    have lower_used := shaped.linked splits.edge
    have upper_used := shaped.leads_lt splits.leads
    unfold splitHeap
    simp only
    rw [if_neg (Nat.ne_of_gt above), if_neg (Nat.ne_of_gt (Nat.lt_trans lower_used above)),
      if_neg (Nat.ne_of_gt (Nat.lt_trans upper_used above))]
    exact shaped.fresh at_node (Nat.le_of_lt above)
  · intro upper turn lower edge
    rcases splits.edge_cases edge with ⟨_, rfl⟩ | ⟨_, rfl⟩ | ⟨old, _⟩
    · exact Nat.lt_succ_of_lt (shaped.linked splits.edge)
    · exact Nat.lt_succ_self _
    · exact Nat.lt_succ_of_lt (shaped.linked old)
  · intro at_node
    unfold splitHeap
    simp only
    split
    · rfl
    · split
      · rfl
      · split
        · exact shaped.counted _
        · exact shaped.counted at_node
  · intro upper turn lower edge
    simp only [splits.owns_splitHeap]
    rcases splits.edge_cases edge with ⟨_, rfl⟩ | ⟨_, rfl⟩ | ⟨old, _⟩
    · obtain ⟨owner, owns⟩ := shaped.owned splits.edge
      exact ⟨owner, .inl owns⟩
    · obtain ⟨owner, owns⟩ := shaped.owned splits.edge
      exact ⟨owner, .inr ⟨rfl, owns⟩⟩
    · obtain ⟨owner, owns⟩ := shaped.owned old
      exact ⟨owner, .inl owns⟩
  · intro _ _ _ owner edge owns
    rw [splits.owns_splitHeap] at owns ⊢
    rcases splits.edge_cases edge with ⟨rfl, rfl⟩ | ⟨rfl, rfl⟩ | ⟨old, old_node⟩
    · rcases owns with held | ⟨new, _⟩
      · exact .inr ⟨rfl, held⟩
      · exact (splits.matched_ne_fresh new).elim
    · rcases owns with held | ⟨_, held⟩
      · exact (shaped.unowned_fresh (Nat.le_refl _) held).elim
      · exact .inl (shaped.inherited splits.edge held)
    · rcases owns with held | ⟨new, _⟩
      · exact .inl (shaped.inherited old held)
      · exact (old_node new).elim
  · intro _ _ owns
    rcases splits.owns_splitHeap.mp owns with held | ⟨rfl, _⟩
    · obtain ⟨path, leads⟩ := shaped.reached held
      exact ⟨path, (splits.leads_splitHeap _ _).mpr (.inl leads)⟩
    · exact ⟨_, (splits.leads_splitHeap _ _).mpr (.inr ⟨rfl, rfl⟩)⟩

end SplitsAt

end Split

section Drop

theorem owns_iff_mem_keys :
    tree.Owns tenant reference ↔ tenant ∈ (tree.node reference).tenantLastAccessTime.keys := by
  rw [mem_keys_iff]
  unfold Owns Node.hasTenant
  rw [Option.isSome_iff_exists]

def unmark (tree : Tree) (reference : NodeRef) (tenant : String) : Tree :=
  tree.modify reference fun node =>
    { node with tenantLastAccessTime := node.tenantLastAccessTime.erase tenant }

theorem owns_unmark : (tree.unmark reference tenant).Owns other lower ↔
    tree.Owns other lower ∧ ¬ (other = tenant ∧ lower = reference) := by
  unfold Owns unmark
  rw [node_modify]
  split
  · rename_i own
    subst own
    simp only [Node.hasTenant]
    rw [lookup_erase_eq]
    by_cases same : other = tenant
    · simp [same]
    · simp [same]
  · rename_i apart
    simp [apart]

/-- The node is a leaf for the tenant. -/
structure LeafFor (tree : Tree) (tenant : String) (reference : NodeRef) : Prop where
  owns : tree.Owns tenant reference
  bare : ∀ {key lower}, tree.graph.child reference key = some lower → ¬ tree.Owns tenant lower

/-- What dropping a tenant from one of its leaves leaves behind. -/
structure Drops (tree : Tree) (reference : NodeRef) (tenant : String) (next : Tree) : Prop where
  shaped : next.Shaped
  owns : ∀ other lower, next.Owns other lower ↔
    tree.Owns other lower ∧ ¬ (other = tenant ∧ lower = reference)
  leads : ∀ path lower, next.graph.Leads root path lower → tree.graph.Leads root path lower
  edges : ∀ {upper key lower}, next.graph.child upper key = some lower →
    tree.graph.child upper key = some lower
  text : ∀ lower, (next.node lower).text = (tree.node lower).text
  parent : ∀ lower, (next.node lower).parent = (tree.node lower).parent
  lastTenant : ∀ lower, (next.node lower).lastTenant = (tree.node lower).lastTenant
  allocated : next.allocated = tree.allocated
  counts : next.tenantCharCount = tree.tenantCharCount

def cut (tree : Tree) (upper : NodeRef) (key : Char) : Tree :=
  tree.modify upper fun above => { above with children := above.children.erase key }

theorem graph_cut (tree : Tree) (upper : NodeRef) (key : Char) :
    (tree.cut upper key).graph = tree.graph.detach upper key := by
  unfold graph detach cut
  congr 1
  · funext at_node
    rw [node_modify, update_apply]
    split
    · funext letter
      rw [update_apply]
      exact lookup_erase_eq _ _ _
    · rfl
  · funext at_node
    exact kept_modify (·.text.text) (fun _ => by rfl) at_node
  · funext at_node
    exact kept_modify (·.parent) (fun _ => by rfl) at_node

theorem kept_cut {α : Type} (field : Node → α)
    (same : ∀ node children, field { node with children := children } = field node)
    (lower : NodeRef) : field ((tree.cut upper key).node lower) = field (tree.node lower) :=
  kept_modify field (fun node => same node _) lower

variable (shaped : tree.Shaped)

include shaped

theorem Shaped.alike_unmark (owns : tree.Owns tenant reference) :
    Alike tree (tree.unmark reference tenant) := by
  obtain ⟨_, leads⟩ := shaped.reached owns
  exact alike_modify (shaped.leads_lt leads) (fun _ => rfl) (fun _ => rfl) fun _ => rfl

variable (leaf : tree.LeafFor tenant reference)

include leaf

theorem Shaped.unmark
    (kept : reference = root ∨ ∃ other, other ≠ tenant ∧ tree.Owns other reference) :
    tree.Drops reference tenant (tree.unmark reference tenant) := by
  have alike := shaped.alike_unmark leaf.owns
  refine ⟨shaped.recolour alike ?_ ?_ ?_, fun _ _ => owns_unmark, ?_, ?_, alike.text, ?_, ?_,
    alike.allocated, rfl⟩
  · intro upper key lower edge
    by_cases own : lower = reference
    · subst own
      rcases kept with rfl | ⟨other, differs, held⟩
      · exact (shaped.rooted.not_child edge rfl).elim
      · exact ⟨other, owns_unmark.mpr ⟨held, fun same => differs same.1⟩⟩
    · obtain ⟨owner, held⟩ := shaped.owned edge
      exact ⟨owner, owns_unmark.mpr ⟨held, fun same => own same.2⟩⟩
  · intro upper key lower owner edge owns
    obtain ⟨held, _⟩ := owns_unmark.mp owns
    refine owns_unmark.mpr ⟨shaped.inherited edge held, ?_⟩
    rintro ⟨rfl, rfl⟩
    exact leaf.bare edge held
  · intro _ _ owns
    exact shaped.reached (owns_unmark.mp owns).1
  · intro _ lower leads
    rwa [alike.graph] at leads
  · intro _ _ lower edge
    rwa [alike.graph] at edge
  · intro lower
    exact congrFun (congrArg parent alike.graph) _
  · exact kept_modify (·.lastTenant) fun _ => by rfl

variable (alone : ∀ other, tree.Owns other reference → other = tenant)

include alone

theorem Shaped.bare_of_unowned (key : Char) : tree.graph.child reference key = none := by
  cases edge : tree.graph.child reference key with
  | none => rfl
  | some =>
    obtain ⟨owner, held⟩ := shaped.owned edge
    have same := alone _ (shaped.inherited edge held)
    rw [same] at held
    exact (leaf.bare edge held).elim

theorem Shaped.detach (edge : tree.graph.child upper key = some reference) :
    tree.Drops reference tenant ((tree.unmark reference tenant).cut upper key) := by
  have alike := shaped.alike_unmark leaf.owns
  have same : ((tree.unmark reference tenant).cut upper key).graph =
      tree.graph.detach upper key := by rw [graph_cut, alike.graph]
  have owners other lower :
      ((tree.unmark reference tenant).cut upper key).Owns other lower ↔
        tree.Owns other lower ∧ ¬ (other = tenant ∧ lower = reference) := by
    rw [← owns_unmark]
    unfold Owns
    rw [kept_cut (·.hasTenant other) fun _ _ => rfl]
  have words path lower :=
    leads_detach shaped.rooted edge (shaped.bare_of_unowned leaf alone) lower path
  have remaining {before lower : NodeRef} {turn : Char}
      (turns : (tree.graph.detach upper key).child before turn = some lower) :
      tree.graph.child before turn = some lower ∧ lower ≠ reference := by
    obtain ⟨old, kept⟩ := child_of_detach turns
    refine ⟨old, ?_⟩
    rintro rfl
    exact kept (shaped.rooted.edge_unique edge old)
  refine ⟨⟨?_, ?_, ?_, ?_, ?_, ?_, ?_, ?_, ?_⟩, owners, ?_, ?_, ?_, ?_, ?_, ?_, rfl⟩
  · rw [same]
    exact shaped.rooted.detach upper key
  · rw [kept_cut (·.text) fun _ _ => rfl, alike.text]
    exact shaped.rootText
  · exact shaped.inside
  · intro at_node free
    have above : at_node ≠ upper := by
      rintro rfl
      have vacant : tree.graph.child at_node key = none := by
        unfold graph
        simp only [shaped.fresh at_node free]
        rfl
      rw [vacant] at edge
      cases edge
    unfold cut
    rw [node_modify, if_neg above, alike.fresh at_node free]
    exact shaped.fresh at_node free
  · intro before turn lower turns
    rw [same] at turns
    exact shaped.linked (remaining turns).1
  · intro at_node
    rw [kept_cut (·.text) fun _ _ => rfl, alike.text]
    exact shaped.counted at_node
  · intro before turn lower turns
    rw [same] at turns
    obtain ⟨old, other⟩ := remaining turns
    obtain ⟨owner, held⟩ := shaped.owned old
    exact ⟨owner, (owners _ _).mpr ⟨held, fun both => other both.2⟩⟩
  · intro before turn lower owner turns owns
    rw [same] at turns
    obtain ⟨old, _⟩ := remaining turns
    obtain ⟨held, _⟩ := (owners _ _).mp owns
    refine (owners _ _).mpr ⟨shaped.inherited old held, ?_⟩
    rintro ⟨rfl, rfl⟩
    exact leaf.bare old held
  · intro _ owner owns
    obtain ⟨held, kept⟩ := (owners _ _).mp owns
    obtain ⟨path, leads⟩ := shaped.reached held
    refine ⟨path, ?_⟩
    rw [same, words]
    refine ⟨leads, ?_⟩
    rintro rfl
    exact kept ⟨alone owner held, rfl⟩
  · intro _ lower leads
    rw [same, words] at leads
    exact leads.1
  · intro _ _ lower turns
    rw [same] at turns
    exact (remaining turns).1
  · intro lower
    rw [kept_cut (·.text) fun _ _ => rfl, alike.text]
  · intro lower
    exact congrFun (congrArg parent same) lower
  · intro lower
    rw [kept_cut (·.lastTenant) fun _ _ => rfl]
    exact kept_modify (·.lastTenant) (fun _ => by rfl) lower
  · exact alike.allocated

omit alone

omit leaf in
omit shaped in
theorem dropTenant_eq (tree : Tree) (reference : NodeRef) (tenant : String) :
    tree.dropTenant reference tenant =
      let node := (tree.unmark reference tenant).node reference
      if node.children.keys.isEmpty && node.tenantLastAccessTime.keys.isEmpty then
        match node.parent, node.text.firstChar with
        | some parent, some firstChar => (tree.unmark reference tenant).cut parent firstChar
        | _, _ => tree.unmark reference tenant
      else tree.unmark reference tenant := rfl

theorem Shaped.dropTenant : tree.Drops reference tenant (tree.dropTenant reference tenant) := by
  have alike := shaped.alike_unmark leaf.owns
  have parent : ((tree.unmark reference tenant).node reference).parent =
      tree.graph.parent reference := congrFun (congrArg parent alike.graph) _
  rw [dropTenant_eq]
  simp only [parent, alike.text]
  split
  · rename_i emptied
    rw [Bool.and_eq_true, List.isEmpty_iff, List.isEmpty_iff] at emptied
    have alone : ∀ other, tree.Owns other reference → other = tenant := by
      intro other held
      by_contra differs
      have still : (tree.unmark reference tenant).Owns other reference :=
        owns_unmark.mpr ⟨held, fun same => differs same.1⟩
      rw [owns_iff_mem_keys, emptied.2] at still
      cases still
    obtain ⟨_, leads⟩ := shaped.reached leaf.owns
    rcases leads.end_cases with ⟨_, rfl⟩ | ⟨_, _, key, _, edge, _⟩
    · rw [shaped.rooted.top]
      exact shaped.unmark leaf (.inl rfl)
    · obtain ⟨rest, shown⟩ := shaped.rooted.keyed edge
      have first : (tree.node reference).text.firstChar = some key := by
        have text : (tree.node reference).text.text = key :: rest := shown
        rw [NodeText.firstChar, text, List.head?_cons]
      rw [shaped.rooted.back edge, first]
      exact shaped.detach leaf alone edge
  · rename_i kept
    apply shaped.unmark leaf
    by_contra none_left
    rw [not_or] at none_left
    have alone : ∀ other, tree.Owns other reference → other = tenant := by
      intro other held
      by_contra differs
      exact none_left.2 ⟨other, differs, held⟩
    apply kept
    rw [Bool.and_eq_true, List.isEmpty_iff, List.isEmpty_iff, List.eq_nil_iff_forall_not_mem,
      List.eq_nil_iff_forall_not_mem]
    constructor
    · intro key member
      obtain ⟨lower, known⟩ := (mem_keys_iff _ _).mp member
      have edge : tree.graph.child reference key = some lower := by
        rw [← alike.graph]
        exact known
      rw [shaped.bare_of_unowned leaf alone key] at edge
      cases edge
    · intro other member
      obtain ⟨held, differs⟩ := owns_unmark.mp (owns_iff_mem_keys.mpr member)
      exact differs ⟨alone _ held, rfl⟩

end Drop

end SmetricRouter.PrefixTree.Tree
