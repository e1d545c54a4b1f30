import SmetricRouter.PrefixTree.Insertion
import Mathlib.Data.Finset.Max

/-! Walking the tree, and taking tenants off it.

A walk visits every node once, in whatever order maps list their entries. An
eviction takes tenants with too many characters off their leaves one at a time; a
removal takes one tenant off all its nodes, from the leaves up. Both end, and
leave a sound heap with right counters.
-/

namespace SmetricRouter.PrefixTree.Tree

open RadixGraph

variable {order : MapOrder} {tree next : Tree} {reference upper lower child : NodeRef}
  {tenant other : String} {word : List Char} {key : Char}

section Walk

theorem mem_childrenOf :
    child ∈ tree.childrenOf order reference ↔
      ∃ key, tree.graph.child reference key = some child := by
  unfold childrenOf
  rw [List.mem_filterMap]
  constructor
  · rintro ⟨key, _, edge⟩
    exact ⟨key, edge⟩
  · rintro ⟨key, edge⟩
    refine ⟨key, (order.children_perm _ _).mem_iff.mpr ?_, edge⟩
    exact (Table.mem_keys_iff _ _).mpr ⟨child, edge⟩

theorem Shaped.branching (shaped : tree.Shaped) :
    Branching (tree.childrenOf order) tree.graph.parent root where
  top := shaped.rooted.top
  back upper child member := by
    obtain ⟨_, edge⟩ := mem_childrenOf.mp member
    exact shaped.rooted.back edge
  once upper := by
    have keys : (order.children upper (tree.node upper).children.keys).Nodup :=
      (order.children_perm _ _).nodup_iff.mpr (AList.keys_nodup _)
    refine keys.filterMap fun _ _ _ one two => ?_
    exact (shaped.rooted.edge_unique two one).2

theorem below_iff :
    Below (tree.childrenOf order) root lower ↔ ∃ word, tree.graph.Leads root word lower := by
  constructor
  · intro below
    induction below with
    | refl => exact ⟨[], .stay root⟩
    | tail _ member ih =>
      obtain ⟨_, leads⟩ := ih
      obtain ⟨_, edge⟩ := mem_childrenOf.mp member
      exact ⟨_, leads.trans (.edge edge)⟩
  · rintro ⟨_, leads⟩
    generalize root = start at leads
    induction leads with
    | stay => exact .refl
    | down edge _ ih => exact .head (mem_childrenOf.mpr ⟨_, edge⟩) ih

theorem nodes_visited (shaped : tree.Shaped) :
    ∃ visited, tree.nodes order = some visited ∧ visited.Nodup ∧
      ∀ lower, lower ∈ visited ↔ ∃ word, tree.graph.Leads root word lower := by
  have bounded lower (below : Below (tree.childrenOf order) root lower) :
      lower ∈ Finset.range tree.allocated := by
    obtain ⟨_, leads⟩ := below_iff.mp below
    exact Finset.mem_range.mpr (shaped.leads_lt leads)
  obtain ⟨visited, visits, nodup, members⟩ := visit_root shaped.branching bounded
    (Nat.le_of_eq (Finset.card_range tree.allocated))
  exact ⟨visited, visits, nodup, fun _ => (members _).trans below_iff⟩

theorem leafFor_iff :
    ((tree.node reference).hasTenant tenant &&
      !tree.hasChildWithTenant order reference tenant) = true ↔ tree.LeafFor tenant reference := by
  unfold hasChildWithTenant
  rw [Bool.and_eq_true, Bool.not_eq_true', List.any_eq_false]
  constructor
  · rintro ⟨owns, bare⟩
    exact ⟨owns, fun edge held => bare _ (mem_childrenOf.mpr ⟨_, edge⟩) held⟩
  · rintro ⟨owns, bare⟩
    refine ⟨owns, fun _ member held => ?_⟩
    obtain ⟨_, edge⟩ := mem_childrenOf.mp member
    exact bare edge held

theorem parentLeaf_iff :
    tree.parentLeaf order reference tenant = some upper ↔
      tree.graph.parent reference = some upper ∧ tree.LeafFor tenant upper := by
  unfold parentLeaf
  rw [Option.filter_eq_some_iff, leafFor_iff]
  rfl

end Walk

section Sizes

theorem lookup_foldl_charge {tenants : List String} (nodup : tenants.Nodup)
    (sizes : Table String Nat) (count : Nat) (tenant : String) :
    (tenants.foldl (fun sizes tenant => sizes.insert tenant
      ((sizes.lookup tenant).getD 0 + count)) sizes).lookup tenant =
        if tenant ∈ tenants then some ((sizes.lookup tenant).getD 0 + count)
        else sizes.lookup tenant := by
  induction tenants generalizing sizes with
  | nil => rfl
  | cons first _ ih =>
    rw [List.nodup_cons] at nodup
    rw [List.foldl_cons, ih nodup.2, Table.lookup_insert_eq]
    by_cases same : tenant = first
    · subst same
      rw [if_pos rfl, if_neg nodup.1, if_pos List.mem_cons_self]
    · rw [if_neg same]
      simp [same]

theorem lookup_foldl_nodes (order : MapOrder) (tree : Tree) (visited : List NodeRef)
    (sizes : Table String Nat) (tenant : String) :
    (visited.foldl (fun sizes reference =>
      (order.tenants reference (tree.node reference).tenantLastAccessTime.keys).foldl
        (fun sizes tenant => sizes.insert tenant
          ((sizes.lookup tenant).getD 0 + (tree.node reference).text.charCount)) sizes)
      sizes).lookup tenant =
        if ∃ lower ∈ visited, tree.Owns tenant lower then
          some ((sizes.lookup tenant).getD 0 + (visited.map (tree.share tenant)).sum)
        else sizes.lookup tenant := by
  induction visited generalizing sizes with
  | nil => simp
  | cons first rest ih =>
    have nodup : (order.tenants first (tree.node first).tenantLastAccessTime.keys).Nodup :=
      (order.tenants_perm _ _).nodup_iff.mpr (AList.keys_nodup _)
    have listed : tenant ∈ order.tenants first (tree.node first).tenantLastAccessTime.keys ↔
        tree.Owns tenant first :=
      (order.tenants_perm _ _).mem_iff.trans owns_iff_mem_keys.symm
    rw [List.foldl_cons, ih, lookup_foldl_charge nodup, List.map_cons, List.sum_cons]
    simp only [listed, List.exists_mem_cons_iff]
    by_cases held : tree.Owns tenant first
    · have either : tree.Owns tenant first ∨ ∃ lower ∈ rest, tree.Owns tenant lower := .inl held
      rw [if_pos held, Option.getD_some, if_pos either, share, if_pos held]
      by_cases later : ∃ lower ∈ rest, tree.Owns tenant lower
      · rw [if_pos later, Nat.add_assoc]
      · have nothing : (rest.map (tree.share tenant)).sum = 0 := by
          refine List.sum_eq_zero fun _ member => ?_
          obtain ⟨lower, among, rfl⟩ := List.mem_map.mp member
          exact if_neg fun owns => later ⟨lower, among, owns⟩
        rw [if_neg later, nothing, Nat.add_zero]
    · rw [if_neg held, share, if_neg held, Nat.zero_add]
      simp [held]

theorem getUsedSizePerTenant_eq (shaped : tree.Shaped) :
    ∃ sizes, tree.getUsedSizePerTenant order = some sizes ∧ ∀ tenant, sizes.lookup tenant =
      if tree.Owns tenant root then some (tree.load tenant) else none := by
  obtain ⟨visited, visits, nodup, members⟩ := nodes_visited shaped
  refine ⟨_, by rw [getUsedSizePerTenant, visits]; rfl, fun tenant => ?_⟩
  rw [lookup_foldl_nodes]
  have owned : (∃ lower ∈ visited, tree.Owns tenant lower) ↔ tree.Owns tenant root := by
    constructor
    · rintro ⟨lower, _, owns⟩
      exact shaped.owns_root owns
    · exact fun owns => ⟨root, (members root).mpr ⟨[], .stay _⟩, owns⟩
  have total : (visited.map (tree.share tenant)).sum = tree.load tenant := by
    rw [← List.sum_toFinset _ nodup]
    refine Finset.sum_subset ?_ ?_
    · intro _ member
      obtain ⟨_, leads⟩ := (members _).mp (List.mem_toFinset.mp member)
      exact Finset.mem_range.mpr (shaped.leads_lt leads)
    · intro _ _ unvisited
      refine if_neg fun owns => unvisited ?_
      exact List.mem_toFinset.mpr ((members _).mpr (shaped.reached owns))
  simp only [owned, total]
  split
  · exact congrArg some (Nat.zero_add _)
  · rfl

end Sizes

variable {middle : Tree}

section Shed

/-- What is left after tenants were taken off nodes. -/
structure Sheds (tree next : Tree) : Prop where
  shaped : next.Shaped
  owns : ∀ {other lower}, next.Owns other lower → tree.Owns other lower
  leads : ∀ {path lower}, next.graph.Leads root path lower → tree.graph.Leads root path lower
  text : ∀ lower, (next.node lower).text = (tree.node lower).text
  lastTenant : ∀ lower, (next.node lower).lastTenant = (tree.node lower).lastTenant
  allocated : next.allocated = tree.allocated

theorem Shaped.sheds_self (shaped : tree.Shaped) : tree.Sheds tree :=
  ⟨shaped, id, id, fun _ => rfl, fun _ => rfl, rfl⟩

theorem Sheds.trans (first : tree.Sheds middle) (second : middle.Sheds next) :
    tree.Sheds next where
  shaped := second.shaped
  owns held := first.owns (second.owns held)
  leads way := first.leads (second.leads way)
  text lower := (second.text lower).trans (first.text lower)
  lastTenant lower := (second.lastTenant lower).trans (first.lastTenant lower)
  allocated := second.allocated.trans first.allocated

theorem Sheds.covers (sheds : tree.Sheds next) (covered : next.Covers tenant word) :
    tree.Covers tenant word := by
  obtain ⟨lower, path, leads, owns, part⟩ := covered
  exact ⟨lower, path, sheds.leads leads, sheds.owns owns, part⟩

theorem Sheds.share_eq (sheds : tree.Sheds next)
    (same : next.Owns other lower ↔ tree.Owns other lower) :
    next.share other lower = tree.share other lower := by
  unfold share
  simp [same, sheds.text]

namespace Drops

variable (drops : tree.Drops reference tenant next)

include drops

theorem sheds : tree.Sheds next :=
  ⟨drops.shaped, fun held => ((drops.owns _ _).mp held).1, fun way => drops.leads _ _ way,
    drops.text, drops.lastTenant, drops.allocated⟩

variable (shaped : tree.Shaped) (held : tree.Owns tenant reference)

include shaped held

theorem load_eq (other : String) :
    next.load other + (if other = tenant then (tree.node reference).text.charCount else 0) =
      tree.load other := by
  obtain ⟨_, leads⟩ := shaped.reached held
  have sums : ∑ lower ∈ Finset.range tree.allocated, next.share other lower +
      tree.share other reference = tree.load other + next.share other reference := by
    refine sum_change (shaped.leads_lt leads) fun lower _ apart => drops.sheds.share_eq ?_
    rw [drops.owns]
    exact and_iff_left fun both => apart both.2
  have whole : next.load other = ∑ lower ∈ Finset.range tree.allocated, next.share other lower := by
    rw [load, drops.allocated]
  by_cases same : other = tenant
  · subst same
    have gone : next.share other reference = 0 :=
      if_neg fun owns => ((drops.owns _ _).mp owns).2 ⟨rfl, rfl⟩
    rw [share, if_pos held] at sums
    rw [if_pos rfl]
    omega
  · have kept : next.share other reference = tree.share other reference := by
      refine drops.sheds.share_eq ?_
      rw [drops.owns]
      exact and_iff_left fun both => same both.1
    rw [if_neg same]
    omega

theorem tenantMarks_eq : next.tenantMarks + 1 = tree.tenantMarks := by
  have as_sum (tree : Tree) : tree.tenantMarks = ∑ lower ∈ Finset.range tree.allocated,
      (tree.node lower).tenantLastAccessTime.keys.length := rfl
  obtain ⟨_, leads⟩ := shaped.reached held
  have elsewhere lower (_ : lower < tree.allocated) (apart : lower ≠ reference) :
      (next.node lower).tenantLastAccessTime.keys.length =
        (tree.node lower).tenantLastAccessTime.keys.length := by
    apply List.Perm.length_eq
    rw [List.perm_ext_iff_of_nodup (AList.keys_nodup _) (AList.keys_nodup _)]
    intro _
    rw [← owns_iff_mem_keys, ← owns_iff_mem_keys, drops.owns]
    exact and_iff_left fun both => apart both.2
  have fewer : (next.node reference).tenantLastAccessTime.keys.length + 1 =
      (tree.node reference).tenantLastAccessTime.keys.length := by
    have listed := owns_iff_mem_keys.mp held
    rw [← List.length_erase_add_one listed]
    refine congrArg (· + 1) (List.Perm.length_eq ?_)
    rw [List.perm_ext_iff_of_nodup (AList.keys_nodup _) ((AList.keys_nodup _).erase tenant)]
    intro _
    rw [← owns_iff_mem_keys, drops.owns, (AList.keys_nodup _).mem_erase_iff, ← owns_iff_mem_keys]
    constructor
    · exact fun ⟨owns, other⟩ => ⟨fun same => other ⟨same, rfl⟩, owns⟩
    · exact fun ⟨other, owns⟩ => ⟨owns, fun both => other both.1⟩
  have sums := sum_change (shaped.leads_lt leads) elsewhere
  rw [as_sum, as_sum, drops.allocated]
  omega

end Drops

end Shed

section Leaves

def ownedNodes (tree : Tree) (tenant : String) : Finset NodeRef :=
  (Finset.range tree.allocated).filter fun lower => tree.Owns tenant lower

variable (shaped : tree.Shaped)

include shaped

theorem Shaped.mem_ownedNodes : lower ∈ tree.ownedNodes tenant ↔ tree.Owns tenant lower := by
  unfold ownedNodes
  rw [Finset.mem_filter, Finset.mem_range]
  refine and_iff_right_of_imp fun owns => ?_
  obtain ⟨_, leads⟩ := shaped.reached owns
  exact shaped.leads_lt leads

theorem Shaped.exists_leaf (owns : tree.Owns tenant reference) :
    ∃ lower, tree.LeafFor tenant lower := by
  have reached lower (held : tree.Owns tenant lower) :
      ∃ word, tree.graph.Leads root word lower := shaped.reached held
  choose! path leads using reached
  -- Below the node with the longest word there is no other one of the tenant.
  obtain ⟨lower, among, deepest⟩ := (tree.ownedNodes tenant).exists_max_image
    (fun lower => (path lower).length) ⟨reference, shaped.mem_ownedNodes.mpr owns⟩
  have held := shaped.mem_ownedNodes.mp among
  refine ⟨lower, held, fun {_ child} edge below => ?_⟩
  have shorter := deepest child (shaped.mem_ownedNodes.mpr below)
  obtain ⟨_, text⟩ := shaped.rooted.keyed edge
  have longer := shaped.rooted.word_unique (leads child below)
    ((leads lower held).trans (.edge edge))
  rw [longer, text, List.length_append, List.length_cons] at shorter
  omega

variable (drops : tree.Drops reference tenant next)

include drops

omit shaped in
theorem Drops.edge_kept (shaped : tree.Shaped)
    (edge : tree.graph.child upper key = some child) (owns : next.Owns other child) :
    next.graph.child upper key = some child := by
  obtain ⟨_, leads⟩ := drops.shaped.reached owns
  rcases leads.end_cases with ⟨_, top⟩ | ⟨_, _, _, _, still, _⟩
  · exact (shaped.rooted.not_child edge top).elim
  · obtain ⟨rfl, rfl⟩ := shaped.rooted.edge_unique edge (drops.edges still)
    exact still

/-- After a leaf was dropped, the leaves are the others, and the parent if this
was the last node of the tenant below it. -/
theorem leafFor_drop :
    next.LeafFor tenant lower ↔ tree.LeafFor tenant lower ∧ lower ≠ reference ∨
      next.parentLeaf order reference tenant = some lower := by
  constructor
  · intro leaf
    obtain ⟨owns, apart⟩ := (drops.owns _ _).mp leaf.owns
    by_cases before : tree.LeafFor tenant lower
    · exact .inl ⟨before, fun same => apart ⟨rfl, same⟩⟩
    · obtain ⟨key, child, edge, held⟩ : ∃ key child, tree.graph.child lower key = some child ∧
          tree.Owns tenant child := by
        by_contra none_below
        exact before ⟨owns, fun {key child} edge held => none_below ⟨key, child, edge, held⟩⟩
      -- What is below can only be the node that was dropped.
      have dropped : child = reference := by
        by_contra other
        have still := (drops.owns _ _).mpr ⟨held, fun both => other both.2⟩
        exact leaf.bare (drops.edge_kept shaped edge still) still
      subst dropped
      refine .inr (parentLeaf_iff.mpr ⟨?_, leaf⟩)
      exact (drops.parent _).trans (shaped.rooted.back edge)
  · rintro (⟨leaf, apart⟩ | became)
    · refine ⟨(drops.owns _ _).mpr ⟨leaf.owns, fun both => apart both.2⟩, ?_⟩
      intro _ _ edge held
      exact leaf.bare (drops.edges edge) (drops.sheds.owns held)
    · exact (parentLeaf_iff.mp became).2

theorem leafFor_drop_other (differs : other ≠ tenant)
    (leaf : next.LeafFor other lower) : tree.LeafFor other lower := by
  refine ⟨drops.sheds.owns leaf.owns, fun edge held => ?_⟩
  have still := (drops.owns _ _).mpr ⟨held, fun both => differs both.1⟩
  exact leaf.bare (drops.edge_kept shaped edge still) still

end Leaves

section Evict

variable {maxSize : Nat} {entry : EvictionEntry} {entries : List EvictionEntry}

theorem LeafFor.load_root (leaf : tree.LeafFor tenant root) (shaped : tree.Shaped) :
    tree.load tenant = 0 := by
  refine Finset.sum_eq_zero fun _ _ => ?_
  unfold share
  split
  · rename_i owns
    obtain ⟨_, leads⟩ := shaped.reached owns
    cases leads with
    | stay =>
      rw [shaped.rootText]
      rfl
    | down edge onward => exact (leaf.bare edge (shaped.owns_above onward owns)).elim
  · rfl

/-- Whether the counter of the tenant keeps to the limit. -/
def Fits (tree : Tree) (maxSize : Nat) (tenant : String) : Prop :=
  (tree.tenantCharCount.lookup tenant).any (fun usedSize => decide (usedSize ≤ maxSize)) = true

/-- What eviction rounds do that spare whoever keeps to the limit. -/
structure Evicts (tree : Tree) (maxSize : Nat) (next : Tree) : Prop where
  sheds : tree.Sheds next
  counted : next.Counted
  known : ∀ other, next.Known other ↔ tree.Known other
  fits : ∀ {other}, tree.Fits maxSize other → next.Fits maxSize other
  kept : ∀ {other lower}, tree.Fits maxSize other → tree.Owns other lower → next.Owns other lower

theorem spares_iff : tree.spares order maxSize entry = true ↔
    (tree.LeafFor entry.tenant entry.node → tree.Fits maxSize entry.tenant) := by
  rw [spares, Bool.or_eq_true, Bool.not_eq_true', ← Bool.not_eq_true, leafFor_iff, or_comm,
    ← imp_iff_not_or]
  rfl

section

variable (shaped : tree.Shaped) (leaf : tree.LeafFor entry.tenant entry.node)

include shaped leaf

theorem Shaped.drops_evictEntry :
    ({ tree with tenantCharCount := tree.tenantCharCount.modify entry.tenant fun count =>
        count - (tree.node entry.node).text.charCount } : Tree).Drops entry.node entry.tenant
      (tree.evictEntry entry) := (shaped.recount _).dropTenant ⟨leaf.owns, leaf.bare⟩

/-- The leaves after a round are those before it, but for the node of the entry, and
possibly its parent. -/
theorem Shaped.leafFor_evictEntry (became : (tree.evictEntry entry).LeafFor other lower) :
    tree.LeafFor other lower ∧ ¬ (other = entry.tenant ∧ lower = entry.node) ∨
      other = entry.tenant ∧
        (tree.evictEntry entry).parentLeaf order entry.node entry.tenant = some lower := by
  have drops := shaped.drops_evictEntry leaf
  by_cases same : other = entry.tenant
  · subst same
    rcases (leafFor_drop (shaped.recount _) drops).mp became with ⟨before, apart⟩ | parent
    · exact .inl ⟨⟨before.owns, before.bare⟩, fun both => apart both.2⟩
    · exact .inr ⟨rfl, parent⟩
  · have before := leafFor_drop_other (shaped.recount _) drops same became
    exact .inl ⟨⟨before.owns, before.bare⟩, fun both => same both.1⟩

end

theorem evictEntry_evicts (shaped : tree.Shaped) (counted : tree.Counted)
    (leaf : tree.LeafFor entry.tenant entry.node) (large : ¬ tree.Fits maxSize entry.tenant) :
    tree.Evicts maxSize (tree.evictEntry entry) ∧
      (tree.evictEntry entry).tenantMarks + 1 = tree.tenantMarks := by
  have drops := shaped.drops_evictEntry leaf
  have counts other : (tree.evictEntry entry).tenantCharCount.lookup other =
      if other = entry.tenant then (tree.tenantCharCount.lookup entry.tenant).map fun count =>
        count - (tree.node entry.node).text.charCount
      else tree.tenantCharCount.lookup other := by
    have recounted : (tree.evictEntry entry).tenantCharCount =
        tree.tenantCharCount.modify entry.tenant fun count =>
          count - (tree.node entry.node).text.charCount := drops.counts
    rw [recounted]
    exact Table.lookup_modify _ _ _ _
  have loads other : (tree.evictEntry entry).load other + (if other = entry.tenant then
      (tree.node entry.node).text.charCount else 0) = tree.load other :=
    drops.load_eq (shaped.recount _) leaf.owns _
  refine ⟨⟨⟨drops.shaped, drops.sheds.owns, drops.sheds.leads, drops.text, drops.lastTenant,
    drops.allocated⟩, ⟨?_, ?_⟩, ?_, ?_, ?_⟩, drops.tenantMarks_eq (shaped.recount _) leaf.owns⟩
  · intro other _ found
    have load := loads other
    rw [counts] at found
    by_cases same : other = entry.tenant
    · rw [if_pos same, Option.map_eq_some_iff] at found
      rw [if_pos same] at load
      obtain ⟨_, held, rfl⟩ := found
      obtain ⟨owns, sizes⟩ := counted.sized held
      rw [same]
      rw [same] at load
      refine ⟨(drops.owns _ _).mpr ⟨owns, ?_⟩, by omega⟩
      -- At the root the tenant has no text, and is not too large.
      rintro ⟨_, top⟩
      rw [← top] at leaf
      rw [leaf.load_root shaped] at sizes
      apply large
      rw [Fits, held, sizes]
      exact decide_eq_true (Nat.zero_le maxSize)
    · rw [if_neg same] at found
      rw [if_neg same] at load
      obtain ⟨owns, sizes⟩ := counted.sized found
      exact ⟨(drops.owns _ _).mpr ⟨owns, fun both => same both.1⟩, sizes.trans load.symm⟩
  · intro _ _ missing owns
    refine counted.unsized ?_ (drops.sheds.owns owns)
    rw [counts] at missing
    split at missing
    · rename_i same
      rw [same]
      exact Option.map_eq_none_iff.mp missing
    · exact missing
  · intro _
    unfold Known
    rw [counts]
    split
    · rename_i same
      rw [same, Option.isSome_map]
    · rfl
  · intro _ small
    unfold Fits
    rw [counts, if_neg]
    · exact small
    · rintro rfl
      exact large small
  · intro _ _ small owns
    exact (drops.owns _ _).mpr ⟨owns, fun both => large (both.1 ▸ small)⟩

theorem mem_of_popEntry {round : Nat} {rest : List EvictionEntry}
    (pops : popEntry order round entries = some (entry, rest)) :
    entry ∈ entries ∧ rest = entries.erase entry := by
  obtain ⟨_, least, same⟩ := Option.map_eq_some_iff.mp pops
  obtain ⟨rfl, rfl⟩ := Prod.mk.inj same
  exact ⟨(order.heap_perm _ _).mem_iff.mp (minBy_mem least), rfl⟩

theorem Evicts.trans (first : tree.Evicts maxSize middle)
    (second : middle.Evicts maxSize next) : tree.Evicts maxSize next where
  sheds := first.sheds.trans second.sheds
  counted := second.counted
  known other := (second.known other).trans (first.known other)
  fits small := second.fits (first.fits small)
  kept small owns := second.kept (first.fits small) (first.kept small owns)

/-- The heap has every leaf of every tenant beyond the limit. -/
def Listed (tree : Tree) (maxSize : Nat) (entries : List EvictionEntry) : Prop :=
  ∀ {tenant lower}, tree.LeafFor tenant lower → ¬ tree.Fits maxSize tenant →
    ∃ timestamp, ⟨timestamp, tenant, lower⟩ ∈ entries

theorem Listed.load_le {round : Nat} (listed : tree.Listed maxSize entries)
    (shaped : tree.Shaped) (counted : tree.Counted) (pops : popEntry order round entries = none)
    (tenant : String) : tree.load tenant ≤ maxSize := by
  by_cases small : tree.Fits maxSize tenant
  · obtain ⟨_, found, fits⟩ := Option.any_eq_true _ _ |>.mp small
    rw [← (counted.sized found).2]
    exact of_decide_eq_true fits
  · have nothing : tree.load tenant = 0 := by
      refine Finset.sum_eq_zero fun _ _ => if_neg fun owns => ?_
      obtain ⟨_, last⟩ := shaped.exists_leaf owns
      obtain ⟨_, member⟩ := listed last small
      have waiting := List.ne_nil_of_mem ((order.heap_perm round entries).mem_iff.mpr member)
      exact Option.isSome_iff_ne_none.mp (minBy_isSome waiting) (Option.map_eq_none_iff.mp pops)
    rw [nothing]
    exact Nat.zero_le _

theorem Listed.evictEntry (listed : tree.Listed maxSize entries) (shaped : tree.Shaped)
    (leaf : tree.LeafFor entry.tenant entry.node)
    (evicts : tree.Evicts maxSize (tree.evictEntry entry)) :
    (tree.evictEntry entry).Listed maxSize (entries.erase entry ++
      (((tree.evictEntry entry).parentLeaf order entry.node entry.tenant).bind fun parent =>
        (((tree.evictEntry entry).node parent).tenantLastAccessTime.lookup entry.tenant).map
          fun timestamp => (⟨timestamp, entry.tenant, parent⟩ : EvictionEntry)).toList) := by
  intro _ _ became large
  rcases shaped.leafFor_evictEntry leaf became with ⟨before, apart⟩ | ⟨rfl, parent⟩
  · obtain ⟨timestamp, among⟩ := listed before fun small => large (evicts.fits small)
    refine ⟨timestamp, List.mem_append_left _ ((List.mem_erase_of_ne ?_).mpr among)⟩
    rintro rfl
    exact apart ⟨rfl, rfl⟩
  · obtain ⟨timestamp, found⟩ := Option.isSome_iff_exists.mp became.owns
    refine ⟨timestamp, List.mem_append_right _ ?_⟩
    rw [parent, Option.bind_some, found]
    exact List.mem_singleton_self _

theorem Shaped.evicts_self (shaped : tree.Shaped) (counted : tree.Counted) :
    tree.Evicts maxSize tree :=
  ⟨shaped.sheds_self, counted, fun _ => Iff.rfl, id, fun _ => id⟩

theorem evictLoop_evicts {fuel : Nat} (shaped : tree.Shaped) (counted : tree.Counted)
    (listed : tree.Listed maxSize entries) (enough : entries.length + tree.tenantMarks ≤ fuel) :
    ∃ next, evictLoop order maxSize fuel tree entries = some next ∧ tree.Evicts maxSize next ∧
      ∀ tenant, next.load tenant ≤ maxSize := by
  induction fuel generalizing tree entries with
  | zero =>
    unfold evictLoop
    cases pops : popEntry order 0 entries with
    | none => exact ⟨tree, rfl, shaped.evicts_self counted, listed.load_le shaped counted pops⟩
    | some =>
      have member := List.length_pos_of_mem (mem_of_popEntry pops).1
      omega
  | succ fuel ih =>
    unfold evictLoop
    cases pops : popEntry order (fuel + 1) entries with
    | none => exact ⟨tree, rfl, shaped.evicts_self counted, listed.load_le shaped counted pops⟩
    | some pair =>
      obtain ⟨entry, _⟩ := pair
      obtain ⟨member, rfl⟩ := mem_of_popEntry pops
      have fewer := List.length_erase_add_one member
      simp only
      split
      · rename_i spared
        refine ih shaped counted (fun {_ _} leaf large => ?_) (by omega)
        obtain ⟨timestamp, among⟩ := listed leaf large
        refine ⟨timestamp, (List.mem_erase_of_ne ?_).mpr among⟩
        rintro rfl
        exact large (spares_iff.mp spared leaf)
      · rename_i unspared
        rw [spares_iff, Classical.not_imp] at unspared
        obtain ⟨leaf, large⟩ := unspared
        obtain ⟨evicts, _⟩ := evictEntry_evicts shaped counted leaf large
        have room (leaf : Option EvictionEntry) :
            (entries.erase entry ++ leaf.toList).length +
              (tree.evictEntry entry).tenantMarks ≤ fuel := by
          have short := leaf.length_toList_le
          rw [List.length_append]
          omega
        obtain ⟨next, ends, later, bounded⟩ := ih evicts.sheds.shaped evicts.counted
          (listed.evictEntry shaped leaf evicts) (room _)
        exact ⟨next, ends, evicts.trans later, bounded⟩

theorem LeafFor.mem_leafOf (leaf : tree.LeafFor tenant reference) :
    tenant ∈ tree.leafOf order reference := by
  have unmarked child (member : child ∈ tree.childrenOf order reference) :
      tenant ∉ order.tenants child (tree.node child).tenantLastAccessTime.keys := by
    rw [(order.tenants_perm _ _).mem_iff, ← owns_iff_mem_keys]
    obtain ⟨_, edge⟩ := mem_childrenOf.mp member
    exact leaf.bare edge
  unfold leafOf
  simp only [List.mem_filter, (order.tenants_perm _ _).mem_iff, beq_iff_eq, Table.mem_keys_iff]
  refine and_iff_right_of_imp (fun found => ⟨true, found⟩) |>.mpr ?_
  -- No child takes the mark off that the node itself has set.
  refine List.foldlRecOn (motive := fun table : Table String Bool =>
    table.lookup tenant = some true) _ _ ?_ fun _ marked child member => ?_
  · rw [Table.lookup_foldl_insert, if_pos (owns_iff_mem_keys.mp leaf.owns)]
  · rw [Table.lookup_foldl_insert, if_neg (unmarked child member)]
    exact marked

theorem evictTenantBySize_evicts (shaped : tree.Shaped) (counted : tree.Counted) :
    ∃ next, tree.evictTenantBySize order maxSize = some next ∧ tree.Evicts maxSize next ∧
      ∀ tenant, next.load tenant ≤ maxSize := by
  obtain ⟨_, visits, _, members⟩ := nodes_visited shaped
  unfold evictTenantBySize
  rw [visits]
  refine evictLoop_evicts shaped counted (fun {tenant lower} leaf _ => ?_) (Nat.le_refl _)
  obtain ⟨timestamp, found⟩ := Option.isSome_iff_exists.mp leaf.owns
  refine ⟨timestamp, List.mem_flatMap.mpr ⟨lower, (members _).mpr (shaped.reached leaf.owns),
    List.mem_filterMap.mpr ⟨tenant, leaf.mem_leafOf, ?_⟩⟩⟩
  rw [found, Option.map_some]

end Evict

section Remove

variable {queue : List NodeRef}

/-- The removal of a tenant so far: only its nodes have changed. -/
structure Strips (tree : Tree) (tenant : String) (next : Tree) : Prop where
  sheds : tree.Sheds next
  others : ∀ {other lower}, other ≠ tenant → tree.Owns other lower → next.Owns other lower
  counts : next.tenantCharCount = tree.tenantCharCount

theorem Strips.trans (first : tree.Strips tenant middle)
    (second : middle.Strips tenant next) : tree.Strips tenant next :=
  ⟨first.sheds.trans second.sheds, fun differs owns =>
    second.others differs (first.others differs owns), second.counts.trans first.counts⟩

theorem Drops.strips (drops : tree.Drops reference tenant next) : tree.Strips tenant next :=
  ⟨drops.sheds, fun differs owns => (drops.owns _ _).mpr ⟨owns, fun both => differs both.1⟩,
    drops.counts⟩

variable (shaped : tree.Shaped)

include shaped

omit shaped in
theorem Drops.card_ownedNodes (drops : tree.Drops reference tenant next) (shaped : tree.Shaped)
    (owns : tree.Owns tenant reference) :
    (next.ownedNodes tenant).card + 1 = (tree.ownedNodes tenant).card := by
  have erased : next.ownedNodes tenant = (tree.ownedNodes tenant).erase reference := by
    ext lower
    rw [Finset.mem_erase, drops.shaped.mem_ownedNodes, shaped.mem_ownedNodes, drops.owns]
    simp only [true_and]
    exact and_comm
  rw [erased]
  exact Finset.card_erase_add_one (shaped.mem_ownedNodes.mpr owns)

theorem Shaped.not_leaf_parent (owns : tree.Owns tenant reference)
    (parent : tree.graph.parent reference = some upper) : ¬ tree.LeafFor tenant upper := by
  intro leaf
  obtain ⟨_, leads⟩ := shaped.reached owns
  rcases leads.end_cases with ⟨_, rfl⟩ | ⟨_, _, _, _, edge, _⟩
  · rw [shaped.rooted.top] at parent
    cases parent
  · rw [shaped.rooted.back edge] at parent
    cases parent
    exact leaf.bare edge owns

theorem Shaped.strips_self (leaves : ∀ lower, lower ∈ [] ↔ tree.LeafFor tenant lower) :
    tree.Strips tenant tree ∧ ∀ lower, ¬ tree.Owns tenant lower := by
  refine ⟨⟨shaped.sheds_self, fun _ => id, rfl⟩, fun lower owns => ?_⟩
  obtain ⟨leaf, last⟩ := shaped.exists_leaf owns
  exact nomatch (leaves leaf).mpr last

omit shaped in
theorem removeLoop_strips {fuel : Nat} (shaped : tree.Shaped)
    (nodup : queue.Nodup) (leaves : ∀ lower, lower ∈ queue ↔ tree.LeafFor tenant lower)
    (enough : (tree.ownedNodes tenant).card ≤ fuel) :
    ∃ next, removeLoop order tenant fuel tree queue = some next ∧ tree.Strips tenant next ∧
      ∀ lower, ¬ next.Owns tenant lower := by
  induction fuel generalizing tree queue with
  | zero =>
    cases queue with
    | nil => exact ⟨tree, rfl, shaped.strips_self leaves⟩
    | cons current =>
      have leaf := (leaves current).mp List.mem_cons_self
      have some_node := Finset.card_pos.mpr ⟨current, shaped.mem_ownedNodes.mpr leaf.owns⟩
      omega
  | succ _ ih =>
    cases queue with
    | nil => exact ⟨tree, rfl, shaped.strips_self leaves⟩
    | cons current rest =>
      have leaf := (leaves current).mp List.mem_cons_self
      have drops := shaped.dropTenant leaf
      have fewer := drops.card_ownedNodes shaped leaf.owns
      rw [List.nodup_cons] at nodup
      have listed lower : lower ∈ rest ++ ((tree.dropTenant current tenant).parentLeaf
          order current tenant).toList ↔ (tree.dropTenant current tenant).LeafFor tenant lower := by
        rw [List.mem_append, Option.mem_toList]
        refine Iff.trans (or_congr_left ?_) (leafFor_drop shaped drops).symm
        rw [← leaves]
        refine ⟨fun later => ⟨List.mem_cons_of_mem _ later, ?_⟩, fun ⟨either, apart⟩ => ?_⟩
        · rintro rfl
          exact nodup.1 later
        · exact (List.mem_cons.mp either).resolve_left apart
      have once : (rest ++ ((tree.dropTenant current tenant).parentLeaf order current
          tenant).toList).Nodup := by
        rw [List.nodup_append]
        refine ⟨nodup.2, by cases (tree.dropTenant current _).parentLeaf _ _ tenant <;>
          simp, ?_⟩
        rintro _ later _ became rfl
        have parent := (parentLeaf_iff.mp (Option.mem_toList.mp became)).1
        exact shaped.not_leaf_parent leaf.owns ((drops.parent current).symm.trans parent)
          ((leaves _).mp (List.mem_cons_of_mem _ later))
      obtain ⟨next, loops, strips, none_left⟩ := ih drops.shaped once listed (by omega)
      exact ⟨next, loops, drops.strips.trans strips, none_left⟩

/-- What a removal does. -/
structure Removes (tree : Tree) (tenant : String) (next : Tree) : Prop where
  sheds : tree.Sheds next
  owns : ∀ other lower, next.Owns other lower ↔ tree.Owns other lower ∧ other ≠ tenant
  counted : tree.Counted → next.Counted
  known : ∀ other, next.Known other ↔ tree.Known other ∧ other ≠ tenant

theorem removeTenant_removes (order : MapOrder) {tenant : String} :
    ∃ next, tree.removeTenant order tenant = some next ∧ tree.Removes tenant next := by
  obtain ⟨visited, visits, nodup, members⟩ := nodes_visited shaped
  have leaves lower : lower ∈ visited.filter (fun reference =>
      (tree.node reference).hasTenant tenant && !tree.hasChildWithTenant order reference tenant) ↔
        tree.LeafFor tenant lower := by
    rw [List.mem_filter, leafFor_iff, members]
    exact and_iff_right_of_imp fun leaf => shaped.reached leaf.owns
  have enough : (tree.ownedNodes tenant).card ≤ tree.allocated := by
    have subset := Finset.card_filter_le (Finset.range tree.allocated) fun lower =>
      tree.Owns tenant lower
    rwa [Finset.card_range] at subset
  obtain ⟨removed, loops, strips, none_left⟩ :=
    removeLoop_strips shaped (nodup.filter _) leaves enough
  have owners other lower :
      removed.Owns other lower ↔ tree.Owns other lower ∧ other ≠ tenant := by
    constructor
    · intro owns
      refine ⟨strips.sheds.owns owns, ?_⟩
      rintro rfl
      exact none_left _ owns
    · exact fun ⟨owns, differs⟩ => strips.others differs owns
  have counts other : (removed.tenantCharCount.erase tenant).lookup other =
      if other = tenant then none else tree.tenantCharCount.lookup other := by
    rw [strips.counts]
    exact Table.lookup_erase_eq _ _ _
  refine ⟨{ removed with tenantCharCount := removed.tenantCharCount.erase tenant }, ?_,
    ⟨strips.sheds.shaped.recount _, strips.sheds.owns, strips.sheds.leads, strips.sheds.text,
      strips.sheds.lastTenant, strips.sheds.allocated⟩, owners, ?_, ?_⟩
  · unfold removeTenant
    rw [visits]
    simp only [Option.bind_eq_bind, Option.bind_some]
    rw [loops]
    rfl
  · intro counted
    constructor
    · intro other _ found
      rw [counts] at found
      split at found
      · cases found
      · rename_i differs
        obtain ⟨owns, sizes⟩ := counted.sized found
        refine ⟨(owners _ _).mpr ⟨owns, differs⟩, sizes.trans ?_⟩
        have loads : removed.load other = tree.load other := by
          unfold load
          rw [strips.sheds.allocated]
          refine Finset.sum_congr rfl fun _ _ => strips.sheds.share_eq ?_
          rw [owners]
          exact and_iff_left differs
        exact loads.symm
    · intro _ _ missing owns
      obtain ⟨held, differs⟩ := (owners _ _).mp owns
      rw [counts, if_neg differs] at missing
      exact counted.unsized missing held
  · intro _
    unfold Known
    rw [counts]
    split
    · rename_i same
      exact iff_of_false Bool.false_ne_true fun both => both.2 same
    · rename_i differs
      exact (and_iff_left differs).symm

end Remove

end SmetricRouter.PrefixTree.Tree
