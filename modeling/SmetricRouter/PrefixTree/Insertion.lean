import SmetricRouter.PrefixTree.Shape

/-! Insertion: one more text covered, and charged.

A tenant covers the words that lead to its nodes, with all their prefixes. An
insertion adds the prefixes of its text for its tenant and nothing else, however
it has to split nodes for it, and what it charges is what the tenant's nodes have
become longer by.
-/

namespace SmetricRouter.PrefixTree.Tree

open RadixGraph

variable (tree : Tree) (tenant : String)

/-- A word on the way to a node of the tenant. -/
def Covers (word : List Char) : Prop :=
  ∃ reference path, tree.graph.Leads root path reference ∧ tree.Owns tenant reference ∧
    word <+: path

def share (reference : NodeRef) : Nat :=
  if tree.Owns tenant reference then (tree.node reference).text.charCount else 0

def load : Nat :=
  ∑ reference ∈ Finset.range tree.allocated, tree.share tenant reference

/-- The name that matches return on a tree without tenants. -/
def placeholder : String := "empty"

def Known : Prop :=
  (tree.tenantCharCount.lookup tenant).isSome = true

/-- A counter is the size of its tenant, which is at the root. Whoever is on a node
without a counter is the placeholder, on the root. -/
structure Counted : Prop where
  sized : ∀ {tenant size}, tree.tenantCharCount.lookup tenant = some size →
    tree.Owns tenant root ∧ size = tree.load tenant
  unsized : ∀ {tenant reference}, tree.tenantCharCount.lookup tenant = none →
    tree.Owns tenant reference → tenant = placeholder ∧ reference = root

variable {tree next : Tree} {reference upper lower : NodeRef} {tenant other : String}
  {word front : List Char} {key : Char}

theorem Shaped.covers_nil (shaped : tree.Shaped) : tree.Covers tenant [] ↔ tree.Owns tenant root := by
  constructor
  · rintro ⟨_, _, _, owns, _⟩
    exact shaped.owns_root owns
  · intro owns
    exact ⟨root, [], .stay root, owns, List.nil_prefix⟩

theorem sum_change {size position : Nat} {before after : Nat → Nat} (within : position < size)
    (same : ∀ other, other < size → other ≠ position → after other = before other) :
    ∑ other ∈ Finset.range size, after other + before position =
      ∑ other ∈ Finset.range size, before other + after position := by
  have member := Finset.mem_range.mpr within
  have old := Finset.sum_erase_add (Finset.range size) before member
  have new := Finset.sum_erase_add (Finset.range size) after member
  have rest : ∑ other ∈ (Finset.range size).erase position, after other =
      ∑ other ∈ (Finset.range size).erase position, before other :=
    Finset.sum_congr rfl fun _ apart => same _
      (Finset.mem_range.mp (Finset.mem_of_mem_erase apart)) (Finset.ne_of_mem_erase apart)
  omega

section Touch

theorem covers_touch (shaped : tree.Shaped) (leads : tree.graph.Leads root front reference)
    (time : Nat) : (tree.touch reference tenant time).Covers other word ↔
      tree.Covers other word ∨ other = tenant ∧ word <+: front := by
  unfold Covers
  rw [(alike_touch (shaped.leads_lt leads) tenant time).graph]
  simp only [owns_touch]
  constructor
  · rintro ⟨lower, path, path_leads, owns | ⟨rfl, rfl⟩, part⟩
    · exact .inl ⟨lower, path, path_leads, owns, part⟩
    · exact .inr ⟨rfl, shaped.rooted.word_unique path_leads leads ▸ part⟩
  · rintro (⟨lower, path, path_leads, owns, part⟩ | ⟨rfl, part⟩)
    · exact ⟨lower, path, path_leads, .inl owns, part⟩
    · exact ⟨reference, front, leads, .inr ⟨rfl, rfl⟩, part⟩

theorem share_touch (used : reference < tree.allocated) (time : Nat) :
    (tree.touch reference tenant time).share other lower =
      if other = tenant ∧ lower = reference then (tree.node reference).text.charCount
      else tree.share other lower := by
  unfold share
  rw [(alike_touch used tenant time).text]
  simp only [owns_touch]
  by_cases own : other = tenant ∧ lower = reference
  · obtain ⟨rfl, rfl⟩ := own
    simp
  · simp [own]

theorem load_touch (used : reference < tree.allocated) (time : Nat) :
    (tree.touch reference tenant time).load other =
      tree.load other + if other = tenant ∧ ¬ tree.Owns tenant reference then
        (tree.node reference).text.charCount else 0 := by
  have sums : ∑ lower ∈ Finset.range tree.allocated,
      (tree.touch reference tenant time).share other lower + tree.share other reference =
        tree.load other + (tree.touch reference tenant time).share other reference := by
    refine sum_change used fun lower _ apart => ?_
    rw [share_touch used, if_neg fun own => apart own.2]
  have whole : (tree.touch reference tenant time).load other =
      ∑ lower ∈ Finset.range tree.allocated, (tree.touch reference tenant time).share other lower :=
    rfl
  rw [share_touch used] at sums
  by_cases own : other = tenant
  · subst own
    rw [if_pos ⟨rfl, rfl⟩] at sums
    by_cases held : tree.Owns other reference
    · rw [share, if_pos held] at sums
      rw [if_neg fun new => new.2 held]
      omega
    · rw [share, if_neg held] at sums
      rw [if_pos ⟨rfl, held⟩]
      omega
  · rw [if_neg fun same => own same.1] at sums
    rw [if_neg fun same => own same.1]
    omega

end Touch

/-- A text is covered for a tenant on top of everything that was covered, and the
counters keep up. -/
structure Extends (tree : Tree) (tenant : String) (text : List Char) (next : Tree) : Prop where
  shaped : next.Shaped
  covers : ∀ other word, next.Covers other word ↔
    tree.Covers other word ∨ other = tenant ∧ word <+: text
  counted : tree.Known tenant → tree.Counted → next.Counted
  known : tree.Known tenant → ∀ other, next.Known other ↔ tree.Known other
  lastTenant : (next.node root).lastTenant = (tree.node root).lastTenant

section Ensure

variable {count : Nat}

theorem ensureTenant_of_owns (owns : tree.Owns tenant reference) :
    tree.ensureTenant reference tenant count = tree := by
  exact if_pos owns

theorem lastTenant_touch (time : Nat) :
    ((tree.touch reference tenant time).node lower).lastTenant =
      (tree.node lower).lastTenant :=
  kept_modify (·.lastTenant) (fun _ => by rfl) lower

theorem Shaped.recount (shaped : tree.Shaped) (counts : Table String Nat) :
    ({ tree with tenantCharCount := counts } : Tree).Shaped :=
  shaped.recolour ⟨rfl, fun _ => rfl, rfl, fun _ _ => rfl⟩ shaped.owned shaped.inherited
    shaped.reached

theorem lookup_charge :
    (tree.charge tenant count).tenantCharCount.lookup other = if other = tenant then
      some ((tree.tenantCharCount.lookup tenant).getD 0 + count)
    else tree.tenantCharCount.lookup other :=
  Table.lookup_insert_eq _ _ _ _

theorem Counted.charge {marked : NodeRef} (counted : tree.Counted) (known : tree.Known tenant)
    (counts : next.tenantCharCount = (tree.charge tenant count).tenantCharCount)
    (owners : ∀ other lower, next.Owns other lower ↔
      tree.Owns other lower ∨ other = tenant ∧ lower = marked)
    (loads : ∀ other, next.load other = tree.load other + if other = tenant then count else 0) :
    next.Counted := by
  constructor
  · intro other _ found
    rw [counts, lookup_charge] at found
    rw [owners, loads]
    by_cases same : other = tenant
    · subst same
      obtain ⟨_, held⟩ := Option.isSome_iff_exists.mp known
      obtain ⟨owns, rfl⟩ := counted.sized held
      rw [if_pos rfl, held, Option.some.injEq] at found
      rw [if_pos rfl]
      exact ⟨.inl owns, found.symm⟩
    · rw [if_neg same] at found ⊢
      obtain ⟨owns, rfl⟩ := counted.sized found
      exact ⟨.inl owns, rfl⟩
  · intro other lower missing owns
    rw [counts, lookup_charge] at missing
    split at missing
    · cases missing
    · rename_i differs
      rcases (owners other lower).mp owns with old | ⟨same, _⟩
      · exact counted.unsized missing old
      · exact (differs same).elim

theorem known_charge (known : tree.Known tenant)
    (counts : next.tenantCharCount = (tree.charge tenant count).tenantCharCount) :
    next.Known other ↔ tree.Known other := by
  unfold Known at known ⊢
  rw [counts, lookup_charge]
  split
  · rename_i same
    exact iff_of_true rfl (same ▸ known)
  · rfl

theorem Counted.transfer (counted : tree.Counted)
    (counts : next.tenantCharCount = tree.tenantCharCount)
    (roots : ∀ {other}, tree.Owns other root → next.Owns other root)
    (owners : ∀ {other lower}, next.Owns other lower →
      ∃ upper, tree.Owns other upper ∧ (upper = root → lower = root))
    (loads : ∀ other, next.load other = tree.load other) : next.Counted := by
  constructor
  · intro _ _ found
    rw [counts] at found
    obtain ⟨owns, rfl⟩ := counted.sized found
    exact ⟨roots owns, (loads _).symm⟩
  · intro _ _ missing owns
    rw [counts] at missing
    obtain ⟨_, held, top⟩ := owners owns
    obtain ⟨same, above⟩ := counted.unsized missing held
    exact ⟨same, top above⟩

variable (shaped : tree.Shaped) (leads : tree.graph.Leads root front reference)

include shaped leads

theorem Shaped.extends_self
    (owns : tree.Owns tenant reference) : tree.Extends tenant front tree where
  shaped := shaped
  covers other word := by
    refine (or_iff_left_of_imp ?_).symm
    rintro ⟨rfl, part⟩
    exact ⟨reference, front, leads, owns, part⟩
  counted _ := id
  known _ _ := Iff.rfl
  lastTenant := rfl

theorem Shaped.ensureTenant
    (above : ∀ {upper key}, tree.graph.child upper key = some reference → tree.Owns tenant upper)
    (length : (tree.node reference).text.charCount = count) :
    tree.Extends tenant front (tree.ensureTenant reference tenant count) ∧
      (tree.ensureTenant reference tenant count).graph = tree.graph ∧
      (tree.ensureTenant reference tenant count).Owns tenant reference := by
  by_cases owns : tree.Owns tenant reference
  · rw [ensureTenant_of_owns owns]
    exact ⟨shaped.extends_self leads owns, rfl, owns⟩
  · have marked : tree.ensureTenant reference tenant count =
        (tree.charge tenant count).touch reference tenant 0 := if_neg owns
    have charges : (tree.charge tenant count).Shaped := shaped.recount _
    have used := shaped.leads_lt leads
    have apart : ∀ other, other = tenant ∧ ¬ tree.Owns tenant reference ↔ other = tenant :=
      fun other => and_iff_left owns
    have loads other : ((tree.charge tenant count).touch reference tenant 0).load other =
        tree.load other + if other = tenant then count else 0 := by
      have moved : ((tree.charge tenant count).touch reference tenant 0).load other =
          tree.load other + if other = tenant ∧ ¬ tree.Owns tenant reference then
            (tree.node reference).text.charCount else 0 := load_touch used 0
      simpa [apart, length] using moved
    rw [marked]
    exact ⟨⟨charges.touch leads above 0, fun _ _ => covers_touch charges leads 0,
      fun known counted => counted.charge known rfl (fun _ _ => owns_touch 0) loads,
      fun known _ => known_charge known rfl, lastTenant_touch 0⟩,
      (alike_touch used _ 0).graph, (owns_touch 0).mpr (.inr ⟨rfl, rfl⟩)⟩

end Ensure

theorem Extends.trans {middle : Tree} {text longer : List Char}
    (first : tree.Extends tenant text middle) (second : middle.Extends tenant longer next)
    (part : text <+: longer) : tree.Extends tenant longer next where
  shaped := second.shaped
  covers other word := by
    rw [second.covers, first.covers]
    constructor
    · rintro ((old | ⟨same, short⟩) | new)
      · exact .inl old
      · exact .inr ⟨same, short.trans part⟩
      · exact .inr new
    · exact Or.imp_left .inl
  counted known counted :=
    second.counted ((first.known known _).mpr known) (first.counted known counted)
  known known other :=
    (second.known ((first.known known _).mpr known) _).trans (first.known known _)
  lastTenant := second.lastTenant.trans first.lastTenant

variable {previous matchedNode : NodeRef} {firstChar : Char} {remaining : List Char}

section Steps

variable {letter : Char} {upperText back : List Char}

theorem Shaped.refresh (shaped : tree.Shaped) (leads : tree.graph.Leads root front reference)
    (owns : tree.Owns tenant reference) (time : Nat) :
    tree.Extends tenant front (tree.touch reference tenant time) := by
  have used := shaped.leads_lt leads
  have owners other lower :
      (tree.touch reference tenant time).Owns other lower ↔ tree.Owns other lower := by
    refine (owns_touch time).trans (or_iff_left_of_imp ?_)
    rintro ⟨rfl, rfl⟩
    exact owns
  refine ⟨shaped.touch leads (fun edge => shaped.inherited edge owns) _,
    fun other _ => covers_touch shaped leads _, ?_, fun _ _ => Iff.rfl, lastTenant_touch _⟩
  intro _ counted
  refine counted.transfer rfl (owners _ _).mpr
    (fun {_ lower} held => ⟨lower, (owners _ _).mp held, id⟩) fun other => ?_
  have unchanged : ¬ (other = tenant ∧ ¬ tree.Owns tenant reference) := fun new => new.2 owns
  rw [load_touch used, if_neg unchanged, Nat.add_zero]

theorem load_attachLeaf (shaped : tree.Shaped) (used : previous < tree.allocated) (epoch : Nat) :
    (tree.attachLeaf previous firstChar remaining tenant epoch).load other =
      tree.load other + if other = tenant then remaining.length else 0 := by
  have whole : (tree.attachLeaf previous firstChar remaining tenant epoch).load other =
      ∑ lower ∈ Finset.range (tree.allocated + 1),
        (tree.attachLeaf previous firstChar remaining tenant epoch).share other lower := rfl
  rw [whole, Finset.sum_range_succ]
  congr 1
  · refine Finset.sum_congr rfl fun lower member => ?_
    have old : lower ≠ tree.allocated := Nat.ne_of_lt (Finset.mem_range.mp member)
    unfold share
    simp only [owns_attachLeaf shaped used, old, and_false, or_false]
    rw [node_attachLeaf]
    split
    · split
      · rename_i own
        rw [own]
      · rfl
    · rfl
  · unfold share
    simp only [owns_attachLeaf shaped used, shaped.unowned_fresh (Nat.le_refl _), and_true, false_or]
    rw [node_attachLeaf, if_pos rfl]
    rfl

theorem Shaped.attachLeaf_extends (shaped : tree.Shaped)
    (leads : tree.graph.Leads root front previous)
    (vacant : tree.graph.child previous firstChar = none)
    (starts : ∃ rest, remaining = firstChar :: rest) (owns : tree.Owns tenant previous)
    (epoch : Nat) : tree.Extends tenant (front ++ remaining)
      (tree.attachLeaf previous firstChar remaining tenant epoch) := by
  have used := shaped.leads_lt leads
  have apart : tree.allocated ≠ previous := (Nat.ne_of_lt used).symm
  have proper : root ≠ tree.allocated := Nat.ne_of_lt shaped.inside
  have words reached path :
      (tree.attachLeaf previous firstChar remaining tenant epoch).graph.Leads root path reached ↔
        tree.graph.Leads root path reached ∨
          reached = tree.allocated ∧ path = front ++ remaining := by
    rw [graph_attachLeaf shaped used]
    exact leads_attach shaped.unused_fresh apart shaped.rooted proper vacant leads reached _
  refine ⟨shaped.attachLeaf leads vacant starts owns _, ?_, ?_,
    fun known _ => known_charge known rfl, ?_⟩
  · intro _ _
    unfold Covers
    simp only [words, owns_attachLeaf shaped used]
    constructor
    · rintro ⟨lower, path, old | ⟨rfl, rfl⟩, held | ⟨rfl, new⟩, part⟩
      · exact .inl ⟨lower, path, old, held, part⟩
      · exact absurd new (Nat.ne_of_lt (shaped.leads_lt old))
      · exact (shaped.unowned_fresh (Nat.le_refl _) held).elim
      · exact .inr ⟨rfl, part⟩
    · rintro (⟨lower, path, old, held, part⟩ | ⟨rfl, part⟩)
      · exact ⟨lower, path, .inl old, .inl held, part⟩
      · exact ⟨_, _, .inr ⟨rfl, rfl⟩, .inr ⟨rfl, rfl⟩, part⟩
  · intro known counted
    exact counted.charge known rfl (fun _ _ => owns_attachLeaf shaped used epoch) fun _ =>
      load_attachLeaf shaped used epoch
  · rw [node_attachLeaf, if_neg proper]
    split
    · rename_i own
      rw [own]
    · rfl

namespace SplitsAt

variable (splits : tree.SplitsAt front previous firstChar matchedNode upperText letter back)

include splits

theorem load_splitHeap :
    (tree.splitHeap previous firstChar matchedNode upperText letter back).load other =
      tree.load other := by
  have used : matchedNode < tree.allocated := splits.shaped.linked splits.edge
  have whole : (tree.splitHeap previous firstChar matchedNode upperText letter back).load other =
      ∑ lower ∈ Finset.range (tree.allocated + 1),
        (tree.splitHeap previous firstChar matchedNode upperText letter back).share other lower := rfl
  have upper_share : (tree.splitHeap previous firstChar matchedNode upperText letter back).share other
      tree.allocated = if tree.Owns other matchedNode then upperText.length else 0 := by
    unfold share
    simp only [splits.owns_splitHeap, splits.shaped.unowned_fresh (Nat.le_refl _), true_and, false_or]
    simp only [splitHeap, if_true]
    rfl
  have lower_share : (tree.splitHeap previous firstChar matchedNode upperText letter back).share other
      matchedNode = if tree.Owns other matchedNode then (letter :: back).length else 0 := by
    unfold share
    simp only [splits.owns_splitHeap, splits.matched_ne_fresh, false_and, or_false]
    simp only [splitHeap, splits.matched_ne_fresh, if_false, if_true]
    rfl
  have sums : ∑ lower ∈ Finset.range tree.allocated,
      (tree.splitHeap previous firstChar matchedNode upperText letter back).share other lower +
        tree.share other matchedNode = tree.load other +
          (tree.splitHeap previous firstChar matchedNode upperText letter back).share other
            matchedNode := by
    refine sum_change used fun lower within apart => ?_
    have old : lower ≠ tree.allocated := Nat.ne_of_lt within
    unfold share
    simp only [splits.owns_splitHeap, old, false_and, or_false]
    simp only [splitHeap, old, apart, if_false]
    split
    · split
      · rename_i own
        rw [own]
      · rfl
    · rfl
  rw [whole, Finset.sum_range_succ, upper_share]
  rw [lower_share] at sums
  have counted := splits.shaped.counted matchedNode
  have text : (tree.node matchedNode).text.text = upperText ++ letter :: back := splits.text
  rw [text, List.length_append] at counted
  by_cases held : tree.Owns other matchedNode
  · rw [share, if_pos held, if_pos held] at sums
    rw [if_pos held]
    omega
  · rw [share, if_neg held, if_neg held] at sums
    rw [if_neg held]
    omega

theorem extends_splitHeap (owns : tree.Owns tenant previous) :
    tree.Extends tenant front
      (tree.splitHeap previous firstChar matchedNode upperText letter back) := by
  have shaped := splits.shaped
  have proper : root ≠ tree.allocated := Nat.ne_of_lt shaped.inside
  refine ⟨splits.shaped_splitHeap, ?_, ?_, fun _ _ => Iff.rfl, ?_⟩
  · intro _ word
    unfold Covers
    simp only [splits.leads_splitHeap, splits.owns_splitHeap]
    constructor
    · rintro ⟨lower, path, old | ⟨rfl, rfl⟩, held | ⟨new, held⟩, part⟩
      · exact .inl ⟨lower, path, old, held, part⟩
      · exact absurd new (Nat.ne_of_lt (shaped.leads_lt old))
      · exact (shaped.unowned_fresh (Nat.le_refl _) held).elim
      · -- The new word is on the way to the node that was split.
        refine .inl ⟨matchedNode, _, splits.leads.trans (.edge splits.edge), held, part.trans ?_⟩
        rw [splits.text, ← List.append_assoc]
        exact List.prefix_append _ _
    · rintro (⟨lower, path, old, held, part⟩ | ⟨rfl, part⟩)
      · exact ⟨lower, path, .inl old, .inl held, part⟩
      · exact ⟨previous, front, .inl splits.leads, .inl owns, part⟩
  · intro _ counted
    refine counted.transfer rfl (fun owns => splits.owns_splitHeap.mpr (.inl owns)) ?_ fun _ =>
      splits.load_splitHeap
    intro _ lower held
    rcases splits.owns_splitHeap.mp held with old | ⟨_, below⟩
    · exact ⟨lower, old, id⟩
    · exact ⟨matchedNode, below, fun top => (shaped.rooted.not_child splits.edge top).elim⟩
  · simp only [splitHeap, proper, if_false, (shaped.rooted.not_child splits.edge).symm]
    split
    · rename_i own
      rw [own]
    · rfl

end SplitsAt

end Steps

section Insert

variable {fuel sharedCount : Nat} {tail : List Char}

theorem split_extends (shaped : tree.Shaped) (leads : tree.graph.Leads root front previous)
    (owns : tree.Owns tenant previous)
    (edge : tree.graph.child previous firstChar = some matchedNode)
    (text : tree.graph.label matchedNode = firstChar :: tail)
    (inside : sharedCount < (firstChar :: tail).length) (some_front : sharedCount ≠ 0) :
    ∃ split, tree.splitNode previous firstChar matchedNode sharedCount = some split ∧
      tree.Extends tenant (front ++ (firstChar :: tail).take sharedCount)
        (split.ensureTenant tree.allocated tenant sharedCount) ∧
      (split.ensureTenant tree.allocated tenant sharedCount).graph.Leads root
        (front ++ (firstChar :: tail).take sharedCount) tree.allocated ∧
      (split.ensureTenant tree.allocated tenant sharedCount).Owns tenant tree.allocated := by
  obtain ⟨shared, rfl⟩ := Nat.exists_eq_succ_of_ne_zero some_front
  obtain ⟨letter, back, lower⟩ : ∃ letter back, (firstChar :: tail).drop (shared + 1) =
      letter :: back := List.exists_cons_of_length_pos (by rw [List.length_drop]; omega)
  have upper_length : ((firstChar :: tail).take (shared + 1)).length = shared + 1 := by
    rw [List.length_take, Nat.min_eq_left (Nat.le_of_lt inside)]
  have parts : tree.graph.label matchedNode =
      (firstChar :: tail).take (shared + 1) ++ letter :: back := by
    rw [text, ← lower, List.take_append_drop]
  have splits : tree.SplitsAt front previous firstChar matchedNode
      ((firstChar :: tail).take (shared + 1)) letter back :=
    ⟨shaped, leads, edge, parts, tail.take shared, rfl⟩
  have reaches := (splits.leads_splitHeap tree.allocated _).mpr (.inr ⟨rfl, rfl⟩)
  have extended := splits.extends_splitHeap owns
  have above {upper : NodeRef} {turn : Char} (into : (tree.splitHeap previous firstChar matchedNode
      ((firstChar :: tail).take (shared + 1)) letter back).graph.child upper turn =
        some tree.allocated) : (tree.splitHeap previous firstChar matchedNode
          ((firstChar :: tail).take (shared + 1)) letter back).Owns tenant upper := by
    rcases splits.edge_cases into with ⟨_, same⟩ | ⟨rfl, _⟩ | ⟨_, old⟩
    · exact (splits.matched_ne_fresh same.symm).elim
    · exact splits.owns_splitHeap.mpr (.inl owns)
    · exact (old rfl).elim
  have length : ((tree.splitHeap previous firstChar matchedNode
      ((firstChar :: tail).take (shared + 1)) letter back).node tree.allocated).text.charCount =
        shared + 1 := by
    simp only [splitHeap, if_true]
    exact upper_length
  obtain ⟨marked, same, held⟩ := extended.shaped.ensureTenant reaches above length
  exact ⟨_, splitNode_eq shaped some_front parts upper_length,
    extended.trans marked (List.prefix_append _ _), same ▸ reaches, held⟩

theorem insertFrom_extends (epoch : Nat) (shaped : tree.Shaped)
    (leads : tree.graph.Leads root front previous) (owns : tree.Owns tenant previous)
    (enough : remaining.length ≤ fuel) :
    ∃ next, insertFrom tenant epoch fuel tree previous remaining = some next ∧
      tree.Extends tenant (front ++ remaining) next := by
  induction fuel generalizing tree previous remaining front with
  | zero =>
    obtain rfl := List.length_eq_zero_iff.mp (Nat.le_zero.mp enough)
    rw [List.append_nil]
    exact ⟨_, rfl, shaped.refresh leads owns epoch⟩
  | succ fuel ih =>
    cases remaining with
    | nil =>
      rw [List.append_nil]
      exact ⟨_, rfl, shaped.refresh leads owns epoch⟩
    | cons firstChar rest =>
      unfold insertFrom
      cases edge : tree.graph.child previous firstChar with
      | none =>
        have vacant : (tree.node previous).children.lookup firstChar = none := edge
        rw [vacant]
        exact ⟨_, rfl, shaped.attachLeaf_extends leads edge ⟨rest, rfl⟩ owns epoch⟩
      | some matchedNode =>
        have found : (tree.node previous).children.lookup firstChar = some matchedNode := edge
        obtain ⟨tail, label⟩ := shaped.rooted.keyed edge
        have text : (tree.node matchedNode).text.text = firstChar :: tail := label
        have length := shaped.counted matchedNode
        rw [text] at length
        -- What the text shares with the node is not empty, and is passed in this round.
        obtain ⟨sharedCount, shared, positive, agree⟩ : ∃ sharedCount,
            sharedCount = commonPrefix (firstChar :: rest) (firstChar :: tail) ∧ sharedCount ≠ 0 ∧
              (firstChar :: tail).take sharedCount = (firstChar :: rest).take sharedCount := by
          refine ⟨_, rfl, ?_, (take_commonPrefix _ _).symm⟩
          rw [commonPrefix, if_pos rfl]
          exact Nat.succ_ne_zero _
        have shorter : ((firstChar :: rest).drop sharedCount).length ≤ fuel := by
          rw [List.length_drop]
          omega
        have whole : front ++ (firstChar :: tail).take sharedCount ++
            (firstChar :: rest).drop sharedCount = front ++ firstChar :: rest := by
          rw [agree, List.append_assoc, List.take_append_drop]
        rw [found]
        simp only [sharedPrefixCount_eq, advanceByChars_eq, text, length, ← shared,
          Option.bind_eq_bind]
        split
        · rename_i inside
          obtain ⟨_, splits, extended, reaches, held⟩ :=
            split_extends shaped leads owns edge label inside positive
          obtain ⟨next, inserts, further⟩ := ih extended.shaped reaches held shorter
          rw [splits]
          exact ⟨next, inserts, whole ▸ extended.trans further (List.prefix_append _ _)⟩
        · rename_i past
          have full : (firstChar :: tail).take sharedCount = firstChar :: tail :=
            List.take_of_length_le (Nat.le_of_not_lt past)
          have reaches : tree.graph.Leads root (front ++ (firstChar :: tail).take sharedCount)
              matchedNode := by
            rw [full, ← label]
            exact leads.trans (.edge edge)
          have above {upper : NodeRef} {turn : Char}
              (into : tree.graph.child upper turn = some matchedNode) : tree.Owns tenant upper :=
            (shaped.rooted.edge_unique into edge).1 ▸ owns
          obtain ⟨extended, same, held⟩ :=
            shaped.ensureTenant reaches above length
          obtain ⟨next, inserts, further⟩ := ih extended.shaped (same ▸ reaches) held shorter
          exact ⟨next, inserts, whole ▸ extended.trans further (List.prefix_append _ _)⟩

theorem owns_register :
    (tree.register tenant).Owns other lower ↔
      tree.Owns other lower ∨ other = tenant ∧ lower = root := by
  have marks : (tree.register tenant).Owns other lower ↔ ((tree.modify root fun node =>
      { node with tenantLastAccessTime := node.tenantLastAccessTime.orDefault tenant }).node
        lower).hasTenant other = true := Iff.rfl
  rw [marks, node_modify]
  unfold Owns
  split
  · rename_i own
    subst own
    simp only [Node.hasTenant, Table.lookup_orDefault, and_true]
    by_cases same : other = tenant
    · simp [same]
    · simp [same]
  · rename_i apart
    simp [apart]

variable (shaped : tree.Shaped)

include shaped

theorem alike_register : Alike tree (tree.register tenant) := by
  have rooted : Alike tree (tree.modify root fun node =>
      { node with tenantLastAccessTime := node.tenantLastAccessTime.orDefault tenant }) :=
    alike_modify shaped.inside (fun _ => rfl) (fun _ => rfl) fun _ => rfl
  exact ⟨rooted.graph, rooted.text, rooted.allocated, rooted.fresh⟩

theorem load_register : (tree.register tenant).load other = tree.load other := by
  refine Finset.sum_congr rfl fun lower _ => ?_
  unfold share
  rw [(alike_register shaped).text]
  by_cases top : lower = root
  · rw [top, shaped.rootText]
    split <;> split <;> rfl
  · simp [owns_register, top]

theorem Shaped.register : (tree.register tenant).Shaped := by
  refine shaped.recolour (alike_register shaped) ?_ ?_ ?_
  · intro _ _ _ edge
    obtain ⟨owner, owns⟩ := shaped.owned edge
    exact ⟨owner, owns_register.mpr (.inl owns)⟩
  · intro _ _ _ _ edge owns
    rcases owns_register.mp owns with old | ⟨_, top⟩
    · exact owns_register.mpr (.inl (shaped.inherited edge old))
    · exact (shaped.rooted.not_child edge top).elim
  · intro _ _ owns
    rcases owns_register.mp owns with old | ⟨_, rfl⟩
    · exact shaped.reached old
    · exact ⟨[], .stay root⟩

theorem covers_register :
    (tree.register tenant).Covers other word ↔
      tree.Covers other word ∨ other = tenant ∧ word <+: [] := by
  unfold Covers
  simp only [(alike_register shaped).graph, owns_register]
  constructor
  · rintro ⟨lower, path, leads, owns | ⟨rfl, rfl⟩, part⟩
    · exact .inl ⟨lower, path, leads, owns, part⟩
    · exact .inr ⟨rfl, shaped.rooted.word_unique leads (.stay _) ▸ part⟩
  · rintro (⟨lower, path, leads, owns, part⟩ | ⟨rfl, part⟩)
    · exact ⟨lower, path, leads, .inl owns, part⟩
    · exact ⟨root, [], .stay root, .inr ⟨rfl, rfl⟩, part⟩

omit shaped

theorem counts_register (tree : Tree) (tenant other : String) :
    (tree.register tenant).tenantCharCount.lookup other = if other = tenant then
      some ((tree.tenantCharCount.lookup tenant).getD 0) else tree.tenantCharCount.lookup other :=
  Table.lookup_orDefault _ _ _

theorem known_register : (tree.register tenant).Known other ↔ tree.Known other ∨ other = tenant := by
  unfold Known
  rw [counts_register]
  split
  · rename_i same
    exact iff_of_true rfl (.inr same)
  · rename_i differs
    exact (or_iff_left differs).symm

theorem Counted.register (counted : tree.Counted) (shaped : tree.Shaped) :
    (tree.register tenant).Counted := by
  constructor
  · intro other _ found
    rw [counts_register] at found
    rw [owns_register, load_register shaped]
    by_cases same : other = tenant
    · subst same
      refine ⟨.inr ⟨rfl, rfl⟩, ?_⟩
      rw [if_pos rfl, Option.some.injEq] at found
      cases before : tree.tenantCharCount.lookup other with
      | some =>
        rw [before] at found
        rw [← found]
        exact (counted.sized before).2
      | none =>
        -- Without a counter the tenant has at most the root, which holds no text.
        rw [before] at found
        rw [← found]
        refine (Finset.sum_eq_zero fun _ _ => ?_).symm
        unfold share
        split
        · rename_i owns
          rw [(counted.unsized before owns).2, shaped.rootText]
          rfl
        · rfl
    · rw [if_neg same] at found
      obtain ⟨owns, sizes⟩ := counted.sized found
      exact ⟨.inl owns, sizes⟩
  · intro _ _ missing owns
    rw [counts_register] at missing
    split at missing
    · cases missing
    · rename_i differs
      rcases owns_register.mp owns with old | ⟨same, _⟩
      · exact counted.unsized missing old
      · exact (differs same).elim

theorem lastTenant_register :
    ((tree.register tenant).node root).lastTenant = (tree.node root).lastTenant := by
  have own : ((tree.register tenant).node root).lastTenant = ((tree.modify root fun node =>
      { node with tenantLastAccessTime := node.tenantLastAccessTime.orDefault tenant }).node
        root).lastTenant := rfl
  rw [own, node_modify, if_pos rfl]

/-- What an insertion does. -/
structure Inserts (tree : Tree) (tenant : String) (text : List Char) (next : Tree) : Prop where
  shaped : next.Shaped
  covers : ∀ other word, next.Covers other word ↔
    tree.Covers other word ∨ other = tenant ∧ word <+: text
  counted : tree.Counted → next.Counted
  known : ∀ other, next.Known other ↔ tree.Known other ∨ other = tenant
  lastTenant : (next.node root).lastTenant = (tree.node root).lastTenant

theorem insert_inserts (shaped : tree.Shaped) {text : List Char} {tenant : String} {epoch : Nat} :
    ∃ next, tree.insert text tenant epoch = some next ∧ tree.Inserts tenant text next := by
  have registered : (tree.register tenant).Shaped := shaped.register
  have known : (tree.register tenant).Known tenant := known_register.mpr (.inr rfl)
  obtain ⟨next, inserts, extended⟩ := insertFrom_extends epoch registered (.stay _)
    (owns_register.mpr (.inr ⟨rfl, rfl⟩)) (Nat.le_refl text.length)
  refine ⟨next, inserts, extended.shaped, ?_, ?_, ?_, ?_⟩
  · intro _ _
    rw [extended.covers, covers_register shaped]
    constructor
    · rintro ((old | ⟨same, short⟩) | new)
      · exact .inl old
      · exact .inr ⟨same, short.trans List.nil_prefix⟩
      · exact .inr new
    · exact Or.imp_left .inl
  · exact fun counted => extended.counted known (counted.register shaped)
  · exact fun _ => (extended.known known _).trans known_register
  · exact extended.lastTenant.trans lastTenant_register

end Insert

end SmetricRouter.PrefixTree.Tree
