import SmetricRouter.PrefixTree.Insertion

/-! Matching: the longest prefix of a query on the way to a node.

Both descents of the source are one loop, through all nodes or through those of
one tenant. It finds the longest prefix of the query that a node let through
covers, and the node it stops at covers what was matched.
-/

namespace SmetricRouter.PrefixTree.Tree

open RadixGraph

/-- A word on the way to a node that is let through. -/
def Within (tree : Tree) (admits : Node → Bool) (word : List Char) : Prop :=
  ∃ reference path, tree.graph.Leads root path reference ∧
    admits (tree.node reference) = true ∧ word <+: path

/-- The descent matched so many characters of a text and stopped at a node. -/
structure Matches (tree : Tree) (admits : Node → Bool) (text : List Char) (count : Nat)
    (current : NodeRef) : Prop where
  short : count ≤ text.length
  place : current = root ∧ count = 0 ∨
    current ≠ root ∧ 0 < count ∧ admits (tree.node current) = true
  leads : ∃ path, tree.graph.Leads root path current ∧ text.take count <+: path
  longest : ∀ longer ≤ text.length, tree.Within admits (text.take longer) → longer ≤ count

variable {tree next : Tree} {admits : Node → Bool} {previous matchedNode lower : NodeRef}
  {tenant : String} {front remaining rest tail path : List Char} {firstChar : Char}
  {longer fuel : Nat}

theorem Shaped.passes (shaped : tree.Shaped) (leads : tree.graph.Leads root front previous)
    (below : tree.graph.Leads root path lower) (further : front.length < longer)
    (part : (front ++ firstChar :: rest).take longer <+: path) :
    ∃ matchedNode back, tree.graph.child previous firstChar = some matchedNode ∧
      path = front ++ (tree.graph.label matchedNode ++ back) ∧
      tree.graph.Leads matchedNode back lower := by
  obtain ⟨more, rfl⟩ : ∃ more, longer = front.length + (more + 1) :=
    ⟨longer - front.length - 1, by omega⟩
  obtain ⟨_, rfl⟩ := part
  rw [List.take_length_add_append, List.take_succ_cons, List.append_assoc, List.cons_append]
    at below ⊢
  obtain ⟨matchedNode, back, edge, split, onward⟩ := shaped.rooted.leads_turn leads below
  exact ⟨matchedNode, back, edge, by rw [split], onward⟩

/-- The descent has come to a node, by nodes that are let through. -/
structure Entered (tree : Tree) (admits : Node → Bool) (front : List Char) (previous : NodeRef) :
    Prop where
  shaped : tree.Shaped
  closed : ∀ {upper key lower}, tree.graph.child upper key = some lower →
    admits (tree.node lower) = true → admits (tree.node upper) = true
  leads : tree.graph.Leads root front previous
  place : previous = root ∧ front.length = 0 ∨
    previous ≠ root ∧ 0 < front.length ∧ admits (tree.node previous) = true

namespace Entered

variable (entered : tree.Entered admits front previous)

include entered

theorem closed_above {word : List Char} {upper : NodeRef}
    (leads : tree.graph.Leads upper word lower) (through : admits (tree.node lower) = true) :
    admits (tree.node upper) = true := by
  induction leads with
  | stay => exact through
  | down edge _ ih => exact entered.closed edge (ih through)

theorem stop (ends : ∀ longer, front.length < longer → longer ≤ (front ++ remaining).length →
    ¬ tree.Within admits ((front ++ remaining).take longer)) :
    tree.Matches admits (front ++ remaining) front.length previous := by
  refine ⟨?_, entered.place, ⟨front, entered.leads, ?_⟩, ?_⟩
  · rw [List.length_append]
    exact Nat.le_add_right _ _
  · rw [List.take_left]
  · intro longer within covered
    exact Nat.le_of_not_lt fun further => ends longer further within covered

theorem stop_nil : tree.Matches admits (front ++ []) front.length previous := by
  refine entered.stop fun _ _ within => ?_
  rw [List.append_nil] at within
  omega

theorem stop_vacant (vacant : tree.graph.child previous firstChar = none) :
    tree.Matches admits (front ++ firstChar :: rest) front.length previous := by
  refine entered.stop ?_
  rintro _ further - ⟨_, _, below, -, part⟩
  obtain ⟨_, _, turn, -⟩ := entered.shaped.passes entered.leads below further part
  rw [vacant] at turn
  cases turn

variable (edge : tree.graph.child previous firstChar = some matchedNode)

include edge

theorem stop_refused (refused : ¬ admits (tree.node matchedNode) = true) :
    tree.Matches admits (front ++ firstChar :: rest) front.length previous := by
  refine entered.stop ?_
  rintro _ further - ⟨_, _, below, through, part⟩
  obtain ⟨_, _, turn, -, onward⟩ := entered.shaped.passes entered.leads below further part
  rw [edge] at turn
  cases turn
  exact refused (entered.closed_above onward through)

variable (through : admits (tree.node matchedNode) = true)

include through

theorem stop_inside (text : tree.graph.label matchedNode = firstChar :: tail)
    (inside : commonPrefix (firstChar :: rest) (firstChar :: tail) < (firstChar :: tail).length) :
    tree.Matches admits (front ++ firstChar :: rest)
      (front.length + commonPrefix (firstChar :: rest) (firstChar :: tail)) matchedNode := by
  have shaped := entered.shaped
  have positive : 0 < commonPrefix (firstChar :: rest) (firstChar :: tail) := by
    rw [commonPrefix, if_pos rfl]
    exact Nat.succ_pos _
  refine ⟨?_, ?_, ⟨front ++ firstChar :: tail, ?_, ?_⟩, ?_⟩
  · rw [List.length_append]
    exact Nat.add_le_add_left (commonPrefix_le_left _ _) _
  · exact .inr ⟨shaped.rooted.not_child edge, Nat.add_pos_right _ positive, through⟩
  · rw [← text]
    exact entered.leads.trans (.edge edge)
  · rw [List.take_length_add_append, take_commonPrefix, List.prefix_append_right_inj]
    exact List.take_prefix _ _
  · rintro longer within ⟨_, _, below, -, part⟩
    by_cases further : front.length < longer
    · obtain ⟨_, _, turn, rfl, -⟩ := shaped.passes entered.leads below further part
      rw [edge] at turn
      cases turn
      obtain ⟨_, rfl⟩ := Nat.exists_eq_add_of_le (Nat.le_of_lt further)
      rw [List.length_append, Nat.add_le_add_iff_left] at within
      rw [List.take_length_add_append, List.prefix_append_right_inj,
        take_isPrefix_iff _ _ within, text, commonPrefix_append_right inside] at part
      exact Nat.add_le_add_left part _
    · omega

theorem step :
    tree.Entered admits (front ++ tree.graph.label matchedNode) matchedNode where
  shaped := entered.shaped
  closed := entered.closed
  leads := entered.leads.trans (.edge edge)
  place := by
    obtain ⟨_, text⟩ := entered.shaped.rooted.keyed edge
    refine .inr ⟨entered.shaped.rooted.not_child edge, ?_, through⟩
    rw [text, List.length_append, List.length_cons]
    omega

end Entered

theorem descend_matches (entered : tree.Entered admits front previous)
    (enough : remaining.length ≤ fuel) :
    ∃ count current, tree.descend admits fuel previous remaining front.length =
        some (count, current) ∧ tree.Matches admits (front ++ remaining) count current := by
  induction fuel generalizing previous remaining front with
  | zero =>
    obtain rfl := List.length_eq_zero_iff.mp (Nat.le_zero.mp enough)
    exact ⟨_, _, rfl, entered.stop_nil⟩
  | succ fuel ih =>
    cases remaining with
    | nil => exact ⟨_, _, rfl, entered.stop_nil⟩
    | cons firstChar rest =>
      unfold descend
      cases edge : tree.graph.child previous firstChar with
      | none =>
        have vacant : (tree.node previous).children.lookup firstChar = none := edge
        rw [vacant]
        exact ⟨_, _, rfl, entered.stop_vacant edge⟩
      | some matchedNode =>
        have found : (tree.node previous).children.lookup firstChar = some matchedNode := edge
        obtain ⟨tail, label⟩ := entered.shaped.rooted.keyed edge
        have text : (tree.node matchedNode).text.text = firstChar :: tail := label
        have length := entered.shaped.counted matchedNode
        have bounded := commonPrefix_le_right (firstChar :: rest) (firstChar :: tail)
        rw [found]
        simp only [sharedPrefixCount_eq, advanceByChars_eq, text, length]
        by_cases through : admits (tree.node matchedNode) = true
        · rw [if_neg (by rw [through]; exact Bool.false_ne_true)]
          by_cases inside : commonPrefix (firstChar :: rest) (firstChar :: tail) <
              (firstChar :: tail).length
          · rw [if_pos (Nat.ne_of_lt inside)]
            exact ⟨_, _, rfl, entered.stop_inside edge through label inside⟩
          · have full : commonPrefix (firstChar :: rest) (firstChar :: tail) =
                (firstChar :: tail).length := by omega
            have agree := take_commonPrefix (firstChar :: rest) (firstChar :: tail)
            rw [full, List.take_length] at agree
            have shorter : ((firstChar :: rest).drop (firstChar :: tail).length).length ≤ fuel := by
              rw [List.length_drop]
              simp only [List.length_cons] at enough ⊢
              omega
            obtain ⟨count, current, descends, matched⟩ := ih (entered.step edge through) shorter
            have whole : firstChar :: tail ++ (firstChar :: rest).drop (firstChar :: tail).length =
                firstChar :: rest :=
              (congrArg (· ++ _) agree.symm).trans (List.take_append_drop _ _)
            rw [label, List.append_assoc, whole] at matched
            rw [label, List.length_append] at descends
            rw [full, if_neg (not_not.mpr rfl)]
            exact ⟨count, current, descends, matched⟩
        · rw [if_pos (by rw [Bool.not_eq_true] at through; rw [through]; rfl)]
          exact ⟨_, _, rfl, entered.stop_refused edge through⟩

theorem Shaped.prefixMatchTenant (shaped : tree.Shaped) (text : List Char) (tenant : String) :
    ∃ count current, tree.prefixMatchTenantState text tenant = some (count, current) ∧
      tree.Matches (fun node => node.hasTenant tenant) text count current :=
  descend_matches ⟨shaped, shaped.inherited, .stay root, .inl ⟨rfl, rfl⟩⟩ (Nat.le_refl _)

theorem Shaped.prefixMatch (shaped : tree.Shaped) (text : List Char) :
    ∃ count current, tree.descend (fun _ => true) text.length root text 0 = some (count, current) ∧
      tree.Matches (fun _ => true) text count current :=
  descend_matches ⟨shaped, fun _ _ => rfl, .stay root, .inl ⟨rfl, rfl⟩⟩ (Nat.le_refl _)

section Effects

variable {order : MapOrder} {current : NodeRef} {other : String} {text : List Char} {count : Nat}

/-- A root mark of the placeholder that no insertion made is in the root's cache. -/
def Marked (tree : Tree) : Prop :=
  ¬ tree.Known placeholder → tree.Owns placeholder root →
    (tree.node root).lastTenant = some placeholder

/-- A match writes caches and times. Only at a root without tenants does it leave a
mark, of the placeholder. -/
structure Reads (tree next : Tree) : Prop where
  alike : Alike tree next
  kept : ∀ {other lower}, tree.Owns other lower → next.Owns other lower
  new : ∀ {other lower}, next.Owns other lower → tree.Owns other lower ∨
    other = placeholder ∧ lower = root ∧ ∀ owner, ¬ tree.Owns owner root
  counts : next.tenantCharCount = tree.tenantCharCount
  marked : tree.Marked → next.Marked

namespace Reads

variable (reads : tree.Reads next) (sound : tree.Shaped)

include reads sound

theorem shaped : next.Shaped := by
  refine sound.recolour reads.alike ?_ ?_ ?_
  · intro upper key lower edge
    obtain ⟨owner, owns⟩ := sound.owned edge
    exact ⟨owner, reads.kept owns⟩
  · intro _ _ lower owner edge owns
    rcases reads.new owns with old | ⟨_, top, _⟩
    · exact reads.kept (sound.inherited edge old)
    · exact (sound.rooted.not_child edge top).elim
  · intro _ _ owns
    rcases reads.new owns with old | ⟨_, rfl, _⟩
    · exact sound.reached old
    · exact ⟨[], .stay root⟩

theorem covers {word : List Char} (covered : next.Covers tenant word) :
    tree.Covers tenant word ∨ word = [] := by
  obtain ⟨lower, path, leads, owns, part⟩ := covered
  rw [reads.alike.graph] at leads
  rcases reads.new owns with old | ⟨_, rfl, _⟩
  · exact .inl ⟨lower, path, leads, old, part⟩
  · rw [sound.rooted.word_unique leads (.stay root), List.prefix_nil] at part
    exact .inr part

theorem load_eq : next.load other = tree.load other := by
  unfold load
  rw [reads.alike.allocated]
  refine Finset.sum_congr rfl fun lower _ => ?_
  unfold share
  rw [reads.alike.text]
  by_cases top : lower = root
  · rw [top, sound.rootText]
    split <;> split <;> rfl
  · have same : next.Owns other lower ↔ tree.Owns other lower :=
      ⟨fun owns => (reads.new owns).resolve_right fun marked => top marked.2.1, reads.kept⟩
    simp [same]

theorem counted (counted : tree.Counted) : next.Counted := by
  constructor
  · intro other _ found
    rw [reads.counts] at found
    obtain ⟨owns, sizes⟩ := counted.sized found
    exact ⟨reads.kept owns, sizes.trans (reads.load_eq sound).symm⟩
  · intro _ _ missing owns
    rw [reads.counts] at missing
    rcases reads.new owns with old | ⟨same, top, _⟩
    · exact counted.unsized missing old
    · exact ⟨same, top⟩

end Reads

theorem Reads.known (reads : tree.Reads next) : next.Known other ↔ tree.Known other := by
  unfold Known
  rw [reads.counts]

theorem Reads.refl (tree : Tree) : tree.Reads tree :=
  ⟨⟨rfl, fun _ => rfl, rfl, fun _ _ => rfl⟩, id, .inl, rfl, id⟩

variable {middle selected : Tree}

theorem Alike.trans (first : Alike tree middle) (second : Alike middle next) :
    Alike tree next where
  graph := second.graph.trans first.graph
  text reference := (second.text reference).trans (first.text reference)
  allocated := second.allocated.trans first.allocated
  fresh reference free :=
    (second.fresh reference (first.allocated ▸ free)).trans (first.fresh reference free)

theorem Reads.trans (first : tree.Reads middle) (second : middle.Reads next) :
    tree.Reads next where
  alike := first.alike.trans second.alike
  kept owns := second.kept (first.kept owns)
  new owns := by
    rcases second.new owns with held | ⟨same, top, unowned⟩
    · exact first.new held
    · exact .inr ⟨same, top, fun owner before => unowned owner (first.kept before)⟩
  counts := second.counts.trans first.counts
  marked := second.marked ∘ first.marked

theorem reads_touch (used : current < tree.allocated) (owns : tree.Owns tenant current)
    (time : Nat) : tree.Reads (tree.touch current tenant time) := by
  have owners {other : String} {lower : NodeRef} :
      (tree.touch current tenant time).Owns other lower ↔ tree.Owns other lower := by
    refine (owns_touch _).trans (or_iff_left_of_imp ?_)
    rintro ⟨rfl, rfl⟩
    exact owns
  refine ⟨alike_touch used _ _, owners.mpr, fun held => .inl (owners.mp held), rfl, ?_⟩
  intro marked unknown held
  rw [lastTenant_touch]
  exact marked unknown (owners.mp held)

theorem Shaped.prefixMatchTenant_reads (shaped : tree.Shaped) {epoch : Nat} : ∃ count current next,
      tree.prefixMatchTenant text tenant epoch = some (text.take count, next) ∧
      tree.Matches (fun node => node.hasTenant tenant) text count current ∧ tree.Reads next := by
  obtain ⟨count, current, descends, matched⟩ := shaped.prefixMatchTenant _ _
  obtain ⟨_, leads, _⟩ := matched.leads
  refine ⟨count, current,
    if (tree.node current).hasTenant tenant then tree.touch current tenant epoch else tree, ?_,
    matched, ?_⟩
  · unfold Tree.prefixMatchTenant
    rw [descends]
    simp [takeChars_eq]
  · split
    · rename_i owns
      exact reads_touch (shaped.leads_lt leads) owns _
    · exact .refl _

/-- The tenant of a match is one of the node, or the placeholder if it has none; an
owner in the cache of the node comes first. -/
structure Selects (tree : Tree) (current : NodeRef) (tenant : String) (selected : Tree) : Prop where
  alike : Alike tree selected
  owner : tree.Owns tenant current ∨ tenant = placeholder ∧ ∀ owner, ¬ tree.Owns owner current
  cached : ∀ owner, (tree.node current).lastTenant = some owner → tree.Owns owner current →
    tenant = owner
  owns : ∀ other lower, selected.Owns other lower ↔ tree.Owns other lower
  counts : selected.tenantCharCount = tree.tenantCharCount
  here : (selected.node current).lastTenant = some tenant
  elsewhere : ∀ lower, lower ≠ current →
    (selected.node lower).lastTenant = (tree.node lower).lastTenant

theorem selectTenant_selects {tree : Tree} (order : MapOrder) (used : current < tree.allocated) :
    tree.Selects current (tree.selectTenant order current).1
      (tree.selectTenant order current).2 := by
  unfold selectTenant
  simp only
  cases hit : (tree.node current).lastTenant.filter (tree.node current).hasTenant with
  | some =>
    obtain ⟨cached, owns⟩ := Option.filter_eq_some_iff.mp hit
    refine ⟨⟨rfl, fun _ => rfl, rfl, fun _ _ => rfl⟩, .inl owns, ?_, fun _ _ => Iff.rfl, rfl, cached,
      fun _ _ => rfl⟩
    intro owner same _
    exact Option.some.inj (cached.symm.trans same)
  | none =>
    have listed owner :
        owner ∈ order.tenants current (tree.node current).tenantLastAccessTime.keys ↔
          tree.Owns owner current :=
      (order.tenants_perm _ _).mem_iff.trans owns_iff_mem_keys.symm
    have owners tenant other lower : (tree.modify current fun node =>
        { node with lastTenant := some tenant }).Owns other lower ↔ tree.Owns other lower := by
      unfold Owns
      rw [kept_modify (·.hasTenant other) fun _ => by rfl]
    simp only
    refine ⟨alike_modify used (fun _ => rfl) (fun _ => rfl) fun _ => rfl, ?_, ?_, owners _, rfl, ?_,
      ?_⟩
    · cases first : (order.tenants current (tree.node current).tenantLastAccessTime.keys).head? with
      | some owner => exact .inl ((listed _).mp (List.mem_of_head? first))
      | none =>
        refine .inr ⟨rfl, fun owner owns => ?_⟩
        rw [List.head?_eq_none_iff] at first
        rw [← listed, first] at owns
        cases owns
    · intro owner same owns
      rw [Option.filter_eq_none_iff] at hit
      exact (hit _ same owns).elim
    · rw [node_modify, if_pos rfl]
    · intro _ apart
      rw [node_modify, if_neg apart]

theorem Selects.reads (selects : tree.Selects current tenant selected) : tree.Reads selected := by
  refine ⟨selects.alike, (selects.owns _ _).mpr, fun owns => .inl ((selects.owns _ _).mp owns),
    selects.counts, ?_⟩
  intro marked unknown owns
  have same : selected.Known placeholder ↔ tree.Known placeholder := by
    unfold Known
    rw [selects.counts]
  have held := (selects.owns _ _).mp owns
  have before := marked (fun known => unknown (same.mpr known)) held
  by_cases top : root = current
  · rw [top] at before held ⊢
    rw [selects.here, selects.cached placeholder before held]
  · rw [selects.elsewhere root top]
    exact before

theorem Shaped.root_of_unowned (shaped : tree.Shaped)
    (leads : tree.graph.Leads root path current) (unowned : ∀ owner, ¬ tree.Owns owner current) :
    current = root := by
  rcases leads.end_cases with ⟨_, top⟩ | ⟨_, _, _, _, edge, _⟩
  · exact top
  · obtain ⟨owner, owns⟩ := shaped.owned edge
    exact (unowned _ owns).elim

theorem Selects.touch (selects : tree.Selects current tenant selected) (shaped : tree.Shaped)
    (leads : tree.graph.Leads root path current) (epoch : Nat) :
    tree.Reads (if epoch % 8 = 0 then selected.touch current tenant epoch else selected) := by
  have used : current < selected.allocated := selects.alike.allocated ▸ shaped.leads_lt leads
  split
  · refine selects.reads.trans ?_
    rcases selects.owner with owns | ⟨rfl, unowned⟩
    · exact reads_touch used ((selects.owns _ _).mpr owns) epoch
    · have top := shaped.root_of_unowned leads unowned
      subst top
      refine ⟨alike_touch used placeholder _, fun owns => (owns_touch _).mpr (.inl owns), ?_,
        rfl, ?_⟩
      · intro _ _ owns
        rcases (owns_touch epoch).mp owns with old | ⟨same, top⟩
        · exact .inl old
        · exact .inr ⟨same, top, fun owner held => unowned _ ((selects.owns _ _).mp held)⟩
      · intro _ _ _
        exact selects.here
  · exact selects.reads

/-- A match answers with a tenant of the node it stops at, or the placeholder. -/
structure Answers (tree : Tree) (text : List Char) (result : PrefixMatchResult)
    (current : NodeRef) : Prop where
  matched : tree.Matches (fun _ => true) text result.matchedCharCount current
  input : result.inputCharCount = text.length
  owner : tree.Owns result.tenant current ∨ result.tenant = placeholder ∧ current = root ∧
    ∀ owner, ¬ tree.Owns owner root
  cached : ∀ owner, (tree.node current).lastTenant = some owner → tree.Owns owner current →
    result.tenant = owner

theorem Shaped.prefixMatchWithCounts_reads (shaped : tree.Shaped) (order : MapOrder)
    {epoch : Nat} : ∃ result current next,
      tree.prefixMatchWithCounts order text epoch = some (result, next) ∧
      tree.Answers text result current ∧ tree.Reads next := by
  obtain ⟨count, current, descends, matched⟩ := shaped.prefixMatch text
  obtain ⟨_, leads, _⟩ := matched.leads
  have selects := selectTenant_selects order (shaped.leads_lt leads)
  refine ⟨⟨(tree.selectTenant order current).1, count, text.length⟩, current, _, ?_,
    ⟨matched, rfl, ?_, selects.cached⟩, selects.touch shaped leads epoch⟩
  · unfold Tree.prefixMatchWithCounts
    rw [descends]
    rfl
  · rcases selects.owner with owns | ⟨same, unowned⟩
    · exact .inl owns
    · have top := shaped.root_of_unowned leads unowned
      exact .inr ⟨same, top, top ▸ unowned⟩

end Effects

end SmetricRouter.PrefixTree.Tree
