import SmetricRouter.Library.StepRuns
import SmetricRouter.PrefixTree.Eviction
import SmetricRouter.PrefixTree.Matching

/-! Whole histories of the tree.

Any sequence of operations on a new tree ends with a sound heap and right
counters, covers no more than what was inserted, and has a counter for a tenant
exactly from its insertion until it is removed.
-/

namespace SmetricRouter.PrefixTree.Tree

open RadixGraph

inductive Operation where
  | insert (text : List Char) (tenant : String) (epoch : Nat)
  | prefixMatchWithCounts (order : MapOrder) (text : List Char) (epoch : Nat)
  | prefixMatch (order : MapOrder) (text : List Char) (epoch : Nat)
  | prefixMatchTenant (text : List Char) (tenant : String) (epoch : Nat)
  | evictTenantBySize (order : MapOrder) (maxSize : Nat)
  | removeTenant (order : MapOrder) (tenant : String)

def apply (tree : Tree) : Operation → Option Tree
  | .insert text tenant epoch => tree.insert text tenant epoch
  | .prefixMatchWithCounts order text epoch =>
    (tree.prefixMatchWithCounts order text epoch).map (·.2)
  | .prefixMatch order text epoch => (tree.prefixMatch order text epoch).map (·.2)
  | .prefixMatchTenant text tenant epoch => (tree.prefixMatchTenant text tenant epoch).map (·.2)
  | .evictTenantBySize order maxSize => tree.evictTenantBySize order maxSize
  | .removeTenant order tenant => tree.removeTenant order tenant

def after (operations : List Operation) : Option Tree := runFrom apply new operations

def Operation.inserted (tenant : String) : Operation → Option (List Char)
  | .insert text owner _ => if owner = tenant then some text else none
  | _ => none

/-- Whether the tenant is there after the operation, given whether it was before. -/
def Operation.lives (tenant : String) (before : Bool) : Operation → Bool
  | .insert _ owner _ => before || owner = tenant
  | .removeTenant _ removed => before && removed ≠ tenant
  | _ => before

def live (operations : List Operation) (tenant : String) : Bool :=
  operations.foldl (Operation.lives tenant) false

variable {tree next : Tree} {operation : Operation} {operations : List Operation}
  {tenant other : String} {word text : List Char} {lower current : NodeRef}

section Step

/-- What holds between two operations. -/
structure Sound (tree : Tree) : Prop where
  shaped : tree.Shaped
  counted : tree.Counted
  marked : tree.Marked

theorem sound_new : new.Sound where
  shaped := shaped_new
  counted := ⟨nofun, nofun⟩
  marked := nofun

/-- What an operation does to the tenants with a counter and to what is covered. -/
structure Applies (tree : Tree) (operation : Operation) (next : Tree) : Prop where
  sound : next.Sound
  known : ∀ {tenant before}, (tree.Known tenant ↔ before = true) →
    (next.Known tenant ↔ operation.lives tenant before = true)
  covers : ∀ {tenant word}, next.Covers tenant word → tree.Covers tenant word ∨ word = [] ∨
    ∃ text, operation.inserted tenant = some text ∧ word <+: text

theorem Sound.insert (sound : tree.Sound) (text : List Char) (tenant : String) (epoch : Nat) :
    ∃ next, tree.apply (.insert text tenant epoch) = some next ∧
      tree.Applies (.insert text tenant epoch) next ∧ tree.Inserts tenant text next := by
  obtain ⟨next, inserts, done⟩ := insert_inserts sound.shaped
  refine ⟨next, inserts, ⟨⟨done.shaped, done.counted sound.counted, ?_⟩, ?_, ?_⟩, done⟩
  · intro unknown owns
    rw [done.known, not_or] at unknown
    rw [done.lastTenant]
    rw [← done.shaped.covers_nil, done.covers] at owns
    refine sound.marked unknown.1 (sound.shaped.covers_nil.mp ?_)
    exact owns.resolve_right fun own => unknown.2 own.1
  · intro other _ same
    rw [done.known, same]
    simp only [Operation.lives, Bool.or_eq_true, decide_eq_true_eq]
    exact or_congr_right eq_comm
  · intro other word covered
    rcases (done.covers other word).mp covered with old | ⟨rfl, part⟩
    · exact .inl old
    · exact .inr (.inr ⟨text, if_pos rfl, part⟩)

theorem Reads.applies (reads : tree.Reads next) (sound : tree.Sound)
    (kept : ∀ tenant before, operation.lives tenant before = before) :
    tree.Applies operation next where
  sound := ⟨reads.shaped sound.shaped, reads.counted sound.shaped sound.counted,
    reads.marked sound.marked⟩
  known same := by rw [reads.known, same, kept]
  covers covered := (reads.covers sound.shaped covered).imp_right .inl

theorem Evicts.applies {maxSize : Nat} (evicts : tree.Evicts maxSize next) (sound : tree.Sound)
    (kept : ∀ tenant before, operation.lives tenant before = before) :
    tree.Applies operation next where
  sound := by
    refine ⟨evicts.sheds.shaped, evicts.counted, fun unknown owns => ?_⟩
    rw [evicts.sheds.lastTenant]
    exact sound.marked (fun known => unknown ((evicts.known _).mpr known)) (evicts.sheds.owns owns)
  known same := by rw [evicts.known, same, kept]
  covers covered := .inl (evicts.sheds.covers covered)

theorem Removes.applies {order : MapOrder} (removes : tree.Removes tenant next)
    (sound : tree.Sound) : tree.Applies (.removeTenant order tenant) next where
  sound := by
    refine ⟨removes.sheds.shaped, removes.counted sound.counted, fun unknown owns => ?_⟩
    obtain ⟨held, differs⟩ := (removes.owns _ _).mp owns
    rw [removes.sheds.lastTenant]
    exact sound.marked (fun known => unknown ((removes.known _).mpr ⟨known, differs⟩)) held
  known same := by
    rw [removes.known, same]
    simp only [Operation.lives, Bool.and_eq_true, decide_eq_true_eq]
    exact and_congr_right fun _ => ne_comm
  covers covered := .inl (removes.sheds.covers covered)

theorem Sound.apply (sound : tree.Sound) (operation : Operation) :
    ∃ next, tree.apply operation = some next ∧ tree.Applies operation next := by
  cases operation with
  | insert text tenant epoch =>
    obtain ⟨next, inserts, applies, _⟩ := sound.insert _ _ _
    exact ⟨next, inserts, applies⟩
  | prefixMatchWithCounts order text epoch =>
    obtain ⟨_, _, next, answers, _, reads⟩ :=
      sound.shaped.prefixMatchWithCounts_reads _
    exact ⟨next, by rw [Tree.apply, answers, Option.map_some], reads.applies sound fun _ _ => rfl⟩
  | prefixMatch order _ epoch =>
    obtain ⟨_, _, next, answers, _, reads⟩ :=
      sound.shaped.prefixMatchWithCounts_reads _
    refine ⟨next, ?_, reads.applies sound fun _ _ => rfl⟩
    rw [Tree.apply, Tree.prefixMatch, answers]
    rfl
  | prefixMatchTenant _ _ epoch =>
    obtain ⟨_, _, next, answers, _, reads⟩ :=
      sound.shaped.prefixMatchTenant_reads
    exact ⟨next, by rw [Tree.apply, answers, Option.map_some], reads.applies sound fun _ _ => rfl⟩
  | evictTenantBySize _ _ =>
    obtain ⟨next, ends, evicts, _⟩ :=
      evictTenantBySize_evicts sound.shaped sound.counted
    exact ⟨next, ends, evicts.applies sound fun _ _ => rfl⟩
  | removeTenant _ _ =>
    obtain ⟨next, ends, removes⟩ := removeTenant_removes sound.shaped _
    exact ⟨next, ends, removes.applies sound⟩

end Step

section History

def insertedTexts (operations : List Operation) (tenant : String) : List (List Char) :=
  operations.filterMap (Operation.inserted tenant)

/-- The tree that a history leaves. -/
structure Follows (operations : List Operation) (tree : Tree) : Prop where
  ends : after operations = some tree
  sound : tree.Sound
  known : ∀ tenant, tree.Known tenant ↔ live operations tenant = true
  covers : ∀ {tenant word}, tree.Covers tenant word →
    word = [] ∨ ∃ text ∈ insertedTexts operations tenant, word <+: text

theorem mem_insertedTexts_append :
    text ∈ insertedTexts (operations ++ [operation]) tenant ↔
      text ∈ insertedTexts operations tenant ∨ operation.inserted tenant = some text := by
  unfold insertedTexts
  simp

theorem follows_new : Follows [] new where
  ends := rfl
  sound := sound_new
  known _ := iff_of_false nofun nofun
  covers covered := by
    obtain ⟨_, _, _, owns, _⟩ := covered
    cases owns

theorem Follows.step (follows : Follows operations tree)
    (applied : tree.apply operation = some next) (applies : tree.Applies operation next) :
    Follows (operations ++ [operation]) next where
  ends := by
    unfold after
    rw [runFrom_snoc, ← after, follows.ends, Option.bind_some, applied]
  sound := applies.sound
  known tenant := by
    have same : live (operations ++ [operation]) tenant =
        operation.lives tenant (live operations tenant) := by
      unfold live
      rw [List.foldl_append]
      rfl
    rw [same]
    exact applies.known (follows.known _)
  covers covered := by
    rcases applies.covers covered with old | empty | ⟨text, inserts, part⟩
    · rcases follows.covers old with empty | ⟨text, member, part⟩
      · exact .inl empty
      · exact .inr ⟨text, mem_insertedTexts_append.mpr (.inl member), part⟩
    · exact .inl empty
    · exact .inr ⟨text, mem_insertedTexts_append.mpr (.inr inserts), part⟩

theorem exists_follows (operations : List Operation) : ∃ tree, Follows operations tree := by
  induction operations using List.reverseRecOn with
  | nil => exact ⟨new, follows_new⟩
  | append_singleton _ _ ih =>
    obtain ⟨_, follows⟩ := ih
    obtain ⟨next, applied, applies⟩ := follows.sound.apply _
    exact ⟨next, follows.step applied applies⟩

theorem exists_follows_insertions {insertions : List (List Char × String × Nat)} :
    ∃ tree, Follows (insertions.map fun insertion =>
        .insert insertion.1 insertion.2.1 insertion.2.2) tree ∧
      ∀ {tenant text word}, text ∈ insertedTexts (insertions.map fun insertion =>
        .insert insertion.1 insertion.2.1 insertion.2.2) tenant → word <+: text →
          tree.Covers tenant word := by
  induction insertions using List.reverseRecOn with
  | nil => exact ⟨new, follows_new, nofun⟩
  | append_singleton _ insertion ih =>
    obtain ⟨_, follows, whole⟩ := ih
    obtain ⟨next, applied, applies, inserts⟩ :=
      follows.sound.insert insertion.1 insertion.2.1 insertion.2.2
    rw [List.map_append]
    refine ⟨next, follows.step applied applies, fun {_ _ _} member part => ?_⟩
    rw [inserts.covers]
    rcases mem_insertedTexts_append.mp member with old | own
    · exact .inl (whole old part)
    · simp only [Operation.inserted, Option.ite_none_right_eq_some, Option.some.injEq] at own
      exact .inr ⟨own.1.symm, own.2 ▸ part⟩

end History

variable {query : List Char} {count : Nat}

section Exactness

def longestShared (query : List Char) (texts : List (List Char)) : Nat :=
  (texts.map (commonPrefix query)).foldr max 0

theorem le_longestShared {texts : List (List Char)} :
    count ≤ longestShared query texts ↔
      count = 0 ∨ ∃ text ∈ texts, count ≤ commonPrefix query text := by
  induction texts with
  | nil => simp [longestShared]
  | cons first rest ih =>
    have unfolded : longestShared query (first :: rest) =
        max (commonPrefix query first) (longestShared query rest) := rfl
    rw [unfolded, le_max_iff, ih, List.exists_mem_cons_iff]
    exact or_left_comm

theorem Shaped.charCount (shaped : tree.Shaped) (query : List Char) (tenant : String) :
    ∃ count, tree.prefixMatchTenantCharCount query tenant = some count ∧ count ≤ query.length ∧
      (count = 0 ∨ tree.Covers tenant (query.take count)) ∧
      ∀ longer ≤ query.length, tree.Covers tenant (query.take longer) → longer ≤ count := by
  obtain ⟨count, current, descends, matched⟩ := shaped.prefixMatchTenant _ _
  refine ⟨count, ?_, matched.short, ?_, matched.longest⟩
  · rw [prefixMatchTenantCharCount, descends, Option.map_some]
  · rcases matched.place with ⟨_, none_matched⟩ | ⟨_, _, owns⟩
    · exact .inl none_matched
    · obtain ⟨path, leads, part⟩ := matched.leads
      exact .inr ⟨current, path, leads, owns, part⟩

theorem Follows.le_longestShared (follows : Follows operations tree) (short : count ≤ query.length)
    (covered : count = 0 ∨ tree.Covers tenant (query.take count)) :
    count ≤ longestShared query (insertedTexts operations tenant) := by
  rw [Tree.le_longestShared]
  rcases covered with zero | covered
  · exact .inl zero
  · rcases follows.covers covered with empty | ⟨text, member, part⟩
    · rcases List.take_eq_nil_iff.mp empty with zero | none_left
      · exact .inl zero
      · rw [none_left] at short
        exact .inl (Nat.le_zero.mp short)
    · exact .inr ⟨text, member, (take_isPrefix_iff _ _ short).mp part⟩

/-- After insertions alone, the match of a tenant is the longest that any of its
texts shares with the query; whatever else a history does, it is no longer. -/
theorem prefixMatchTenantCharCount_exact (query : List Char) (tenant : String) :
    (∀ insertions : List (List Char × String × Nat), ∃ tree,
      after (insertions.map fun insertion =>
        .insert insertion.1 insertion.2.1 insertion.2.2) = some tree ∧
      tree.prefixMatchTenantCharCount query tenant =
        some (longestShared query (insertedTexts (insertions.map fun insertion =>
          .insert insertion.1 insertion.2.1 insertion.2.2) tenant))) ∧
    ∀ operations : List Operation, ∃ tree count, after operations = some tree ∧
      tree.prefixMatchTenantCharCount query tenant = some count ∧
      count ≤ longestShared query (insertedTexts operations tenant) ∧ count ≤ query.length := by
  constructor
  · intro _
    obtain ⟨tree, follows, whole⟩ := exists_follows_insertions
    obtain ⟨count, counts, short, covered, longest⟩ :=
      follows.sound.shaped.charCount _ _
    refine ⟨tree, follows.ends, counts.trans (congrArg some ?_)⟩
    apply Nat.le_antisymm (follows.le_longestShared short covered)
    rcases le_longestShared.mp (Nat.le_refl (longestShared query _)) with zero | ⟨text, member, le⟩
    · rw [zero]
      exact Nat.zero_le _
    · have within := Nat.le_trans le (commonPrefix_le_left _ _)
      exact longest _ within (whole member ((take_isPrefix_iff _ _ within).mpr le))
  · intro _
    obtain ⟨tree, follows⟩ := exists_follows _
    obtain ⟨count, counts, short, covered, _⟩ := follows.sound.shaped.charCount _ _
    exact ⟨tree, count, follows.ends, counts, follows.le_longestShared short covered, short⟩

end Exactness

section Representation

/-- A node as every history leaves it. -/
structure WellPlaced (tree : Tree) (lower : NodeRef) : Prop where
  linked : ∃ parent firstChar rest, (tree.node lower).text.text = firstChar :: rest ∧
    (tree.node parent).children.lookup firstChar = some lower ∧
    (tree.node lower).parent = some parent
  counted : (tree.node lower).text.charCount = (tree.node lower).text.text.length
  owned : ∃ tenant, (tree.node lower).hasTenant tenant = true
  inherited : ∀ tenant, (tree.node lower).hasTenant tenant = true →
    ∀ upper word, tree.graph.Leads upper word lower → (tree.node upper).hasTenant tenant = true

/-- The representation invariant of every history. -/
theorem nodes_wellPlaced (operations : List Operation) :
    ∃ tree, after operations = some tree ∧
      ∀ word lower, tree.graph.Leads root word lower → lower ≠ root → tree.WellPlaced lower := by
  obtain ⟨tree, follows⟩ := exists_follows operations
  have shaped := follows.sound.shaped
  refine ⟨tree, follows.ends, fun _ _ leads proper => ?_⟩
  rcases leads.end_cases with ⟨_, top⟩ | ⟨_, parent, firstChar, _, edge, _⟩
  · exact (proper top).elim
  · obtain ⟨rest, text⟩ := shaped.rooted.keyed edge
    exact ⟨⟨parent, firstChar, rest, text, edge, shaped.rooted.back edge⟩, shaped.counted _,
      shaped.owned edge, fun _ owns _ _ leads => shaped.owns_above leads owns⟩

/-- The second text splits the node of the first. -/
def shared : List Operation :=
  [.insert "apple".toList "A" 0, .insert "apricot".toList "B" 1, .insert "apple".toList "B" 2,
    .removeTenant .filled "A"]

theorem nodes_wellPlaced_shared :
    ∃ tree, after shared = some tree ∧ (tree.node root).children.lookup 'a' = some 2 ∧
      tree.WellPlaced 2 ∧ (tree.node 2).children.lookup 'r' = some 3 ∧ tree.WellPlaced 3 := by
  obtain ⟨tree, ends, placed⟩ := nodes_wellPlaced shared
  have shape : (after shared).all fun tree => (tree.node root).children.lookup 'a' = some 2 ∧
      (tree.node 2).children.lookup 'r' = some 3 := by decide +kernel
  rw [ends, Option.all_some, decide_eq_true_eq] at shape
  have upper : tree.graph.Leads root _ 2 := .edge shape.1
  exact ⟨tree, ends, shape.1, placed _ 2 upper (by decide), shape.2,
    placed _ 3 (upper.trans (.edge shape.2)) (by decide)⟩

end Representation

section Accounting

/-- The counters of every history: one for each tenant with a node, with the size
that a walk over the tree adds up. -/
theorem tenantCharCount_exact (operations : List Operation) (order : MapOrder) :
    ∃ tree sizes, after operations = some tree ∧ tree.getUsedSizePerTenant order = some sizes ∧
      ∀ tenant, tenant ≠ placeholder →
        ((tree.tenantCharCount.lookup tenant).isSome = true ↔
          ∃ reference, (tree.node reference).hasTenant tenant = true) ∧
        tree.tenantCharCount.lookup tenant = sizes.lookup tenant ∧
        ∀ size, tree.tenantCharCount.lookup tenant = some size → size = tree.load tenant := by
  obtain ⟨tree, follows⟩ := exists_follows _
  obtain ⟨shaped, counted, _⟩ := follows.sound
  obtain ⟨sizes, walks, walked⟩ := getUsedSizePerTenant_eq shaped
  refine ⟨tree, sizes, follows.ends, walks, fun tenant real => ?_⟩
  have exact_count : tree.tenantCharCount.lookup tenant =
      if tree.Owns tenant root then some (tree.load tenant) else none := by
    cases found : tree.tenantCharCount.lookup tenant with
    | none => exact (if_neg fun owns => real (counted.unsized found owns).1).symm
    | some =>
      obtain ⟨owns, rfl⟩ := counted.sized found
      exact (if_pos owns).symm
  refine ⟨?_, exact_count.trans (walked _).symm, fun _ found => (counted.sized found).2⟩
  rw [exact_count]
  constructor
  · intro present
    split at present
    · rename_i owns
      exact ⟨root, owns⟩
    · cases present
  · rintro ⟨_, owns⟩
    rw [if_pos (shaped.owns_root owns)]
    rfl

theorem tenantCharCount_exact_shared :
    ∃ tree sizes, after shared = some tree ∧ tree.getUsedSizePerTenant .filled = some sizes ∧
      tree.tenantCharCount.lookup "B" = some 10 ∧ sizes.lookup "B" = some 10 ∧
      tree.load "B" = 10 ∧ sizes.lookup "A" = none := by
  obtain ⟨tree, sizes, ends, walks, counts⟩ := tenantCharCount_exact shared .filled
  have counted : (after shared).all fun tree => tree.tenantCharCount.lookup "B" = some 10 ∧
      tree.tenantCharCount.lookup "A" = none := by decide +kernel
  rw [ends, Option.all_some, decide_eq_true_eq] at counted
  obtain ⟨_, same, size⟩ := counts "B" (by decide)
  obtain ⟨_, gone, _⟩ := counts "A" (by decide)
  exact ⟨tree, sizes, ends, walks, counted.1, same ▸ counted.1, (size 10 counted.1).symm,
    gone ▸ counted.2⟩

end Accounting

section Frames

/-- A tenant that keeps its nodes below the root keeps its matches. -/
theorem Sheds.charCount_eq (sheds : tree.Sheds next) (shaped : tree.Shaped)
    (kept : ∀ {lower}, lower ≠ root → tree.Owns tenant lower → next.Owns tenant lower) :
    next.prefixMatchTenantCharCount query tenant =
      tree.prefixMatchTenantCharCount query tenant := by
  obtain ⟨_, counts, short, covered, longest⟩ := shaped.charCount _ _
  obtain ⟨count, recounts, fits, covers, most⟩ := sheds.shaped.charCount _ _
  rw [counts, recounts]
  refine congrArg some (Nat.le_antisymm ?_ ?_)
  · rcases covers with rfl | covers
    · exact Nat.zero_le _
    · exact longest count fits (sheds.covers covers)
  · rcases covered with rfl | ⟨lower, path, leads, owns, part⟩
    · exact Nat.zero_le _
    · by_cases top : lower = root
      · subst top
        rw [shaped.rooted.word_unique leads (.stay root), List.prefix_nil,
          List.take_eq_nil_iff] at part
        rcases part with rfl | rfl
        · exact Nat.zero_le _
        · exact Nat.le_trans short (Nat.zero_le _)
      · have held := kept top owns
        obtain ⟨way, still⟩ := sheds.shaped.reached held
        have same := shaped.rooted.word_unique leads (sheds.leads still)
        exact most _ short ⟨lower, way, still, held, same ▸ part⟩

/-- A removal takes its tenant off every node, leaves no node without tenants, and
keeps the matches of everyone else. -/
theorem removeTenant_frame (operations : List Operation) (order : MapOrder) (tenant : String) :
    ∃ tree next, after operations = some tree ∧ tree.removeTenant order tenant = some next ∧
      (∀ reference, (next.node reference).hasTenant tenant = false) ∧
      next.tenantCharCount.lookup tenant = none ∧
      (∀ word reference, next.graph.Leads root word reference → reference ≠ root →
        ∃ other, (next.node reference).hasTenant other = true) ∧
      ∀ other, other ≠ tenant → ∀ query, next.prefixMatchTenantCharCount query other =
        tree.prefixMatchTenantCharCount query other := by
  obtain ⟨tree, follows⟩ := exists_follows operations
  have shaped := follows.sound.shaped
  obtain ⟨next, ends, removes⟩ := removeTenant_removes shaped order
  refine ⟨tree, next, follows.ends, ends, fun _ => ?_, ?_, ?_, fun _ differs _ => ?_⟩
  · rw [Bool.eq_false_iff]
    exact fun owns => ((removes.owns _ _).mp owns).2 rfl
  · rw [← Option.not_isSome_iff_eq_none]
    exact fun known => ((removes.known _).mp known).2 rfl
  · intro _ _ leads proper
    rcases leads.end_cases with ⟨_, top⟩ | ⟨_, _, _, _, edge, _⟩
    · exact (proper top).elim
    · exact removes.sheds.shaped.owned edge
  · exact removes.sheds.charCount_eq shaped (fun _ owns => (removes.owns _ _).mpr ⟨owns, differs⟩)

theorem removeTenant_frame_shared :
    ∃ tree next, after [.insert "apple".toList "A" 0, .insert "apply".toList "B" 1] = some tree ∧
      tree.removeTenant .filled "A" = some next ∧
      next.prefixMatchTenantCharCount "apply".toList "B" =
        tree.prefixMatchTenantCharCount "apply".toList "B" := by
  obtain ⟨tree, next, ends, removes, _, _, _, kept⟩ := removeTenant_frame
    [.insert "apple".toList "A" 0, .insert "apply".toList "B" 1] .filled "A"
  exact ⟨tree, next, ends, removes, kept "B" (by decide) _⟩

/-- An eviction ends with everyone within the limit, and keeps the matches of those
who were within it before. -/
theorem evictTenantBySize_bound (operations : List Operation) (order : MapOrder) (maxSize : Nat) :
    ∃ tree next, after operations = some tree ∧ tree.evictTenantBySize order maxSize = some next ∧
      (∀ tenant, next.load tenant ≤ maxSize) ∧
      ∀ tenant, tree.load tenant ≤ maxSize → ∀ query,
        next.prefixMatchTenantCharCount query tenant =
          tree.prefixMatchTenantCharCount query tenant := by
  obtain ⟨tree, follows⟩ := exists_follows _
  obtain ⟨shaped, counted, _⟩ := follows.sound
  obtain ⟨next, ends, evicts, bounded⟩ := evictTenantBySize_evicts shaped counted
  refine ⟨tree, next, follows.ends, ends, bounded, fun tenant small _ => ?_⟩
  refine evicts.sheds.charCount_eq shaped (fun {_} proper owns => ?_)
  cases found : tree.tenantCharCount.lookup tenant with
  | none => exact (proper (counted.unsized found owns).2).elim
  | some _ =>
    refine evicts.kept ?_ owns
    rw [Fits, found, (counted.sized found).2]
    exact decide_eq_true small

theorem evictTenantBySize_bound_small :
    ∃ tree next, after [.insert "apple".toList "A" 0, .insert "app".toList "B" 1] = some tree ∧
      tree.evictTenantBySize .filled 3 = some next ∧ next.load "A" ≤ 3 ∧
      next.prefixMatchTenantCharCount "apply".toList "B" =
        tree.prefixMatchTenantCharCount "apply".toList "B" := by
  obtain ⟨tree, next, ends, evicts, bounded, kept⟩ := evictTenantBySize_bound
    [.insert "apple".toList "A" 0, .insert "app".toList "B" 1] .filled 3
  have size : (after [.insert "apple".toList "A" 0, .insert "app".toList "B" 1]).map (fun tree =>
      tree.load "B") = some 3 := by decide +kernel
  rw [ends, Option.map_some, Option.some.injEq] at size
  exact ⟨tree, next, ends, evicts, bounded "A", kept "B" size.le _⟩

/-- After any history, an insertion extends the matches of its tenant to what the query
shares with the text, and changes no other match. -/
theorem insert_charCount (operations : List Operation) (text : List Char) (tenant : String)
    (epoch : Nat) :
    ∃ tree next, after operations = some tree ∧ tree.insert text tenant epoch = some next ∧
      ∀ query other, ∃ count, tree.prefixMatchTenantCharCount query other = some count ∧
        next.prefixMatchTenantCharCount query other =
          some (if other = tenant then max count (commonPrefix query text) else count) := by
  obtain ⟨tree, follows⟩ := exists_follows operations
  obtain ⟨next, ends, inserts⟩ := insert_inserts follows.sound.shaped
  refine ⟨tree, next, follows.ends, ends, fun query other => ?_⟩
  obtain ⟨count, counts, short, covered, longest⟩ := follows.sound.shaped.charCount query other
  obtain ⟨total, recounts, fits, covers, most⟩ := inserts.shaped.charCount query other
  refine ⟨count, counts, recounts.trans (congrArg some (Nat.le_antisymm ?_ ?_))⟩
  all_goals simp only [inserts.covers] at covers most
  · rcases covers with rfl | old | ⟨own, part⟩
    · exact Nat.zero_le _
    · have grown := longest _ fits old
      split <;> omega
    · rw [if_pos own]
      exact le_max_of_le_right ((take_isPrefix_iff _ _ fits).mp part)
  · have kept : count ≤ total := by
      rcases covered with rfl | old
      · exact Nat.zero_le _
      · exact most _ short (.inl old)
    split
    · rename_i own
      have within : commonPrefix query text ≤ query.length := commonPrefix_le_left _ _
      exact max_le kept (most _ within (.inr ⟨own, (take_isPrefix_iff _ _ within).mpr le_rfl⟩))
    · exact kept

end Frames

section Answers

def OnPath (tree : Tree) (text : List Char) (lower : NodeRef) : Prop :=
  lower = root ∨ ∃ front upper firstChar, tree.graph.Leads root front upper ∧
    (tree.node upper).children.lookup firstChar = some lower ∧ front ++ [firstChar] <+: text

/-- The placeholder is on the root without having been inserted, and no child of the
root starts with the text's first character. -/
def Stray (tree : Tree) (operations : List Operation) (text : List Char) : Prop :=
  (tree.node root).hasTenant placeholder = true ∧ live operations placeholder = false ∧
    text.head?.bind (tree.node root).children.lookup = none

theorem Answers.owns_path {result : PrefixMatchResult} (answers : tree.Answers text result current)
    (shaped : tree.Shaped) (owns : tree.Owns tenant current)
    (passed : tree.OnPath (text.take result.matchedCharCount) lower) : tree.Owns tenant lower := by
  obtain ⟨_, leads, part⟩ := answers.matched.leads
  rcases passed with rfl | ⟨_, upper, firstChar, above, edge, entered⟩
  · exact shaped.owns_root owns
  · obtain ⟨_, rfl⟩ := entered.trans part
    rw [List.append_assoc] at leads
    obtain ⟨_, _, taken, _, onward⟩ := shaped.rooted.leads_turn above leads
    have same : tree.graph.child upper firstChar = some lower := edge
    rw [same] at taken
    cases taken
    exact shaped.owns_above onward owns

theorem Matches.root_iff (matched : tree.Matches (fun _ => true) text count current)
    (shaped : tree.Shaped) :
    current = root ↔ text.head?.bind (tree.node root).children.lookup = none := by
  cases text with
  | nil =>
    refine iff_of_true ?_ rfl
    rcases matched.place with ⟨top, _⟩ | ⟨_, positive, _⟩
    · exact top
    · exact absurd matched.short (Nat.not_le.mpr positive)
  | cons firstChar rest =>
    have turns : (firstChar :: rest).head?.bind (tree.node root).children.lookup =
        tree.graph.child root firstChar := rfl
    rw [turns]
    constructor
    · intro top
      cases edge : tree.graph.child root firstChar with
      | none => rfl
      | some child =>
        -- The first character leads into the child, so that at least it is matched.
        obtain ⟨tail, label⟩ := shaped.rooted.keyed edge
        have first : tree.Within (fun _ => true) ((firstChar :: rest).take 1) := by
          refine ⟨child, _, .edge edge, rfl, ?_⟩
          rw [label]
          exact ⟨tail, rfl⟩
        have positive := matched.longest 1 (Nat.succ_le_succ (Nat.zero_le _)) first
        rcases matched.place with ⟨_, _⟩ | ⟨proper, _⟩
        · omega
        · exact (proper top).elim
    · intro vacant
      rcases matched.place with ⟨top, _⟩ | ⟨_, positive, _⟩
      · exact top
      · obtain ⟨_, leads, part⟩ := matched.leads
        obtain ⟨_, rfl⟩ := Nat.exists_eq_succ_of_ne_zero (Nat.ne_of_gt positive)
        obtain ⟨_, rfl⟩ := part
        obtain ⟨_, _, taken, _⟩ := shaped.rooted.leads_turn (.stay _) leads
        rw [vacant] at taken
        cases taken

/-- A match on a tree with text answers with a live owner of the path it matched,
unless it is answered at the root from a stray placeholder. -/
theorem prefixMatchWithCounts_live_iff (operations : List Operation) (order : MapOrder)
    (text : List Char) (epoch : Nat) :
    ∃ tree result next, after operations = some tree ∧
      tree.prefixMatchWithCounts order text epoch = some (result, next) ∧
      ((∃ tenant reference, reference ≠ root ∧ (tree.node reference).hasTenant tenant = true) →
        ((live operations result.tenant = true ∧
          ∀ lower, tree.OnPath (text.take result.matchedCharCount) lower →
            (tree.node lower).hasTenant result.tenant = true) ↔ ¬ tree.Stray operations text)) := by
  obtain ⟨tree, follows⟩ := exists_follows operations
  have shaped := follows.sound.shaped
  obtain ⟨result, current, next, matches_text, answers, _⟩ :=
    shaped.prefixMatchWithCounts_reads order
  refine ⟨tree, result, next, follows.ends, matches_text, ?_⟩
  rintro ⟨someone, _, _, text_owned⟩
  have owns : tree.Owns result.tenant current := by
    rcases answers.owner with owns | ⟨_, _, unowned⟩
    · exact owns
    · exact (unowned _ (shaped.owns_root text_owned)).elim
  have unlisted (unknown : ¬ live operations result.tenant = true) :
      result.tenant = placeholder ∧ current = root := by
    refine follows.sound.counted.unsized ?_ owns
    rw [← follows.known, Known, Bool.not_eq_true, Option.isSome_eq_false_iff,
      Option.isNone_iff_eq_none] at unknown
    exact unknown
  constructor
  · rintro ⟨lives, _⟩ ⟨stray, dead, vacant⟩
    have top := (answers.matched.root_iff shaped).mpr vacant
    have unknown : ¬ tree.Known placeholder := by
      rw [follows.known, dead]
      exact Bool.false_ne_true
    subst top
    rw [answers.cached placeholder (follows.sound.marked unknown stray) stray, dead] at lives
    cases lives
  · intro proper
    refine ⟨?_, fun _ passed => answers.owns_path shaped owns passed⟩
    by_contra unknown
    obtain ⟨same, top⟩ := unlisted unknown
    rw [same, Bool.not_eq_true] at unknown
    refine proper ⟨?_, unknown, (answers.matched.root_iff shaped).mp top⟩
    rw [← same, ← top]
    exact owns

theorem prefixMatchWithCounts_live_insert :
    ∃ tree result next, after [.insert "apple".toList "A" 0] = some tree ∧
      tree.prefixMatchWithCounts .filled "apply".toList 1 = some (result, next) ∧
      live [.insert "apple".toList "A" 0] result.tenant = true := by
  obtain ⟨tree, result, next, ends, answers, answer⟩ :=
    prefixMatchWithCounts_live_iff [.insert "apple".toList "A" 0] .filled "apply".toList 1
  have marks : (after [.insert "apple".toList "A" 0]).map (fun tree =>
      ((tree.node 1).hasTenant "A", (tree.node root).hasTenant placeholder)) =
        some (true, false) := by decide +kernel
  rw [ends, Option.map_some, Option.some.injEq, Prod.mk.injEq] at marks
  refine ⟨tree, result, next, ends, answers, ((answer ⟨"A", 1, by decide, marks.1⟩).mpr ?_).1⟩
  rintro ⟨stray, _⟩
  rw [marks.2] at stray
  cases stray

/-- A match on the empty tree leaves the placeholder on the root, and later
matches answer with it although another tenant owns text. -/
theorem prefixMatchWithCounts_answers_placeholder :
    ∃ tree result next,
      after [.prefixMatchWithCounts .filled "x".toList 0, .insert "apple".toList "A" 1] =
        some tree ∧
      (tree.node 1).hasTenant "A" = true ∧
      tree.prefixMatchWithCounts .filled "zzz".toList 2 = some (result, next) ∧
      result.tenant = placeholder ∧
      live [.prefixMatchWithCounts .filled "x".toList 0, .insert "apple".toList "A" 1]
        result.tenant = false := by
  have plays : ((after [.prefixMatchWithCounts .filled "x".toList 0,
      .insert "apple".toList "A" 1]).bind fun tree =>
        (tree.prefixMatchWithCounts .filled "zzz".toList 2).map fun answer =>
          ((tree.node 1).hasTenant "A", answer.1.tenant)) = some (true, placeholder) := by
    decide +kernel
  rw [Option.bind_eq_some_iff] at plays
  obtain ⟨tree, ends, answered⟩ := plays
  obtain ⟨⟨result, next⟩, answers, same⟩ := Option.map_eq_some_iff.mp answered
  obtain ⟨owned, named⟩ := Prod.mk.inj same
  exact ⟨tree, result, next, ends, owned, answers, named, by rw [named]; decide⟩

end Answers

end SmetricRouter.PrefixTree.Tree
