import SmetricRouter.KvIndex.Scoring

/-! How much the index holds.

The index has an entry for a block exactly while some worker holds it. Nothing
compares the number of entries with the configured maximum, and no event takes a
transition away.
-/

namespace SmetricRouter.KvIndex

def hold (holdings : List (String × BlockHash)) (arrival : String × KvEvent) :
    List (String × BlockHash) :=
  (holdings.filter fun held => arrival.2.spares arrival.1 held) ++
    arrival.2.indexed.map fun hash => (arrival.1, hash)

def holdings (arrivals : List (String × KvEvent)) : List (String × BlockHash) :=
  arrivals.foldl hold []

def blocksHeld (arrivals : List (String × KvEvent)) : Nat :=
  ((holdings arrivals).map Prod.snd).dedup.length

namespace KvBlockIndex

def indexAfter (maxEntries : Nat) (arrivals : List (String × KvEvent)) : KvBlockIndex :=
  arrivals.foldl (fun index arrival => index.applyEvent arrival.1 arrival.2) (.new maxEntries)

theorem runKvIndexUpdater_eq (maxEntries : Nat) (batches : List KvEventBatch) :
    (new maxEntries).runKvIndexUpdater batches =
      indexAfter maxEntries
        (batches.flatMap fun batch => batch.events.map fun event => (batch.workerId, event)) := by
  unfold indexAfter runKvIndexUpdater
  rw [List.foldl_flatMap]
  simp only [List.foldl_map]
  rfl

variable {index : KvBlockIndex} {worker : String} {key : BlockHash} {maxEntries : Nat}

section Entries

variable {other : String} {hash : BlockHash} {parent before : Option BlockHash}
  {tokens block : List UInt32} {event : KvEvent}

def Tidy (index : KvBlockIndex) : Prop :=
  ∀ hash workers, index.locations.lookup hash = some workers → workers ≠ []

theorem tidy_new : (new maxEntries).Tidy := by
  intro _ _ found
  cases found

variable (tidy : index.Tidy)

include tidy

theorem Tidy.storeBlock (worker : String) (parent : Option BlockHash)
    (hash : BlockHash) (tokens : List UInt32) : (index.storeBlock worker parent hash tokens).Tidy :=
  Table.Filled.update_insert tidy hash worker

variable {pairs : List (BlockHash × List UInt32)}

theorem Tidy.storeBlocks : (storeBlocks worker index parent pairs).Tidy := by
  induction pairs generalizing index parent with
  | nil => exact tidy
  | cons pair _ ih => exact ih (tidy.storeBlock _ _ pair.1 pair.2)

theorem Tidy.onBlockRemoved (hash : BlockHash) (worker : String) :
    (index.onBlockRemoved hash worker).Tidy := by
  intro key _ found
  unfold KvBlockIndex.onBlockRemoved at found
  split at found
  · exact tidy key _ found
  · dsimp only at found
    split at found
    · rw [Table.lookup_erase_eq] at found
      split at found
      · cases found
      · exact tidy key _ found
    · rename_i some_left
      rw [Table.lookup_insert_eq] at found
      split at found
      · cases found
        exact some_left
      · exact tidy key _ found

theorem Tidy.removeBlocks {hashes : List BlockHash} :
    (hashes.foldl (fun index hash => index.onBlockRemoved hash worker) index).Tidy := by
  induction hashes generalizing index with
  | nil => exact tidy
  | cons _ _ ih => exact ih (tidy.onBlockRemoved _ _)

omit tidy in
theorem tidy_onAllBlocksCleared : (index.onAllBlocksCleared worker).Tidy := by
  intro _ _ found
  unfold KvBlockIndex.onAllBlocksCleared at found
  rw [Table.lookup_retain, Option.filter_eq_some_iff] at found
  exact of_decide_eq_true found.2

theorem Tidy.applyEvent (worker : String) (event : KvEvent) :
    (index.applyEvent worker event).Tidy := by
  cases event with
  | blockStored =>
    rw [applyEvent_blockStored]
    exact tidy.storeBlocks
  | blockRemoved =>
    rw [KvBlockIndex.applyEvent]
    split
    · exact tidy
    · exact tidy.removeBlocks
  | allBlocksCleared => exact tidy_onAllBlocksCleared

theorem Tidy.mem_keys :
    hash ∈ index.locations.keys ↔ ∃ worker, worker ∈ index.getWorkersForBlock hash := by
  rw [Table.mem_keys_iff]
  unfold getWorkersForBlock
  constructor
  · rintro ⟨workers, found⟩
    rw [found]
    exact List.exists_mem_of_ne_nil _ (tidy _ _ found)
  · rintro ⟨_, member⟩
    cases found : index.locations.lookup hash with
    | none =>
      rw [found] at member
      cases member
    | some workers => exact ⟨workers, rfl⟩

omit tidy

theorem mem_hold {held : List (String × BlockHash)} :
    (other, key) ∈ hold held (worker, event) ↔
      (other, key) ∈ held ∧ event.spares worker (other, key) = true ∨
        other = worker ∧ key ∈ event.indexed := by
  unfold hold
  rw [List.mem_append, List.mem_filter, List.mem_map]
  refine or_congr_right ?_
  constructor
  · rintro ⟨_, member, same⟩
    cases same
    exact ⟨rfl, member⟩
  · rintro ⟨rfl, member⟩
    exact ⟨key, member, rfl⟩

theorem storeBlock_transitions :
    (index.storeBlock worker parent hash tokens).transitions.keys ≠ [] := by
  exact List.cons_ne_nil _ _

theorem storeBlocks_transitions :
    (storeBlocks worker index parent pairs).transitions.keys = [] ↔
      index.transitions.keys = [] ∧ pairs.map Prod.fst = [] := by
  induction pairs generalizing index parent with
  | nil => exact (and_iff_left rfl).symm
  | cons _ _ ih =>
    rw [storeBlocks, ih]
    exact iff_of_false (fun both => storeBlock_transitions both.1)
      fun both => List.cons_ne_nil _ _ both.2

theorem transitions_blockRemoved {blockHashes : List BlockHash} {medium : Option String} :
    (index.applyEvent worker (.blockRemoved blockHashes medium)).transitions =
      index.transitions := by
  rw [applyEvent]
  split
  · rfl
  · exact transitions_removeBlocks

theorem filled_storeBlocks (filled : index.transitions.Filled) :
    (storeBlocks worker index parent pairs).transitions.Filled := by
  induction pairs generalizing index parent with
  | nil => exact filled
  | cons pair _ ih => exact ih (filled.update_insert ⟨parent, pair.2⟩ pair.1)

theorem filled_applyEvent (filled : index.transitions.Filled) :
    (index.applyEvent worker event).transitions.Filled := by
  cases event with
  | blockStored =>
    rw [applyEvent_blockStored]
    exact filled_storeBlocks filled
  | blockRemoved => rwa [transitions_blockRemoved]
  | allBlocksCleared => exact filled

theorem keys_transitions_applyEvent :
    (index.applyEvent worker event).transitions.keys = [] ↔
      index.transitions.keys = [] ∧ event.indexed = [] := by
  cases event with
  | blockStored => rw [applyEvent_blockStored, storeBlocks_transitions, map_fst_zip_indexed]
  | blockRemoved =>
    rw [transitions_blockRemoved]
    exact (and_iff_left rfl).symm
  | allBlocksCleared => exact (and_iff_left rfl).symm

theorem mem_successors_storeBlocks :
    key ∈ (storeBlocks worker index parent pairs).successors before block ↔
      key ∈ index.successors before block ∨
        key ∈ (storeBlocks "" (new 0) parent pairs).successors before block := by
  induction pairs generalizing worker index parent with
  | nil => exact (or_iff_left List.not_mem_nil).symm
  | cons pair _ ih =>
    rw [storeBlocks, ih, mem_successors_storeBlock, storeBlocks,
      @ih ((new 0).storeBlock "" parent pair.1 pair.2) "", mem_successors_storeBlock, or_assoc]
    exact or_congr_right (or_congr_left (or_iff_right List.not_mem_nil).symm)

/-- What an event adds to the transitions does not depend on the index. -/
theorem mem_successors_applyEvent :
    key ∈ (index.applyEvent worker event).successors before block ↔
      key ∈ index.successors before block ∨
        key ∈ ((new 0).applyEvent "" event).successors before block := by
  cases event with
  | blockStored =>
    rw [applyEvent_blockStored, applyEvent_blockStored]
    exact mem_successors_storeBlocks
  | blockRemoved =>
    unfold successors
    rw [transitions_blockRemoved, transitions_blockRemoved]
    exact (or_iff_left List.not_mem_nil).symm
  | allBlocksCleared => exact (or_iff_left List.not_mem_nil).symm

end Entries

section History

variable {arrivals : List (String × KvEvent)} {arrival : String × KvEvent}

theorem indexAfter_snoc : indexAfter maxEntries (arrivals ++ [arrival]) =
    (indexAfter maxEntries arrivals).applyEvent arrival.1 arrival.2 := by
  simp [indexAfter]

theorem holdings_snoc : holdings (arrivals ++ [arrival]) = hold (holdings arrivals) arrival := by
  simp [holdings]

/-- The index of a history against who holds what, and what was ever taken in. -/
structure Records (index : KvBlockIndex) (arrivals : List (String × KvEvent)) : Prop where
  tidy : index.Tidy
  holders : ∀ worker hash,
    worker ∈ index.getWorkersForBlock hash ↔ (worker, hash) ∈ holdings arrivals
  transitions : index.transitions.keys = [] ↔ ∀ arrival ∈ arrivals, arrival.2.indexed = []

theorem records_indexAfter (maxEntries : Nat) (arrivals : List (String × KvEvent)) :
    (indexAfter maxEntries arrivals).Records arrivals := by
  induction arrivals using List.reverseRecOn with
  | nil => exact ⟨tidy_new, by simp [indexAfter, getWorkersForBlock, new, holdings],
      iff_of_true rfl (by simp)⟩
  | append_singleton _ arrival ih =>
    rw [indexAfter_snoc]
    constructor
    · exact ih.tidy.applyEvent arrival.1 arrival.2
    · intro _ _
      rw [holdings_snoc, mem_getWorkersForBlock_applyEvent, mem_hold, ih.holders]
    · rw [keys_transitions_applyEvent, ih.transitions, List.forall_mem_append,
        List.forall_mem_singleton]

section Interleavings

theorem links_indexAfter (maxEntries : Nat) (arrivals : List (String × KvEvent)) :
    (indexAfter maxEntries arrivals).transitions.Filled ∧ ∀ key before block,
      key ∈ (indexAfter maxEntries arrivals).successors before block ↔
        ∃ arrival ∈ arrivals, key ∈ ((new 0).applyEvent "" arrival.2).successors before block := by
  induction arrivals using List.reverseRecOn with
  | nil => exact ⟨nofun, fun _ _ _ => iff_of_false List.not_mem_nil (by simp)⟩
  | append_singleton _ _ ih =>
    obtain ⟨filled, links⟩ := ih
    rw [indexAfter_snoc]
    refine ⟨filled_applyEvent filled, fun _ _ _ => ?_⟩
    rw [mem_successors_applyEvent, links]
    simp [or_and_right, exists_or]

theorem mem_holdings_own :
    (worker, key) ∈ holdings arrivals ↔
      (worker, key) ∈ holdings (arrivals.filter fun arrival => arrival.1 = worker) := by
  induction arrivals using List.reverseRecOn with
  | nil => rfl
  | append_singleton _ arrival ih =>
    rw [holdings_snoc, mem_hold, ih, List.filter_append]
    by_cases own : arrival.1 = worker
    · rw [List.filter_singleton, decide_eq_true own, cond_true, holdings_snoc, mem_hold]
    · have other : worker ≠ arrival.1 := fun same => own same.symm
      simp [own, other, spares_other other]

theorem filter_arrivals (worker : String) (batches : List KvEventBatch) :
    (batches.flatMap fun batch => batch.events.map fun event => (batch.workerId, event)).filter
      (fun arrival => arrival.1 = worker) =
        (ownEvents worker batches).map fun event => (worker, event) := by
  induction batches with
  | nil => rfl
  | cons batch _ ih =>
    rw [List.flatMap_cons, List.filter_append, ih, ownEvents_cons]
    by_cases own : batch.workerId = worker
    · simp [own]
    · simp [own]

/-- Two indexes with the same entries, whatever order their sets are in. -/
structure Same (index other : KvBlockIndex) : Prop where
  locations : ∀ hash, Option.Rel (fun left right => ∀ worker, worker ∈ left ↔ worker ∈ right)
    (index.locations.lookup hash) (other.locations.lookup hash)
  transitions : ∀ key, Option.Rel (fun left right => ∀ hash, hash ∈ left ↔ hash ∈ right)
    (index.transitions.lookup key) (other.transitions.lookup key)

/-- The index depends on what each worker reports, not on how the reports interleave,
and has no block without a holder. -/
theorem runKvIndexUpdater_interleaved (maxEntries : Nat) (left right : List KvEventBatch)
    (same : ∀ worker, ownEvents worker left = ownEvents worker right) :
    ((new maxEntries).runKvIndexUpdater left).Same ((new maxEntries).runKvIndexUpdater right) ∧
      ∀ hash workers,
        ((new maxEntries).runKvIndexUpdater left).locations.lookup hash = some workers →
          workers ≠ [] := by
  rw [runKvIndexUpdater_eq, runKvIndexUpdater_eq]
  have own worker := (filter_arrivals worker left).trans
    ((congrArg _ (same worker)).trans (filter_arrivals worker _).symm)
  generalize left.flatMap _ = left at own
  generalize right.flatMap _ = right at own
  have first := records_indexAfter maxEntries left
  have second := records_indexAfter maxEntries right
  obtain ⟨filled, links⟩ := links_indexAfter maxEntries left
  obtain ⟨others, also⟩ := links_indexAfter maxEntries right
  refine ⟨⟨?_, ?_⟩, first.tidy⟩
  · refine Table.Filled.lookup_rel first.tidy second.tidy fun hash worker => ?_
    refine (first.holders worker hash).trans (Iff.trans ?_ (second.holders _ _).symm)
    rw [mem_holdings_own, own, ← mem_holdings_own]
  · refine Table.Filled.lookup_rel filled others fun key hash => ?_
    refine (links hash key.parent key.tokens).trans
      (Iff.trans ?_ (also hash key.parent key.tokens).symm)
    have among arrival : arrival ∈ left ↔ arrival ∈ right := by
      have filtered := congrArg (arrival ∈ ·) (own arrival.1)
      simpa using filtered
    simp [among]

/-- Two workers store the same block and one of them drops it, before or after the store of
the other. -/
theorem runKvIndexUpdater_interleaved_two :
    let stores : KvEvent := .blockStored [.int 1] none [7, 8] 2 none none false
    let one : KvEventBatch := ⟨"w1", [stores], none⟩
    let drops : KvEventBatch := ⟨"w1", [.blockRemoved [.int 1] none], none⟩
    let other : KvEventBatch := ⟨"w2", [stores], none⟩
    ((new 4).runKvIndexUpdater [one, other, drops]).Same
        ((new 4).runKvIndexUpdater [one, drops, other]) ∧
      ((new 4).runKvIndexUpdater [one, other]).getWorkersForBlock (.int 1) = ["w2", "w1"] ∧
      ((new 4).runKvIndexUpdater [one, other, drops]).getWorkersForBlock (.int 1) = ["w2"] := by
  intro stores one drops other
  refine ⟨(runKvIndexUpdater_interleaved 4 _ _ fun worker => ?_).1, by decide +kernel⟩
  simp only [ownEvents_cons]
  by_cases own : "w1" = worker
  · subst own
    rfl
  · simp [one, drops, own]

end Interleavings

section

variable (records : index.Records arrivals)

include records

theorem Records.mem_keys (hash : BlockHash) :
    hash ∈ index.locations.keys ↔ hash ∈ ((holdings arrivals).map Prod.snd).dedup := by
  rw [records.tidy.mem_keys, List.mem_dedup, List.mem_map]
  constructor
  · rintro ⟨worker, holds⟩
    exact ⟨(worker, hash), (records.holders _ _).mp holds, rfl⟩
  · rintro ⟨⟨worker, _⟩, member, rfl⟩
    exact ⟨worker, (records.holders _ _).mpr member⟩

theorem Records.len_eq : index.len = blocksHeld arrivals := by
  have same : index.locations.keys.Perm ((holdings arrivals).map Prod.snd).dedup :=
    (List.perm_ext_iff_of_nodup index.locations.keys_nodup (List.nodup_dedup _)).mpr
      records.mem_keys
  exact same.length_eq

theorem Records.keys_eq_nil : index.locations.keys = [] ↔ holdings arrivals = [] := by
  have counted := records.len_eq
  unfold len blocksHeld at counted
  rw [← List.length_eq_zero_iff, counted, List.length_eq_zero_iff, List.dedup_eq_nil,
    List.map_eq_nil_iff]

end

/-- The index is bounded and left empty by workers that hold nothing, at every moment of
a history, if and only if the workers never hold more blocks than the maximum and
never hold nothing again once a block was taken in. -/
theorem bounded_iff (maxEntries : Nat) (arrivals : List (String × KvEvent)) :
    (∀ past, past <+: arrivals → (indexAfter maxEntries past).len ≤ maxEntries ∧
      (holdings past = [] → (indexAfter maxEntries past).locations.keys = [] ∧
        (indexAfter maxEntries past).transitions.keys = [])) ↔
    ∀ past, past <+: arrivals → blocksHeld past ≤ maxEntries ∧
      (holdings past = [] → ∀ arrival ∈ past, arrival.2.indexed = []) := by
  refine forall_congr' fun past => imp_congr_right fun _ => ?_
  have records := records_indexAfter maxEntries past
  rw [records.len_eq, records.transitions]
  refine and_congr_right fun _ => imp_congr_right fun nothing => ?_
  exact and_iff_right (records.keys_eq_nil.mpr nothing)

def twoBlocks : String × KvEvent :=
  ("w1", .blockStored [.int 1, .int 2] none [5, 6] 1 none none false)

/-- Two blocks are indexed where one is the maximum, and the transitions outlive the
blocks. -/
theorem bounded_fails :
    1 < (indexAfter 1 [twoBlocks]).len ∧
      holdings [twoBlocks, ("w1", .allBlocksCleared)] = [] ∧
      (indexAfter 1 [twoBlocks, ("w1", .allBlocksCleared)]).transitions.keys ≠ [] := by
  decide

/-- A worker that stays within the maximum and keeps its blocks. -/
theorem bounded_iff_two : (indexAfter 2 [twoBlocks]).len ≤ 2 := by
  refine ((bounded_iff 2 [twoBlocks]).mpr ?_ [twoBlocks] List.prefix_rfl).1
  intro _ part
  rcases List.prefix_cons_iff.mp part with rfl | ⟨_, rfl, none_left⟩
  · exact ⟨by decide, fun _ _ absent => absurd absent List.not_mem_nil⟩
  · rw [List.prefix_nil.mp none_left]
    exact ⟨by decide, fun nothing => absurd nothing (by decide)⟩

end History

end KvBlockIndex

end SmetricRouter.KvIndex
