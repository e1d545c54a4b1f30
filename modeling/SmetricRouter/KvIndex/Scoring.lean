import SmetricRouter.KvIndex.Index
import Mathlib.Data.Countable.Basic
import Mathlib.Data.List.Dedup
import Mathlib.Data.Set.Basic
import Mathlib.Logic.Equiv.List

/-! Scores against a replay of each worker's own events.

A worker's cache is what its events say: stored blocks until they are removed or
everything is cleared. The index credits each worker with its own cache whatever
the other workers report in between. If blocks are named by their parent and their
tokens, the score of a worker is the number of leading blocks of the prompt that
are all in its cache.
-/

namespace SmetricRouter.KvIndex

variable {held : Set BlockHash}

section Replay

def KvEvent.replay (held : Set BlockHash) : KvEvent → Set BlockHash
  | .blockStored blockHashes _ _ _ _ _ _ => held ∪ {hash | hash ∈ blockHashes}
  | .blockRemoved blockHashes _ => held \ {hash | hash ∈ blockHashes}
  | .allBlocksCleared => ∅

def replay (held : Set BlockHash) (events : List KvEvent) : Set BlockHash :=
  events.foldl KvEvent.replay held

def ownEvents (worker : String) (batches : List KvEventBatch) : List KvEvent :=
  (batches.filter fun batch => batch.workerId = worker).flatMap KvEventBatch.events

def OnGpu (medium : Option String) : Prop := medium = none ∨ medium = some "GPU"

/-- A well-formed event about plain GPU blocks of the given size. -/
def KvEvent.Plain (size : Nat) : KvEvent → Prop
  | .blockStored blockHashes _ tokenIds blockSize loraName medium hasExtraKeys =>
    OnGpu medium ∧ loraName = none ∧ hasExtraKeys = false ∧ blockSize = size ∧ 0 < size ∧
      blockHashes ≠ [] ∧ blockHashes.length * size ≤ tokenIds.length
  | .blockRemoved _ medium => OnGpu medium
  | .allBlocksCleared => True

theorem ownEvents_cons (worker : String) (batch : KvEventBatch) (rest : List KvEventBatch) :
    ownEvents worker (batch :: rest) =
      (if batch.workerId = worker then batch.events else []) ++ ownEvents worker rest := by
  unfold ownEvents
  by_cases own : batch.workerId = worker
  · simp [own]
  · simp [own]

theorem replay_append (held : Set BlockHash) (first second : List KvEvent) :
    replay held (first ++ second) = replay (replay held first) second :=
  List.foldl_append

variable {more : Set BlockHash}

theorem KvEvent.replay_mono (event : KvEvent) (part : held ⊆ more) :
    event.replay held ⊆ event.replay more := by
  cases event with
  | blockStored => exact Set.union_subset_union_left _ part
  | blockRemoved => exact fun _ kept => ⟨part kept.1, kept.2⟩
  | allBlocksCleared => exact Set.Subset.refl _

theorem replay_mono (events : List KvEvent) (part : held ⊆ more) :
    replay held events ⊆ replay more events := by
  induction events generalizing held more with
  | nil => exact part
  | cons event _ ih => exact ih (event.replay_mono part)

end Replay

variable {index : KvBlockIndex} {worker : String} {size : Nat} {event : KvEvent}
  {batch : KvEventBatch} {batches : List KvEventBatch}

namespace KvBlockIndex

def credited (index : KvBlockIndex) (worker : String) : Set BlockHash :=
  {hash | worker ∈ index.getWorkersForBlock hash}

variable {other : String}

theorem any_ne_gpu_of_onGpu {medium : Option String} (onGpu : OnGpu medium) :
    medium.any (· ≠ "GPU") = false := by
  rcases onGpu with rfl | rfl <;> rfl

theorem credited_applyEvent (plain : event.Plain size) :
    (index.applyEvent worker event).credited worker = event.replay (index.credited worker) := by
  ext hash
  refine mem_getWorkersForBlock_applyEvent.trans ?_
  cases event with
  | blockStored blockHashes _ tokenIds blockSize =>
    obtain ⟨onGpu, rfl, rfl, rfl, _, _, _⟩ := plain
    have accepted : ¬ (blockSize = 0 ∨ tokenIds.length < blockHashes.length * blockSize) := by
      omega
    rw [KvEvent.indexed, any_ne_gpu_of_onGpu onGpu, if_neg accepted]
    exact or_congr (and_iff_left rfl) (and_iff_right rfl)
  | blockRemoved =>
    rw [KvEvent.spares, any_ne_gpu_of_onGpu plain]
    simp [KvEvent.indexed, KvEvent.replay, credited]
  | allBlocksCleared => simp [KvEvent.spares, KvEvent.indexed, KvEvent.replay]

theorem credited_applyEvent_other (differs : other ≠ worker) :
    (index.applyEvent other event).credited worker = index.credited worker := by
  ext hash
  refine mem_getWorkersForBlock_applyEvent.trans ?_
  rw [spares_other differs.symm, and_iff_left rfl]
  exact or_iff_left fun own => differs own.1.symm

variable {events : List KvEvent}

theorem credited_applyEvents (plain : ∀ event ∈ events, ∃ size, event.Plain size) :
    (events.foldl (applyEvent worker) index).credited worker =
      replay (index.credited worker) events := by
  induction events generalizing index with
  | nil => rfl
  | cons _ _ ih =>
    obtain ⟨_, first⟩ := plain _ List.mem_cons_self
    rw [List.foldl_cons, ih fun later member => plain later (List.mem_cons_of_mem _ member),
      credited_applyEvent first]
    rfl

theorem credited_applyEvents_other (differs : other ≠ worker) :
    (events.foldl (applyEvent other) index).credited worker = index.credited worker := by
  induction events generalizing index with
  | nil => rfl
  | cons _ _ ih => rw [List.foldl_cons, ih, credited_applyEvent_other differs]

theorem credited_applyBatch_other (differs : batch.workerId ≠ worker) :
    (index.applyBatch batch).credited worker = index.credited worker :=
  credited_applyEvents_other differs

theorem credited_runKvIndexUpdater
    (plain : ∀ batch ∈ batches, ∀ event ∈ batch.events, event.Plain size) :
    (index.runKvIndexUpdater batches).credited worker =
      replay (index.credited worker) (ownEvents worker batches) := by
  induction batches generalizing index with
  | nil => rfl
  | cons batch rest ih =>
    have later := @ih (index.applyBatch batch) fun _ member =>
      plain _ (List.mem_cons_of_mem _ member)
    change (runKvIndexUpdater (index.applyBatch batch) rest).credited worker = _
    rw [later, ownEvents_cons]
    by_cases own : batch.workerId = worker
    · subst own
      rw [if_pos rfl, replay_append, ← credited_applyEvents fun event member =>
        ⟨size, plain batch List.mem_cons_self event member⟩]
      rfl
    · rw [if_neg own, List.nil_append, credited_applyBatch_other own]

end KvBlockIndex

variable {hashes : List BlockHash} {count : Nat}

section Naming

def BlockHash.value : BlockHash → List UInt8 ⊕ UInt64
  | .bytes value => .inl value
  | .int value => .inr value

/-- How a block is named: by the hash before it and its tokens. -/
abbrev Naming : Type := Option BlockHash → List UInt32 → BlockHash

/-- Blocks that follow one another are named that way. -/
def Named (hashOf : Naming) : Option BlockHash → List (BlockHash × List UInt32) → Prop
  | _, [] => True
  | parent, (hash, tokens) :: rest => hash = hashOf parent tokens ∧ Named hashOf (some hash) rest

def KvEvent.Named (hashOf : Naming) : KvEvent → Prop
  | .blockStored blockHashes parentBlockHash tokenIds blockSize _ _ _ =>
    KvIndex.Named hashOf parentBlockHash (blockHashes.zip (chunksExact blockSize tokenIds))
  | _ => True

def promptHashes (hashOf : Naming) : Option BlockHash → List (List UInt32) → List BlockHash
  | _, [] => []
  | parent, tokens :: rest => hashOf parent tokens :: promptHashes hashOf (some (hashOf parent tokens)) rest

/-- The longest run of leading hashes that are all held. -/
structure LongestHeld (held : Set BlockHash) (hashes : List BlockHash) (count : Nat) : Prop where
  within : count ≤ hashes.length
  all : ∀ hash ∈ hashes.take count, hash ∈ held
  longest : ∀ longer ≤ hashes.length, (∀ hash ∈ hashes.take longer, hash ∈ held) → longer ≤ count

variable {hash : BlockHash} {rest : List BlockHash}

theorem LongestHeld.nil : LongestHeld held [] 0 :=
  ⟨Nat.le_refl 0, nofun, fun _ within _ => within⟩

theorem LongestHeld.miss (missing : hash ∉ held) : LongestHeld held (hash :: rest) 0 := by
  refine ⟨Nat.zero_le _, nofun, fun longer _ all => ?_⟩
  cases longer with
  | zero => exact Nat.le_refl 0
  | succ => exact (missing (all _ List.mem_cons_self)).elim

theorem LongestHeld.hit (present : hash ∈ held) (longest : LongestHeld held rest count) :
    LongestHeld held (hash :: rest) (count + 1) := by
  refine ⟨Nat.succ_le_succ longest.within, ?_, ?_⟩
  · intro _ member
    rcases List.mem_cons.mp member with rfl | later
    · exact present
    · exact longest.all _ later
  · intro longer within all
    cases longer with
    | zero => exact Nat.zero_le _
    | succ longer =>
      refine Nat.succ_le_succ (longest.longest _ (Nat.le_of_succ_le_succ within) ?_)
      exact fun _ member => all _ (List.mem_cons_of_mem _ member)

theorem LongestHeld.unique {other : Nat} (first : LongestHeld held hashes count)
    (second : LongestHeld held hashes other) : count = other :=
  Nat.le_antisymm (second.longest _ first.within first.all)
    (first.longest other second.within second.all)

theorem exists_longestHeld (held : Set BlockHash) (hashes : List BlockHash) :
    ∃ count, LongestHeld held hashes count := by
  induction hashes with
  | nil => exact ⟨0, .nil⟩
  | cons hash _ ih =>
    by_cases present : hash ∈ held
    · obtain ⟨count, longest⟩ := ih
      exact ⟨count + 1, .hit present longest⟩
    · exact ⟨0, .miss present⟩

end Naming

namespace KvBlockIndex

variable {hashOf : Naming} {parent : Option BlockHash}

/-- Every transition names its block rightly, and every block that some worker holds
has its transition. -/
structure Learned (index : KvBlockIndex) (hashOf : Naming) : Prop where
  right : ∀ {parent tokens hash}, hash ∈ index.successors parent tokens → hash = hashOf parent tokens
  known : ∀ {worker hash}, hash ∈ index.credited worker →
    ∃ parent tokens, hash ∈ index.successors parent tokens

theorem learned_new (maxEntries : Nat) : (new maxEntries).Learned hashOf where
  right := nofun
  known := nofun

variable (learned : index.Learned hashOf)

include learned

theorem Learned.storeBlock (worker : String) (parent : Option BlockHash) (tokens : List UInt32) :
    (index.storeBlock worker parent (hashOf parent tokens) tokens).Learned hashOf where
  right found := by
    rcases mem_successors_storeBlock.mp found with old | ⟨rfl, rfl, rfl⟩
    · exact learned.right old
    · rfl
  known held := by
    rcases mem_getWorkersForBlock_storeBlock.mp held with old | ⟨_, rfl⟩
    · obtain ⟨before, block, found⟩ := learned.known old
      exact ⟨before, block, mem_successors_storeBlock.mpr (.inl found)⟩
    · exact ⟨parent, tokens, mem_successors_storeBlock.mpr (.inr ⟨rfl, rfl, rfl⟩)⟩

theorem Learned.storeBlocks {pairs : List (BlockHash × List UInt32)}
    (named : Named hashOf parent pairs) :
    (storeBlocks worker index parent pairs).Learned hashOf := by
  induction pairs generalizing index parent with
  | nil => exact learned
  | cons pair _ ih =>
    obtain ⟨_, tokens⟩ := pair
    obtain ⟨rfl, later⟩ := named
    exact ih (learned.storeBlock _ _ _) later

theorem Learned.shrink {less : KvBlockIndex} (same : less.transitions = index.transitions)
    (fewer : ∀ worker, less.credited worker ⊆ index.credited worker) : less.Learned hashOf := by
  have follow : less.successors = index.successors := by
    unfold successors
    rw [same]
  constructor
  · exact fun found => learned.right (follow ▸ found)
  · rw [follow]
    exact fun held => learned.known (fewer _ held)

theorem Learned.applyEvent (named : event.Named hashOf) (worker : String) :
    (index.applyEvent worker event).Learned hashOf := by
  cases event with
  | blockStored =>
    rw [applyEvent_blockStored, KvEvent.indexed]
    split
    · exact learned
    · split
      · exact learned
      · exact learned.storeBlocks named
  | blockRemoved =>
    rw [KvBlockIndex.applyEvent]
    split
    · exact learned
    · refine learned.shrink transitions_removeBlocks fun _ _ held => ?_
      exact (mem_getWorkersForBlock_removeBlocks.mp held).1
  | allBlocksCleared =>
    refine learned.shrink rfl fun _ _ held => ?_
    exact (mem_getWorkersForBlock_onAllBlocksCleared.mp held).1

theorem Learned.applyBatch (named : ∀ event ∈ batch.events, event.Named hashOf) :
    (index.applyBatch batch).Learned hashOf := by
  unfold KvBlockIndex.applyBatch
  generalize batch.events = events at named
  induction events generalizing index with
  | nil => exact learned
  | cons _ _ ih =>
    exact ih (learned.applyEvent (named _ List.mem_cons_self) batch.workerId)
      fun later member => named _ (List.mem_cons_of_mem _ member)

theorem Learned.runKvIndexUpdater
    (named : ∀ batch ∈ batches, ∀ event ∈ batch.events, event.Named hashOf) :
    (index.runKvIndexUpdater batches).Learned hashOf := by
  induction batches generalizing index with
  | nil => exact learned
  | cons _ _ ih =>
    exact ih (learned.applyBatch (named _ List.mem_cons_self))
      fun later member => named _ (List.mem_cons_of_mem _ member)

omit learned

def children (index : KvBlockIndex) (parents : List (Option BlockHash)) (tokens : List UInt32) :
    List BlockHash :=
  (parents.flatMap fun parent => index.successors parent tokens).dedup

def holding (index : KvBlockIndex) (hashes : List BlockHash) : List String :=
  (hashes.flatMap index.getWorkersForBlock).dedup

def racing (index : KvBlockIndex) (position : Nat) (active : List String)
    (hashes : List BlockHash) : List String :=
  if position = 0 then index.holding hashes else active.filter (· ∈ index.holding hashes)

theorem scoreFrom_cons (position : Nat) (parents : List (Option BlockHash)) (active : List String)
    (scores : Table String Nat) (tokens : List UInt32) (rest : List (List UInt32)) :
    index.scoreFrom position parents active scores (tokens :: rest) =
      if index.children parents tokens = [] then scores
      else if index.racing position active (index.children parents tokens) = [] then scores
      else
        index.scoreFrom (position + 1) ((index.children parents tokens).map some)
          (index.racing position active (index.children parents tokens))
          ((index.racing position active (index.children parents tokens)).foldl
            (fun scores worker => scores.insert worker (position + 1)) scores) rest := rfl

variable {parents : List (Option BlockHash)} {position : Nat} {active : List String}

section Round

variable {tokens : List UInt32}

theorem mem_children (only : ∀ before, before ∈ parents ↔ before = parent) (hash : BlockHash) :
    hash ∈ index.children parents tokens ↔ hash ∈ index.successors parent tokens := by
  rw [children, List.mem_dedup, List.mem_flatMap]
  constructor
  · rintro ⟨_, member, found⟩
    exact (only _).mp member ▸ found
  · exact fun found => ⟨parent, (only _).mpr rfl, found⟩

theorem Learned.mem_children_of_held (learned : index.Learned hashOf)
    (distinct : Function.Injective2 hashOf) (only : ∀ before, before ∈ parents ↔ before = parent)
    (holds : hashOf parent tokens ∈ index.credited worker) :
    hashOf parent tokens ∈ index.children parents tokens := by
  obtain ⟨_, _, found⟩ := learned.known holds
  obtain ⟨rfl, rfl⟩ := distinct (learned.right found)
  exact (mem_children only _).mpr found

theorem Learned.mem_children_iff (learned : index.Learned hashOf)
    (only : ∀ before, before ∈ parents ↔ before = parent)
    (known : index.children parents tokens ≠ []) (hash : BlockHash) :
    hash ∈ index.children parents tokens ↔ hash = hashOf parent tokens := by
  obtain ⟨found, member⟩ := List.exists_mem_of_ne_nil _ known
  have named := learned.right ((mem_children only found).mp member)
  constructor
  · exact fun other => learned.right ((mem_children only hash).mp other)
  · rintro rfl
    exact named ▸ member

variable {block : BlockHash}

variable (single : ∀ hash, hash ∈ hashes ↔ hash = block)

include single

theorem mem_racing (other : String) :
    other ∈ index.racing position active hashes ↔
      (position = 0 ∨ other ∈ active) ∧ block ∈ index.credited other := by
  have holds : other ∈ index.holding hashes ↔ block ∈ index.credited other := by
    rw [holding, List.mem_dedup, List.mem_flatMap]
    constructor
    · rintro ⟨_, member, holds⟩
      exact (single _).mp member ▸ holds
    · exact fun holds => ⟨_, (single _).mpr rfl, holds⟩
  unfold racing
  split
  · rename_i first
    rw [holds]
    exact (and_iff_right (.inl first)).symm
  · rename_i later
    rw [List.mem_filter, decide_eq_true_eq, holds]
    exact and_congr_left fun _ => (or_iff_right later).symm

theorem mem_map_some (before : Option BlockHash) :
    before ∈ hashes.map some ↔ before = some block := by
  rw [List.mem_map]
  constructor
  · rintro ⟨hash, member, rfl⟩
    rw [(single hash).mp member]
  · rintro rfl
    exact ⟨_, (single _).mpr rfl, rfl⟩

end Round

theorem scoreFrom_lookup (learned : index.Learned hashOf) (distinct : Function.Injective2 hashOf)
    {scores : Table String Nat} {chunks : List (List UInt32)}
    (only : ∀ before, before ∈ parents ↔ before = parent)
    (longest : LongestHeld (index.credited worker) (promptHashes hashOf parent chunks) count) :
    (index.scoreFrom position parents active scores chunks).lookup worker =
      if count ≠ 0 ∧ (position = 0 ∨ worker ∈ active) then some (position + count)
      else scores.lookup worker := by
  induction chunks generalizing position parent parents active scores count with
  | nil =>
    obtain rfl := longest.unique .nil
    rfl
  | cons tokens rest ih =>
    rw [scoreFrom_cons]
    by_cases unknown : index.children parents tokens = []
    · have missing : hashOf parent tokens ∉ index.credited worker := by
        intro holds
        have member := learned.mem_children_of_held distinct only holds
        rw [unknown] at member
        cases member
      obtain rfl := longest.unique (.miss missing)
      rw [if_pos unknown, if_neg fun both => both.1 rfl]
    · have single := learned.mem_children_iff only unknown
      have races other :
          other ∈ index.racing position active (index.children parents tokens) ↔
            (position = 0 ∨ other ∈ active) ∧ hashOf parent tokens ∈ index.credited other :=
        mem_racing single other
      rw [if_neg unknown]
      generalize index.racing position active (index.children parents tokens) = still at races ⊢
      obtain ⟨more, further⟩ := exists_longestHeld (index.credited worker)
        (promptHashes hashOf (some (hashOf parent _)) _)
      by_cases racing : worker ∈ still
      · obtain ⟨eligible, holds⟩ := (races worker).mp racing
        obtain rfl := longest.unique (.hit holds further)
        rw [if_neg (List.ne_nil_of_mem racing), if_pos ⟨Nat.succ_ne_zero more, eligible⟩,
          ih (mem_map_some single) further, Table.lookup_foldl_insert, if_pos racing]
        by_cases ended : more = 0
        · rw [if_neg fun both => both.1 ended, ended]
        · rw [if_pos ⟨ended, .inr racing⟩, Nat.add_right_comm, Nat.add_assoc]
      · have uncounted : ¬ (count ≠ 0 ∧ (position = 0 ∨ worker ∈ active)) := by
          rintro ⟨some_held, eligible⟩
          have missing : hashOf parent tokens ∉ index.credited worker := fun holds =>
            racing ((races worker).mpr ⟨eligible, holds⟩)
          exact some_held (longest.unique (.miss missing))
        split
        · rfl
        · -- Who is out of the race keeps the score it had.
          rw [ih (mem_map_some single) further, Table.lookup_foldl_insert, if_neg racing, if_neg]
          rintro ⟨_, zero | member⟩
          · exact Nat.succ_ne_zero position zero
          · exact racing member

/-- After any events of any workers, the score of a worker is the number of leading
blocks of the prompt that are all in its own cache. -/
theorem scoreTokens_longestHeld (hashOf : Naming) (distinct : Function.Injective2 hashOf)
    (size maxEntries : Nat) (positive : 0 < size) (batches : List KvEventBatch)
    (plain : ∀ batch ∈ batches, ∀ event ∈ batch.events, event.Plain size)
    (named : ∀ batch ∈ batches, ∀ event ∈ batch.events, event.Named hashOf)
    (tokenIds : List UInt32) (worker : String) :
    LongestHeld (replay ∅ (ownEvents worker batches))
      (promptHashes hashOf none (chunksExact size tokenIds))
      (((((new maxEntries).runKvIndexUpdater batches).scoreTokens tokenIds size).1.lookup
        worker).getD 0) := by
  have learned := (learned_new maxEntries).runKvIndexUpdater named
  have nothing : (new maxEntries).credited worker = ∅ := Set.eq_empty_of_forall_notMem nofun
  have credit : ((new maxEntries).runKvIndexUpdater batches).credited worker =
      replay ∅ (ownEvents worker batches) := by
    rw [credited_runKvIndexUpdater plain, nothing]
  obtain ⟨count, longest⟩ := exists_longestHeld (replay ∅ (ownEvents _ _))
    (promptHashes _ none (chunksExact _ _))
  rw [scoreTokens, if_neg (Nat.ne_of_gt positive),
    scoreFrom_lookup learned distinct (fun _ => List.mem_singleton) (credit ▸ longest)]
  split
  · rwa [Nat.zero_add]
  · rename_i ended
    have none_held : count = 0 := by
      by_contra some_held
      exact ended ⟨some_held, .inl rfl⟩
    rw [none_held] at longest
    exact longest

theorem exists_distinct_naming : ∃ hashOf : Naming, Function.Injective2 hashOf := by
  have bytes : Countable UInt8 := Function.Injective.countable fun _ _ => UInt8.toNat_inj.mp
  have words : Countable UInt32 := Function.Injective.countable fun _ _ => UInt32.toNat_inj.mp
  have longs : Countable UInt64 := Function.Injective.countable fun _ _ => UInt64.toNat_inj.mp
  have hashes : Countable BlockHash := by
    refine Function.Injective.countable (f := BlockHash.value) ?_
    rintro (_ | _) (_ | _) same
    · exact congrArg _ (Sum.inl.inj same)
    · cases same
    · cases same
    · exact congrArg _ (Sum.inr.inj same)
  obtain ⟨number, injective⟩ := exists_injective_nat (Option BlockHash × List UInt32)
  refine ⟨fun parent tokens => .bytes (List.replicate (number (parent, tokens)) 0), ?_⟩
  intro _ _ _ _ same
  have lengths := congrArg List.length (BlockHash.bytes.inj same)
  rw [List.length_replicate, List.length_replicate] at lengths
  exact Prod.mk.inj (injective lengths)

/-- Two workers store a chain of two blocks, and one of them drops the second. -/
theorem scoreTokens_longestHeld_stored : ∃ hashOf : Naming, Function.Injective2 hashOf ∧
    let first := hashOf none [1, 2]
    let second := hashOf (some first) [3, 4]
    let stored : KvEvent := .blockStored [first, second] none [1, 2, 3, 4] 2 none (some "GPU") false
    let scores := (((new 10).runKvIndexUpdater [⟨"v", [stored], none⟩,
      ⟨"w", [stored, .blockRemoved [second] none], none⟩]).scoreTokens [1, 2, 3, 4, 5] 2).1
    (scores.lookup "v").getD 0 = 2 ∧ (scores.lookup "w").getD 0 = 1 := by
  obtain ⟨hashOf, distinct⟩ := exists_distinct_naming
  refine ⟨hashOf, distinct, ?_⟩
  intro first second stored scores
  have differs : first ≠ second := fun same => nomatch (distinct same).1
  have plain : stored.Plain 2 :=
    ⟨.inr rfl, rfl, rfl, rfl, by decide, List.cons_ne_nil _ _, Nat.le_refl 4⟩
  have named : stored.Named hashOf := ⟨rfl, rfl, trivial⟩
  have droppedPlain : KvEvent.Plain 2 (.blockRemoved [second] none) := .inl rfl
  have droppedNamed : KvEvent.Named hashOf (.blockRemoved [second] none) := trivial
  have longest := scoreTokens_longestHeld hashOf distinct 2 10 (by decide) [⟨"v", [stored], none⟩,
    ⟨"w", [stored, .blockRemoved [second] none], none⟩]
    (by simp [plain, droppedPlain]) (by simp [named, droppedNamed]) [1, 2, 3, 4, 5]
  refine ⟨(longest "v").unique (.hit ?_ (.hit ?_ .nil)), (longest "w").unique (.hit ?_ (.miss ?_))⟩
  all_goals simp [ownEvents, replay, KvEvent.replay, stored, first, second, differs]

end KvBlockIndex

end SmetricRouter.KvIndex
