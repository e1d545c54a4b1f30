import SmetricRouter.Library.Table

/-! The index of KV cache blocks that workers report.

Hashes are opaque names that workers give to blocks. The index learns from events
which hash follows which under a block of tokens, and which workers hold it. Hash
sets are lists here; only membership in them is ever used.
-/

namespace SmetricRouter.KvIndex

/-- Opaque block identifier emitted by vLLM. -/
inductive BlockHash where
  | bytes (value : List UInt8)
  | int (value : UInt64)
  deriving DecidableEq, Repr

inductive KvEvent where
  | blockStored (blockHashes : List BlockHash) (parentBlockHash : Option BlockHash)
      (tokenIds : List UInt32) (blockSize : Nat) (loraName : Option String)
      (medium : Option String) (hasExtraKeys : Bool)
  | blockRemoved (blockHashes : List BlockHash) (medium : Option String)
  | allBlocksCleared
  deriving DecidableEq, Repr

structure KvEventBatch where
  workerId : String
  events : List KvEvent
  sequence : Option Nat
  deriving DecidableEq, Repr

structure TransitionKey where
  parent : Option BlockHash
  tokens : List UInt32
  deriving DecidableEq, Repr

structure KvBlockIndex where
  locations : Table BlockHash (List String)
  transitions : Table TransitionKey (List BlockHash)
  maxEntries : Nat

def KvEvent.indexed : KvEvent → List BlockHash
  | .blockStored blockHashes _ tokenIds blockSize loraName medium hasExtraKeys =>
    if medium.any (· ≠ "GPU") || loraName.isSome || hasExtraKeys then []
    else if blockSize = 0 ∨ tokenIds.length < blockHashes.length * blockSize then []
    else blockHashes
  | .blockRemoved .. => []
  | .allBlocksCleared => []

def KvEvent.spares (worker : String) (held : String × BlockHash) : KvEvent → Bool
  | .blockStored .. => true
  | .blockRemoved blockHashes medium =>
    medium.any (· ≠ "GPU") || ¬ (held.1 = worker ∧ held.2 ∈ blockHashes)
  | .allBlocksCleared => held.1 ≠ worker

/-- The full chunks of a list; what is left over is dropped. -/
def chunksExact {α : Type} (size : Nat) (items : List α) : List (List α) :=
  (List.range (items.length / size)).map fun position => (items.drop (position * size)).take size

theorem length_chunksExact {α : Type} (size : Nat) (items : List α) :
    (chunksExact size items).length = items.length / size := by
  unfold chunksExact
  rw [List.length_map, List.length_range]

namespace KvBlockIndex

def new (maxEntries : Nat) : KvBlockIndex := ⟨∅, ∅, maxEntries⟩

variable (index : KvBlockIndex)

def getWorkersForBlock (blockHash : BlockHash) : List String :=
  (index.locations.lookup blockHash).getD []

def successors (parent : Option BlockHash) (tokens : List UInt32) : List BlockHash :=
  (index.transitions.lookup ⟨parent, tokens⟩).getD []

def storeBlock (workerUrl : String) (parent : Option BlockHash) (hash : BlockHash)
    (tokens : List UInt32) : KvBlockIndex :=
  { index with
    transitions := index.transitions.update ⟨parent, tokens⟩ fun known => known.insert hash
    locations := index.locations.update hash fun workers => workers.insert workerUrl }

def storeBlocks (workerUrl : String) :
    KvBlockIndex → Option BlockHash → List (BlockHash × List UInt32) → KvBlockIndex
  | index, _, [] => index
  | index, parent, (hash, tokens) :: rest =>
    storeBlocks workerUrl (index.storeBlock workerUrl parent hash tokens) (some hash) rest

/-- The index after the blocks were stored, and whether the event was accepted. -/
def onBlocksStored (blockHashes : List BlockHash) (parentBlockHash : Option BlockHash)
    (tokenIds : List UInt32) (blockSize : Nat) (workerUrl : String) : KvBlockIndex × Bool :=
  if blockSize = 0 ∨ blockHashes = [] ∨ tokenIds.length < blockHashes.length * blockSize then
    (index, false)
  else
    (storeBlocks workerUrl index parentBlockHash
      (blockHashes.zip (chunksExact blockSize tokenIds)), true)

def onBlockRemoved (blockHash : BlockHash) (workerUrl : String) : KvBlockIndex :=
  match index.locations.lookup blockHash with
  | none => index
  | some workers =>
    let left := workers.filter (· ≠ workerUrl)
    { index with
      locations :=
        if left = [] then index.locations.erase blockHash
        else index.locations.insert blockHash left }

def onAllBlocksCleared (workerUrl : String) : KvBlockIndex :=
  { index with
    locations := (index.locations.mapValues fun workers => workers.filter (· ≠ workerUrl)).retain
      fun _ workers => workers ≠ [] }

/-- The scoring loop from a position on: the hashes the block before may have, and
the workers that hold a block at every position so far. -/
def scoreFrom (index : KvBlockIndex) :
    Nat → List (Option BlockHash) → List String → Table String Nat → List (List UInt32) →
      Table String Nat
  | _, _, _, scores, [] => scores
  | position, parents, active, scores, tokens :: rest =>
    let children := (parents.flatMap fun parent => index.successors parent tokens).dedup
    if children = [] then scores
    else
      let holding := (children.flatMap index.getWorkersForBlock).dedup
      let active := if position = 0 then holding else active.filter (· ∈ holding)
      if active = [] then scores
      else
        index.scoreFrom (position + 1) (children.map some) active
          (active.foldl (fun scores worker => scores.insert worker (position + 1)) scores) rest

/-- The number of leading blocks that each worker holds, and the number of blocks. -/
def scoreTokens (tokenIds : List UInt32) (blockSize : Nat) : Table String Nat × Nat :=
  if blockSize = 0 then (∅, 0)
  else
    (index.scoreFrom 0 [none] [] ∅ (chunksExact blockSize tokenIds), tokenIds.length / blockSize)

def len : Nat := index.locations.keys.length

/-- One event of a worker, as the updater applies it. Only plain GPU blocks are
indexed. -/
def applyEvent (workerId : String) (index : KvBlockIndex) : KvEvent → KvBlockIndex
  | .blockStored blockHashes parentBlockHash tokenIds blockSize loraName medium hasExtraKeys =>
    if medium.any (· ≠ "GPU") || loraName.isSome || hasExtraKeys then index
    else (index.onBlocksStored blockHashes parentBlockHash tokenIds blockSize workerId).1
  | .blockRemoved blockHashes medium =>
    if medium.any (· ≠ "GPU") then index
    else blockHashes.foldl (fun index hash => index.onBlockRemoved hash workerId) index
  | .allBlocksCleared => index.onAllBlocksCleared workerId

def applyBatch (batch : KvEventBatch) : KvBlockIndex :=
  batch.events.foldl (applyEvent batch.workerId) index

def runKvIndexUpdater (batches : List KvEventBatch) : KvBlockIndex :=
  batches.foldl applyBatch index

variable {worker other : String} {key : BlockHash}

section Holders

variable {index} {hash : BlockHash} {parent before : Option BlockHash} {tokens block : List UInt32}

theorem mem_getWorkersForBlock_storeBlock :
    other ∈ (index.storeBlock worker parent hash tokens).getWorkersForBlock key ↔
      other ∈ index.getWorkersForBlock key ∨ other = worker ∧ key = hash := by
  unfold getWorkersForBlock storeBlock
  rw [Table.lookup_update]
  by_cases same : key = hash
  · subst same
    rw [if_pos rfl, Option.getD_some, List.mem_insert_iff, or_comm]
    exact or_congr_right (and_iff_left rfl).symm
  · rw [if_neg same]
    exact (or_iff_left fun own => same own.2).symm

theorem mem_successors_storeBlock :
    key ∈ (index.storeBlock worker parent hash tokens).successors before block ↔
      key ∈ index.successors before block ∨ key = hash ∧ before = parent ∧ block = tokens := by
  unfold successors storeBlock
  rw [Table.lookup_update]
  by_cases same : before = parent ∧ block = tokens
  · obtain ⟨rfl, rfl⟩ := same
    rw [if_pos rfl, Option.getD_some, List.mem_insert_iff, or_comm]
    exact or_congr_right (and_iff_left ⟨rfl, rfl⟩).symm
  · rw [if_neg fun keys => same (TransitionKey.mk.inj keys)]
    exact (or_iff_left fun own => same own.2).symm

theorem mem_getWorkersForBlock_storeBlocks {pairs : List (BlockHash × List UInt32)} :
    other ∈ (storeBlocks worker index parent pairs).getWorkersForBlock key ↔
      other ∈ index.getWorkersForBlock key ∨ other = worker ∧ key ∈ pairs.map Prod.fst := by
  induction pairs generalizing index parent with
  | nil => simp [storeBlocks]
  | cons _ _ ih =>
    rw [storeBlocks, ih, mem_getWorkersForBlock_storeBlock, List.map_cons, List.mem_cons, or_assoc,
      ← and_or_left]

theorem mem_getWorkersForBlock_onBlockRemoved :
    other ∈ (index.onBlockRemoved hash worker).getWorkersForBlock key ↔
      other ∈ index.getWorkersForBlock key ∧ ¬ (other = worker ∧ key = hash) := by
  unfold onBlockRemoved getWorkersForBlock
  cases found : index.locations.lookup hash with
  | none =>
    refine (and_iff_left_of_imp ?_).symm
    rintro held ⟨_, rfl⟩
    rw [found] at held
    cases held
  | some workers =>
    have kept : other ∈ workers.filter (· ≠ worker) ↔ other ∈ workers ∧ other ≠ worker := by
      rw [List.mem_filter, decide_eq_true_eq]
    by_cases same : key = hash
    · subst same
      simp only [found, Option.getD_some, and_true]
      rw [← kept]
      split
      · rename_i none_left
        rw [Table.lookup_erase_eq, if_pos rfl, none_left]
        rfl
      · rw [Table.lookup_insert_eq, if_pos rfl]
        rfl
    · simp only [same, and_false, not_false_eq_true, and_true]
      split
      · rw [Table.lookup_erase_eq, if_neg same]
      · rw [Table.lookup_insert_eq, if_neg same]

variable {hashes : List BlockHash}

theorem mem_getWorkersForBlock_removeBlocks :
    other ∈ (hashes.foldl (fun index hash => index.onBlockRemoved hash worker)
        index).getWorkersForBlock key ↔
      other ∈ index.getWorkersForBlock key ∧ ¬ (other = worker ∧ key ∈ hashes) := by
  induction hashes generalizing index with
  | nil => simp
  | cons _ _ ih =>
    rw [List.foldl_cons, ih, mem_getWorkersForBlock_onBlockRemoved, and_assoc, ← not_or,
      ← and_or_left, List.mem_cons]

theorem mem_getWorkersForBlock_onAllBlocksCleared :
    other ∈ (index.onAllBlocksCleared worker).getWorkersForBlock key ↔
      other ∈ index.getWorkersForBlock key ∧ other ≠ worker := by
  unfold onAllBlocksCleared getWorkersForBlock
  rw [Table.lookup_retain, Table.lookup_mapValues]
  cases index.locations.lookup key with
  | none => simp
  | some workers =>
    have kept : other ∈ workers.filter (· ≠ worker) ↔ other ∈ workers ∧ other ≠ worker := by
      rw [List.mem_filter, decide_eq_true_eq]
    rw [Option.map_some, Option.getD_some, ← kept, Option.filter_some]
    split
    · rfl
    · rename_i none_left
      rw [decide_eq_true_eq, not_not] at none_left
      rw [none_left]
      rfl

theorem transitions_removeBlocks :
    (hashes.foldl (fun index hash => index.onBlockRemoved hash worker) index).transitions =
      index.transitions := by
  induction hashes generalizing index with
  | nil => rfl
  | cons _ _ ih =>
    rw [List.foldl_cons, ih, onBlockRemoved]
    split <;> rfl

end Holders

section Events

variable {index} {event : KvEvent} {blockHashes : List BlockHash}
  {parentBlockHash : Option BlockHash} {tokenIds : List UInt32} {blockSize : Nat}
  {loraName medium : Option String} {hasExtraKeys : Bool}

/-- A stored event stores what it has indexed, which is nothing if it is ignored. -/
theorem applyEvent_blockStored :
    index.applyEvent worker (.blockStored blockHashes parentBlockHash tokenIds blockSize loraName
      medium hasExtraKeys) = storeBlocks worker index parentBlockHash
        ((KvEvent.blockStored blockHashes parentBlockHash tokenIds blockSize loraName medium
          hasExtraKeys).indexed.zip (chunksExact blockSize tokenIds)) := by
  rw [applyEvent, onBlocksStored, KvEvent.indexed]
  split
  · rfl
  · by_cases none_stored : blockHashes = []
    · simp [none_stored, storeBlocks]
    · simp only [none_stored, false_or]
      split <;> rfl

theorem map_fst_zip_indexed :
    ((KvEvent.blockStored blockHashes parentBlockHash tokenIds blockSize loraName medium
      hasExtraKeys).indexed.zip (chunksExact blockSize tokenIds)).map Prod.fst =
        (KvEvent.blockStored blockHashes parentBlockHash tokenIds blockSize loraName medium
          hasExtraKeys).indexed := by
  apply List.map_fst_zip
  rw [length_chunksExact, KvEvent.indexed]
  split
  · exact Nat.zero_le _
  · split
    · exact Nat.zero_le _
    · rename_i accepted
      rw [not_or, Nat.not_lt] at accepted
      exact (Nat.le_div_iff_mul_le (Nat.pos_of_ne_zero accepted.1)).mpr accepted.2

theorem mem_getWorkersForBlock_applyEvent :
    other ∈ (index.applyEvent worker event).getWorkersForBlock key ↔
      other ∈ index.getWorkersForBlock key ∧ event.spares worker (other, key) = true ∨
        other = worker ∧ key ∈ event.indexed := by
  cases event with
  | blockStored =>
    rw [applyEvent_blockStored, mem_getWorkersForBlock_storeBlocks, map_fst_zip_indexed]
    exact or_congr_left (and_iff_left rfl).symm
  | blockRemoved _ medium =>
    rw [applyEvent, KvEvent.spares, KvEvent.indexed]
    generalize medium.any (· ≠ "GPU") = elsewhere
    cases elsewhere with
    | true => simp
    | false =>
      rw [if_neg Bool.false_ne_true, mem_getWorkersForBlock_removeBlocks, Bool.false_or,
        decide_eq_true_eq]
      simp
  | allBlocksCleared =>
    rw [applyEvent, KvEvent.spares, KvEvent.indexed, mem_getWorkersForBlock_onAllBlocksCleared]
    simp

theorem spares_other (differs : other ≠ worker) : event.spares worker (other, key) = true := by
  cases event <;> simp [KvEvent.spares, differs]

end Events

end KvBlockIndex

end SmetricRouter.KvIndex
