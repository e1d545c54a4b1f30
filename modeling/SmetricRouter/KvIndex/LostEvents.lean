import SmetricRouter.KvIndex.Decoder
import SmetricRouter.KvIndex.Occupancy
import SmetricRouter.KvIndex.Subscription

/-! Batches that arrive in order with events that cannot be decoded.

The decoder leaves such an event out and the sequence numbers do not show it. A lost
store is harmless; a lost removal leaves its blocks credited to the worker.
-/

namespace SmetricRouter.KvIndex

open KvBlockIndex

section Cache

def KvEvent.stored : KvEvent → List BlockHash
  | .blockStored blockHashes _ _ _ _ medium _ => if medium.any (· ≠ "GPU") then [] else blockHashes
  | .blockRemoved .. => []
  | .allBlocksCleared => []

def KvEvent.evicts (hash : BlockHash) : KvEvent → Bool
  | .blockStored .. => false
  | .blockRemoved blockHashes medium => !medium.any (· ≠ "GPU") && hash ∈ blockHashes
  | .allBlocksCleared => true

def KvEvent.cache (held : Set BlockHash) (event : KvEvent) : Set BlockHash :=
  {hash | hash ∈ held ∧ event.evicts hash = false ∨ hash ∈ event.stored}

theorem KvEvent.spares_own (event : KvEvent) (worker : String) (hash : BlockHash) :
    event.spares worker (worker, hash) = !event.evicts hash := by
  cases event with
  | blockStored => rfl
  | blockRemoved _ medium =>
    rw [spares, evicts]
    cases medium.any (· ≠ "GPU") <;> simp
  | allBlocksCleared => simp [spares, evicts]

variable {event : KvEvent} {hash : BlockHash}

theorem KvEvent.stored_of_indexed (taken : hash ∈ event.indexed) : hash ∈ event.stored := by
  cases event with
  | blockStored =>
    rw [indexed] at taken
    rw [stored]
    split at taken
    · cases taken
    · rename_i plain
      rw [Bool.not_eq_true, Bool.or_eq_false_iff, Bool.or_eq_false_iff] at plain
      split at taken
      · cases taken
      · rw [plain.1.1]
        exact taken
  | blockRemoved | _ => cases taken

variable {index : KvBlockIndex} {worker : String}

theorem KvBlockIndex.mem_credited_applyEvent :
    hash ∈ (index.applyEvent worker event).credited worker ↔
      hash ∈ index.credited worker ∧ event.evicts hash = false ∨ hash ∈ event.indexed := by
  change worker ∈ getWorkersForBlock _ hash ↔ worker ∈ getWorkersForBlock _ hash ∧ _ ∨ _
  rw [mem_getWorkersForBlock_applyEvent, KvEvent.spares_own, Bool.not_eq_true', and_iff_right rfl]

end Cache

section Run

variable (readValue : List UInt8 → Except String MsgValue) (debug : MsgValue → String)
  (workerId : String)

/-- An event of the worker and what it writes for it, which decodes to the event or
not at all. -/
structure Sent where
  event : KvEvent
  raw : MsgValue
  faithful : ∀ decoded, decodeSingleEvent debug raw = .ok decoded → decoded = event

/-- A batch that the decoder accepts, whatever becomes of its events. -/
structure Published where
  sent : List (Sent debug)
  payload : List UInt8
  decodes : decodeEventBatch readValue debug payload = .ok (decodeEvents debug (sent.map Sent.raw))

/-- What reaches the updater: the next batch of the worker, or one of another worker. -/
inductive Delivery where
  | published (batch : Published readValue debug)
  | foreign (batch : KvEventBatch) (other : batch.workerId ≠ workerId)

variable {readValue debug workerId}

def Sent.lost (sent : Sent debug) : Bool := (decodeSingleEvent debug sent.raw).toOption.isNone

def Delivery.sent : Delivery readValue debug workerId → List (Sent debug)
  | .published batch => batch.sent
  | .foreign .. => []

/-- The worker numbers its batches one after the other, and none is lost. -/
def Link.deliver (topic : List UInt8) (start : Nat) (link : Link) :
    Delivery readValue debug workerId → Link
  | .published batch =>
    let (lastSequence, forwarded) := receive (decodeEventBatch readValue debug) workerId
      link.lastSequence [topic, u64ToBeBytes ((start + link.sent) % 2 ^ 64), batch.payload]
    ⟨link.sent + 1, lastSequence, link.index.runKvIndexUpdater forwarded.toList⟩
  | .foreign batch _ => { link with index := link.index.applyBatch batch }

def deliveredBy (topic : List UInt8) (start maxEntries : Nat)
    (deliveries : List (Delivery readValue debug workerId)) : Link :=
  deliveries.foldl (Link.deliver topic start) ⟨0, none, .new maxEntries⟩

def gpuCache (deliveries : List (Delivery readValue debug workerId)) : Set BlockHash :=
  (deliveries.flatMap Delivery.sent).foldl (fun held sent => sent.event.cache held) ∅

/-- A lost event takes away no block that is credited before the batch or that an
earlier event of the batch brings. -/
def Published.Harmless (workerId : String) (index : KvBlockIndex)
    (batch : Published readValue debug) : Prop :=
  ∀ before sent after, batch.sent = before ++ sent :: after → sent.lost = true →
    ∀ hash, sent.event.evicts hash = true →
      hash ∉ index.credited workerId ∧ ∀ earlier ∈ before, hash ∉ earlier.event.stored

/-- No delivery loses an event that matters to the index it meets. -/
def Harmless (topic : List UInt8) (start maxEntries : Nat)
    (deliveries : List (Delivery readValue debug workerId)) : Prop :=
  ∀ past batch later, deliveries = past ++ .published batch :: later →
    batch.Harmless workerId (deliveredBy topic start maxEntries past).index

end Run

section Soundness

variable {readValue : List UInt8 → Except String MsgValue} {debug : MsgValue → String}
  {workerId : String} {topic : List UInt8} {start maxEntries : Nat} {index : KvBlockIndex}
  {link : Link} {batch : Published readValue debug}
  {deliveries : List (Delivery readValue debug workerId)}

def applied (sent : List (Sent debug)) : List KvEvent := decodeEvents debug (sent.map Sent.raw)

theorem applied_snoc (done : List (Sent debug)) (next : Sent debug) :
    applied (done ++ [next]) = applied done ++ if next.lost then [] else [next.event] := by
  unfold applied decodeEvents
  unfold Sent.lost
  cases decoded : decodeSingleEvent debug next.raw with
  | error => simp [decoded, Except.toOption]
  | ok event =>
    rw [← next.faithful event decoded]
    simp [decoded, Except.toOption]

theorem credited_within {held : Set BlockHash} (harmless : batch.Harmless workerId index)
    (sound : index.credited workerId ⊆ held) {done : List (Sent debug)} (rest : List (Sent debug))
    (split : batch.sent = done ++ rest) :
    ∀ hash ∈ ((applied done).foldl (applyEvent workerId) index).credited workerId,
      hash ∈ done.foldl (fun held sent => sent.event.cache held) held ∧
        (hash ∈ index.credited workerId ∨ ∃ earlier ∈ done, hash ∈ earlier.event.stored) := by
  induction done using List.reverseRecOn generalizing rest with
  | nil => exact fun hash credited => ⟨sound credited, .inl credited⟩
  | append_singleton done next ih =>
    have before := ih (next :: rest) (by rw [split, List.append_assoc]; rfl)
    intro hash credited
    rw [applied_snoc, List.foldl_append] at credited
    rw [List.foldl_append]
    cases gone : next.lost with
    | true =>
      rw [gone] at credited
      obtain ⟨inside, origin⟩ := before _ credited
      refine ⟨.inl ⟨inside, ?_⟩, origin.imp_right fun ⟨earlier, member, stored⟩ =>
        ⟨earlier, List.mem_append_left _ member, stored⟩⟩
      -- The lost event spares the block, for it was credited or stored before.
      by_contra evicts
      have apart := harmless _ next rest (by rw [split, List.append_assoc]; rfl) gone hash
        (by simpa using evicts)
      rcases origin with credited | ⟨earlier, member, stored⟩
      · exact apart.1 credited
      · exact apart.2 _ member stored
    | false =>
      rw [gone, if_neg Bool.false_ne_true, List.foldl_cons, List.foldl_nil,
        mem_credited_applyEvent] at credited
      rcases credited with ⟨credited, spared⟩ | taken
      · obtain ⟨inside, origin⟩ := before _ credited
        exact ⟨.inl ⟨inside, spared⟩, origin.imp_right fun ⟨earlier, member, stored⟩ =>
          ⟨earlier, List.mem_append_left _ member, stored⟩⟩
      · have stored := KvEvent.stored_of_indexed taken
        exact ⟨.inr stored, .inr ⟨next, List.mem_append_right _ (List.mem_singleton.mpr rfl),
          stored⟩⟩

/-- The subscriber has seen the last batch, and the credit is in the cache. -/
structure InOrder (start : Nat) (deliveries : List (Delivery readValue debug workerId))
    (link : Link) : Prop where
  last : link.lastSequence = none ∨
    ∃ before, link.sent = before + 1 ∧ link.lastSequence = some ((start + before) % 2 ^ 64)
  credit : link.index.credited workerId ⊆ gpuCache deliveries

variable (inOrder : InOrder start deliveries link)

include inOrder

theorem InOrder.deliver_published (topic : List UInt8) (batch : Published readValue debug) :
    link.deliver topic start (.published batch : Delivery readValue debug workerId) =
      ⟨link.sent + 1, some ((start + link.sent) % 2 ^ 64),
        (applied batch.sent).foldl (applyEvent workerId) link.index⟩ := by
  have fits : (start + link.sent) % 2 ^ 64 < 2 ^ 64 := Nat.mod_lt _ (by decide)
  have unbroken : link.lastSequence.any
      (fun previous => (start + link.sent) % 2 ^ 64 ≠ (previous + 1) % 2 ^ 64) = false := by
    rcases inOrder.last with unseen | ⟨_, counted, seen⟩
    · rw [unseen]
      rfl
    · rw [seen, counted, ← Nat.add_assoc]
      simp
  rw [Link.deliver, receive_decoded fits batch.decodes, unbroken]
  rfl

variable (delivery : Delivery readValue debug workerId)

omit inOrder in
theorem gpuCache_snoc :
    gpuCache (deliveries ++ [delivery]) =
      delivery.sent.foldl (fun held sent => sent.event.cache held) (gpuCache deliveries) := by
  unfold gpuCache
  rw [List.flatMap_append, List.foldl_append, List.flatMap_singleton]

theorem InOrder.published (topic : List UInt8) (harmless : batch.Harmless workerId link.index) :
    InOrder start (deliveries ++ [.published batch])
      (link.deliver topic start (.published batch : Delivery readValue debug workerId)) := by
  rw [inOrder.deliver_published]
  constructor
  · exact .inr ⟨link.sent, rfl, rfl⟩
  · intro _ credited
    rw [gpuCache_snoc]
    exact (credited_within harmless inOrder.credit [] (List.append_nil _).symm _ credited).1

theorem InOrder.foreign (topic : List UInt8)
    (batch : KvEventBatch) (other : batch.workerId ≠ workerId) :
    InOrder start (deliveries ++ [.foreign batch other])
      (link.deliver topic start (.foreign batch other : Delivery readValue debug workerId)) where
  last := inOrder.last
  credit := by
    rw [Link.deliver, credited_applyBatch_other other, gpuCache_snoc]
    exact inOrder.credit

omit inOrder

theorem deliveredBy_snoc :
    deliveredBy topic start maxEntries (deliveries ++ [delivery]) =
      (deliveredBy topic start maxEntries deliveries).deliver topic start delivery := by
  unfold deliveredBy
  rw [List.foldl_append]
  rfl

theorem Harmless.init {delivery : Delivery readValue debug workerId}
    (harmless : Harmless topic start maxEntries (deliveries ++ [delivery])) :
    Harmless topic start maxEntries deliveries := by
  intro past _ later split
  refine harmless _ _ (later ++ [delivery]) ?_
  rw [split, List.append_assoc, List.cons_append]

theorem inOrder_deliveredBy (harmless : Harmless topic start maxEntries deliveries) :
    InOrder start deliveries (deliveredBy topic start maxEntries deliveries) := by
  induction deliveries using List.reverseRecOn with
  | nil => exact ⟨.inl rfl, fun _ credited => absurd credited List.not_mem_nil⟩
  | append_singleton _ delivery ih =>
    rw [deliveredBy_snoc]
    cases delivery with
    | published _ =>
      exact (ih harmless.init).published _ (harmless _ _ [] rfl)
    | foreign _ _ => exact (ih harmless.init).foreign _ _ _

/-- If no delivery loses an event that matters, the worker is credited only with
blocks of its cache, after every batch. -/
theorem credited_subset_gpuCache (topic : List UInt8) (start maxEntries : Nat)
    (deliveries : List (Delivery readValue debug workerId))
    (harmless : Harmless topic start maxEntries deliveries) (past : List _)
    (part : past <+: deliveries) :
    (deliveredBy topic start maxEntries past).index.credited workerId ⊆ gpuCache past := by
  obtain ⟨later, rfl⟩ := part
  have before : Harmless topic start maxEntries past := by
    intro earlier batch after split
    refine harmless earlier _ (after ++ later) ?_
    rw [split, List.append_assoc, List.cons_append]
  exact (inOrder_deliveredBy before).credit

end Soundness

namespace LostSample

open WireSample

def storedRaw : MsgValue :=
  .array [.integer 0, .array [.integer 1], .nil, .array [.integer 7], .integer 1, .nil, .nil, .nil]

def removedRaw : MsgValue := .array [.integer 1, .array [.nil], .nil]

def shortRaw : MsgValue :=
  .array [.integer 0, .array [.integer 2], .integer 1, .array [.integer 8], .integer 1]

theorem decode_storedRaw :
    decodeSingleEvent debug storedRaw = .ok (.blockStored [.int 1] none [7] 1 none none false) :=
  rfl

theorem decode_removedRaw : decodeSingleEvent debug removedRaw =
    .error "block_hashes: expected bytes or integer, got Nil" :=
  rfl

theorem decode_shortRaw : decodeSingleEvent debug shortRaw =
    .error "BlockStored: expected >= 8 fields, got 5" :=
  rfl

def stored : Published readValue debug where
  sent := [⟨.blockStored [.int 1] none [7] 1 none none false, storedRaw, by
    intro decoded decodes
    rw [decode_storedRaw] at decodes
    exact (Except.ok.inj decodes).symm⟩]
  payload := storedPayload
  decodes := rfl

def removed : Published readValue debug where
  sent := [⟨.blockRemoved [.int 1] none, removedRaw, by
    intro decoded decodes
    rw [decode_removedRaw] at decodes
    cases decodes⟩]
  payload := [0x92, 0, 0x91, 0x93, 1, 0x91, 0xc0, 0xc0]
  decodes := rfl

def short : Published readValue debug where
  sent := [⟨.blockStored [.int 2] (some (.int 1)) [8] 1 none none false, shortRaw, by
    intro decoded decodes
    rw [decode_shortRaw] at decodes
    cases decodes⟩]
  payload := [0x92, 0, 0x91, 0x95, 0, 0x91, 2, 1, 0x91, 8, 1]
  decodes := rfl

end LostSample

section Losses

open LostSample WireSample

/-- The removed block stays credited, for its event could not be decoded. -/
theorem credited_subset_gpuCache_fails :
    BlockHash.int 1 ∈ (deliveredBy [] 0 10 [.published stored,
      (.published removed : Delivery readValue debug "w")]).index.credited "w" ∧
    BlockHash.int 1 ∉ gpuCache [.published stored,
      (.published removed : Delivery readValue debug "w")] := by
  constructor
  · change "w" ∈ getWorkersForBlock _ _
    decide
  · simp [gpuCache, Delivery.sent, stored, removed, KvEvent.cache, KvEvent.evicts, KvEvent.stored]

/-- A store that is lost does no harm. -/
theorem credited_subset_gpuCache_short :
    (deliveredBy [] 0 10 [.published stored,
      (.published short : Delivery readValue debug "w")]).index.credited "w" ⊆
    gpuCache [.published stored, (.published short : Delivery readValue debug "w")] := by
  refine credited_subset_gpuCache [] 0 10 _ ?_ _ List.prefix_rfl
  intro _ batch _ split _ sent _ among _ _ evicts
  have published : (.published batch : Delivery readValue debug "w") ∈
      [.published stored, .published short] := by
    rw [split]
    exact List.mem_append_right _ List.mem_cons_self
  have member : sent ∈ batch.sent := by
    rw [among]
    exact List.mem_append_right _ List.mem_cons_self
  -- Neither batch has an event that takes a block away.
  rcases List.mem_cons.mp published with same | last
  · cases same
    rw [List.mem_singleton.mp member] at evicts
    cases evicts
  · cases List.mem_singleton.mp last
    rw [List.mem_singleton.mp member] at evicts
    cases evicts

end Losses

end SmetricRouter.KvIndex
