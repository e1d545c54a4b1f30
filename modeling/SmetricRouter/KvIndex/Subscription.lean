import SmetricRouter.KvIndex.Decoder
import SmetricRouter.KvIndex.Scoring

/-! The subscription to one worker's events, over a channel that loses batches.

The subscriber compares the sequence number of each batch it can decode with the
last one it saw and lets a gap clear all that is credited to the worker. After a
batch has been delivered, the worker is credited with nothing that is not in its
cache, whatever was lost before.
-/

namespace SmetricRouter.KvIndex

def u64FromBeBytes (bytes : List UInt8) : Option Nat :=
  if bytes.length = 8 then some (bytes.foldl (fun value byte => value * 256 + byte.toNat) 0)
  else none

def u64ToBeBytes (value : Nat) : List UInt8 :=
  [7, 6, 5, 4, 3, 2, 1, 0].map fun place => UInt8.ofNat (value / 256 ^ place)

theorem u64FromBeBytes_toBeBytes {value : Nat} (fits : value < 2 ^ 64) :
    u64FromBeBytes (u64ToBeBytes value) = some value := by
  -- One more byte extends what the higher bytes stand for.
  have extend place :
      value / 256 ^ (place + 1) * 256 + value / 256 ^ place % 256 = value / 256 ^ place := by
    rw [Nat.pow_succ, ← Nat.div_div_eq_div_mul]
    exact Nat.div_add_mod' _ _
  have highest : value / 256 ^ 7 % 256 = value / 256 ^ 7 :=
    Nat.mod_eq_of_lt (Nat.div_lt_of_lt_mul fits)
  unfold u64FromBeBytes u64ToBeBytes
  simp only [List.length_cons, List.length_nil, List.map_cons, List.map_nil, List.foldl_cons,
    List.foldl_nil, UInt8.toNat_ofNat', if_true, Option.some.injEq, -Nat.reducePow]
  rw [Nat.zero_add, highest, extend 6, extend 5, extend 4, extend 3, extend 2,
    extend 1, extend 0, Nat.pow_zero, Nat.div_one]

section Subscriber

variable (decode : List UInt8 → Except String (List KvEvent)) (workerId : String)

/-- One received message: the last sequence number afterwards, and the batch that
goes to the updater. -/
def receive (lastSequence : Option Nat) (parts : List (List UInt8)) :
    Option Nat × Option KvEventBatch :=
  match parts with
  | _ :: sequenceBytes :: payload :: _ =>
    let sequence := u64FromBeBytes sequenceBytes
    match decode payload with
    | .ok events =>
      let gap := match lastSequence, sequence with
        | some previous, some current => decide (current ≠ (previous + 1) % 2 ^ 64)
        | _, _ => false
      (if sequence.isSome then sequence else lastSequence,
        some ⟨workerId, if gap then .allBlocksCleared :: events else events, sequence⟩)
    | .error _ => (lastSequence, none)
  | _ => (lastSequence, none)

/-- A batch as the worker publishes it. If the payload decodes, it decodes to the
events of the worker's cache. -/
structure Publication where
  events : List KvEvent
  payload : List UInt8
  plain : ∀ event ∈ events, ∃ size, event.Plain size
  faithful : ∀ decoded, decode payload = .ok decoded → decoded = events

/-- What happens around the index: the worker publishes a batch, which is received or
lost, or the updater gets a batch of another worker. -/
inductive Happening where
  | published (batch : Publication decode) (received : Bool)
  | foreign (batch : KvEventBatch) (other : batch.workerId ≠ workerId)

/-- The publisher's counter, the subscriber and the index. -/
structure Link where
  sent : Nat
  lastSequence : Option Nat
  index : KvBlockIndex

variable {decode workerId}

/-- The worker numbers its batches from `start` on. -/
def Link.step (topic : List UInt8) (start : Nat) (link : Link) :
    Happening decode workerId → Link
  | .published batch received =>
    if received then
      let (lastSequence, forwarded) := receive decode workerId link.lastSequence
        [topic, u64ToBeBytes (start + link.sent), batch.payload]
      ⟨link.sent + 1, lastSequence, link.index.runKvIndexUpdater forwarded.toList⟩
    else { link with sent := link.sent + 1 }
  | .foreign batch _ => { link with index := link.index.applyBatch batch }

def linkAfter (topic : List UInt8) (start maxEntries : Nat)
    (happenings : List (Happening decode workerId)) : Link :=
  happenings.foldl (Link.step topic start) ⟨0, none, .new maxEntries⟩

def Happening.publication : Happening decode workerId → Option (Publication decode)
  | .published batch _ => some batch
  | .foreign _ _ => none

variable (happenings : List (Happening decode workerId))

def publications : List (Publication decode) :=
  happenings.filterMap Happening.publication

def cacheAfter (count : Nat) : Set BlockHash :=
  replay ∅ (((publications happenings).take count).flatMap Publication.events)

def trueCache : Set BlockHash :=
  replay ∅ ((publications happenings).flatMap Publication.events)

def Happening.delivers (before : Bool) : Happening decode workerId → Bool
  | .published batch received => received && (decode batch.payload).toOption.isSome
  | .foreign _ _ => before

def delivered : Bool :=
  happenings.foldl Happening.delivers false

end Subscriber

section Gap

variable {decode : List UInt8 → Except String (List KvEvent)} {workerId : String}
  {topic : List UInt8} {start maxEntries : Nat} {happenings : List (Happening decode workerId)}
  {happening : Happening decode workerId} {batch : Publication decode} {link : Link}

/-- The index credits nothing yet, or only what was in the cache after the batch with
the last sequence number. -/
structure Follows (start : Nat) (happenings : List (Happening decode workerId)) (link : Link) :
    Prop where
  sent : link.sent = (publications happenings).length
  credit : link.lastSequence = none ∧ link.index.credited workerId = ∅ ∧
      delivered happenings = false ∨
    ∃ seen < link.sent, link.lastSequence = some (start + seen) ∧
      link.index.credited workerId ⊆ cacheAfter happenings (seen + 1) ∧
      (delivered happenings = true → seen + 1 = link.sent)

theorem delivered_append : delivered (happenings ++ [happening]) =
    happening.delivers (delivered happenings) := by
  unfold delivered
  rw [List.foldl_append]
  rfl

variable {received : Bool}

theorem publications_published :
    publications (happenings ++ [.published batch received]) =
      publications happenings ++ [batch] := by
  unfold publications
  rw [List.filterMap_append]
  rfl

theorem publications_foreign {batch : KvEventBatch} {other : batch.workerId ≠ workerId} :
    publications (happenings ++ [.foreign batch other]) = publications happenings := by
  unfold publications
  rw [List.filterMap_append]
  exact List.append_nil _

theorem cacheAfter_last :
    cacheAfter (happenings ++ [.published batch received]) ((publications happenings).length + 1) =
      replay (trueCache happenings) batch.events := by
  unfold cacheAfter trueCache
  rw [publications_published, List.take_of_length_le (by simp), List.flatMap_append, replay_append]
  simp

theorem cacheAfter_all {count : Nat} (all : count = (publications happenings).length) :
    cacheAfter happenings count = trueCache happenings := by
  unfold cacheAfter trueCache
  rw [all, List.take_length]

variable (follows : Follows start happenings link)

include follows

theorem Follows.missed
    (lost : (Happening.published batch received : Happening decode workerId).delivers
      (delivered happenings) = false) :
    Follows start (happenings ++ [.published batch received]) { link with sent := link.sent + 1 } where
  sent := by
    rw [publications_published, List.length_append, ← follows.sent]
    rfl
  credit := by
    rw [delivered_append, lost]
    rcases follows.credit with ⟨unseen, empty, _⟩ | ⟨seen, before, last, part, _⟩
    · exact .inl ⟨unseen, empty, rfl⟩
    · refine .inr ⟨seen, Nat.lt_succ_of_lt before, last, ?_, nofun⟩
      rw [cacheAfter, publications_published,
        List.take_append_of_le_length (by rw [← follows.sent]; exact before)]
      exact part

theorem Follows.foreign (batch : KvEventBatch) (other : batch.workerId ≠ workerId) :
    Follows start (happenings ++ [.foreign batch other])
      { link with index := link.index.applyBatch batch } where
  sent := by rw [publications_foreign, follows.sent]
  credit := by
    have caches count : cacheAfter (happenings ++ [.foreign batch other]) count =
        cacheAfter happenings count := by
      unfold cacheAfter
      rw [publications_foreign]
    rw [delivered_append, KvBlockIndex.credited_applyBatch_other other]
    simp only [caches]
    exact follows.credit

omit follows in
theorem receive_decoded {lastSequence : Option Nat} {number : Nat} {payload : List UInt8}
    {events : List KvEvent} (fits : number < 2 ^ 64) (decodes : decode payload = .ok events) :
    receive decode workerId lastSequence [topic, u64ToBeBytes number, payload] =
      (some number, some ⟨workerId,
        if lastSequence.any (fun previous => number ≠ (previous + 1) % 2 ^ 64) then
          .allBlocksCleared :: events
        else events, some number⟩) := by
  unfold receive
  simp only [u64FromBeBytes_toBeBytes fits, decodes, Option.isSome_some, if_true]
  cases lastSequence <;> rfl

theorem Follows.credited_delivered
    (batch : Publication decode) (fits : start + link.sent < 2 ^ 64) :
    (link.index.applyBatch ⟨workerId,
      if link.lastSequence.any (fun previous => start + link.sent ≠ (previous + 1) % 2 ^ 64) then
        .allBlocksCleared :: batch.events
      else batch.events, some (start + link.sent)⟩).credited workerId ⊆
        replay (trueCache happenings) batch.events := by
  unfold KvBlockIndex.applyBatch
  split
  · have cleared : ∀ event ∈ .allBlocksCleared :: batch.events, ∃ size, event.Plain size := by
      intro _ member
      rcases List.mem_cons.mp member with rfl | among
      · exact ⟨0, trivial⟩
      · exact batch.plain _ among
    rw [KvBlockIndex.credited_applyEvents cleared]
    exact replay_mono batch.events (Set.empty_subset _)
  · rename_i unbroken
    rw [KvBlockIndex.credited_applyEvents batch.plain]
    apply replay_mono
    rcases follows.credit with ⟨_, empty, _⟩ | ⟨seen, _, last, part, _⟩
    · rw [empty]
      exact Set.empty_subset _
    · rw [last, Option.any_some, decide_eq_true_eq] at unbroken
      have next : seen + 1 = link.sent := by omega
      rw [next, follows.sent, cacheAfter_all rfl] at part
      exact part

theorem Follows.deliver
    (fits : start + link.sent < 2 ^ 64) (decodes : decode batch.payload = .ok batch.events) :
    Follows start (happenings ++ [.published batch true])
      (link.step topic start (.published batch true : Happening decode workerId)) := by
  have counted := follows.sent
  have credit := follows.credited_delivered batch fits
  rw [Link.step, receive_decoded fits decodes]
  refine ⟨?_, .inr ⟨link.sent, Nat.lt_succ_self _, rfl, ?_, fun _ => rfl⟩⟩
  · rw [publications_published, List.length_append, ← counted]
    rfl
  · rw [counted, cacheAfter_last, ← counted]
    exact credit

theorem Follows.step (topic : List UInt8) (happening : Happening decode workerId)
    (fits : start + (publications (happenings ++ [happening])).length ≤ 2 ^ 64) :
    Follows start (happenings ++ [happening]) (link.step topic start happening) := by
  cases happening with
  | foreign _ _ => exact follows.foreign _ _
  | published batch received =>
    rw [publications_published, List.length_append, ← follows.sent] at fits
    cases received with
    | false => exact follows.missed rfl
    | true =>
      cases decodes : decode batch.payload with
      | ok decoded =>
        rw [batch.faithful decoded decodes] at decodes
        exact follows.deliver fits decodes
      | error =>
        have skipped : link.step topic start (.published batch true : Happening decode workerId) =
            { link with sent := link.sent + 1 } := by
          simp only [Link.step, receive, decodes]
          rfl
        rw [skipped]
        exact follows.missed (by rw [Happening.delivers, decodes]; rfl)

omit follows

theorem follows_linkAfter (topic : List UInt8) (maxEntries : Nat)
    {happenings : List (Happening decode workerId)}
    (fits : start + (publications happenings).length ≤ 2 ^ 64) :
    Follows start happenings (linkAfter topic start maxEntries happenings) := by
  induction happenings using List.reverseRecOn with
  | nil => exact ⟨rfl, .inl ⟨rfl, Set.eq_empty_of_forall_notMem nofun, rfl⟩⟩
  | append_singleton happenings happening ih =>
    have grows : (publications happenings).length ≤
        (publications (happenings ++ [happening])).length := by
      unfold publications
      rw [List.filterMap_append, List.length_append]
      exact Nat.le_add_right _ _
    have before := ih (Nat.le_trans (Nat.add_le_add_left grows _) fits)
    unfold linkAfter at before ⊢
    rw [List.foldl_append]
    exact before.step topic _ fits

/-- After a batch that was delivered, the worker is credited only with blocks that
are in its cache, whatever was lost or could not be decoded before. -/
theorem credited_subset_trueCache (topic : List UInt8) (start maxEntries : Nat)
    (happenings : List (Happening decode workerId))
    (numbered : start + (publications happenings).length ≤ 2 ^ 64)
    (arrived : delivered happenings = true) :
    (linkAfter topic start maxEntries happenings).index.credited workerId ⊆
      trueCache happenings := by
  have follows := follows_linkAfter topic maxEntries numbered
  rcases follows.credit with ⟨_, _, missed⟩ | ⟨_, _, _, part, last⟩
  · rw [missed] at arrived
    cases arrived
  · rw [last arrived, cacheAfter_all follows.sent] at part
    exact part

open WireSample in
theorem credited_subset_trueCache_gap :
    ∃ stored broken : Publication (decodeEventBatch readValue debug),
      (linkAfter [] 0 10 [.published stored true, .published broken true,
        (.published stored true : Happening _ "w")]).index.credited "w" ⊆
          trueCache [.published stored true, .published broken true,
            (.published stored true : Happening _ "w")] := by
  refine ⟨⟨[.blockStored [.int 1] none [7] 1 none none false], storedPayload, ?_, ?_⟩,
    ⟨[.allBlocksCleared], [], ?_, nofun⟩, ?_⟩
  · intro _ member
    obtain rfl := List.mem_singleton.mp member
    exact ⟨1, .inl rfl, rfl, rfl, rfl, by decide, by decide, by decide⟩
  · intro _ decodes
    rw [decode_storedPayload] at decodes
    exact (Except.ok.inj decodes).symm
  · intro _ member
    obtain rfl := List.mem_singleton.mp member
    exact ⟨1, trivial⟩
  · exact credited_subset_trueCache [] 0 10 _ (by decide) rfl

end Gap

end SmetricRouter.KvIndex
