import SmetricRouter.KvIndex.Index
import SmetricRouter.Library.Machine64
import SmetricRouter.Library.Outcome
import SmetricRouter.Tokenizer.Encoding

/-! The prefix source that routing policies share: scores of the block index, in
the units of the prompt. -/

namespace SmetricRouter.KvIndex

open Tokenizer (Encoding)

structure EventCache where
  index : KvBlockIndex
  /-- The tokenizer; `none` is an error. -/
  encode : List Char → Option Encoding
  blockSize : Nat

structure CachePrefixScores where
  length : Nat
  hits : Table String Nat

/-- Where scoring a text would panic. -/
inductive ScorePanic where
  | offsetsOutOfRange
  | insideCharacter
  deriving DecidableEq, Repr

def isCharBoundary (text : List Char) (index : Nat) : Bool :=
  (List.range (text.length + 1)).any fun number => (utf8 (text.take number)).length = index

def floorCharBoundary (text : List Char) : Nat → Nat
  | 0 => 0
  | index + 1 =>
    if isCharBoundary text (index + 1) then index + 1 else floorCharBoundary text index

def nativePrefix : List Char := [Char.ofNat 0x10ffff, Char.ofNat 0x10fffe]

def nativeIds (encoded : List Char) : Option (List UInt32) :=
  encoded.mapM fun letter =>
    let scalar := letter.toNat
    if scalar = 0x10fffd then none
    else some (UInt32.ofNat (if 0xe000 ≤ scalar then scalar - 0x800 else scalar))

namespace EventCache

def scoreTokens (cache : EventCache) (tokens : List UInt32) : CachePrefixScores where
  length := tokens.length
  hits := (cache.index.scoreTokens tokens cache.blockSize).1.mapValues fun blocks =>
    min (saturatingMul blocks cache.blockSize) tokens.length

def coveredChars (text : List Char) (offsets : List (Nat × Nat)) (count : Nat) :
    Except ScorePanic Nat :=
  if offsets.length < count then .error .offsetsOutOfRange
  else
    let furthest := min (((offsets.take count).map Prod.snd).foldl max 0) (utf8 text).length
    -- A block may end between byte-level tokens that stand for one character.
    let stop := match offsets[count]? with
      | some (nextStart, _) => min furthest nextStart
      | none => furthest
    let stop := floorCharBoundary text stop
    if isCharBoundary text stop then .ok (takeBytes text stop).length
    else .error .insideCharacter

def scoreText (cache : EventCache) (text : List Char) :
    Except ScorePanic (Option CachePrefixScores) :=
  if nativePrefix.isPrefixOf text then
    .ok ((nativeIds (text.drop nativePrefix.length)).map cache.scoreTokens)
  else
    match cache.encode text with
    | some (.hf inner) => do
      let scores := cache.scoreTokens inner.ids
      let hits ← scores.hits.keys.foldlM (fun hits url => do
        let hit ← coveredChars text inner.offsets ((hits.lookup url).getD 0)
        return hits.insert url hit) scores.hits
      return some ⟨text.length, hits⟩
    | _ => .ok none

/-- A text prefix ends by the furthest end of the credited tokens and by the start of the
token behind them. -/
structure Within (text : List Char) (offsets : List (Nat × Nat)) (credited hit : Nat) : Prop where
  chars : hit ≤ text.length
  span : (utf8 (text.take hit)).length ≤ ((offsets.take credited).map Prod.snd).foldl max 0
  next : ∀ offset ∈ offsets[credited]?, (utf8 (text.take hit)).length ≤ offset.1

variable {text : List Char} {offsets : List (Nat × Nat)} {credited : Nat}

theorem within_zero : Within text offsets credited 0 :=
  ⟨Nat.zero_le _, Nat.zero_le _, fun _ _ => Nat.zero_le _⟩

theorem isCharBoundary_iff {index : Nat} : isCharBoundary text index ↔
    ∃ number ≤ text.length, (utf8 (text.take number)).length = index := by
  simp only [isCharBoundary, List.any_eq_true, List.mem_range, decide_eq_true_eq, Nat.lt_succ_iff]

theorem floorCharBoundary_spec {index : Nat} : ∃ number ≤ text.length,
    floorCharBoundary text index = (utf8 (text.take number)).length ∧
      (utf8 (text.take number)).length ≤ index := by
  induction index with
  | zero => exact ⟨0, Nat.zero_le _, rfl, Nat.le_refl 0⟩
  | succ _ ih =>
    rw [floorCharBoundary]
    split
    · obtain ⟨number, inside, ends⟩ := isCharBoundary_iff.mp ‹_›
      exact ⟨number, inside, ends.symm, Nat.le_of_eq ends⟩
    · obtain ⟨number, inside, ends, below⟩ := ih
      exact ⟨number, inside, ends, Nat.le_succ_of_le below⟩

theorem coveredChars_within (inside : credited ≤ offsets.length) :
    Returns (coveredChars text offsets credited) (Within text offsets credited) := by
  have covers stop (span : stop ≤ ((offsets.take credited).map Prod.snd).foldl max 0)
      (next : ∀ offset ∈ offsets[credited]?, stop ≤ offset.1) :
      Returns (if isCharBoundary text (floorCharBoundary text stop) then
          .ok (takeBytes text (floorCharBoundary text stop)).length
        else .error ScorePanic.insideCharacter) (Within text offsets credited) := by
    obtain ⟨number, chars, ends, below⟩ := floorCharBoundary_spec
    rw [ends, if_pos (isCharBoundary_iff.mpr ⟨number, chars, rfl⟩), takeBytes_utf8,
      List.length_take_of_le chars]
    exact ⟨chars, below.trans span, fun offset behind => below.trans (next _ behind)⟩
  unfold coveredChars
  rw [if_neg (Nat.not_lt.mpr inside)]
  apply covers
  · split
    · exact (Nat.min_le_left _ _).trans (Nat.min_le_left _ _)
    · exact Nat.min_le_left _ _
  · rintro ⟨_, _⟩ behind
    rw [Option.mem_def.mp behind]
    exact Nat.min_le_right _ _

theorem foldlM_within {scores : Table String Nat}
    (inside : ∀ worker, (scores.lookup worker).getD 0 ≤ offsets.length) :
    Returns (scores.keys.foldlM (fun hits url => do
        let hit ← coveredChars text offsets ((hits.lookup url).getD 0)
        return hits.insert url hit) scores) fun hits =>
      ∀ worker, Within text offsets ((scores.lookup worker).getD 0)
        ((hits.lookup worker).getD 0) := by
  -- The workers still to come have their hits in tokens.
  refine Ensures.mono (Ensures.foldlM (fun rest hits => rest.Nodup ∧ ∀ worker,
    if worker ∈ rest then hits.lookup worker = scores.lookup worker
    else Within text offsets ((scores.lookup worker).getD 0)
      ((hits.lookup worker).getD 0)) ?_ ?_) ?_
  · refine ⟨scores.keys_nodup, fun worker => ?_⟩
    split
    · rfl
    · rw [AList.lookup_eq_none.mpr ‹_›]
      exact within_zero
  · rintro url _ _ ⟨once, done⟩
    have own := done url
    rw [if_pos List.mem_cons_self] at own
    rw [own]
    refine Ensures.bind (coveredChars_within (inside url)) fun _ within => ?_
    obtain ⟨apart, once⟩ := List.nodup_cons.mp once
    refine ⟨once, fun worker => ?_⟩
    by_cases same : worker = url
    · rw [same, if_neg apart, AList.lookup_insert]
      exact within
    · have before := done worker
      simp only [List.mem_cons, same, false_or] at before
      rwa [AList.lookup_insert_ne same]
  · exact fun _ covered worker => by simpa using covered.2 worker

variable (cache : EventCache)

theorem scoreTokens_le (tokens : List UInt32) (worker : String) :
    ((cache.scoreTokens tokens).hits.lookup worker).getD 0 ≤ tokens.length := by
  rw [scoreTokens, Table.lookup_mapValues]
  cases (cache.index.scoreTokens tokens cache.blockSize).1.lookup worker with
  | none => exact Nat.zero_le _
  | some => exact Nat.min_le_right _ _

/-- With one pair of offsets for each token, scoring returns, no worker is credited with
more than the prompt, and what is credited of a text ends where its tokens do. -/
theorem scores_in_range (paired : ∀ text inner, cache.encode text = some (.hf inner) →
      inner.offsets.length = inner.ids.length) :
    (∀ tokens worker, ((cache.scoreTokens tokens).hits.lookup worker).getD 0 ≤
      (cache.scoreTokens tokens).length) ∧
    ∀ text, Returns (cache.scoreText text) fun scores => ∀ reported ∈ scores, ∀ worker,
      (reported.hits.lookup worker).getD 0 ≤ reported.length ∧
      ∀ inner, ¬ nativePrefix.isPrefixOf text → cache.encode text = some (.hf inner) →
        Within text inner.offsets (((cache.scoreTokens inner.ids).hits.lookup worker).getD 0)
          ((reported.hits.lookup worker).getD 0) := by
  refine ⟨cache.scoreTokens_le, fun text => ?_⟩
  fun_cases cache.scoreText text with
  | case1 native =>
    intro _ scored worker
    obtain ⟨tokens, _, rfl⟩ := Option.map_eq_some_iff.mp scored
    exact ⟨cache.scoreTokens_le tokens _, fun _ other => absurd native other⟩
  | case2 _ inner encoded =>
    have inside worker :=
      (cache.scoreTokens_le inner.ids worker).trans (paired _ _ encoded).ge
    apply Ensures.bind (foldlM_within inside)
    rintro _ within _ ⟨⟩ _
    refine ⟨(within _).chars, fun _ _ same => ?_⟩
    cases encoded.symm.trans same
    exact within _
  | case3 => exact nofun

/-- A worker holds a block of two tokens that ends inside a character: of the text it is
credited with the character before. -/
theorem scores_in_range_two :
    let index := (KvBlockIndex.new 4).runKvIndexUpdater
      [⟨"worker", [.blockStored [.int 1] none [7, 8] 2 none none false], none⟩]
    let inner : Tokenizer.HfEncoding := ⟨[7, 8, 9], [(0, 1), (1, 3), (1, 3)]⟩
    let cache : EventCache := ⟨index, fun _ => some (.hf inner), 2⟩
    let credited := ((cache.scoreTokens inner.ids).hits.lookup "worker").getD 0
    credited = 2 ∧ credited ≤ 3 ∧ ∃ reported, cache.scoreText ['a', 'é'] = .ok (some reported) ∧
      (reported.hits.lookup "worker").getD 0 = 1 ∧
        Within ['a', 'é'] inner.offsets credited ((reported.hits.lookup "worker").getD 0) := by
  intro index inner cache credited
  have ranges := scores_in_range cache (by rintro _ _ ⟨⟩; rfl)
  refine ⟨by decide +kernel, ranges.1 inner.ids "worker", ?_⟩
  have scored : (cache.scoreText ['a', 'é']).map (Option.map fun reported =>
      (reported.hits.lookup "worker").getD 0) = .ok (some 1) := by
    decide +kernel
  have within := ranges.2 ['a', 'é']
  cases found : cache.scoreText ['a', 'é'] with
  | error =>
    rw [found] at scored
    cases scored
  | ok scores =>
    rw [found] at within scored
    obtain ⟨reported, rfl, hit⟩ := Option.map_eq_some_iff.mp (Except.ok.inj scored)
    exact ⟨reported, rfl, hit, (within reported rfl "worker").2 inner (by decide +kernel) rfl⟩

end EventCache

end SmetricRouter.KvIndex
