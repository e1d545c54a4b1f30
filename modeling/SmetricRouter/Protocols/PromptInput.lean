import SmetricRouter.KvIndex.EventCache

/-! The prompts of completion requests, as routing sees them.

Token ids become one character each, with a longer escape for what no character
stands for. The prefix source reads such a text back into token ids.
-/

namespace SmetricRouter.Protocols

inductive PromptInput where
  | string (text : List Char)
  | stringArray (texts : List (List Char))
  | intArray (ids : List Int32)
  | intBatch (batches : List (List Int32))

/-- The lower-case hexadecimal digits of a number, in the given width. -/
def hexDigits : Nat → Nat → List Char
  | 0, _ => []
  | width + 1, value => hexDigits width (value / 16) ++ [Nat.digitChar (value % 16)]

/-- The ids with a character of their own. -/
def Direct (id : Int32) : Prop := 0 ≤ id ∧ id ≤ 0x10f7fd

instance Direct.decidable (id : Int32) : Decidable (Direct id) :=
  inferInstanceAs (Decidable (_ ∧ _))

/-- That character: surrogates are left out. -/
def letter (id : Int32) : Char :=
  Char.ofNat (id.toUInt32.toNat + if 0xd800 ≤ id then 0x800 else 0)

def tokenKey (id : Int32) : List Char :=
  if Direct id then [letter id]
  else Char.ofNat 0x10fffd :: (hexDigits 8 id.toUInt32.toNat ++ [';'])

def extractTextForRouting : PromptInput → List Char
  | .string text => text
  | .stringArray texts => List.intercalate [' '] texts
  | .intArray ids => Char.ofNat 0x10ffff :: Char.ofNat 0x10fffe :: ids.flatMap tokenKey
  | .intBatch batches =>
    let totalTokens := (batches.map List.length).sum
    s!"token_ids_batch:{batches.length}:{totalTokens}".toList

theorem length_hexDigits (width value : Nat) : (hexDigits width value).length = width := by
  induction width generalizing value with
  | zero => rfl
  | succ _ ih => rw [hexDigits, List.length_append, ih, List.length_singleton]

theorem hexDigits_inj {width left right : Nat} (short : left < 16 ^ width)
    (also : right < 16 ^ width) (same : hexDigits width left = hexDigits width right) :
    left = right := by
  induction width generalizing left right with
  | zero => omega
  | succ _ ih =>
    obtain ⟨fronts, lasts⟩ := List.append_inj' same rfl
    have digits : ∀ one < 16, ∀ two < 16, Nat.digitChar one = Nat.digitChar two → one = two := by
      decide
    have last := digits _ (Nat.mod_lt _ (by decide)) _ (Nat.mod_lt _ (by decide))
      (List.singleton_inj.mp lasts)
    have front := ih (by omega) (by omega) fronts
    omega

variable {id other : Int32}

theorem toInt_eq : id.toInt =
    if 2 * id.toUInt32.toNat < 2 ^ 32 then (id.toUInt32.toNat : Int)
    else id.toUInt32.toNat - 2 ^ 32 :=
  BitVec.toInt_eq_toNat_cond _

theorem direct_iff : Direct id ↔ id.toUInt32.toNat ≤ 0x10f7fd := by
  have least : (0 : Int32).toInt = 0 := rfl
  have most : (0x10f7fd : Int32).toInt = 0x10f7fd := rfl
  have bound := id.toUInt32.toNat_lt
  rw [Direct, Int32.le_iff_toInt_le, Int32.le_iff_toInt_le, least, toInt_eq]
  split <;> omega

theorem toNat_letter (direct : Direct id) : (letter id).toNat =
    id.toUInt32.toNat + if 0xd800 ≤ id.toUInt32.toNat then 0x800 else 0 := by
  rw [direct_iff] at direct
  have first : (0xd800 : Int32).toInt = 0xd800 := rfl
  have high : 0xd800 ≤ id ↔ 0xd800 ≤ id.toUInt32.toNat := by
    rw [Int32.le_iff_toInt_le, first, toInt_eq]
    split <;> omega
  have valid : Nat.isValidChar (id.toUInt32.toNat +
      if 0xd800 ≤ id.toUInt32.toNat then 0x800 else 0) := by
    split <;> omega
  unfold letter
  simp only [high]
  rw [Char.ofNat, dif_pos valid]
  rfl

theorem eq_of_toNat (same : id.toUInt32.toNat = other.toUInt32.toNat) : id = other := by
  have cast := congrArg UInt32.toInt32 (UInt32.toNat.inj same)
  rwa [Int32.toInt32_toUInt32] at cast

theorem letter_ne (direct : Direct id) (apart : id ≠ 0x10f7fd) : (letter id).toNat ≠ 0x10fffd := by
  rw [toNat_letter direct]
  intro same
  apply apart
  apply eq_of_toNat
  have most : (0x10f7fd : Int32).toUInt32.toNat = 0x10f7fd := rfl
  split at same <;> omega

/-- No key of an id is the start of another one, but for the id whose character is the
mark of the escape. -/
theorem tokenKey_append_inj {left right : List Char} (apart : id ≠ 0x10f7fd)
    (also : other ≠ 0x10f7fd) (same : tokenKey id ++ left = tokenKey other ++ right) :
    id = other ∧ left = right := by
  unfold tokenKey at same
  by_cases one : Direct id <;> by_cases two : Direct other
  · rw [if_pos one, if_pos two] at same
    obtain ⟨letters, rest⟩ := List.cons.inj same
    refine ⟨eq_of_toNat ?_, rest⟩
    have codes := congrArg Char.toNat letters
    rw [toNat_letter one, toNat_letter two] at codes
    split at codes <;> split at codes <;> omega
  · rw [if_pos one, if_neg two] at same
    exact absurd (congrArg Char.toNat (List.cons.inj same).1) (letter_ne one apart)
  · rw [if_neg one, if_pos two] at same
    exact absurd (congrArg Char.toNat (List.cons.inj same).1).symm (letter_ne two also)
  · rw [if_neg one, if_neg two] at same
    obtain ⟨keys, rest⟩ := List.append_inj (List.cons.inj same).2 (by simp [length_hexDigits])
    have digits := List.append_inj_left' keys rfl
    exact ⟨eq_of_toNat (hexDigits_inj id.toUInt32.toNat_lt other.toUInt32.toNat_lt digits), rest⟩

theorem flatMap_tokenKey_inj {ids others : List Int32} (apart : 0x10f7fd ∉ ids)
    (also : 0x10f7fd ∉ others) (same : ids.flatMap tokenKey = others.flatMap tokenKey) :
    ids = others := by
  have some_letter id : tokenKey id ≠ [] := by
    unfold tokenKey
    split <;> exact List.cons_ne_nil _ _
  induction ids generalizing others with
  | nil =>
    cases others with
    | nil => rfl
    | cons _ _ => exact absurd (List.append_eq_nil_iff.mp same.symm).1 (some_letter _)
  | cons id _ ih =>
    cases others with
    | nil => exact absurd (List.append_eq_nil_iff.mp same).1 (some_letter id)
    | cons =>
      rw [List.mem_cons, not_or] at apart also
      obtain ⟨rfl, rest⟩ := tokenKey_append_inj (Ne.symm apart.1) (Ne.symm also.1) same
      rw [ih apart.2 also.2 rest]

theorem nativeIds_flatMap {ids : List Int32} (direct : ∀ id ∈ ids, Direct id)
    (apart : 0x10f7fd ∉ ids) :
    KvIndex.nativeIds (ids.flatMap tokenKey) = some (ids.map Int32.toUInt32) := by
  induction ids with
  | nil => rfl
  | cons id _ ih =>
    rw [List.mem_cons, not_or] at apart
    obtain ⟨first, later⟩ := List.forall_mem_cons.mp direct
    have back : (if 0xe000 ≤ (letter id).toNat then (letter id).toNat - 0x800
        else (letter id).toNat) = id.toUInt32.toNat := by
      rw [toNat_letter first]
      split <;> split <;> omega
    have key : tokenKey id = [letter id] := if_pos first
    rw [List.flatMap_cons, key, KvIndex.nativeIds]
    have tail := ih later apart.2
    rw [KvIndex.nativeIds] at tail
    simp [letter_ne first (Ne.symm apart.1), back, tail]

/-- Over a range of ids, the text of a prompt is read back and tells the prompts apart
if and only if the range leaves out the id whose character marks the escape. -/
theorem routingText_faithful_iff (allowed : Int32 → Prop) :
    (∀ ids : List Int32, (∀ id ∈ ids, allowed id) →
      ((∀ id ∈ ids, Direct id) → ∀ cache : KvIndex.EventCache,
        cache.scoreText (extractTextForRouting (.intArray ids)) =
          .ok (some (cache.scoreTokens (ids.map Int32.toUInt32)))) ∧
      ∀ others : List Int32, (∀ id ∈ others, allowed id) → others ≠ ids →
        extractTextForRouting (.intArray others) ≠ extractTextForRouting (.intArray ids)) ↔
    ¬ allowed 0x10f7fd := by
  constructor
  · intro faithful bad
    have direct : ∀ id ∈ [0x10f7fd], Direct id := List.forall_mem_singleton.mpr (by decide)
    have read := (faithful [0x10f7fd] (by simpa using bad)).1 direct ⟨.new 0, fun _ => none, 1⟩
    cases read
  · intro left_out ids within
    have apart {ids : List Int32} (within : ∀ id ∈ ids, allowed id) : 0x10f7fd ∉ ids :=
      fun member => left_out (within _ member)
    refine ⟨fun direct _ => ?_, fun _ also differs same => differs ?_⟩
    · have marked : KvIndex.nativePrefix.isPrefixOf (extractTextForRouting (.intArray ids)) =
          true := rfl
      have body : (extractTextForRouting (.intArray ids)).drop KvIndex.nativePrefix.length =
          ids.flatMap tokenKey := rfl
      rw [KvIndex.EventCache.scoreText, if_pos marked, body,
        nativeIds_flatMap direct (apart within), Option.map_some]
    · exact flatMap_tokenKey_inj (apart also) (apart within)
        (List.cons.inj (List.cons.inj same).2).2

/-- The last id with a character of its own is not read back, and before the letters of
an escape it makes the text of another prompt. -/
theorem routingText_fails :
    Direct 0x10f7fd ∧
      (KvIndex.EventCache.mk (.new 0) (fun _ => none) 1).scoreText
        (extractTextForRouting (.intArray [0x10f7fd])) = .ok none ∧
      extractTextForRouting (.intArray [0x10f7fd, 102, 102, 102, 102, 102, 102, 102, 102, 59]) =
        extractTextForRouting (.intArray [-1]) :=
  ⟨by decide, rfl, by decide⟩

end SmetricRouter.Protocols
