import Mathlib.Algebra.Group.Int.Defs
import SmetricRouter.KvIndex.Index
import SmetricRouter.Library.Utf8Text

/-! The decoder of event batches.

A batch is read from the wire as one msgpack value; its events are then decoded one by
one, and those that cannot be decoded are left out of the batch.
-/

namespace SmetricRouter.KvIndex

/-- A msgpack value. Strings on the wire need not be UTF-8. -/
inductive MsgValue where
  | nil
  | boolean (value : Bool)
  | integer (value : Int)
  | f32 (bits : UInt32)
  | f64 (bits : UInt64)
  | string (value : String)
  | malformedString (bytes : List UInt8)
  | binary (bytes : List UInt8)
  | array (items : List MsgValue)
  | map (entries : List (MsgValue × MsgValue))
  | ext (kind : Int) (bytes : List UInt8)

namespace MsgValue

def asArray : MsgValue → Option (List MsgValue)
  | .array items => some items
  | _ => none

def asStr : MsgValue → Option String
  | .string value => some value
  | _ => none

def asSlice : MsgValue → Option (List UInt8)
  | .binary bytes => some bytes
  | .string value => some (utf8 value.toList)
  | .malformedString bytes => some bytes
  | _ => none

def asU64 : MsgValue → Option Nat
  | .integer value => if 0 ≤ value then some value.toNat else none
  | _ => none

def asI64 : MsgValue → Option Int
  | .integer value => if value < 2 ^ 63 then some value else none
  | _ => none

def isNumber : MsgValue → Bool
  | .integer _ => true
  | .f32 _ => true
  | .f64 _ => true
  | _ => false

def isNil : MsgValue → Bool
  | .nil => true
  | _ => false

end MsgValue

section Decode

variable (readValue : List UInt8 → Except String MsgValue) (debug : MsgValue → String)

variable (value : MsgValue)

def extractHash (field : String) : Except String BlockHash :=
  match value.asSlice with
  | some bytes => .ok (.bytes bytes)
  | none =>
    match value.asU64 with
    | some number => .ok (.int (UInt64.ofNat number))
    | none =>
      match value.asI64 with
      | some number => .ok (.int (UInt64.ofInt number))
      | none => .error (field ++ ": expected bytes or integer, got " ++ debug value)

def extractHashArray (field : String) : Except String (List BlockHash) :=
  match value.asArray with
  | none => .error (field ++ ": expected array")
  | some items => items.mapM fun item => extractHash debug item field

def extractU32Array (field : String) : Except String (List UInt32) :=
  match value.asArray with
  | none => .error (field ++ ": expected array")
  | some items => items.mapM fun item =>
    match item.asU64 with
    | some number => .ok (UInt32.ofNat number)
    | none => .error (field ++ ": element is not integer: " ++ debug item)

/-- The layout after the tag: hashes, parent, tokens, block size, the deprecated LoRA
id, medium, LoRA name and extra keys. -/
def decodeBlockStored : List MsgValue → Except String KvEvent
  | _ :: hashes :: parent :: tokens :: size :: _ :: medium :: loraName :: rest => do
    let blockHashes ← extractHashArray debug hashes "block_hashes"
    let parentBlockHash ←
      if parent.isNil then .ok none else (extractHash debug parent "parent_hash").map some
    let tokenIds ← extractU32Array debug tokens "token_ids"
    let blockSize ← match size.asU64 with
      | some number => .ok (number % 2 ^ 32)
      | none => .error "BlockStored: block_size must be uint"
    let hasExtraKeys := (rest.head?.bind MsgValue.asArray).any fun keys =>
      keys.any fun key => !key.isNil
    return .blockStored blockHashes parentBlockHash tokenIds blockSize loraName.asStr
      medium.asStr hasExtraKeys
  | fields => .error ("BlockStored: expected >= 8 fields, got " ++ toString fields.length)

def decodeBlockRemoved : List MsgValue → Except String KvEvent
  | _ :: hashes :: rest => do
    let blockHashes ← extractHashArray debug hashes "block_hashes"
    return .blockRemoved blockHashes (rest.head?.bind MsgValue.asStr)
  | fields => .error ("BlockRemoved: expected >= 2 fields, got " ++ toString fields.length)

/-- The tag of an event as a text; numbers are written out. -/
def eventTag : Option String :=
  value.asStr.or (value.asU64.map toString)

def decodeSingleEvent : Except String KvEvent :=
  match value.asArray with
  | none => .error "event: expected array"
  | some [] => .error "event: empty array"
  | some (first :: rest) =>
    match eventTag first with
    | none => .error ("event: unrecognized tag type: " ++ debug first)
    | some tag =>
      if tag = "BlockStored" ∨ tag = "0" then decodeBlockStored debug (first :: rest)
      else if tag = "BlockRemoved" ∨ tag = "1" then decodeBlockRemoved debug (first :: rest)
      else if tag = "AllBlocksCleared" ∨ tag = "2" then .ok .allBlocksCleared
      else .error ("event: unknown tag '" ++ tag ++ "'")

def decodeEvents (raws : List MsgValue) : List KvEvent :=
  raws.filterMap fun raw => (decodeSingleEvent debug raw).toOption

def decodeEventBatch (payload : List UInt8) : Except String (List KvEvent) :=
  match readValue payload with
  | .error message => .error ("msgpack decode error: " ++ message)
  | .ok value =>
    match value.asArray with
    | none => .error "EventBatch: expected array at top level"
    | some (timestamp :: events :: _) =>
      if timestamp.isNumber then
        match events.asArray with
        | some raws => .ok (decodeEvents debug raws)
        | none => .error "EventBatch: events must be array"
      else .error "EventBatch: ts must be float"
    | some fields =>
      .error ("EventBatch: expected >= 2 elements, got " ++ toString fields.length)

end Decode

namespace WireSample

/-- The reader, as far as small integers, short arrays and `nil` go. -/
def readOne : Nat → List UInt8 → Option (MsgValue × List UInt8)
  | depth + 1, byte :: rest =>
    if byte < 0x80 then some (.integer byte.toNat, rest)
    else if byte = 0xc0 then some (.nil, rest)
    else if 0x90 ≤ byte ∧ byte < 0xa0 then do
      let (items, rest) ← (List.range (byte.toNat - 0x90)).foldlM (fun (items, rest) _ => do
        let (item, rest) ← readOne depth rest
        return (items ++ [item], rest)) ([], rest)
      return (.array items, rest)
    else none
  | _, _ => none

def readValue (payload : List UInt8) : Except String MsgValue :=
  match readOne 5 payload with
  | some (value, _) => .ok value
  | none => .error "unreadable"

def debug (_ : MsgValue) : String := "Nil"

/-- A batch with one `BlockStored`. -/
def storedPayload : List UInt8 :=
  [0x92, 0, 0x91, 0x98, 0, 0x91, 1, 0xc0, 0x91, 7, 1, 0xc0, 0xc0, 0xc0]

theorem decode_storedPayload : decodeEventBatch readValue debug storedPayload =
    .ok [.blockStored [.int 1] none [7] 1 none none false] := by
  decide +kernel

end WireSample

end SmetricRouter.KvIndex
