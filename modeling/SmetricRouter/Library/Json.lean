import SmetricRouter.Library.Machine64
import Mathlib.Data.Rat.Defs

/-! JSON values, what a reader takes from them, and their compact text.

An object lists its fields in the order in which they are written. How a floating point
number is printed is a parameter.
-/

namespace SmetricRouter

/-- A number in the three forms a parser keeps. A negative integer is `-1 - magnitude`. -/
inductive JsonNumber where
  | posInt (value : Nat)
  | negInt (magnitude : Nat)
  | float (value : ℚ)
  deriving DecidableEq

inductive Json where
  | null
  | bool (value : Bool)
  | number (value : JsonNumber)
  | string (value : String)
  | array (items : List Json)
  | object (fields : List (String × Json))

/-- The nearest `f64` to a natural number: 53 significant bits, ties to even. -/
def f64OfNat (value : Nat) : ℚ :=
  if value < 2 ^ 53 then value
  else
    let scale : ℚ := 2 ^ (value.log2 - 52)
    roundTiesEven (value / scale) * scale

namespace JsonNumber

def asU64 : JsonNumber → Option Nat
  | .posInt value => some value
  | .negInt _ | .float _ => none

def asI64 : JsonNumber → Option Int
  | .posInt value => if value < 2 ^ 63 then some value else none
  | .negInt magnitude => some (Int.negSucc magnitude)
  | .float _ => none

def asF64 : JsonNumber → ℚ
  | .posInt value => f64OfNat value
  | .negInt magnitude => -f64OfNat (magnitude + 1)
  | .float value => value

def integerText : JsonNumber → Option String
  | .posInt value => some (toString value)
  | .negInt magnitude => some (toString (Int.negSucc magnitude))
  | .float _ => none

end JsonNumber

namespace Json

def asObject : Json → Option (List (String × Json))
  | .object fields => some fields
  | _ => none

def asBool : Json → Option Bool
  | .bool value => some value
  | _ => none

def asNumber : Json → Option JsonNumber
  | .number value => some value
  | _ => none

def escape (letter : Char) : List Char :=
  if letter = '"' then ['\\', '"']
  else if letter = '\\' then ['\\', '\\']
  else if letter.toNat = 8 then ['\\', 'b']
  else if letter.toNat = 9 then ['\\', 't']
  else if letter.toNat = 10 then ['\\', 'n']
  else if letter.toNat = 12 then ['\\', 'f']
  else if letter.toNat = 13 then ['\\', 'r']
  else if letter.toNat < 32 then
    ['\\', 'u', '0', '0', Nat.digitChar (letter.toNat / 16), Nat.digitChar (letter.toNat % 16)]
  else [letter]

def writeString (text : String) : List Char :=
  '"' :: (text.toList.flatMap escape ++ ['"'])

section Write

variable (printFloat : ℚ → String)

def writeNumber (number : JsonNumber) : List Char :=
  (number.integerText.getD (printFloat number.asF64)).toList

mutual

def write : Json → List Char
  | .null => "null".toList
  | .bool true => "true".toList
  | .bool false => "false".toList
  | .number value => writeNumber printFloat value
  | .string value => writeString value
  | .array items => '[' :: (writeItems items ++ [']'])
  | .object fields => '{' :: (writeFields fields ++ ['}'])

def writeItems : List Json → List Char
  | [] => []
  | [item] => write item
  | item :: rest => write item ++ ',' :: writeItems rest

def writeFields : List (String × Json) → List Char
  | [] => []
  | [field] => writeField field
  | field :: rest => writeField field ++ ',' :: writeFields rest

def writeField : String × Json → List Char
  | (key, value) => writeString key ++ ':' :: write value

end

theorem write_object (fields : List (String × Json)) :
    write printFloat (.object fields) = '{' :: (writeFields printFloat fields ++ ['}']) := rfl

theorem writeField_string (key value : String) :
    writeField printFloat (key, .string value) = writeString key ++ ':' :: writeString value := rfl

theorem writeFields_cons_cons (first second : String × Json) (rest : List (String × Json)) :
    writeFields printFloat (first :: second :: rest) =
      writeField printFloat first ++ ',' :: writeFields printFloat (second :: rest) := rfl

theorem writeFields_cons (first : String × Json) (rest : List (String × Json)) :
    writeFields printFloat (first :: rest) = writeField printFloat first ++
      rest.flatMap fun later => ',' :: writeField printFloat later := by
  induction rest generalizing first with
  | nil => exact (List.append_nil _).symm
  | cons second _ ih =>
    rw [writeFields_cons_cons, ih second, List.flatMap_cons, List.cons_append]

theorem writeFields_around (before after : List (String × Json)) (field : String × Json) :
    writeFields printFloat (before ++ field :: after) =
      before.flatMap (fun earlier => writeField printFloat earlier ++ [',']) ++
        (writeField printFloat field ++
          after.flatMap fun later => ',' :: writeField printFloat later) := by
  induction before with
  | nil => exact writeFields_cons printFloat _ _
  | cons _ before ih =>
    have more : ∃ second rest, before ++ field :: after = second :: rest :=
      List.exists_cons_of_ne_nil (by simp)
    obtain ⟨_, _, split⟩ := more
    rw [List.cons_append, split, writeFields_cons_cons, ← split, ih, List.flatMap_cons]
    simp

end Write

end Json

end SmetricRouter
