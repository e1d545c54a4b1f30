import Mathlib.Data.List.TakeWhile
import SmetricRouter.Library.Json
import SmetricRouter.Library.Table
import SmetricRouter.Library.TextSearch

/-! The key that hashing policies route a request by.

The key comes from a header or is picked out of the request text. The text is not
parsed: a field is looked for as a pattern, at the first place where the pattern stands.
-/

namespace SmetricRouter.Policies

def sessionHeaderNames : List String :=
  ["x-session-id", "x-user-id", "x-tenant-id", "x-correlation-id", "x-request-id", "x-trace-id"]

def extractHashKeyFromHeaders (headers : Table String String) : Option String :=
  sessionHeaderNames.findSome? fun name =>
    match headers.lookup name with
    | some value => if value = "" then none else some ("header:" ++ name ++ ":" ++ value)
    | none => none

def quoted (quote : Char) (name : String) : List Char := quote :: (name.toList ++ [quote])

def colonAfter : List Char → Option (List Char)
  | [] => none
  | letter :: rest =>
    if letter = ':' then some rest else if isWhitespace letter then colonAfter rest else none

def delimiters : List Char := [',', ' ', '}', ']', '\n', '\r', '\t']

/-- A value in double or single quotes, or up to a delimiter. -/
def readValue : List Char → Option (List Char)
  | '"' :: stripped => (splitFirst ['"'] stripped).map (·.1)
  | '\'' :: stripped => (splitFirst ['\''] stripped).map (·.1)
  | text =>
    let value := text.takeWhile (· ∉ delimiters)
    if value = [] then none else some value

def valueOf (text pattern : List Char) : Option (List Char) := do
  let (_, afterField) ← splitFirst pattern text
  let afterColon ← colonAfter afterField
  readValue (trimStart afterColon)

def fieldPatterns (fieldName : String) : List (List Char) :=
  [quoted '"' fieldName, quoted '\'' fieldName, fieldName.toList]

variable (text : List Char)

def extractFieldValue (fieldName : String) : Option (List Char) :=
  (fieldPatterns fieldName).findSome? (valueOf text)

def findFieldStart (fieldName : String) : Option (List Char) :=
  [quoted '"' fieldName, quoted '\'' fieldName].findSome? fun pattern => do
    let (_, afterField) ← splitFirst pattern text
    colonAfter afterField

def matchBraces : Nat → List Char → Option (List Char)
  | _, [] => none
  | depth, letter :: rest =>
    if letter = '{' then (matchBraces (depth + 1) rest).map (letter :: ·)
    else if letter = '}' then
      if depth = 1 then some [letter] else (matchBraces (depth - 1) rest).map (letter :: ·)
    else (matchBraces depth rest).map (letter :: ·)

def extractJsonObject : Option (List Char) :=
  if text.head? = some '{' then matchBraces 0 text else none

def extractNestedFieldValue (parentField childField : String) : Option (List Char) := do
  let parent ← findFieldStart text parentField
  let content ← extractJsonObject (parent.dropWhile (· ≠ '{'))
  extractFieldValue content childField

def extractHashKeyFromBody : Option String :=
  if text = [] then none
  else match extractNestedFieldValue text "session_params" "session_id" with
    | some sessionId => some ("session:" ++ String.ofList sessionId)
    | none => match extractFieldValue text "user" with
      | some user => some ("user:" ++ String.ofList user)
      | none => match extractFieldValue text "session_id" with
        | some sessionId => some ("session:" ++ String.ofList sessionId)
        | none => match extractFieldValue text "user_id" with
          | some userId => some ("user:" ++ String.ofList userId)
          | none => none

def hex16 (value : Nat) : String :=
  let digits := Nat.toDigits 16 value
  String.ofList (List.replicate (16 - digits.length) '0' ++ digits)

def extractHashKey (fbiHash : String → Nat) (requestText : Option String)
    (headers : Option (Table String String)) : String :=
  let text := requestText.getD ""
  ((headers.bind extractHashKeyFromHeaders).or (extractHashKeyFromBody text.toList)).getD
    (if 100 < text.utf8ByteSize then "request_hash:" ++ hex16 (fbiHash text)
    else "request:" ++ text)

/-! ### What is found in a text -/

/-- The value was read behind the first place of one of the field's patterns, a colon
and an opening quote, with nothing but whitespace between them. -/
inductive ReadFrom (fieldName : String) (text value : List Char) : Prop where
  | intro (pattern before gap inset opening rest) (listed : pattern ∈ fieldPatterns fieldName)
      (blankGap : ∀ letter ∈ gap, isWhitespace letter)
      (blankInset : ∀ letter ∈ inset, isWhitespace letter)
      (quotes : opening = ['"'] ∨ opening = ['\''] ∨ opening = [])
      (stands : FirstAt pattern before (gap ++ ':' :: (inset ++ (opening ++ (value ++ rest)))) text)

variable {text value : List Char}

theorem colonAfter_eq_some {rest : List Char} (found : colonAfter text = some rest) :
    ∃ gap, (∀ letter ∈ gap, isWhitespace letter) ∧ text = gap ++ ':' :: rest := by
  induction text with
  | nil => cases found
  | cons letter _ ih =>
    rw [colonAfter] at found
    split at found
    case isTrue colon =>
      cases found
      exact ⟨[], nofun, by rw [colon, List.nil_append]⟩
    case isFalse =>
      split at found
      case isTrue blank =>
        obtain ⟨gap, blanks, whole⟩ := ih found
        refine ⟨letter :: gap, ?_, by rw [whole, List.cons_append]⟩
        exact List.forall_mem_cons.mpr ⟨blank, blanks⟩
      case isFalse => cases found

theorem readValue_eq_some (found : readValue text = some value) :
    ∃ opening rest, (opening = ['"'] ∨ opening = ['\''] ∨ opening = []) ∧
      text = opening ++ (value ++ rest) := by
  unfold readValue at found
  split at found
  case h_1 stripped =>
    obtain ⟨⟨start, rest⟩, split, same⟩ := Option.map_eq_some_iff.mp found
    cases same
    exact ⟨['"'], ['"'] ++ rest, .inl rfl, by rw [(splitFirst_firstAt split).text_eq]; rfl⟩
  case h_2 stripped =>
    obtain ⟨⟨_, rest⟩, split, same⟩ := Option.map_eq_some_iff.mp found
    cases same
    exact ⟨['\''], ['\''] ++ rest, .inr (.inl rfl), by rw [(splitFirst_firstAt split).text_eq]; rfl⟩
  case h_3 =>
    simp only [Option.ite_none_left_eq_some] at found
    obtain ⟨_, same⟩ := found
    cases same
    exact ⟨[], text.dropWhile (· ∉ delimiters), .inr (.inr rfl),
      List.takeWhile_append_dropWhile.symm⟩

variable {fieldName : String}

theorem extractFieldValue_readFrom (found : extractFieldValue text fieldName = some value) :
    ReadFrom fieldName text value := by
  obtain ⟨pattern, listed, read⟩ := List.exists_of_findSome?_eq_some found
  simp only [valueOf, Option.bind_eq_bind, Option.bind_eq_some_iff] at read
  obtain ⟨⟨before, _⟩, split, afterColon, colon, value'⟩ := read
  obtain ⟨gap, blank, first⟩ := colonAfter_eq_some colon
  obtain ⟨opening, rest, quotes, second⟩ := readValue_eq_some value'
  refine .intro pattern before gap (afterColon.takeWhile isWhitespace) opening rest listed blank
    (fun _ => List.mem_takeWhile_imp) quotes ?_
  rw [← second, trimStart, List.takeWhile_append_dropWhile, ← first]
  exact splitFirst_firstAt split

theorem eq_nil_of_blank {gap left right : List Char} {letter : Char}
    (blank : ∀ letter ∈ gap, isWhitespace letter) (solid : isWhitespace letter = false)
    (same : left ++ gap = right ++ [letter]) : gap = [] := by
  rcases List.eq_nil_or_concat gap with empty | ⟨_, last, rfl⟩
  · exact empty
  · rw [List.concat_eq_append, ← List.append_assoc] at same
    have ends : last = letter := (List.append_inj' same rfl).2 |> List.singleton_inj.mp
    have white := blank last (by simp)
    rw [ends, solid] at white
    cases white

variable {pattern before lead : List Char}

section

variable (known : fieldName = "user" ∨ fieldName = "session_id" ∨ fieldName = "user_id")
  (listed : pattern ∈ fieldPatterns fieldName)

include known listed

theorem own_of_pattern (same : before ++ pattern = lead ++ quoted '"' "user") :
    fieldName = "user" ∧ pattern = quoted '"' "user" ∧ before = lead := by
  have ends := congrArg List.reverse same
  have user : quoted '"' "user" = ['"', 'u', 's', 'e', 'r', '"'] := by decide
  rcases known with rfl | rfl | rfl
  · have patterns : fieldPatterns "user" = [['"', 'u', 's', 'e', 'r', '"'],
        ['\'', 'u', 's', 'e', 'r', '\''], ['u', 's', 'e', 'r']] := by decide
    rw [patterns] at listed
    simp only [List.mem_cons, List.not_mem_nil, or_false] at listed
    rcases listed with rfl | rfl | rfl
    · exact ⟨rfl, user.symm, List.append_cancel_right (user ▸ same)⟩
    · simp [user] at ends
    · simp [user] at ends
  · have patterns : fieldPatterns "session_id" =
        [['"', 's', 'e', 's', 's', 'i', 'o', 'n', '_', 'i', 'd', '"'],
          ['\'', 's', 'e', 's', 's', 'i', 'o', 'n', '_', 'i', 'd', '\''],
          ['s', 'e', 's', 's', 'i', 'o', 'n', '_', 'i', 'd']] := by decide
    rw [patterns] at listed
    simp only [List.mem_cons, List.not_mem_nil, or_false] at listed
    rcases listed with rfl | rfl | rfl <;> simp [user] at ends
  · have patterns : fieldPatterns "user_id" = [['"', 'u', 's', 'e', 'r', '_', 'i', 'd', '"'],
        ['\'', 'u', 's', 'e', 'r', '_', 'i', 'd', '\''],
        ['u', 's', 'e', 'r', '_', 'i', 'd']] := by decide
    rw [patterns] at listed
    simp only [List.mem_cons, List.not_mem_nil, or_false] at listed
    rcases listed with rfl | rfl | rfl <;> simp [user] at ends

theorem own_of_value {gap inset opening : List Char} (blankGap : ∀ letter ∈ gap, isWhitespace letter)
    (blankInset : ∀ letter ∈ inset, isWhitespace letter)
    (quotes : opening = ['"'] ∨ opening = ['\''] ∨ opening = [])
    (same : before ++ pattern ++ gap ++ [':'] ++ inset ++ opening =
      lead ++ quoted '"' "user" ++ [':'] ++ ['"']) :
    fieldName = "user" ∧ pattern = quoted '"' "user" ∧ before = lead := by
  have opened : opening = ['"'] := by
    rcases quotes with double | single | none
    · exact double
    · rw [single] at same
      have ends := (List.append_inj' same rfl).2
      simp at ends
    · rw [none, List.append_nil] at same
      have empty := eq_nil_of_blank blankInset (by decide) same
      rw [empty, List.append_nil] at same
      have ends := (List.append_inj' same rfl).2
      simp at ends
  rw [opened] at same
  have upToColon := List.append_cancel_right same
  rw [eq_nil_of_blank blankInset (by decide) upToColon, List.append_nil] at upToColon
  have upToName := List.append_cancel_right upToColon
  have closes : quoted '"' "user" = ['"', 'u', 's', 'e', 'r'] ++ ['"'] := by decide
  have whole := upToName
  rw [closes, ← List.append_assoc] at whole
  rw [eq_nil_of_blank blankGap (by decide) whole, List.append_nil] at upToName
  exact own_of_pattern known listed upToName

end

/-! ### The key of a request that names its user -/

def Plain (text : String) : Prop :=
  ∀ letter ∈ text.toList, letter ≠ '"' ∧ letter ≠ '\'' ∧ letter ≠ '\\' ∧ 32 ≤ letter.toNat

section Body

variable (printFloat : ℚ → String) (before after : List (String × Json)) (user : String)

def userBody : Json := .object (before ++ ("user", .string user) :: after)

def bodyText : String := String.ofList ((userBody before after user).write printFloat)

def leadingText : List Char :=
  '{' :: before.flatMap fun field => Json.writeField printFloat field ++ [',']

def trailingText : List Char :=
  (after.flatMap fun field => ',' :: Json.writeField printFloat field) ++ ['}']

variable {user}

theorem flatMap_escape_of_plain (plain : Plain user) :
    user.toList.flatMap Json.escape = user.toList := by
  have unescaped : ∀ letter ∈ user.toList, Json.escape letter = [letter] := by
    intro letter member
    obtain ⟨double, _, slash, _⟩ := plain _ member
    unfold Json.escape
    grind
  rw [List.flatMap_congr unescaped]
  exact List.flatMap_singleton' _

theorem toList_bodyText (plain : Plain user) :
    (bodyText printFloat before after user).toList = leadingText printFloat before ++
      (quoted '"' "user" ++ ':' :: '"' :: (user.toList ++ '"' :: trailingText printFloat after)) := by
  have name : Json.writeString "user" = quoted '"' "user" := by decide
  have field : Json.writeField printFloat ("user", .string user) =
      quoted '"' "user" ++ ':' :: '"' :: (user.toList ++ ['"']) := by
    rw [Json.writeField_string, name, Json.writeString, flatMap_escape_of_plain plain]
  unfold bodyText userBody leadingText trailingText
  rw [String.toList_ofList, Json.write_object, Json.writeFields_around, field]
  simp

theorem getLast_leadingText :
    ∀ letter ∈ (leadingText printFloat before).getLast?, letter ∉ quoted '"' "user" := by
  intro letter last
  have ends : letter = '{' ∨ letter = ',' := by
    unfold leadingText at last
    rcases List.eq_nil_or_concat before with rfl | ⟨_, _, rfl⟩
    · cases last
      exact .inl rfl
    · right
      simp only [List.concat_eq_append, List.flatMap_append, List.flatMap_cons, List.flatMap_nil,
        List.append_nil] at last
      rw [← List.append_assoc, ← List.cons_append, List.getLast?_concat] at last
      exact (Option.some.inj last).symm
  rcases ends with rfl | rfl <;> decide

variable {printFloat before after}

theorem extractFieldValue_bodyText (plain : Plain user)
    (own : ¬ quoted '"' "user" <:+: leadingText printFloat before) :
    extractFieldValue (bodyText printFloat before after user).toList "user" = some user.toList := by
  have stands : splitFirst (quoted '"' "user") (bodyText printFloat before after user).toList =
      some (leadingText printFloat before,
        ':' :: '"' :: (user.toList ++ '"' :: trailingText printFloat after)) := by
    rw [toList_bodyText printFloat before after plain]
    exact (firstAt_of_absent own (getLast_leadingText printFloat _)).splitFirst_eq
  have closes : splitFirst ['"'] (user.toList ++ '"' :: trailingText printFloat after) =
      some (user.toList, trailingText printFloat after) := by
    have unquoted : '"' ∉ user.toList := fun member => (plain '"' member).1 rfl
    refine (firstAt_of_absent ?_ ?_).splitFirst_eq
    · exact fun inside => unquoted (inside.subset (List.mem_singleton_self _))
    · intro _ last single
      rw [List.mem_singleton.mp single] at last
      exact unquoted (List.mem_of_getLast? last)
  have blank : isWhitespace '"' = false := by decide
  have value : valueOf (bodyText printFloat before after user).toList (quoted '"' "user") =
      some user.toList := by
    simp [valueOf, stands, colonAfter, trimStart, blank, readValue, closes]
  unfold extractFieldValue fieldPatterns
  rw [List.findSome?_cons, value]

def zeros (count : Nat) : String := String.ofList (List.replicate count '0')

theorem toList_zeros (count : Nat) : (zeros count).toList = List.replicate count '0' :=
  String.toList_ofList

theorem plain_zeros (count : Nat) : Plain (zeros count) := by
  intro _ member
  rw [toList_zeros] at member
  rw [List.eq_of_mem_replicate member]
  decide

theorem own_of_zeros
    (known : fieldName = "user" ∨ fieldName = "session_id" ∨ fieldName = "user_id") {count : Nat}
    (long : (leadingText printFloat before).length + (trailingText printFloat after).length + 10 <
      count)
    (found : extractFieldValue (bodyText printFloat before after (zeros count)).toList fieldName =
      some (zeros count).toList) :
    fieldName = "user" ∧ ¬ quoted '"' "user" <:+: leadingText printFloat before := by
  obtain ⟨pattern, start, gap, inset, opening, rest, listed, blankGap, blankInset, quotes, stands⟩ :=
    extractFieldValue_readFrom found
  have text := stands.text_eq
  rw [toList_bodyText printFloat before after (plain_zeros count), toList_zeros] at text
  have place : start ++ pattern ++ gap ++ [':'] ++ inset ++ opening =
      leadingText printFloat before ++ quoted '"' "user" ++ [':'] ++ ['"'] := by
    have row : start ++ pattern ++ gap ++ [':'] ++ inset ++ opening ++
        (List.replicate count '0' ++ rest) =
        leadingText printFloat before ++ quoted '"' "user" ++ [':'] ++
          '"' :: (List.replicate count '0' ++ '"' :: trailingText printFloat after) := by
      simp only [List.append_assoc, List.cons_append, List.nil_append] at text ⊢
      exact text.symm
    have size : (quoted '"' "user").length = 6 := by decide
    refine eq_of_replicate row (by decide) (by decide) ?_ ?_
    · simp only [List.length_append, List.length_singleton, size]
      omega
    · omega
  obtain ⟨named, same, first⟩ := own_of_value known listed blankGap blankInset quotes place
  refine ⟨named, ?_⟩
  rintro ⟨earlier, between, inside⟩
  have sooner := stands.first earlier (between ++ (quoted '"' "user" ++
    ':' :: '"' :: (List.replicate count '0' ++ '"' :: trailingText printFloat after))) <| by
      rw [toList_bodyText printFloat before after (plain_zeros count), toList_zeros, ← inside, same]
      simp
  rw [first, ← inside] at sooner
  simp only [List.length_append] at sooner
  have size : (quoted '"' "user").length = 6 := by decide
  omega

end Body

section Key

variable {fbiHash : String → Nat} {printFloat : ℚ → String} {before after : List (String × Json)}
  {headers : Option (Table String String)} {user : String}

def FindsNoSession (printFloat : ℚ → String) (before after : List (String × Json)) : Prop :=
  ∀ user, Plain user → extractNestedFieldValue (bodyText printFloat before after user).toList
    "session_params" "session_id" = none

theorem toList_bodyText_ne_nil : (bodyText printFloat before after user).toList ≠ [] := by
  unfold bodyText userBody
  rw [String.toList_ofList]
  exact List.cons_ne_nil _ _

theorem userKey_of_own (unrouted : headers.bind extractHashKeyFromHeaders = none)
    (plain : Plain user)
    (sessionless : extractNestedFieldValue (bodyText printFloat before after user).toList
      "session_params" "session_id" = none)
    (own : ¬ quoted '"' "user" <:+: leadingText printFloat before) :
    extractHashKey fbiHash (some (bodyText printFloat before after user)) headers =
      "user:" ++ user := by
  have body : extractHashKeyFromBody (bodyText printFloat before after user).toList =
      some ("user:" ++ user) := by
    rw [extractHashKeyFromBody, if_neg toList_bodyText_ne_nil, sessionless,
      extractFieldValue_bodyText plain own]
    simp
  simp [extractHashKey, unrouted, body]

theorem key_ne_userKey {kind : String} (other : kind ∈ ["session:", "request_hash:", "request:"])
    {value name : String} : kind ++ value ≠ "user:" ++ name := by
  intro same
  have heads := congrArg (fun text : String => text.toList.head?) same
  simp only [List.mem_cons, List.not_mem_nil, or_false] at other
  rcases other with rfl | rfl | rfl <;> simp at heads

/-- A body whose key is the user has no session in it, and the user is the value of a
field the key may come from. -/
theorem body_of_userKey (unrouted : headers.bind extractHashKeyFromHeaders = none)
    (key : extractHashKey fbiHash (some (bodyText printFloat before after user)) headers =
      "user:" ++ user) :
    extractNestedFieldValue (bodyText printFloat before after user).toList
        "session_params" "session_id" = none ∧
      ∃ fieldName, (fieldName = "user" ∨ fieldName = "session_id" ∨ fieldName = "user_id") ∧
        extractFieldValue (bodyText printFloat before after user).toList fieldName =
          some user.toList := by
  have value : ∀ {read : List Char}, "user:" ++ String.ofList read = "user:" ++ user →
      read = user.toList := by
    intro read same
    have lists := congrArg String.toList same
    simp only [String.toList_append] at lists
    rw [← List.append_cancel_left lists, String.toList_ofList]
  simp only [extractHashKey, unrouted, Option.none_or, Option.getD_some] at key
  revert key
  fun_cases extractHashKeyFromBody (bodyText printFloat before after user).toList with
  | case1 empty => exact (toList_bodyText_ne_nil empty).elim
  | case2 | case4 => exact fun key => (key_ne_userKey (by simp) key).elim
  | case3 _ sessionless _ found =>
    exact fun key => ⟨sessionless, "user", .inl rfl, (value key) ▸ found⟩
  | case5 _ sessionless _ _ _ found =>
    exact fun key => ⟨sessionless, "user_id", .inr (.inr rfl), (value key) ▸ found⟩
  | case6 =>
    split <;> exact fun key => (key_ne_userKey (by simp) key).elim

theorem userKey_iff (unrouted : headers.bind extractHashKeyFromHeaders = none) :
    (∀ user, Plain user →
      extractHashKey fbiHash (some (bodyText printFloat before after user)) headers =
        "user:" ++ user) ↔
      FindsNoSession printFloat before after ∧
        ¬ quoted '"' "user" <:+: leadingText printFloat before := by
  constructor
  · intro keyed
    refine ⟨fun user plain => (body_of_userKey unrouted (keyed _ plain)).1, ?_⟩
    -- One name that is too long to stand anywhere else.
    obtain ⟨_, _, known, found⟩ :=
      body_of_userKey unrouted (keyed (zeros _) (plain_zeros _))
    exact (own_of_zeros known (Nat.lt_succ_self _) found).2
  · rintro ⟨sessionless, own⟩ user plain
    exact userKey_of_own unrouted plain (sessionless _ plain) own

def chat (content : String) : List (String × Json) :=
  [("messages", .array [.object [("content", .string content), ("role", .string "user")]])]

/-- Behind a message with the role `user` not every user is the key, nor behind a session. -/
theorem userKey_iff_chat :
    let keyed (before : List (String × Json)) : Prop := ∀ user, Plain user →
      extractHashKey (fun _ => 0)
        (some (bodyText (fun _ => "") before [("stream", .bool true)] user))
        (some ((∅ : Table String String).insert "accept" "text")) = "user:" ++ user
    ¬ keyed (chat "hi") ∧
      ¬ keyed [("session_params", .object [("session_id", .string "eve")])] := by
  refine ⟨fun keyed => ?_, fun keyed => ?_⟩
  · exact ((userKey_iff (by decide)).mp keyed).2 (by decide +kernel)
  · have sessionless := ((userKey_iff (by decide)).mp keyed).1 (zeros 1) (plain_zeros 1)
    exact absurd sessionless (by decide +kernel)

example : extractHashKey (fun _ => 0)
    (some (bodyText (fun _ => "") [] (chat "'user':'eve'") "bob")) none = "user:bob" := by
  decide +kernel

/-- A chat in front of the field `user` hides it; what a message says then decides the
key, be it a user or a session. -/
theorem userKey_fails :
    extractHashKey (fun _ => 0) (some (bodyText (fun _ => "") (chat "hi") [] "bob")) none ≠
        "user:bob" ∧
      extractHashKey (fun _ => 0)
        (some (bodyText (fun _ => "") (chat "'user':'eve'") [] "bob")) none = "user:eve" ∧
      extractHashKey (fun _ => 0)
        (some (bodyText (fun _ => "") (chat "'session_params':\x7b'session_id':'eve'\x7d") []
          "bob")) none = "session:eve" := by
  refine ⟨?_, ?_, ?_⟩ <;> decide +kernel

end Key

end SmetricRouter.Policies
