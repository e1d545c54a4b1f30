import SmetricRouter.Replayer.Replay

/-! The prompts of a session's turns.

A prompt is built from the hash ids of its record. In a mixed replay the history that
the trace recorded is replaced by what the engine was sent and generated. The loop
carries that context, and the length of the recorded history, from turn to turn.
-/

namespace SmetricRouter.Replayer

/-- A record with what its prompt is built from. -/
structure PromptRecord extends TraceRecord where
  inputLength : Nat
  outputLength : Nat
  hashIds : List Int

/-- A record with what its request comes back with, if it is sent. -/
structure Round extends PromptRecord where
  error : Option String
  outputTokenIds : List Nat

def hashBlockTokens : Nat := 512

-- The token ids that a generator draws, by its seed.
variable (draws : Int → Nat → Nat)

def hashIdToTokenIds (hashId : Int) : List Nat :=
  (List.range hashBlockTokens).map (draws hashId)

def buildPromptTokenIds (record : PromptRecord) : List Nat :=
  let ids := record.hashIds.flatMap (hashIdToTokenIds draws)
  let padding := (List.range (record.inputLength - ids.length)).map (draws record.chatId)
  (ids ++ padding).take record.inputLength

def applyRealizedPrefix (promptTokenIds realizedContext : List Nat) (traceHistoryLength : Int) :
    Except String (List Nat) :=
  if traceHistoryLength < 0 then .error "trace_history_length must be non-negative"
  else if traceHistoryLength = 0 then .ok promptTokenIds
  else if traceHistoryLength > promptTokenIds.length then .ok promptTokenIds
  else .ok (realizedContext ++ promptTokenIds.drop traceHistoryLength.toNat)

structure PromptConfig where
  prefillOnly : Bool := false
  noRealizedPrefix : Bool := false
  maxModelLenFilter : Option Int

structure Tokenizer where
  decode : List Nat → List Char
  encode : List Char → List Nat

variable (config : PromptConfig) (tokenizer : Option Tokenizer)

/-- The variables of the loop over the turns. -/
structure History where
  realizedContext : Option (List Nat) := none
  traceHistoryLength : Int := 0

structure Turn where
  prompt : List Nat
  /-- Its prompt was too long to be sent. -/
  skipped : Bool

def History.tokenIds (history : History) (record : PromptRecord) : Except String (List Nat) :=
  let tokenIds := buildPromptTokenIds draws record
  match history.realizedContext with
  | some realized =>
    if !config.prefillOnly && !config.noRealizedPrefix then
      applyRealizedPrefix tokenIds realized history.traceHistoryLength
    else .ok tokenIds
  | none => .ok tokenIds

def effectiveIds (tokenIds : List Nat) : List Nat :=
  match tokenizer with
  | some tokenizer => tokenizer.encode (tokenizer.decode tokenIds)
  | none => tokenIds

def overlong (record : PromptRecord) (effective : List Nat) : Bool :=
  match config.maxModelLenFilter with
  | some limit =>
    effective.length + (if config.prefillOnly then 1 else max 1 record.outputLength : Nat) > limit
  | none => false

def runTurn (history : History) (round : Round) : Except String (Turn × History) := do
  let effective := effectiveIds tokenizer (← history.tokenIds draws config round.toPromptRecord)
  let traceHistoryLength : Nat := round.inputLength + round.outputLength
  if overlong config round.toPromptRecord effective then
    return (⟨effective, true⟩, ⟨none, traceHistoryLength⟩)
  let realizedContext :=
    if round.error = none then
      if config.prefillOnly then history.realizedContext
      else some (effective ++ round.outputTokenIds)
    else none
  return (⟨effective, false⟩, ⟨realizedContext, traceHistoryLength⟩)

def runSession (history : History) : List Round → Except String (List Turn)
  | [] => .ok []
  | round :: rounds => do
    let (turn, history) ← runTurn draws config tokenizer history round
    return turn :: (← runSession history rounds)

section ClosedLoop

/-- What a turn of a mixed replay leaves to the next one. -/
def Turn.realized (turn : Turn) (round : Round) : Option (List Nat) :=
  if turn.skipped = false ∧ round.error = none then some (turn.prompt ++ round.outputTokenIds)
  else none

/-- A trace prompt with the recorded history replaced by the realized one. -/
def resumed (trace : List Nat) (length : Nat) : Option (List Nat) → List Nat
  | some context =>
    if 0 < length ∧ length ≤ trace.length then context ++ trace.drop length else trace
  | none => trace

/-- Every turn resumes what the one before it left. -/
inductive Resumes : Nat → Option (List Nat) → List Round → List Turn → Prop
  | nil {length realized} : Resumes length realized [] []
  | cons {length realized round turn rounds turns}
      (prompt : turn.prompt =
        resumed (buildPromptTokenIds draws round.toPromptRecord) length realized)
      (later : Resumes (round.inputLength + round.outputLength) (turn.realized round)
        rounds turns) :
      Resumes length realized (round :: rounds) (turn :: turns)

variable {draws} {limit : Option Int} {realized : Option (List Nat)} {length : Nat}

theorem tokenIds_mixed {record : PromptRecord} :
    History.tokenIds draws { maxModelLenFilter := limit } ⟨realized, length⟩ record =
      .ok (resumed (buildPromptTokenIds draws record) length realized) := by
  cases realized with
  | none => rfl
  | some context =>
    simp only [History.tokenIds, applyRealizedPrefix, resumed]
    grind

theorem runTurn_mixed {round : Round} :
    ∃ turn : Turn,
      runTurn draws { maxModelLenFilter := limit } none ⟨realized, length⟩ round =
        .ok (turn, ⟨turn.realized round, (round.inputLength + round.outputLength : Nat)⟩) ∧
      turn.prompt = resumed (buildPromptTokenIds draws round.toPromptRecord) length realized := by
  unfold runTurn
  rw [tokenIds_mixed]
  generalize resumed _ length realized = prompt
  refine ⟨⟨prompt, overlong ⟨false, false, limit⟩ round.toPromptRecord prompt⟩, ?_, rfl⟩
  change (if overlong ⟨false, false, limit⟩ round.toPromptRecord prompt = true then _ else _) = _
  unfold Turn.realized
  cases overlong ⟨false, false, limit⟩ round.toPromptRecord prompt with
  | true => rfl
  | false => cases round.error <;> rfl

theorem runSession_mixed (rounds : List Round) :
    ∃ turns,
      runSession draws { maxModelLenFilter := limit } none ⟨realized, length⟩ rounds = .ok turns ∧
      Resumes draws length realized rounds turns := by
  induction rounds generalizing realized length with
  | nil => exact ⟨[], rfl, .nil⟩
  | cons round rounds ih =>
    obtain ⟨turn, ran, prompt⟩ := runTurn_mixed
    obtain ⟨turns, later, resumes⟩ := ih
    refine ⟨turn :: turns, ?_, .cons prompt resumes⟩
    rw [runSession, ran]
    change (do return turn :: (← runSession draws _ none _ rounds)) = _
    rw [later]
    rfl

namespace Resumes

variable {rounds : List Round} {turns : List Turn}

variable (resumes : Resumes draws length realized rounds turns)

include resumes

theorem length_eq : turns.length = rounds.length := by
  induction resumes with
  | nil => rfl
  | cons _ _ ih => exact congrArg (· + 1) ih

theorem prompt_succ {index : Nat} {before now : Round} {sent next : Turn}
    (first : rounds[index]? = some before) (second : rounds[index + 1]? = some now)
    (made : turns[index]? = some sent) (follows : turns[index + 1]? = some next) :
    next.prompt = resumed (buildPromptTokenIds draws now.toPromptRecord)
      (before.inputLength + before.outputLength) (sent.realized before) := by
  induction resumes generalizing index with
  | nil => cases first
  | cons _ later ih =>
    cases index with
    | succ _ => exact ih first second made follows
    | zero =>
      cases later with
      | nil => cases second
      | cons prompt _ =>
        cases first
        cases second
        cases made
        cases follows
        exact prompt

end Resumes

/-- A turn after one that succeeded goes on from what was sent and generated, unless the
trace dropped its history; after a failed or a skipped one it is the trace prompt. -/
theorem runSession_closedLoop (rounds : List Round) :
    ∃ turns, runSession draws { maxModelLenFilter := limit } none {} rounds = .ok turns ∧
      turns.length = rounds.length ∧
      ∀ index before now sent next,
        rounds[index]? = some before → rounds[index + 1]? = some now →
        turns[index]? = some sent → turns[index + 1]? = some next →
        let trace := buildPromptTokenIds draws now.toPromptRecord
        let history := before.inputLength + before.outputLength
        (sent.skipped = false → before.error = none → 0 < history → history ≤ trace.length →
          next.prompt = sent.prompt ++ before.outputTokenIds ++ trace.drop history) ∧
        (sent.skipped = true ∨ before.error ≠ none ∨ trace.length < history →
          next.prompt = trace) := by
  obtain ⟨turns, ran, resumes⟩ := runSession_mixed rounds
  refine ⟨turns, ran, resumes.length_eq, ?_⟩
  intro _ before now sent next first second made follows trace history
  have prompt := resumes.prompt_succ first second made follows
  constructor
  · intro answered succeeded recorded covers
    rw [prompt, Turn.realized, if_pos ⟨answered, succeeded⟩, resumed, if_pos ⟨recorded, covers⟩]
  · intro cold
    rw [prompt]
    unfold Turn.realized resumed
    grind

end ClosedLoop

end SmetricRouter.Replayer
