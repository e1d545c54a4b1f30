import SmetricRouter.Library.Ordering
import SmetricRouter.Library.StepRuns
import SmetricRouter.Library.TextLines
import Mathlib.Data.Rat.Defs
import Mathlib.Algebra.Order.Ring.Rat

/-! The replay of a trace, with one task for each session.

The turns of a session run one after the other, those of different sessions
interleave. A turn writes its row and notes it in the session without being
suspended in between, so a cancellation finds both done or neither. A row that cannot be
encoded ends the task of its session. The last pass reads back the file of the requests
that were started and adds the rows that are missing.
-/

namespace SmetricRouter.Replayer

/-- A Python text by its code points, those of lone surrogates included. -/
abbrev Text : Type := List Nat

def codes (text : String) : Text := text.toList.map Char.toNat

/-- UTF-8 has no code for a surrogate. -/
def encodable (text : Text) : Bool := text.all fun code => !(0xd800 ≤ code && code < 0xe000)

/-- A record of the trace, its session resolved. -/
structure TraceRecord where
  chatId : Int
  sessionId : Text
  turn : Nat
  timestamp : ℚ
  type : Text
  deriving DecidableEq

/-- A row; `figures` are its lengths, times, token counts and hash ids. -/
structure RequestMetrics (M : Type) where
  requestId : Text
  sessionId : Text
  turnId : Nat
  requestType : Text
  finishReason : Option Text := none
  error : Option Text := none
  endpointUrl : Option Text := none
  routedInstance : Option Text := none
  policyDecision : Option Text := none
  figures : M
  deriving DecidableEq

variable {M : Type}

def RequestMetrics.texts (row : RequestMetrics M) : List Text :=
  [row.requestId, row.sessionId, row.requestType]
    ++ [row.finishReason, row.error, row.endpointUrl, row.routedInstance,
      row.policyDecision].reduceOption

/-- `json.dumps` leaves the surrogates of a text as they are. -/
def RequestMetrics.encodable (row : RequestMetrics M) : Bool := row.texts.all Replayer.encodable

structure ReplayConfig (M : Type) where
  /-- Whether `max_duration_s` is set. -/
  limited : Bool
  endpointUrl : Text
  /-- The figures of a turn that never ran, from its record alone. -/
  recordFigures : TraceRecord → M
  toLine : RequestMetrics M → Text
  fromLine : Text → Option (RequestMetrics M)

def requestId (index : Nat) (record : TraceRecord) : Text :=
  record.sessionId ++ codes (":" ++ toString record.turn ++ ":" ++ toString record.chatId ++ ":")
    ++ codes (Nat.repr index)

def addRequestId (ids : Int → Option Text) (entry : TraceRecord × Nat) : Int → Option Text :=
  Function.update ids entry.1.chatId (some (requestId entry.2 entry.1))

variable (records : List TraceRecord)

def requestIds : Int → Option Text :=
  records.zipIdx.foldl addRequestId fun _ => none

def ridOf (record : TraceRecord) : Text :=
  (requestIds records record.chatId).getD []

/-- Appends a record to its session's list; a new session comes last. -/
def addTurn (record : TraceRecord) :
    List (Text × List TraceRecord) → List (Text × List TraceRecord)
  | [] => [(record.sessionId, [record])]
  | group :: groups =>
    if group.1 = record.sessionId then (group.1, group.2 ++ [record]) :: groups
    else group :: addTurn record groups

def turnCmp (left right : TraceRecord) : Ordering :=
  (compare left.turn right.turn).then (compare left.timestamp right.timestamp)

def groupBySession : List (Text × List TraceRecord) :=
  (records.foldl (fun groups record => addTurn record groups) []).map
    fun group => (group.1, sortBy turnCmp group.2)

def sessionCmp (left right : Text × List TraceRecord) : Ordering :=
  compare ((left.2.head?.map (·.timestamp)).getD 0) ((right.2.head?.map (·.timestamp)).getD 0)

/-- Where a session's task stands: before a turn (asleep or waiting for its slot), with a request
dispatched, or ended. -/
inductive Phase where
  | waiting
  | inFlight
  | finished
  | failed
  | cancelled
  deriving DecidableEq

structure SessionState (M : Type) where
  turns : List TraceRecord
  metrics : List (RequestMetrics M) := []
  /-- The turn the task's loop is at. -/
  turnIdx : Nat := 0
  phase : Phase := .waiting
  deriving DecidableEq

structure Replay (M : Type) where
  sessions : List (SessionState M)
  /-- The rows of the output file. -/
  output : List (RequestMetrics M) := []
  /-- The rows of the file of started requests. -/
  started : List (RequestMetrics M) := []
  deriving DecidableEq

def initialReplay : Replay M :=
  { sessions := (sortBy sessionCmp (groupBySession records)).map fun group => { turns := group.2 } }

def skippedMetric (record : TraceRecord) (rid : Text) (error : String) (figures : M) :
    RequestMetrics M :=
  { requestId := rid, sessionId := record.sessionId, turnId := record.turn,
    requestType := record.type, error := some (codes error), figures := figures }

variable (config : ReplayConfig M)

def dispatchStartedMetric (record : TraceRecord) (rid : Text) (figures : M) : RequestMetrics M :=
  { requestId := rid, sessionId := record.sessionId, turnId := record.turn,
    requestType := record.type, error := some (codes "awaiting_terminal_record"),
    endpointUrl := some config.endpointUrl, figures := figures }

/-- What a response, or its failure, says of a request. -/
structure DispatchResult (M : Type) where
  finishReason : Option Text := none
  error : Option Text := none
  routedInstance : Option Text := none
  policyDecision : Option Text := none
  figures : M

def DispatchResult.metric (result : DispatchResult M) (config : ReplayConfig M)
    (record : TraceRecord) (rid : Text) : RequestMetrics M :=
  { requestId := rid, sessionId := record.sessionId, turnId := record.turn,
    requestType := record.type, finishReason := result.finishReason, error := result.error,
    endpointUrl := some config.endpointUrl, routedInstance := result.routedInstance,
    policyDecision := result.policyDecision, figures := result.figures }

/-- What happens between two suspensions of the session's task. -/
inductive ReplayEvent (M : Type) where
  | skipOverlong (session : Nat) (figures : M)
  | dispatch (session : Nat) (figures : M)
  | respond (session : Nat) (result : DispatchResult M)
  | finish (session : Nat)
  | durationLimit

def Replay.enter (replay : Replay M) (index : Nat) (session : SessionState M) (phase : Phase) :
    Replay M :=
  { replay with sessions := replay.sessions.set index { session with phase := phase } }

def Replay.append (replay : Replay M) (index : Nat) (session : SessionState M)
    (row : RequestMetrics M) : Replay M :=
  if row.encodable then
    { replay with
      output := replay.output ++ [row]
      sessions := replay.sessions.set index
        { session with
          metrics := session.metrics ++ [row], turnIdx := session.turnIdx + 1, phase := .waiting } }
  else replay.enter index session .failed

def SessionState.cancel (session : SessionState M) : SessionState M :=
  if session.phase = .finished ∨ session.phase = .failed then session
  else { session with phase := .cancelled }

def Replay.current (replay : Replay M) (index : Nat) (phase : Phase) :
    Option (SessionState M × TraceRecord) := do
  let session ← replay.sessions[index]?
  let record ← session.turns[session.turnIdx]?
  if session.phase = phase then some (session, record) else none

section Step

variable (config : ReplayConfig M) (rid : TraceRecord → Text)

def Replay.step (replay : Replay M) : ReplayEvent M → Option (Replay M)
  | .skipOverlong index figures =>
    (replay.current index .waiting).map fun (session, record) =>
      replay.append index session (skippedMetric record (rid record) "overlong_skipped" figures)
  | .dispatch index figures =>
    (replay.current index .waiting).map fun (session, record) =>
      let row := dispatchStartedMetric config record (rid record) figures
      if row.encodable then
        { replay.enter index session .inFlight with started := replay.started ++ [row] }
      else replay.enter index session .failed
  | .respond index result =>
    (replay.current index .inFlight).map fun (session, record) =>
      replay.append index session (result.metric config record (rid record))
  | .finish index => do
    let session ← replay.sessions[index]?
    if session.phase = .waiting ∧ session.turnIdx = session.turns.length then
      some (replay.enter index session .finished)
    else none
  | .durationLimit =>
    if config.limited then some { replay with sessions := replay.sessions.map SessionState.cancel }
    else none

end Step

/-- Where `str.splitlines` ends a line. -/
def isLineBoundary (code : Nat) : Bool :=
  code ∈ [0xa, 0xd, 0xb, 0xc, 0x1c, 0x1d, 0x1e, 0x85, 0x2028, 0x2029]

/-- The boundaries that JSON leaves as they are inside a string. -/
def isRawBoundary (code : Nat) : Bool :=
  code ∈ [0x85, 0x2028, 0x2029]

/-- What `str.strip` takes away. -/
def isSpace (code : Nat) : Bool :=
  isLineBoundary code || code ∈ [0x9, 0x1f, 0x20, 0xa0, 0x1680, 0x202f, 0x205f, 0x3000]
    || (0x2000 ≤ code && code ≤ 0x200a)

def ReplayConfig.startedText (rows : List (RequestMetrics M)) : Text :=
  (rows.map config.toLine).flatMap (· ++ [0xa])

def ReplayConfig.readStarts (text : Text) : Option (List (RequestMetrics M)) :=
  ((splitLines isLineBoundary text).filter fun line => !line.all isSpace).mapM config.fromLine

def SessionState.unfinished (session : SessionState M) : List TraceRecord :=
  session.turns.drop session.metrics.length

/-- The row of a turn without one; the last row of a request that was started is kept. -/
def ReplayConfig.closingRow (starts : List (RequestMetrics M)) (record : TraceRecord)
    (rid : Text) : RequestMetrics M :=
  match starts.reverse.find? (·.requestId = rid) with
  | some start => { start with error := some (codes "replay_cancelled") }
  | none => skippedMetric record rid "deadline_skipped" (config.recordFigures record)

def Replay.closingRows (rid : TraceRecord → Text) (starts : List (RequestMetrics M))
    (replay : Replay M) : List (RequestMetrics M) :=
  replay.sessions.flatMap fun session =>
    session.unfinished.map fun record => config.closingRow starts record (rid record)

/-- The output file after the last pass. Without a limit the task that fails ends the replay
before it. Where a started row cannot be read back, the pass ends with an exception before it
writes, and where a row cannot be encoded, at that row. -/
def Replay.close (rid : TraceRecord → Text) (replay : Replay M) : List (RequestMetrics M) :=
  if !config.limited && replay.sessions.any (·.phase = .failed) then replay.output
  else
    match config.readStarts (config.startedText replay.started) with
    | none => replay.output
    | some starts =>
      replay.output ++ (replay.closingRows config rid starts).takeWhile (·.encodable)

end SmetricRouter.Replayer
