import SmetricRouter.Policies.HashKey
import SmetricRouter.ProgramScheduling.Domain

/-! Canonical Program identity parsing at the Router boundary.

The parser takes the canonical `vllm_xargs.agentic_context` first, then `agent_hint`,
then one known header schema. Its result is an identity, nothing, an error with the
text of the source, or a panic.
-/

namespace SmetricRouter.ProgramScheduling

open Ensures

/-- What the parser takes from its libraries: reading a JSON text, printing a floating
point number and hashing a text. -/
structure Primitives where
  fromStr : String → Option Json
  printFloat : ℚ → String
  fbiHash : String → Nat

inductive IdentityError where
  | invalidIdentity (message : String)
  /-- A number of seconds that no duration can hold. -/
  | panic
  deriving DecidableEq, Repr

abbrev Parse (α : Type) : Type := Except IdentityError α

def invalidIdentity {α : Type} (message : String) : Parse α := .error (.invalidIdentity message)

def okOr {α : Type} (value : Option α) (message : String) : Parse α :=
  match value with
  | some value => .ok value
  | none => invalidIdentity message

abbrev JsonMap : Type := List (String × Json)

/-- The headers of a request in order, by their lower-case names. A value that is not
visible ASCII cannot be read. -/
abbrev HeaderMap : Type := List (String × Option String)

def maxIdentityComponentBytes : Nat := 256

def maxPlacementHashKeyBytes : Nat := 512

def maxAgenticContextBytes : Nat := 16 * 1024

inductive ProgramSchedulingEnableKey where
  | agenticContext
  | auto
  deriving DecidableEq, Repr

/-! ### Reading a context -/

section Context

variable {α : Type} (context : JsonMap)

def firstPresent : List String → Option (String × Json)
  | [] => none
  | key :: keys =>
    match context.lookup key with
    | none | some .null => firstPresent keys
    | some value => some (key, value)

def contextValue (read : String → Json → Parse α) (keys : List String) : Parse (Option α) :=
  match firstPresent context keys with
  | none => .ok none
  | some (key, value) => some <$> read key value

def contextString : List String → Parse (Option String) :=
  contextValue context fun key value => do
    let normalized := match value with
      | .string text => some (trim text)
      | .number number => number.integerText
      | _ => none
    let text ← okOr normalized (key ++ " must be a string-compatible identifier")
    if text = "" then invalidIdentity (key ++ " must not be empty") else return text

def contextBool : List String → Parse (Option Bool) :=
  contextValue context fun key value => okOr value.asBool (key ++ " must be a boolean")

def contextU64 : List String → Parse (Option Nat) :=
  contextValue context fun key value =>
    okOr (value.asNumber.bind JsonNumber.asU64) (key ++ " must be a non-negative integer")

def contextI64 : List String → Parse (Option Int) :=
  contextValue context fun key value =>
    okOr (value.asNumber.bind JsonNumber.asI64) (key ++ " must be an integer")

/-- A `usize` is a `u64` on the targets the program runs on, so none is too large. -/
def contextUsize : List String → Parse (Option Nat) := contextU64 context

def readDuration (key : String) (value : Json) : Parse Duration := do
  let number ← okOr value.asNumber (key ++ " must be seconds as a number")
  if number.asF64 < 0 then invalidIdentity (key ++ " must be finite and non-negative")
  else match durationFromSecs number.asF64 with
    | some duration => return duration
    | none => .error .panic

def contextDuration : List String → Parse (Option Duration) := contextValue context readDuration

end Context

/-! ### Program identifiers -/

def scopedProgramId (sessionId : String) (actorId : Option String) : String :=
  let actorId := actorId.getD "lead"
  if (afterBeginning (sessionId ++ ":") actorId).isSome then actorId
  else sessionId ++ ":" ++ actorId

def normalizedAgentComponent (taskId agentId : Option String) : Parse (Option String) :=
  match agentId, taskId with
  | none, _ => .ok none
  | some agentId, none => .ok (some agentId)
  | some agentId, some taskId =>
    match afterBeginning (taskId ++ ":") agentId with
    | none => .ok (some agentId)
    | some component =>
      if component = "" then invalidIdentity "agent_id must include an agent component"
      else .ok (some component)

def relatedProgramId (programId : String) (agentId : Option String) (relatedAgentId : String)
    (taskId : Option String) : Option String :=
  match agentId.bind fun agentId => beforeEnding (":" ++ agentId) programId with
  | some scope => some (scope ++ ":" ++ relatedAgentId)
  | none => taskId.map fun taskId => scopedProgramId taskId (some relatedAgentId)

/-! ### Identities -/

namespace ProgramIdentity

def checkLengths (fields : List (String × Option String)) : Parse Unit :=
  match fields.find? fun field =>
    field.2.any fun value => maxIdentityComponentBytes < value.utf8ByteSize with
  | some field =>
    invalidIdentity (field.1 ++ " exceeds " ++ toString maxIdentityComponentBytes ++ " bytes")
  | none => .ok ()

def build (programId placementKey : String) (expectedResume : Bool) (modelPool : Option String) :
    Parse ProgramIdentity := do
  let modelPool := modelPool.getD "default"
  checkLengths [("program_id", some programId), ("placement key", some placementKey),
    ("model pool", some modelPool)]
  return { modelPool, programId, placementHashKey := placementKey, placementKey, expectedResume }

def withPlacementHashKey (identity : ProgramIdentity) (placementHashKey : String) :
    Parse ProgramIdentity :=
  if maxPlacementHashKeyBytes < placementHashKey.utf8ByteSize then
    invalidIdentity ("placement hash key exceeds " ++ toString maxPlacementHashKeyBytes ++ " bytes")
  else .ok { identity with placementHashKey }

def validatePersistedStrings (identity : ProgramIdentity) : Parse Unit :=
  checkLengths
    [("model_pool", some identity.modelPool), ("program_id", some identity.programId),
      ("placement_key", some identity.placementKey), ("task_id", identity.taskId),
      ("session_id", identity.sessionId), ("agent_id", identity.agentId),
      ("parent_program_id", identity.parentProgramId),
      ("root_program_id", identity.rootProgramId), ("agent_role", identity.agentRole),
      ("spawn_reason", identity.spawnReason), ("request_id", identity.requestHints.requestId)]

end ProgramIdentity

/-! ### Headers -/

variable (headers : HeaderMap)

def readNonemptyHeader (name : String) : Parse (Option String) :=
  match headers.lookup name with
  | none => .ok none
  | some none => invalidIdentity ("Invalid " ++ name ++ " header")
  | some (some value) => .ok (if trim value = "" then none else some (trim value))

def claudeSessionHeader : String := "x-claude-code-session-id"

def codexSessionHeader : String := "session-id"

def genericSessionHeader : String := "x-session-id"

/-- The known schemas: the headers of the session, the agent and the parent agent. -/
def frameworkSchemas : List (String × Option String × Option String) :=
  [(claudeSessionHeader, some "x-claude-code-agent-id", some "x-claude-code-parent-agent-id"),
    (codexSessionHeader, some "thread-id", none), (genericSessionHeader, none, none)]

structure FrameworkIdentity where
  sessionId : Option String := none
  agentId : Option String := none
  parentAgentId : Option String := none
  deriving DecidableEq, Repr

def readOptionalHeader : Option String → Parse (Option String)
  | none => .ok none
  | some name => readNonemptyHeader headers name

/-- The first schema whose session header is there decides. -/
def readSchemas (headers : HeaderMap) :
    List (String × Option String × Option String) → Parse FrameworkIdentity
  | [] => .ok {}
  | (sessionHeader, agentHeader, parentHeader) :: schemas => do
    match ← readNonemptyHeader headers sessionHeader with
    | none => readSchemas headers schemas
    | some sessionId =>
      let agentId ← readOptionalHeader headers agentHeader
      let parentAgentId ← readOptionalHeader headers parentHeader
      return { sessionId := some sessionId, agentId, parentAgentId }

def frameworkIdentityHeaders : Option HeaderMap → Parse FrameworkIdentity
  | none => .ok {}
  | some headers => readSchemas headers frameworkSchemas

def requestHeaders : Table String String :=
  headers.foldl (fun table header =>
    match header.2 with
    | some value => table.insert header.1 value
    | none => table) ∅

section Parse

variable (primitives : Primitives) (headers : Option HeaderMap)

def consistentHashRequestKey (request : Option Json) : String :=
  let session := headers.bind fun headers =>
    [claudeSessionHeader, codexSessionHeader, genericSessionHeader].findSome? fun name =>
      match readNonemptyHeader headers name with
      | .ok (some value) => some ("header:" ++ name ++ ":" ++ value)
      | _ => none
  let header := (headers.map requestHeaders).bind Policies.extractHashKeyFromHeaders
  (session.or header).getD
    (Policies.extractHashKey primitives.fbiHash
      (request.map fun request => String.ofList (request.write primitives.printFloat)) none)

/-! ### The three sources -/

def boundedAgenticContextError {α : Type} : Parse α :=
  invalidIdentity "vllm_xargs.agentic_context must contain a bounded JSON object"

def ensureBoundedAgenticContext (context : Json) : Parse Unit :=
  if maxAgenticContextBytes < (String.ofList (context.write primitives.printFloat)).utf8ByteSize then
    boundedAgenticContextError
  else .ok ()

def canonicalContext (request : Option JsonMap) : Parse (Option JsonMap) :=
  match request.bind fun request => request.lookup "vllm_xargs" with
  | none | some .null => .ok none
  | some (.object xargs) =>
    match xargs.lookup "agentic_context" with
    | none | some .null => .ok none
    | some (.string text) =>
      if maxAgenticContextBytes < text.utf8ByteSize then boundedAgenticContextError
      else match (primitives.fromStr text).bind Json.asObject with
        | some context => .ok (some context)
        | none => boundedAgenticContextError
    | some (.object context) => do
      ensureBoundedAgenticContext primitives (.object context)
      return some context
    | some _ => invalidIdentity "vllm_xargs.agentic_context must be an object"
  | some _ => invalidIdentity "vllm_xargs must be an object"

variable (context : JsonMap)

def requestHints : Parse ProgramRequestHints := do
  let requestId ← contextString context ["request_id"]
  let priority ← contextI64 context ["priority"]
  let deadline ← contextDuration context ["deadline", "deadline_seconds"]
  let expectedOutputTokens ←
    contextUsize context ["expected_output_length", "expected_output_tokens"]
  let kvRetentionTtl ← contextDuration context ["kv_retention_ttl", "kv_retention_ttl_seconds"]
  return { requestId, priority := priority.getD 0, deadline, expectedOutputTokens, kvRetentionTtl }

def roleOf (agentId : String) : String := if agentId = "lead" then "lead" else "subagent"

/-- Who a canonical request comes from. -/
structure CanonicalNames where
  sessionId : Option String
  taskId : Option String
  agentId : Option String
  agentRole : Option String
  parentAgentHeader : Option String
  programId : Option String
  deriving DecidableEq, Repr

def canonicalNames (headers : Option HeaderMap) : Parse CanonicalNames := do
  let framework ← frameworkIdentityHeaders headers
  let explicitProgramId ← contextString context ["program_id"]
  let bodyTaskId ← contextString context ["task_id"]
  let bodySessionId ← contextString context ["session_id"]
  let sessionId := bodySessionId.or framework.sessionId
  let taskId :=
    if bodyTaskId.isSome || (explicitProgramId.isSome && (context.lookup "task_id").isSome) then
      bodyTaskId
    else sessionId
  let bodyAgentId ← contextString context ["agent_id"]
  let agentId := (bodyAgentId.or framework.agentId).or (taskId.map fun _ => "lead")
  let agentId ← normalizedAgentComponent taskId agentId
  let bodyRole ← contextString context ["agent_role"]
  let derivedProgramId := taskId.bind fun taskId => agentId.map fun agentId =>
    scopedProgramId taskId (some agentId)
  return {
    sessionId, taskId, agentId
    agentRole := bodyRole.or (agentId.map roleOf)
    parentAgentHeader := framework.parentAgentId
    programId := explicitProgramId.or derivedProgramId }

def canonicalParent (names : CanonicalNames) (programId : String) : Parse (Option String) := do
  let bodyParentId ← contextString context ["parent_program_id", "parent_id"]
  let bodyParentAgentId ← contextString context ["parent_agent_id"]
  let parentAgentId ←
    normalizedAgentComponent names.taskId (bodyParentAgentId.or names.parentAgentHeader)
  let agentParent := parentAgentId.bind fun parent =>
    relatedProgramId programId names.agentId parent names.taskId
  let leadParent :=
    if names.agentRole = some "subagent" then
      relatedProgramId programId names.agentId "lead" names.taskId
    else none
  return (bodyParentId.or agentParent).or leadParent

def checkParent (programId : String) (parentProgramId : Option String) (blocksParent : Bool) :
    Parse Unit :=
  if parentProgramId = some programId then
    invalidIdentity "parent_program_id must differ from program_id"
  else if blocksParent ∧ parentProgramId = none then
    invalidIdentity "blocks_parent requires parent_program_id"
  else .ok ()

def canonicalRecord (names : CanonicalNames) (programId : String) (modelPool : Option String) :
    Parse ProgramIdentity := do
  let placementKey := (names.taskId.or names.sessionId).getD programId
  let parentProgramId ← canonicalParent context names programId
  let rootProgramId ← contextString context ["root_program_id", "root_id"]
  let subagent : Bool := names.agentRole = some "subagent"
  let bodyBlocks ← contextBool context ["blocks_parent", "blocking_parent"]
  let blocksParent := bodyBlocks.getD subagent
  checkParent programId parentProgramId blocksParent
  let bodyResume ← contextBool context ["expected_resume"]
  let identity ← ProgramIdentity.build programId placementKey
    (bodyResume.getD !(blocksParent && subagent)) modelPool
  let spawnReason ← contextString context ["spawn_reason", "subagent_type", "agent_type"]
  let stepId ← contextU64 context ["step_id"]
  return { identity with
    taskId := names.taskId, sessionId := names.sessionId, agentId := names.agentId
    parentProgramId, rootProgramId, blocksParent
    agentRole := names.agentRole, spawnReason, stepId }

def canonicalDraft (headers : Option HeaderMap) (modelPool : Option String) :
    Parse (Option ProgramIdentity) := do
  let names ← canonicalNames context headers
  match names.programId with
  | none => return none
  | some programId => some <$> canonicalRecord context names programId modelPool

def canonicalIdentity (headers : Option HeaderMap) (modelPool : Option String) :
    Parse (Option ProgramIdentity) := do
  match ← canonicalDraft context headers modelPool with
  | none => return none
  | some identity => return some { identity with requestHints := ← requestHints context }

def checkHintParent (parentSessionId : Option String) (blocksParent : Bool) : Parse Unit :=
  if blocksParent ∧ parentSessionId = none then
    invalidIdentity "blocking agent_hint requires parent_session_id"
  else .ok ()

def agentHintIdentity (request : Option JsonMap) (modelPool : Option String) :
    Parse (Option ProgramIdentity) :=
  match request.bind fun request => request.lookup "agent_hint" with
  | none | some .null => .ok none
  | some (.object hint) => do
    match ← contextString hint ["session_id"] with
    | none => invalidIdentity "agent_hint.session_id is required"
    | some sessionId =>
      let parentSessionId ← contextString hint ["parent_session_id"]
      let bodyBlocks ← contextBool hint ["blocks_parent"]
      let blocksParent := bodyBlocks.getD true
      checkHintParent parentSessionId blocksParent
      let bodyResume ← contextBool hint ["expected_resume"]
      let identity ← ProgramIdentity.build sessionId sessionId (bodyResume.getD !blocksParent)
        modelPool
      return some { identity with
        sessionId := some sessionId, parentProgramId := parentSessionId, blocksParent }
  | some _ => invalidIdentity "agent_hint must be an object"

def frameworkIdentity (modelPool : Option String) : Parse (Option ProgramIdentity) := do
  let framework ← frameworkIdentityHeaders headers
  match framework.sessionId with
  | none => return none
  | some sessionId =>
    let actorId ← normalizedAgentComponent (some sessionId) framework.agentId
    let lead : Bool := actorId.all (· = "lead")
    let identity ←
      ProgramIdentity.build (scopedProgramId sessionId actorId) sessionId lead modelPool
    let parent ← normalizedAgentComponent (some sessionId) framework.parentAgentId
    return some { identity with
      taskId := some sessionId
      sessionId := some sessionId
      agentId := actorId
      agentRole := some (if lead then "lead" else "subagent")
      parentProgramId := (parent.map fun parent => scopedProgramId sessionId (some parent)).or
        (if lead then none else some (scopedProgramId sessionId (some "lead")))
      blocksParent := !lead }

/-- The identity from the first source that is there and that the configuration allows. -/
def sourceIdentity (request : Option Json) (modelPool : Option String)
    (enableKey : ProgramSchedulingEnableKey) : Parse (Option ProgramIdentity) := do
  let requestObject := request.bind Json.asObject
  match ← canonicalContext primitives requestObject with
  | some context => canonicalIdentity context headers modelPool
  | none =>
    match enableKey with
    | .agenticContext => return none
    | .auto =>
      match ← agentHintIdentity requestObject modelPool with
      | some identity => return some identity
      | none => frameworkIdentity headers modelPool

def fromRequestWithEnableKey (request : Option Json) (modelPool : Option String)
    (enableKey : ProgramSchedulingEnableKey) : Parse (Option ProgramIdentity) := do
  match ← sourceIdentity primitives headers request modelPool enableKey with
  | none => return none
  | some identity =>
    let identity ← identity.withPlacementHashKey
      (consistentHashRequestKey primitives headers request)
    identity.validatePersistedStrings
    return some identity

end Parse

/-! ### What the readers cannot do -/

/-- The parser does not panic, and what it returns is as said. -/
abbrev Safe {α : Type} (run : Parse α) (post : α → Prop) : Prop :=
  Ensures (· ≠ IdentityError.panic) run post

theorem safe_invalidIdentity {α : Type} {message : String} {post : α → Prop} :
    Safe (invalidIdentity message : Parse α) post := nofun

section Safe

variable {α : Type} {context : JsonMap} {keys : List String}

theorem okOr_safe {value : Option α} {message : String} :
    Safe (okOr value message) fun _ => True := by
  cases value with
  | none => exact safe_invalidIdentity
  | some _ => trivial

theorem contextValue_safe {read : String → Json → Parse α}
    (reads : ∀ key value, Safe (read key value) fun _ => True) :
    Safe (contextValue context read keys) fun _ => True := by
  unfold contextValue
  split
  · trivial
  · exact bind (reads _ _) fun _ _ => trivial

theorem contextString_safe : Safe (contextString context keys) fun _ => True := by
  refine contextValue_safe fun _ _ => bind okOr_safe fun _ _ => ?_
  split
  · exact safe_invalidIdentity
  · trivial

theorem contextBool_safe : Safe (contextBool context keys) fun _ => True :=
  contextValue_safe fun _ _ => okOr_safe

theorem contextU64_safe : Safe (contextU64 context keys) fun _ => True :=
  contextValue_safe fun _ _ => okOr_safe

theorem contextI64_safe : Safe (contextI64 context keys) fun _ => True :=
  contextValue_safe fun _ _ => okOr_safe

theorem normalizedAgentComponent_safe {taskId agentId : Option String} :
    Safe (normalizedAgentComponent taskId agentId) fun _ => True := by
  fun_cases normalizedAgentComponent taskId agentId with
  | case4 => exact safe_invalidIdentity
  | _ => trivial

theorem checkLengths_safe {fields : List (String × Option String)} :
    Safe (ProgramIdentity.checkLengths fields) fun _ => True := by
  unfold ProgramIdentity.checkLengths
  split
  · exact safe_invalidIdentity
  · trivial

variable {modelPool : Option String}

theorem build_safe {programId placementKey : String} {expectedResume : Bool} :
    Safe (ProgramIdentity.build programId placementKey expectedResume modelPool) fun identity =>
      identity.programId = programId ∧ identity.taskId = none :=
  bind checkLengths_safe fun _ _ => ⟨rfl, rfl⟩

variable (headers : HeaderMap)

theorem readNonemptyHeader_safe {name : String} :
    Safe (readNonemptyHeader headers name) fun _ => True := by
  unfold readNonemptyHeader
  split
  · trivial
  · exact safe_invalidIdentity
  · trivial

theorem readOptionalHeader_safe {name : Option String} :
    Safe (readOptionalHeader headers name) fun _ => True := by
  cases name with
  | none => trivial
  | some _ => exact readNonemptyHeader_safe _

theorem readSchemas_safe {schemas : List (String × Option String × Option String)} :
    Safe (readSchemas headers schemas) fun _ => True := by
  induction schemas with
  | nil => trivial
  | cons schema _ ih =>
    refine bind (readNonemptyHeader_safe _) fun session _ => ?_
    cases session with
    | none => exact ih
    | some =>
      refine bind (readOptionalHeader_safe _) fun _ _ => ?_
      exact bind (readOptionalHeader_safe _) fun _ _ => trivial

variable {headers : Option HeaderMap}

theorem frameworkIdentityHeaders_safe : Safe (frameworkIdentityHeaders headers) fun _ => True := by
  cases headers with
  | none => trivial
  | some _ => exact readSchemas_safe _

/-- The Program is that of an agent of a task, or without a task that of the session. -/
def ProgramIdentity.Derived (identity : ProgramIdentity) : Prop :=
  match identity.taskId with
  | some taskId => identity.programId = scopedProgramId taskId identity.agentId
  | none => identity.sessionId = some identity.programId

theorem derived_none : ∀ identity ∈ (none : Option ProgramIdentity), identity.Derived :=
  fun _ absent => (Option.not_mem_none _ absent).elim

variable (context)

theorem canonicalNames_safe :
    Safe (canonicalNames context headers) fun names =>
      contextString context ["program_id"] = .ok none → names.programId =
        names.taskId.bind fun taskId => names.agentId.map fun agentId =>
          scopedProgramId taskId (some agentId) := by
  refine bind frameworkIdentityHeaders_safe fun _ _ => ?_
  refine bind contextString_safe.returned fun _ named => ?_
  refine bind contextString_safe fun _ _ => ?_
  refine bind contextString_safe fun _ _ => ?_
  refine bind contextString_safe fun _ _ => ?_
  refine bind normalizedAgentComponent_safe fun _ _ => ?_
  refine bind contextString_safe fun _ _ => ?_
  refine pure fun unnamed => ?_
  rw [named.1] at unnamed
  cases unnamed
  exact Option.none_or

variable (names : CanonicalNames) (programId : String)

theorem canonicalParent_safe : Safe (canonicalParent context names programId) fun _ => True := by
  refine bind contextString_safe fun _ _ => ?_
  refine bind contextString_safe fun _ _ => ?_
  refine bind normalizedAgentComponent_safe fun _ _ => ?_
  exact pure trivial

variable {blocksParent : Bool}

theorem checkParent_safe {parentProgramId : Option String} :
    Safe (checkParent programId parentProgramId blocksParent) fun _ => True := by
  unfold checkParent
  split
  · exact safe_invalidIdentity
  · split
    · exact safe_invalidIdentity
    · trivial

variable (modelPool : Option String)

theorem canonicalRecord_safe :
    Safe (canonicalRecord context names programId modelPool) fun identity =>
      identity.programId = programId ∧ identity.taskId = names.taskId ∧
        identity.agentId = names.agentId := by
  refine bind (canonicalParent_safe _ _ _) fun _ _ => ?_
  refine bind contextString_safe fun _ _ => ?_
  refine bind contextBool_safe fun _ _ => ?_
  refine bind (checkParent_safe _) fun _ _ => ?_
  refine bind contextBool_safe fun _ _ => ?_
  refine bind build_safe fun _ built => ?_
  refine bind contextString_safe fun _ _ => ?_
  refine bind contextU64_safe fun _ _ => ?_
  exact pure ⟨built.1, rfl, rfl⟩

theorem canonicalDraft_safe (headers : Option HeaderMap) (modelPool : Option String) :
    Safe (canonicalDraft context headers modelPool) fun drafted =>
      contextString context ["program_id"] = .ok none → ∀ identity ∈ drafted, identity.Derived := by
  refine bind (canonicalNames_safe _) fun names derives => ?_
  split
  case h_1 => exact pure fun _ => derived_none
  case h_2 programId chosen =>
    refine bind (canonicalRecord_safe _ _ _ _) ?_
    rintro _ ⟨kept, task, agent⟩
    refine pure fun unnamed _ same => ?_
    cases same
    have inScope := derives unnamed
    rw [chosen] at inScope
    obtain ⟨taskId, tasked, rest⟩ := Option.bind_eq_some_iff.mp inScope.symm
    obtain ⟨_, agented, named⟩ := Option.map_eq_some_iff.mp rest
    simp only [ProgramIdentity.Derived, task, tasked, kept, agent, agented, named]

theorem frameworkIdentity_safe {headers : Option HeaderMap} {modelPool : Option String} :
    Safe (frameworkIdentity headers modelPool) fun named =>
      ∀ identity ∈ named, identity.Derived := by
  refine bind frameworkIdentityHeaders_safe fun _ _ => ?_
  split
  case h_1 => exact pure derived_none
  case h_2 =>
    refine bind normalizedAgentComponent_safe fun _ _ => ?_
    refine bind build_safe fun _ built => ?_
    refine bind normalizedAgentComponent_safe fun _ _ => ?_
    refine pure fun _ same => ?_
    cases same
    exact built.1

theorem withPlacementHashKey_safe (identity : ProgramIdentity) (placementHashKey : String) :
    Safe (identity.withPlacementHashKey placementHashKey) fun kept =>
      kept = { identity with placementHashKey } := by
  unfold ProgramIdentity.withPlacementHashKey
  split
  · exact safe_invalidIdentity
  · rfl

theorem checkHintParent_safe {parentSessionId : Option String} :
    Safe (checkHintParent parentSessionId blocksParent) fun _ => True := by
  unfold checkHintParent
  split
  · exact safe_invalidIdentity
  · trivial

variable (request : Option JsonMap)

theorem agentHintIdentity_safe :
    Safe (agentHintIdentity request modelPool) fun named =>
      ∀ identity ∈ named, identity.Derived := by
  unfold agentHintIdentity
  split
  · exact pure derived_none
  · exact pure derived_none
  · refine bind contextString_safe fun _ _ => ?_
    split
    · exact safe_invalidIdentity
    · refine bind contextString_safe fun _ _ => ?_
      refine bind contextBool_safe fun _ _ => ?_
      refine bind checkHintParent_safe fun _ _ => ?_
      refine bind contextBool_safe fun _ _ => ?_
      refine bind build_safe fun _ built => ?_
      refine pure fun _ same => ?_
      cases same
      simp only [ProgramIdentity.Derived, built.2, built.1]
  · exact safe_invalidIdentity

variable (primitives : Primitives)

theorem ensureBoundedAgenticContext_safe {context : Json} :
    Safe (ensureBoundedAgenticContext primitives context) fun _ => True := by
  unfold ensureBoundedAgenticContext
  split
  · exact safe_invalidIdentity
  · trivial

theorem canonicalContext_safe : Safe (canonicalContext primitives request) fun _ => True := by
  fun_cases canonicalContext primitives request with
  | case5 | case7 | case9 | case10 => exact safe_invalidIdentity
  | case8 => exact bind (ensureBoundedAgenticContext_safe _) fun _ _ => trivial
  | _ => trivial

end Safe

namespace Sample

def primitives : Primitives := ⟨fun _ => none, fun _ => "", fun _ => 0⟩

end Sample

end SmetricRouter.ProgramScheduling
