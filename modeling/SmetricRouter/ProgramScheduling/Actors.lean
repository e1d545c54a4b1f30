import SmetricRouter.ProgramScheduling.Identity

/-! Which actors get which Programs.

An actor is an agent of a task or session. Its Program is named by the two, joined with
a colon, and the colon may also stand inside of them.
-/

namespace SmetricRouter.ProgramScheduling

open Ensures

/-- The task or session of a request and its normalised agent, if the session has agents. -/
structure Actor where
  task : String
  agent : Option String
  deriving DecidableEq, Repr

namespace Actor

def programId (actor : Actor) : String :=
  match actor.agent with
  | none => actor.task
  | some agent => scopedProgramId actor.task (some agent)

/-- The agent without the task, where it still begins with it. -/
def component (actor : Actor) : Option String :=
  actor.agent.map fun agent => (afterBeginning (actor.task ++ ":") agent).getD agent

theorem programId_eq (actor : Actor) :
    actor.programId.toList =
      actor.task.toList ++ (actor.component.map fun component => ':' :: component.toList).getD [] := by
  unfold programId component
  cases actor.agent with
  | none => simp
  | some agent =>
    have named : scopedProgramId actor.task (some agent) =
        actor.task ++ ":" ++ (afterBeginning (actor.task ++ ":") agent).getD agent := by
      unfold scopedProgramId
      cases found : afterBeginning (actor.task ++ ":") agent with
      | none => simp [found]
      | some => simpa [found] using afterBeginning_eq_some.mp found
    simp only [named, String.toList_append, List.append_assoc]
    rfl

/-- The other task continues the task with a colon and some text, and the agent of the task
begins with the same text and a colon. -/
def Reaches (task component other otherComponent : String) : Prop :=
  ∃ middle, other = task ++ ":" ++ middle ∧ component = middle ++ ":" ++ otherComponent

/-- The actors differ only in where the name of their Program is cut, if at all. -/
def Confused (actor other : Actor) : Prop :=
  match actor.component, other.component with
  | some component, some otherComponent =>
    (actor.task = other.task ∧ component = otherComponent) ∨
      Reaches actor.task component other.task otherComponent ∨
      Reaches other.task otherComponent actor.task component
  | some component, none => actor.task ++ ":" ++ component = other.task
  | none, some component => actor.task = other.task ++ ":" ++ component
  | none, none => actor.task = other.task

theorem toList_scoped (task component : String) :
    (task ++ ":" ++ component).toList = task.toList ++ ':' :: component.toList := by
  simp only [String.toList_append, List.append_assoc]
  rfl

theorem reaches_iff (task component other otherComponent : String) :
    Reaches task component other otherComponent ↔
      ∃ middle, other.toList = task.toList ++ ':' :: middle ∧
        component.toList = middle ++ ':' :: otherComponent.toList := by
  constructor
  · rintro ⟨middle, rfl, rfl⟩
    exact ⟨middle.toList, toList_scoped _ _, toList_scoped _ _⟩
  · rintro ⟨middle, reach, rest⟩
    refine ⟨String.ofList middle, ?_, ?_⟩
    · rw [← String.toList_inj, reach, toList_scoped, String.toList_ofList]
    · rw [← String.toList_inj, rest, toList_scoped, String.toList_ofList]

theorem append_cons_eq_iff {letter : Char} {left right first second : List Char} :
    left ++ letter :: first = right ++ letter :: second ↔
      (left = right ∧ first = second) ∨
      (∃ middle, right = left ++ letter :: middle ∧ first = middle ++ letter :: second) ∨
      ∃ middle, left = right ++ letter :: middle ∧ second = middle ++ letter :: first := by
  constructor
  · intro same
    rcases List.append_eq_append_iff.mp same with ⟨middle, reach, rest⟩ | ⟨middle, reach, rest⟩
    · cases middle with
      | nil => exact .inl ⟨by rw [reach, List.append_nil], (List.cons.inj rest).2⟩
      | cons _ middle =>
        obtain ⟨rfl, tail⟩ := List.cons.inj rest
        exact .inr (.inl ⟨middle, reach, tail⟩)
    · cases middle with
      | nil => exact .inl ⟨by rw [reach, List.append_nil], (List.cons.inj rest).2.symm⟩
      | cons _ middle =>
        obtain ⟨rfl, tail⟩ := List.cons.inj rest
        exact .inr (.inr ⟨middle, reach, tail⟩)
  · rintro (⟨rfl, rfl⟩ | ⟨_, rfl, rfl⟩ | ⟨_, rfl, rfl⟩)
    · rfl
    · rw [List.append_assoc, List.cons_append]
    · rw [List.append_assoc, List.cons_append]

theorem programId_eq_iff (actor : Actor) {other : Actor} :
    actor.programId = other.programId ↔ actor.Confused other := by
  rw [← String.toList_inj, programId_eq, programId_eq, Confused]
  cases actor.component with
  | none =>
    cases other.component with
    | none => simp [← String.toList_inj]
    | some => simp [← String.toList_inj]
  | some =>
    cases other.component with
    | none => simp [← String.toList_inj]
    | some =>
      simp only [Option.map_some, Option.getD_some]
      rw [append_cons_eq_iff, reaches_iff, reaches_iff, String.toList_inj, String.toList_inj]

end Actor

/-- Only an `agent_hint` leaves a session without a task and without agents. -/
def ProgramIdentity.actor (identity : ProgramIdentity) : Option Actor :=
  match identity.taskId with
  | some taskId => some ⟨taskId, some (identity.agentId.getD "lead")⟩
  | none => identity.sessionId.map fun sessionId => ⟨sessionId, none⟩

theorem ProgramIdentity.Derived.programId_eq {identity : ProgramIdentity}
    (derived : identity.Derived) {actor : Actor} (stands : identity.actor = some actor) :
    identity.programId = actor.programId := by
  unfold ProgramIdentity.Derived at derived
  unfold ProgramIdentity.actor at stands
  split at derived
  · rename_i task
    rw [task] at stands
    cases stands
    exact derived
  · rename_i task
    rw [task, derived] at stands
    cases stands
    rfl

section Requests

variable {primitives : Primitives} {headers : Option HeaderMap} {request : Option Json}
  {modelPool : Option String} {enableKey : ProgramSchedulingEnableKey}

/-- The request leaves its Program to be named by its actor: its context names none. -/
def NamesNoProgram (primitives : Primitives) (request : Option Json) : Prop :=
  match canonicalContext primitives (request.bind Json.asObject) with
  | .ok (some context) => contextString context ["program_id"] = .ok none
  | _ => True

theorem canonicalIdentity_derived {context : JsonMap}
    (unnamed : contextString context ["program_id"] = .ok none) :
    Ensures (fun _ => True) (canonicalIdentity context headers modelPool) fun named =>
      ∀ identity ∈ named, identity.Derived := by
  have drafted := (canonicalDraft_safe context headers modelPool).allow fun _ _ => True.intro
  refine bind drafted fun draft derived => ?_
  cases draft with
  | none => exact pure derived_none
  | some draft =>
    refine bind (unclaimed _) fun _ _ => ?_
    refine pure fun _ same => ?_
    cases same
    exact derived unnamed draft rfl

variable (unnamed : NamesNoProgram primitives request)

include unnamed

theorem sourceIdentity_derived :
    Ensures (fun _ => True)
      (sourceIdentity primitives headers request modelPool enableKey) fun named =>
        ∀ identity ∈ named, identity.Derived := by
  refine bind (unclaimed _).returned fun context found => ?_
  unfold NamesNoProgram at unnamed
  rw [found.1] at unnamed
  cases context with
  | some => exact canonicalIdentity_derived unnamed
  | none =>
    cases enableKey with
    | agenticContext => exact pure derived_none
    | auto =>
      have hinted := (agentHintIdentity_safe modelPool (request.bind Json.asObject)).allow
        fun _ _ => True.intro
      refine bind hinted fun named derived => ?_
      cases named with
      | none => exact frameworkIdentity_safe.allow fun _ _ => True.intro
      | some => exact pure derived

theorem fromRequest_derived :
    Ensures (fun _ => True)
      (fromRequestWithEnableKey primitives headers request modelPool enableKey) fun named =>
        ∀ identity ∈ named, identity.Derived := by
  refine bind (sourceIdentity_derived unnamed) fun named derived => ?_
  cases named with
  | none => exact pure derived_none
  | some identity =>
    have keyed := (withPlacementHashKey_safe identity
      (consistentHashRequestKey primitives headers request)).allow fun _ _ => True.intro
    refine bind keyed fun _ same => ?_
    refine bind (unclaimed _) fun _ _ => ?_
    refine pure fun _ equal => ?_
    cases equal
    rw [same]
    exact derived identity rfl

end Requests

namespace Sample

def threadHeaders (session thread : String) : Option HeaderMap :=
  some [("session-id", some session), ("thread-id", some thread)]

def threadIdentity (session thread : String) : Parse (Option ProgramIdentity) :=
  fromRequestWithEnableKey primitives (threadHeaders session thread) none (some "model") .auto

def hint (session : String) : Option Json :=
  some (.object [("agent_hint", .object [("session_id", .string session),
    ("blocks_parent", .bool false)])])

def hintIdentity (session : String) : Parse (Option ProgramIdentity) :=
  fromRequestWithEnableKey primitives none (hint session) (some "model") .auto

def named (parsed : Parse (Option ProgramIdentity)) : Option (Option Actor × String) :=
  parsed.toOption.join.map fun identity => (identity.actor, identity.programId)

theorem named_some {parsed : Parse (Option ProgramIdentity)} {actor : Actor} {programId : String}
    (names : named parsed = some (some actor, programId)) :
    ∃ identity, parsed = .ok (some identity) ∧ identity.actor = some actor ∧
      identity.programId = programId := by
  obtain ⟨identity, found, same⟩ := Option.map_eq_some_iff.mp names
  exact ⟨identity, ok_of_toOption (Option.join_eq_some_iff.mp found), Prod.mk.inj same⟩

end Sample

end SmetricRouter.ProgramScheduling
