import SmetricRouter.Library.Machine64
import SmetricRouter.Library.StepRuns
import SmetricRouter.Library.Table
import Mathlib.Logic.Function.Basic

/-! Attempts to dispatch a request and the load they put on their worker.

An attempt adds one to the load of its worker before it is sent. What takes the one
back is spread over the sending function, the task that forwards a streamed answer,
the body of a gRPC answer and the clean-up of the caller.
-/

namespace SmetricRouter.Routing

section Urls

def isGrpcUrl (url : String) : Bool := "grpc://".toList.isPrefixOf url.toList

def parseUsize (text : List Char) : Option Nat :=
  let digits := match text with
    | '+' :: rest => rest
    | _ => text
  if digits.isEmpty || !digits.all Char.isDigit then none
  else
    let value := digits.foldl (fun value digit => 10 * value + (digit.toNat - 48)) 0
    if value ≤ u64Max then some value else none

def extractDpRank (workerUrl : String) : Except String (List Char × Nat) :=
  match workerUrl.toList.splitOn '@' with
  | [host, rank] =>
    match parseUsize rank with
    | some dpRank => .ok (host, dpRank)
    | none => .error ("failed to parse dp_rank from worker_url: " ++ workerUrl)
  | _ => .error ("invalid worker_url format: " ++ workerUrl)

end Urls

section Statuses

def isRetryableStatus (status : Nat) : Bool := [408, 429, 500, 502, 503, 504].contains status

def isSuccess (status : Nat) : Bool := 200 ≤ status && status < 300

/-- Codes that are no status of HTTP are taken for an internal error. -/
def statusFromU16 (code : Nat) : Nat := if 100 ≤ code ∧ code < 1000 then code else 500

end Statuses

/-- What an attempt is sent with. `serializable` says whether the request has a form
in JSON. -/
structure TypedDispatch where
  route : String
  workerUrl : String
  isStream : Bool
  loadIncremented : Bool
  prepared : Bool
  serializable : Bool
  deriving DecidableEq, Repr

/-- What comes back from a worker: the answer of the gRPC front end, with the task
that produces its stream if there is one, the failure to send over HTTP, or an answer
over HTTP whose body can be read to its end or not. -/
inductive Reaction where
  | grpc (status : Nat) (producer : Bool)
  | sendFailed
  | http (code : Nat) (bodyRead : Bool)
  deriving DecidableEq, Repr

/-- What goes on after the sending function has returned and will take the load back:
the task that forwards a stream, the body of an answer, or the task behind it. -/
inductive Holder where
  | streamTask (decremented : Bool)
  | trackedBody
  | producerTask
  deriving DecidableEq, Repr

def Holder.unreleased : Holder → Bool
  | .streamTask decremented => !decremented
  | .trackedBody => true
  | .producerTask => true

structure Sent where
  status : Nat
  decremented : Bool
  holder : Option Holder
  deriving DecidableEq, Repr

def chatRoute : String := "/v1/chat/completions"

/-- The end of the sending function over gRPC. `registered` says whether the registry
knows the worker when its load is to be taken back. -/
def grpcAnswered (registered : Bool) (dispatch : TypedDispatch) (status : Nat) (producer : Bool) :
    Sent :=
  if dispatch.loadIncremented && (isSuccess status || !isRetryableStatus status) && registered then
    if dispatch.isStream && isSuccess status then
      ⟨status, false, some (if producer then .producerTask else .trackedBody)⟩
    else ⟨status, true, none⟩
  else ⟨status, false, none⟩

/-- The end of the sending function over HTTP. -/
def httpAnswered (registered : Bool) (dispatch : TypedDispatch) (status : Nat) (bodyRead : Bool) :
    Sent :=
  if !dispatch.isStream then
    ⟨if bodyRead then status else 500, dispatch.loadIncremented && registered, none⟩
  else if dispatch.loadIncremented then ⟨status, false, some (.streamTask false)⟩
  else ⟨status, false, none⟩

/-- `none` stands for a reaction of the other protocol. -/
def sendTypedRequest (dpSize : Nat) (registered : Bool) (dispatch : TypedDispatch)
    (reaction : Reaction) : Option Sent :=
  if isGrpcUrl dispatch.workerUrl then
    if dispatch.route ≠ chatRoute then some ⟨400, false, none⟩
    else if !dispatch.prepared then some ⟨500, false, none⟩
    else match reaction with
      | .grpc status producer => some (grpcAnswered registered dispatch status producer)
      | _ => none
  else if 1 < dpSize ∧ (extractDpRank dispatch.workerUrl).toBool = false then
    some ⟨500, false, none⟩
  else if 1 < dpSize ∧ dispatch.serializable = false then some ⟨400, false, none⟩
  else match reaction with
    | .sendFailed => some ⟨500, dispatch.loadIncremented && registered, none⟩
    | .http code bodyRead =>
      some (httpAnswered registered dispatch (statusFromU16 code) bodyRead)
    | .grpc .. => none

/-- Where the caller of the sending function is. -/
inductive Caller where
  | sending
  | returned (status : Nat)
  | finished
  deriving DecidableEq, Repr

/-- An attempt, with the reaction it has met as history. -/
structure Attempt where
  dispatch : TypedDispatch
  caller : Caller
  holder : Option Holder
  reaction : Option Reaction
  deriving DecidableEq, Repr

/-- What an attempt can do next. `abandon` is the client going away before there is an
answer, `chunk` a piece of the stream with whether the client still takes it,
`streamEnd` its end or its failure, `bodyDone` the end of the body or its being
dropped. -/
inductive Progress where
  | answer (reaction : Reaction)
  | abandon
  | cleanUp
  | chunk (bytes : List UInt8) (delivered : Bool)
  | streamEnd
  | bodyDone
  | producerDone
  deriving DecidableEq, Repr

def doneMarker : List UInt8 := "data: [DONE]".toUTF8.toList

def showsDone (bytes : List UInt8) : Bool := bytes.tails.any doneMarker.isPrefixOf

namespace Attempt

def advance (dpSize : Nat) (registered : Bool) (attempt : Attempt) :
    Progress → Option (Attempt × Bool)
  | .answer reaction =>
    match attempt.caller with
    | .sending =>
      (sendTypedRequest dpSize registered attempt.dispatch reaction).map fun sent =>
        ({ attempt with
            caller := .returned sent.status, holder := sent.holder, reaction := some reaction },
          sent.decremented)
    | _ => none
  | .abandon =>
    match attempt.caller with
    | .sending => some ({ attempt with caller := .finished }, false)
    | _ => none
  | .cleanUp =>
    match attempt.caller with
    | .returned status => some ({ attempt with caller := .finished },
        isRetryableStatus status && attempt.dispatch.loadIncremented)
    | _ => none
  | .chunk bytes delivered =>
    match attempt.holder with
    | some (.streamTask decremented) =>
      let marked := !decremented && showsDone bytes && registered
      if delivered then
        some ({ attempt with holder := some (.streamTask (decremented || marked)) }, marked)
      else
        -- The loop is left, and the load taken back behind it unless the marker did it.
        some ({ attempt with holder := none }, !decremented && registered)
    | _ => none
  | .streamEnd =>
    match attempt.holder with
    | some (.streamTask decremented) =>
      some ({ attempt with holder := none }, !decremented && registered)
    | _ => none
  | .bodyDone =>
    match attempt.holder with
    | some .trackedBody => some ({ attempt with holder := none }, true)
    | _ => none
  | .producerDone =>
    match attempt.holder with
    | some .producerTask => some ({ attempt with holder := none }, true)
    | _ => none

end Attempt

def Attempt.over (attempt : Attempt) : Bool :=
  attempt.caller = .finished && attempt.holder.isNone

namespace Attempt

/-- The attempt waits for its answer, has to clean up behind one it may retry, or has
an answer that is still being forwarded. -/
def running (attempt : Attempt) : Bool :=
  (match attempt.caller with
    | .sending => true
    | .returned status => isRetryableStatus status
    | .finished => false) || attempt.holder.isSome

/-- A chunk has shown the marker and the stream is still being forwarded. -/
def marked (attempt : Attempt) : Bool := attempt.holder = some (.streamTask true)

def counts (worker : String) (attempt : Attempt) : Nat :=
  if attempt.dispatch.workerUrl = worker ∧ attempt.dispatch.loadIncremented ∧ attempt.running
  then 1 else 0

def marks (worker : String) (attempt : Attempt) : Nat :=
  if attempt.dispatch.workerUrl = worker ∧ attempt.marked then 1 else 0

end Attempt

/-- The loads of the workers, the registered workers and the attempts by number.
`decrements` is the history of the loads taken back, by the attempt that did it. -/
structure DispatchState where
  load : String → Nat
  registered : List String
  attempts : Table Nat Attempt
  decrements : List Nat

inductive DispatchEvent where
  | registryChange (workers : List String)
  | begin (attempt : Nat) (dispatch : TypedDispatch)
  | advance (attempt : Nat) (progress : Progress)
  deriving DecidableEq, Repr

namespace DispatchState

def new : DispatchState := ⟨fun _ => 0, [], ∅, []⟩

variable (state : DispatchState)

def incrementLoad (worker : String) : DispatchState :=
  { state with load := Function.update state.load worker (state.load worker + 1) }

def decrementLoad (number : Nat) (worker : String) : DispatchState :=
  { state with
    load := Function.update state.load worker (state.load worker - 1)
    decrements := number :: state.decrements }

def charge (dispatch : TypedDispatch) : DispatchState :=
  if dispatch.loadIncremented then state.incrementLoad dispatch.workerUrl else state

def settle (number : Nat) (worker : String) (decrements : Bool) : DispatchState :=
  if decrements then state.decrementLoad number worker else state

def step (dpSize : Nat) (state : DispatchState) : DispatchEvent → Option DispatchState
  | .registryChange workers => some { state with registered := workers }
  | .begin number dispatch =>
    if (state.attempts.lookup number).isSome then none
    else
      some { state.charge dispatch with
        attempts := state.attempts.insert number ⟨dispatch, .sending, none, none⟩ }
  | .advance number progress =>
    (state.attempts.lookup number).bind fun attempt =>
      let registered := state.registered.contains attempt.dispatch.workerUrl
      (attempt.advance dpSize registered progress).map fun (later, decrements) =>
        { state.settle number attempt.dispatch.workerUrl decrements with
          attempts := state.attempts.insert number later }

def running (worker : String) : Nat :=
  state.attempts.total (Attempt.counts worker)

def StaysRegistered : Prop :=
  ∀ attempt ∈ state.attempts.values, attempt.over = false →
    attempt.dispatch.workerUrl ∈ state.registered

instance : DecidablePred StaysRegistered := fun state =>
  inferInstanceAs (Decidable (∀ attempt ∈ state.attempts.values, attempt.over = false →
    attempt.dispatch.workerUrl ∈ state.registered))

end DispatchState

/-- The reactions after which the load is taken back once. Over gRPC the route has to
be the one for chats. Over HTTP, short of an url without a rank, the request has a
form in JSON where ranks are in use, and the worker answers with a status that is not
retried and a body that can be read. -/
def Orderly (dpSize : Nat) (dispatch : TypedDispatch) (reaction : Reaction) : Prop :=
  if isGrpcUrl dispatch.workerUrl then dispatch.route = chatRoute
  else if 1 < dpSize ∧ (extractDpRank dispatch.workerUrl).toBool = false then True
  else (1 < dpSize → dispatch.serializable) ∧
    match reaction with
    | .http code bodyRead => isRetryableStatus (statusFromU16 code) = false ∧
        (dispatch.isStream ∨ bodyRead)
    | _ => False

def Sent.releases (sent : Sent) (dispatch : TypedDispatch) : Nat :=
  (sent.decremented || sent.holder.isSome).toNat +
    (isRetryableStatus sent.status && dispatch.loadIncremented).toNat

variable {status : Nat}

theorem isRetryableStatus_of_isSuccess (success : isSuccess status) :
    isRetryableStatus status = false := by
  simp only [isSuccess, Bool.and_eq_true, decide_eq_true_eq] at success
  simp only [isRetryableStatus, List.contains_eq_mem, List.mem_cons, List.not_mem_nil, or_false,
    decide_eq_false_iff_not]
  omega

section Sending

variable {dpSize : Nat} {registered : Bool} {dispatch : TypedDispatch} {reaction : Reaction}
  {sent : Sent}

/-- The load is taken back at once or by a holder that has not done it yet, and only
where it was put on. -/
structure Sent.Entrusted (sent : Sent) (dispatch : TypedDispatch) : Prop where
  split : (sent.decremented || sent.holder.isSome).toNat =
    sent.decremented.toNat + (sent.holder.any Holder.unreleased).toNat
  fresh : sent.holder ≠ some (.streamTask true)
  uncounted : dispatch.loadIncremented = false → sent.decremented = false ∧ sent.holder = none

theorem Sent.entrusted_of_none {decremented : Bool}
    (counted : dispatch.loadIncremented = false → decremented = false) :
    Sent.Entrusted ⟨status, decremented, none⟩ dispatch :=
  ⟨by cases decremented <;> rfl, nofun, fun uncounted => ⟨counted uncounted, rfl⟩⟩

theorem grpcAnswered_entrusted {producer : Bool} :
    (grpcAnswered registered dispatch status producer).Entrusted dispatch := by
  unfold grpcAnswered
  split
  · rename_i counted
    have loaded : dispatch.loadIncremented = true := by
      simp only [Bool.and_eq_true] at counted
      exact counted.1.1
    split
    · refine ⟨?_, ?_, fun uncounted => ?_⟩
      · cases producer <;> rfl
      · cases producer <;> exact nofun
      · rw [loaded] at uncounted
        cases uncounted
    · refine Sent.entrusted_of_none fun uncounted => ?_
      rw [loaded] at uncounted
      cases uncounted
  · exact Sent.entrusted_of_none fun _ => rfl

theorem httpAnswered_entrusted {bodyRead : Bool} :
    (httpAnswered registered dispatch status bodyRead).Entrusted dispatch := by
  unfold httpAnswered
  split
  · exact Sent.entrusted_of_none fun uncounted => by rw [uncounted, Bool.false_and]
  · split
    · rename_i counted
      exact ⟨rfl, nofun, fun uncounted => absurd (counted.symm.trans uncounted) (by decide)⟩
    · exact Sent.entrusted_of_none fun _ => rfl

theorem sendTypedRequest_entrusted
    (sends : sendTypedRequest dpSize registered dispatch reaction = some sent) :
    sent.Entrusted dispatch := by
  revert sends
  fun_cases sendTypedRequest dpSize registered dispatch reaction with
  | case1 | case2 | case5 | case6 =>
    rintro ⟨⟩
    exact Sent.entrusted_of_none fun _ => rfl
  | case3 =>
    rintro ⟨⟩
    exact grpcAnswered_entrusted
  | case7 =>
    rintro ⟨⟩
    exact Sent.entrusted_of_none fun uncounted => by rw [uncounted, Bool.false_and]
  | case8 =>
    rintro ⟨⟩
    exact httpAnswered_entrusted
  | case4 | case9 => rintro ⟨⟩

variable (counted : dispatch.loadIncremented)

include counted

theorem grpcAnswered_releases
    {producer : Bool} : (grpcAnswered true dispatch status producer).releases dispatch = 1 := by
  unfold grpcAnswered Sent.releases
  rw [counted]
  cases success : isSuccess status with
  | true =>
    have final := isRetryableStatus_of_isSuccess success
    cases dispatch.isStream <;> simp [final]
  | false => cases retryable : isRetryableStatus status <;> simp [retryable]

theorem httpAnswered_releases_iff (status : Nat)
    (bodyRead : Bool) : (httpAnswered true dispatch status bodyRead).releases dispatch = 1 ↔
      isRetryableStatus status = false ∧ (dispatch.isStream ∨ bodyRead) := by
  have internal : isRetryableStatus 500 = true := rfl
  unfold httpAnswered Sent.releases
  rw [counted]
  cases dispatch.isStream <;> cases bodyRead <;> cases retryable : isRetryableStatus status <;>
    simp [retryable, internal]

theorem sendTypedRequest_releases_iff
    (sends : sendTypedRequest dpSize true dispatch reaction = some sent) :
    sent.releases dispatch = 1 ↔ Orderly dpSize dispatch reaction := by
  have internal : isRetryableStatus 500 = true := rfl
  have refused : isRetryableStatus 400 = false := rfl
  unfold Orderly
  revert sends
  fun_cases sendTypedRequest dpSize true dispatch reaction with
  | case1 _ grpc other =>
    rintro ⟨⟩
    rw [if_pos grpc]
    simp [Sent.releases, refused, other]
  | case2 _ grpc chat =>
    rintro ⟨⟩
    rw [if_pos grpc]
    refine iff_of_true ?_ (not_not.mp chat)
    simp [Sent.releases, internal, counted]
  | case3 grpc chat =>
    rintro ⟨⟩
    rw [if_pos grpc]
    exact iff_of_true (grpcAnswered_releases counted) (not_not.mp chat)
  | case4 | case9 => rintro ⟨⟩
  | case5 _ http unranked =>
    rintro ⟨⟩
    rw [if_neg http, if_pos unranked]
    simp [Sent.releases, internal, counted]
  | case6 _ http ranked formless =>
    rintro ⟨⟩
    rw [if_neg http, if_neg ranked]
    simp [Sent.releases, refused, formless]
  | case7 http ranked =>
    rintro ⟨⟩
    rw [if_neg http, if_neg ranked]
    simp [Sent.releases, internal, counted]
  | case8 http ranked formed =>
    rintro ⟨⟩
    rw [if_neg http, if_neg ranked, httpAnswered_releases_iff counted]
    refine ⟨fun final => ⟨fun several => ?_, final⟩, fun final => final.2⟩
    by_contra missing
    exact formed ⟨several, Bool.eq_false_iff.mpr missing⟩

end Sending

end SmetricRouter.Routing
