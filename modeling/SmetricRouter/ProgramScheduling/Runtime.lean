import SmetricRouter.ProgramScheduling.RequestPool

/-! Program generations, request retention and accepted runtime transitions.

The runtime mutates lifecycle facts and makes no scheduling decisions. An
operation that reports success by a flag and changes nothing on failure is an
`Option` here; `admitFront` may fail after it has changed the Program, so it
returns the state in both cases.
-/

namespace SmetricRouter.ProgramScheduling

open RequestPool

structure RuntimeProgram where
  reference : ProgramRef
  state : ProgramState
  status : ProgramStatus
  expectedResume : Bool
  placement : Option String
  placementEpoch : Nat
  placementStartRequestPending : Bool
  estimatedContextTokens : Nat
  inFlightRequests : Nat
  deriving DecidableEq, Repr

/-- One accepted transition, as the journal records it. -/
inductive LifecycleEvent where
  | retained (program : ProgramRef) (requestId : Nat)
  | dispatched (requestId : Nat) (dispatch : ProgramDispatch)
  | cancelled (program : ProgramRef) (requestId : Nat)
  | admitted (program : ProgramRef) (epoch : Nat)
  | invalidated (program : ProgramRef) (epoch : Nat)
  deriving DecidableEq, Repr

structure ProgramRuntime where
  programs : Table RuntimeKey RuntimeProgram
  lastGenerations : Table RuntimeKey Nat
  releasedGenerationsAt : Table RuntimeKey Instant
  requestPool : RequestPool
  nextPlacementEpoch : Nat
  /-- History variable, oldest event first: written by the transitions and read
  by no function of the scheduler. -/
  journal : List LifecycleEvent

structure RuntimeProgramView where
  state : ProgramState
  status : ProgramStatus
  placement : Option String
  inFlightRequests : Nat
  waitingRequests : Nat
  deriving DecidableEq, Repr

structure RuntimeProgramViewRef where
  reference : ProgramRef
  state : ProgramState
  status : ProgramStatus
  expectedResume : Bool
  placement : Option String
  estimatedContextTokens : Nat
  inFlightRequests : Nat
  waitingRequests : Nat
  deriving DecidableEq, Repr

namespace ProgramRuntime

def empty : ProgramRuntime := ⟨∅, ∅, ∅, .empty, 0, []⟩

variable (runtime : ProgramRuntime) (reference : ProgramRef)

def find : Option RuntimeProgram :=
  (runtime.programs.lookup reference.key).filter fun program => program.reference == reference

/-- The Program an arriving request belongs to, created when it is not live,
with the generations recorded so far. -/
def materialize (identity : ProgramIdentity) (estimatedContextTokens : Nat) :
    RuntimeProgram × Table RuntimeKey Nat :=
  match runtime.programs.lookup identity.key with
  | some program =>
    ({ program with
        expectedResume := identity.expectedResume
        estimatedContextTokens := max program.estimatedContextTokens estimatedContextTokens },
      runtime.lastGenerations)
  | none =>
    let generation := ((runtime.lastGenerations.lookup identity.key).map fun last =>
      saturatingAdd last 1).getD 0
    ({ reference := ⟨identity.modelPool, identity.programId, generation⟩
       state := .paused
       status := .reasoning
       expectedResume := identity.expectedResume
       placement := none
       placementEpoch := 0
       placementStartRequestPending := false
       estimatedContextTokens := estimatedContextTokens
       inFlightRequests := 0 },
      runtime.lastGenerations.insert identity.key generation)

/-- Materialize or update a Program, then retain the arriving request. -/
def retainRequest (identity : ProgramIdentity) (estimatedContextTokens : Nat)
    (routingText : Option String) (arrivedAt : Instant) : ProgramRequestHandle × ProgramRuntime :=
  let (program, lastGenerations) := runtime.materialize identity estimatedContextTokens
  let (handle, requestPool) := runtime.requestPool.retain program.reference arrivedAt
    estimatedContextTokens routingText identity.requestHints
  (handle,
    { runtime with
      programs := runtime.programs.insert identity.key { program with status := .reasoning }
      lastGenerations := lastGenerations
      releasedGenerationsAt := runtime.releasedGenerationsAt.erase identity.key
      requestPool := requestPool
      journal := runtime.journal ++ [.retained program.reference handle.requestId] })

def openPlacement (program : RuntimeProgram) (target : String) (pending : Bool) : ProgramRuntime :=
  let epoch := saturatingAdd runtime.nextPlacementEpoch 1
  { runtime with
    programs := runtime.programs.insert program.reference.key
      { program with
        state := .active
        placement := some target
        placementEpoch := epoch
        placementStartRequestPending := pending }
    nextPlacementEpoch := epoch
    journal := runtime.journal ++ [.admitted program.reference epoch] }

variable (handle : ProgramRequestHandle)

def dispatchFront (targetId : String) (dispatchedAt : Instant) (startsPlacement : Bool) :
    Option ProgramDispatch × ProgramRuntime :=
  match runtime.programs.lookup handle.program.key with
  | none => (none, runtime)
  | some found =>
    let program := { found with placementStartRequestPending := false }
    match runtime.requestPool.takeFront handle with
    | none =>
      -- The pending mark is gone although nothing was dispatched.
      (none, { runtime with programs := runtime.programs.insert handle.program.key program })
    | some (request, requestPool) =>
      let dispatch :=
        { program := program.reference
          targetId := targetId
          placementEpoch := program.placementEpoch
          requestArrivedAt := request.arrivedAt
          dispatchedAt := dispatchedAt
          estimatedContextTokens := request.estimatedContextTokens
          placementStartRequest := startsPlacement
          routingText := request.routingText
          requestHints := request.hints }
      (some dispatch,
        { runtime with
          programs := runtime.programs.insert handle.program.key
            { program with
              status := .reasoning
              inFlightRequests := saturatingAdd program.inFlightRequests 1 }
          requestPool := requestPool.notifyFront program.reference
          journal := runtime.journal ++ [.dispatched request.id dispatch] })

/-- Commit the front retained request to `targetId`.

A paused Program begins a new placement epoch. An active Program may dispatch
only on its existing target and does not begin a new segment. -/
def admitFront (targetId : String) (dispatchedAt : Instant) :
    Option ProgramDispatch × ProgramRuntime :=
  match runtime.find handle.program with
  | none => (none, runtime)
  | some program =>
    match program.state with
    | .paused =>
      (runtime.openPlacement program targetId false).dispatchFront handle targetId dispatchedAt true
    | .active =>
      if program.placement ≠ some targetId then (none, runtime)
      else runtime.dispatchFront handle targetId dispatchedAt program.placementStartRequestPending

def completeRequest (dispatch : ProgramDispatch) (usage : ProgramUsageObservation) :
    Option ProgramRuntime :=
  match runtime.programs.lookup dispatch.program.key with
  | none => none
  | some program =>
    if program.reference ≠ dispatch.program
        ∨ program.placementEpoch ≠ dispatch.placementEpoch
        ∨ program.inFlightRequests = 0 then none
    else
      let promptTokens := usage.promptTokens.getD dispatch.estimatedContextTokens
      let remaining := program.inFlightRequests - 1
      some
        { runtime with
          programs := runtime.programs.insert dispatch.program.key
            { program with
              estimatedContextTokens := max program.estimatedContextTokens promptTokens
              inFlightRequests := remaining
              status :=
                if remaining = 0 ∧ runtime.requestPool.programLen program.reference = 0
                then .acting else program.status } }

def cancelRequest : Option ProgramRuntime := do
  let (wasFront, cancelled) ← runtime.requestPool.cancel handle
  let requestPool := if wasFront then cancelled.notifyFront handle.program else cancelled
  let programs := runtime.programs.modify handle.program.key fun program =>
    if program.reference = handle.program ∧ program.inFlightRequests = 0
        ∧ requestPool.programLen program.reference = 0 then
      -- A quiet Program gives up the placement it holds.
      if program.state = .active then
        { program with status := .acting, state := .paused, placement := none }
      else { program with status := .acting }
    else program
  return { runtime with
    programs := programs
    requestPool := requestPool
    journal := runtime.journal ++ [.cancelled handle.program handle.requestId] }

def pauseIdle : Option ProgramRuntime :=
  match runtime.programs.lookup reference.key with
  | none => none
  | some program =>
    if program.reference ≠ reference ∨ program.state ≠ .active
        ∨ program.inFlightRequests ≠ 0 then none
    else some
      { runtime with
        programs := runtime.programs.insert reference.key
          { program with state := .paused, placement := none } }

def activate (targetId : String) : Option ProgramRuntime :=
  match runtime.programs.lookup reference.key with
  | none => none
  | some program =>
    if program.reference ≠ reference ∨ program.state ≠ .paused
        ∨ runtime.requestPool.programLen reference = 0 then none
    else some (runtime.openPlacement { program with status := .reasoning } targetId true)

def releaseIdle (now : Instant) : Option ProgramRuntime :=
  match runtime.programs.lookup reference.key with
  | none => none
  | some program =>
    if program.reference = reference ∧ program.inFlightRequests = 0
        ∧ runtime.requestPool.programLen reference = 0 then
      some
        { runtime with
          programs := runtime.programs.erase reference.key
          lastGenerations :=
            runtime.lastGenerations.insert reference.key program.reference.generation
          releasedGenerationsAt := runtime.releasedGenerationsAt.insert reference.key now }
    else none

/-- Bound generation fencing history after released Programs age out. -/
def pruneReleasedGenerations (now : Instant) (retention : Duration) : ProgramRuntime :=
  let expired := runtime.releasedGenerationsAt.keys.filter fun key =>
    (runtime.programs.lookup key).isNone &&
      (runtime.releasedGenerationsAt.lookup key).any fun releasedAt =>
        retention ≤ now - releasedAt
  { runtime with
    releasedGenerationsAt := runtime.releasedGenerationsAt.eraseAll expired
    lastGenerations := runtime.lastGenerations.eraseAll expired }

def invalidatePlacement (removedTargets : List String) : Option ProgramRuntime :=
  match runtime.programs.lookup reference.key with
  | none => none
  | some program =>
    if program.reference ≠ reference ∨ ¬ program.placement.any (· ∈ removedTargets) then none
    else
      let epoch := saturatingAdd runtime.nextPlacementEpoch 1
      some
        { runtime with
          programs := runtime.programs.insert reference.key
            { program with
              state := .paused
              placement := none
              placementEpoch := epoch
              placementStartRequestPending := false
              inFlightRequests := 0 }
          nextPlacementEpoch := epoch
          journal := runtime.journal ++ [.invalidated reference epoch] }

def placement (runtime : ProgramRuntime) (reference : ProgramRef) : Option String :=
  (runtime.find reference).bind (·.placement)

def frontRequestHints : Option ProgramRequestHints :=
  runtime.requestPool.frontHints reference

def retainedRequestCount : Nat := runtime.requestPool.len

def view : Option RuntimeProgramView :=
  (runtime.find reference).map fun program =>
    { state := program.state
      status := program.status
      placement := program.placement
      inFlightRequests := program.inFlightRequests
      waitingRequests := runtime.requestPool.programLen program.reference }

def iterViews (order : IterationOrder) : List RuntimeProgramViewRef :=
  (order.programs runtime.programs.keys).filterMap fun key =>
    (runtime.programs.lookup key).map fun program =>
      { reference := program.reference
        state := program.state
        status := program.status
        expectedResume := program.expectedResume
        placement := program.placement
        estimatedContextTokens := program.estimatedContextTokens
        inFlightRequests := program.inFlightRequests
        waitingRequests := runtime.requestPool.programLen program.reference }

def notifyFront (runtime : ProgramRuntime) (reference : ProgramRef) : ProgramRuntime :=
  { runtime with requestPool := runtime.requestPool.notifyFront reference }

variable {reference} {runtime next : ProgramRuntime} {program : RuntimeProgram}

theorem view_some {view : RuntimeProgramView} (seen : runtime.view reference = some view) :
    ∃ record, runtime.find reference = some record ∧ record.state = view.state ∧
      record.status = view.status ∧ record.placement = view.placement ∧
      record.inFlightRequests = view.inFlightRequests ∧
      (runtime.requestPool.queue reference).length = view.waitingRequests := by
  simp only [ProgramRuntime.view, Option.map_eq_some_iff] at seen
  obtain ⟨record, found, rfl⟩ := seen
  have exact : record.reference = reference := by
    simp only [find, Option.filter_eq_some_iff, beq_iff_eq] at found
    exact found.2
  refine ⟨record, found, rfl, rfl, rfl, rfl, ?_⟩
  rw [← exact]
  rfl

theorem view_placement (runtime : ProgramRuntime) (reference : ProgramRef) :
    (runtime.view reference).bind (·.placement) = runtime.placement reference := by
  unfold view placement
  cases runtime.find reference <;> rfl

def Keyed (runtime : ProgramRuntime) : Prop :=
  ∀ key program, runtime.programs.lookup key = some program → program.reference.key = key

theorem find_eq_some :
    runtime.find reference = some program ↔
      runtime.programs.lookup reference.key = some program ∧ program.reference = reference := by
  simp [find]

theorem find_of_insert (record : RuntimeProgram)
    (programs : next.programs = runtime.programs.insert record.reference.key record)
    (same : ∀ program, runtime.programs.lookup record.reference.key = some program →
      program.reference = record.reference) (other : ProgramRef) :
    next.find other = if other = record.reference then some record else runtime.find other := by
  unfold find
  rw [programs, Table.lookup_insert_eq]
  by_cases exact : other = record.reference
  · simp [exact]
  · rw [if_neg exact]
    by_cases sameKey : other.key = record.reference.key
    · rw [sameKey]
      have mismatch : ¬ record.reference = other := fun equal => exact equal.symm
      cases found : runtime.programs.lookup record.reference.key with
      | none => simp [mismatch]
      | some program => simp [Option.filter, same program found, mismatch]
    · rw [if_neg sameKey]

theorem find_of_erase {record : RuntimeProgram}
    (programs : next.programs = runtime.programs.erase record.reference.key)
    (found : runtime.programs.lookup record.reference.key = some record) (other : ProgramRef) :
    next.find other = if other = record.reference then none else runtime.find other := by
  unfold find
  rw [programs, Table.lookup_erase_eq]
  by_cases sameKey : other.key = record.reference.key
  · rw [sameKey, found]
    by_cases exact : other = record.reference
    · simp [exact]
    · have mismatch : ¬ record.reference = other := fun equal => exact equal.symm
      simp [Option.filter, exact, mismatch]
  · have exact : other ≠ record.reference := fun equal => sameKey (by rw [equal])
    rw [if_neg sameKey, if_neg exact]

variable {key : RuntimeKey} {removed : List String}

theorem Keyed.insert (keyed : runtime.Keyed) (record : RuntimeProgram)
    (own : record.reference.key = key)
    (programs : next.programs = runtime.programs.insert key record) : next.Keyed := by
  intro other _ found
  rw [programs, Table.lookup_insert_eq] at found
  by_cases same : other = key
  · rw [if_pos same] at found
    cases found
    rw [own, same]
  · rw [if_neg same] at found
    exact keyed _ _ found

theorem Keyed.erase (keyed : runtime.Keyed)
    (programs : next.programs = runtime.programs.erase key) : next.Keyed := by
  intro other _ found
  rw [programs, Table.lookup_erase_eq] at found
  by_cases same : other = key
  · rw [if_pos same] at found
    cases found
  · rw [if_neg same] at found
    exact keyed _ _ found

theorem reference_of_find (found : runtime.find reference = some program) :
    ∀ other, runtime.programs.lookup reference.key = some other → other.reference = reference := by
  intro _ stored
  obtain ⟨lookup, exact⟩ := find_eq_some.mp found
  rw [lookup] at stored
  cases stored
  exact exact

theorem find_update_of_insert {program : ProgramRef} {old : RuntimeProgram}
    (found : runtime.find program = some old) (record : RuntimeProgram)
    (exact : record.reference = program)
    (programs : next.programs = runtime.programs.insert program.key record) :
    next.find = Function.update runtime.find program (some record) := by
  subst exact
  funext other
  rw [Function.update_apply]
  exact find_of_insert _ programs (reference_of_find found) _

/-- The record of a Program that is placed on `target`, under the next number. -/
def opened (runtime : ProgramRuntime) (record : RuntimeProgram) (target : String) :
    RuntimeProgram :=
  { record with
    status := .reasoning
    state := .active
    placement := some target
    placementEpoch := saturatingAdd runtime.nextPlacementEpoch 1
    placementStartRequestPending := true }

/-- The record of a Program whose placement is invalid, under the next number. -/
def evicted (runtime : ProgramRuntime) (record : RuntimeProgram) : RuntimeProgram :=
  { record with
    state := .paused
    placement := none
    placementEpoch := saturatingAdd runtime.nextPlacementEpoch 1
    placementStartRequestPending := false
    inFlightRequests := 0 }

theorem activate_some {targetId : String}
    (activated : runtime.activate reference targetId = some next) :
    ∃ program, runtime.find reference = some program ∧ program.state = .paused ∧
      runtime.requestPool.queue reference ≠ [] ∧
      next = runtime.openPlacement { program with status := .reasoning } targetId true := by
  revert activated
  fun_cases activate runtime reference targetId with
  | case1 | case2 => rintro ⟨⟩
  | case3 program found guards =>
    simp only [not_or, not_not, programLen, List.length_eq_zero_iff] at guards
    rintro ⟨⟩
    exact ⟨program, find_eq_some.mpr ⟨found, guards.1⟩, guards.2.1, guards.2.2, rfl⟩

theorem pauseIdle_some (paused : runtime.pauseIdle reference = some next) :
    ∃ program, runtime.find reference = some program ∧ program.state = .active ∧
      program.inFlightRequests = 0 ∧
      next = { runtime with
        programs := runtime.programs.insert reference.key
          { program with state := .paused, placement := none } } := by
  revert paused
  fun_cases pauseIdle runtime reference with
  | case1 | case2 => rintro ⟨⟩
  | case3 program found guards =>
    simp only [ne_eq, not_or, not_not] at guards
    rintro ⟨⟩
    exact ⟨program, find_eq_some.mpr ⟨found, guards.1⟩, guards.2.1, guards.2.2, rfl⟩

theorem completeRequest_some {dispatch : ProgramDispatch} {usage : ProgramUsageObservation}
    (completed : runtime.completeRequest dispatch usage = some next) :
    ∃ program, runtime.find dispatch.program = some program ∧
      program.placementEpoch = dispatch.placementEpoch ∧ program.inFlightRequests ≠ 0 ∧
      next = { runtime with
        programs := runtime.programs.insert dispatch.program.key
          { program with
            estimatedContextTokens := max program.estimatedContextTokens
              (usage.promptTokens.getD dispatch.estimatedContextTokens)
            inFlightRequests := program.inFlightRequests - 1
            status :=
              if program.inFlightRequests - 1 = 0
                ∧ runtime.requestPool.programLen program.reference = 0
              then .acting else program.status } } := by
  revert completed
  fun_cases completeRequest runtime dispatch usage with
  | case1 | case2 => rintro ⟨⟩
  | case3 program found guards =>
    simp only [ne_eq, not_or, not_not] at guards
    rintro ⟨⟩
    exact ⟨program, find_eq_some.mpr ⟨found, guards.1⟩, guards.2.1, guards.2.2, rfl⟩

theorem releaseIdle_some {now : Instant}
    (released : runtime.releaseIdle reference now = some next) :
    ∃ program, runtime.find reference = some program ∧ program.inFlightRequests = 0 ∧
      runtime.requestPool.queue reference = [] ∧
      next = { runtime with
        programs := runtime.programs.erase reference.key
        lastGenerations :=
          runtime.lastGenerations.insert reference.key program.reference.generation
        releasedGenerationsAt := runtime.releasedGenerationsAt.insert reference.key now } := by
  revert released
  fun_cases releaseIdle runtime reference now with
  | case1 | case3 => rintro ⟨⟩
  | case2 program found guards =>
    simp only [programLen, List.length_eq_zero_iff] at guards
    rintro ⟨⟩
    exact ⟨program, find_eq_some.mpr ⟨found, guards.1⟩, guards.2.1, guards.2.2, rfl⟩

theorem releaseIdle_of_absent (absent : runtime.find reference = none) (now : Instant) :
    runtime.releaseIdle reference now = none := by
  cases released : runtime.releaseIdle reference now with
  | none => rfl
  | some =>
    obtain ⟨_, found, _⟩ := releaseIdle_some released
    cases absent.symm.trans found

theorem invalidatePlacement_some
    (invalidated : runtime.invalidatePlacement reference removed = some next) :
    ∃ program target, runtime.find reference = some program ∧ program.placement = some target ∧
      target ∈ removed ∧
      next = { runtime with
        programs := runtime.programs.insert reference.key (runtime.evicted program)
        nextPlacementEpoch := saturatingAdd runtime.nextPlacementEpoch 1
        journal := runtime.journal ++
          [.invalidated reference (saturatingAdd runtime.nextPlacementEpoch 1)] } := by
  revert invalidated
  fun_cases invalidatePlacement runtime reference removed with
  | case1 | case2 => rintro ⟨⟩
  | case3 program found guards =>
    simp only [ne_eq, not_or, not_not, Option.any_eq_true, decide_eq_true_eq] at guards
    obtain ⟨exact, target, placed, gone⟩ := guards
    rintro ⟨⟩
    exact ⟨program, target, find_eq_some.mpr ⟨found, exact⟩, placed, gone, rfl⟩

variable {target : String}

theorem invalidatePlacement_none (kept : runtime.invalidatePlacement reference removed = none)
    (found : runtime.find reference = some program) (placed : program.placement = some target) :
    target ∉ removed := by
  obtain ⟨lookup, exact⟩ := find_eq_some.mp found
  intro gone
  simp [invalidatePlacement, lookup, exact, placed, gone] at kept

section Arrival

/-- The record of a Program that was not live before. -/
structure Fresh (record : RuntimeProgram) : Prop where
  paused : record.state = .paused
  unplaced : record.placement = none
  unnumbered : record.placementEpoch = 0
  idle : record.inFlightRequests = 0

variable {runtime : ProgramRuntime} (keyed : runtime.Keyed) (identity : ProgramIdentity)
  (tokens : Nat)

theorem materialize_cases :
    (∃ old, runtime.programs.lookup identity.key = some old ∧
      (runtime.materialize identity tokens).1 =
        { old with
          expectedResume := identity.expectedResume
          estimatedContextTokens := max old.estimatedContextTokens tokens }) ∨
    (runtime.programs.lookup identity.key = none ∧
      (runtime.materialize identity tokens).1.reference.key = identity.key ∧
      Fresh (runtime.materialize identity tokens).1) := by
  unfold materialize
  cases found : runtime.programs.lookup identity.key with
  | some old => exact .inl ⟨old, rfl, rfl⟩
  | none => exact .inr ⟨rfl, rfl, rfl, rfl, rfl, rfl⟩

include keyed

theorem materialize_key : (runtime.materialize identity tokens).1.reference.key = identity.key := by
  rcases materialize_cases identity tokens with ⟨old, found, record⟩ | fresh
  · rw [record]
    exact keyed _ old found
  · exact fresh.2.1

theorem materialize_modelPool :
    (runtime.materialize identity tokens).1.reference.modelPool = identity.modelPool :=
  congrArg RuntimeKey.modelPool (materialize_key keyed _ _)

theorem materialize_find :
    (∃ old, runtime.find (runtime.materialize identity tokens).1.reference = some old ∧
      (runtime.materialize identity tokens).1 =
        { old with
          expectedResume := identity.expectedResume
          estimatedContextTokens := max old.estimatedContextTokens tokens }) ∨
    (runtime.find (runtime.materialize identity tokens).1.reference = none ∧
      Fresh (runtime.materialize identity tokens).1) := by
  rcases materialize_cases identity tokens with ⟨old, found, record⟩ | ⟨absent, key, fresh⟩
  · refine .inl ⟨old, find_eq_some.mpr ⟨?_, by rw [record]⟩, record⟩
    rw [materialize_key keyed, found]
  · refine .inr ⟨?_, fresh⟩
    unfold find
    rw [key, absent]
    rfl

theorem materialize_reference :
    ∀ program, runtime.programs.lookup (runtime.materialize identity tokens).1.reference.key =
      some program → program.reference = (runtime.materialize identity tokens).1.reference := by
  intro _ stored
  rw [materialize_key keyed] at stored
  rcases materialize_cases identity tokens with ⟨_, found, record⟩ | fresh
  · rw [found] at stored
    cases stored
    rw [record]
  · rw [fresh.1] at stored
    cases stored

variable (routingText : Option String) (arrivedAt : Instant)

theorem find_retainRequest (reference : ProgramRef) :
    (runtime.retainRequest identity tokens routingText arrivedAt).2.find reference =
      if reference = (runtime.materialize identity tokens).1.reference then
        some { (runtime.materialize identity tokens).1 with status := .reasoning }
      else runtime.find reference := by
  have programs : (runtime.retainRequest identity tokens routingText arrivedAt).2.programs =
      runtime.programs.insert (runtime.materialize identity tokens).1.reference.key
        { (runtime.materialize identity tokens).1 with status := .reasoning } := by
    rw [materialize_key keyed]
    rfl
  exact find_of_insert { (runtime.materialize _ _).1 with status := .reasoning }
    programs (materialize_reference keyed _ _) _

theorem Keyed.retainRequest :
    (runtime.retainRequest identity tokens routingText arrivedAt).2.Keyed :=
  keyed.insert { (runtime.materialize identity tokens).1 with status := .reasoning }
    (materialize_key keyed identity tokens) rfl

end Arrival

theorem queue_retainRequest (runtime : ProgramRuntime) (identity : ProgramIdentity)
    (tokens : Nat) (routingText : Option String) (arrivedAt : Instant) (reference : ProgramRef) :
    (runtime.retainRequest identity tokens routingText arrivedAt).2.requestPool.queue reference =
      if reference = (runtime.materialize identity tokens).1.reference then
        runtime.requestPool.queue reference ++
          [⟨wrappingSucc runtime.requestPool.nextRequestId, arrivedAt, tokens, routingText,
            identity.requestHints, runtime.requestPool.nextNotifier⟩]
      else runtime.requestPool.queue reference := by
  have pooled : (runtime.retainRequest identity tokens routingText arrivedAt).2.requestPool =
      (runtime.requestPool.retain (runtime.materialize identity tokens).1.reference arrivedAt
        tokens routingText identity.requestHints).2 := rfl
  rw [pooled, queue_retain]
  by_cases same : reference = (runtime.materialize identity tokens).1.reference
  · rw [if_pos same, if_pos same, same]
  · rw [if_neg same, if_neg same]

variable {handle}

theorem admitFront_active (now : Instant)
    (found : runtime.find handle.program = some program) (active : program.state = .active)
    (placed : program.placement = some target) :
    runtime.admitFront handle target now =
      runtime.dispatchFront handle target now program.placementStartRequestPending := by
  unfold admitFront
  rw [found]
  simp [active, placed]

theorem admitFront_front {request : PendingProgramRequest}
    {rest : List PendingProgramRequest} (now : Instant)
    (found : runtime.find handle.program = some program) (active : program.state = .active)
    (placed : program.placement = some target)
    (waiting : runtime.requestPool.queue handle.program = request :: rest)
    (named : request.id = handle.requestId) :
    (runtime.admitFront handle target now).1 = some
      { program := handle.program
        targetId := target
        placementEpoch := program.placementEpoch
        requestArrivedAt := request.arrivedAt
        dispatchedAt := now
        estimatedContextTokens := request.estimatedContextTokens
        placementStartRequest := program.placementStartRequestPending
        routingText := request.routingText
        requestHints := request.hints } := by
  obtain ⟨stored, own⟩ := find_eq_some.mp found
  have lookup := lookup_of_queue waiting
  rw [admitFront_active now found active placed]
  simp [dispatchFront, stored, takeFront, lookup, named, own]

theorem cancelRequest_some (cancelled : runtime.cancelRequest handle = some next) :
    ∃ wasFront pool, runtime.requestPool.cancel handle = some (wasFront, pool) ∧
      next.requestPool = (if wasFront then pool.notifyFront handle.program else pool) ∧
      next.programs = runtime.programs.modify handle.program.key (fun program =>
        if program.reference = handle.program ∧ program.inFlightRequests = 0
            ∧ pool.programLen program.reference = 0 then
          if program.state = .active then
            { program with status := .acting, state := .paused, placement := none }
          else { program with status := .acting }
        else program) ∧
      next.lastGenerations = runtime.lastGenerations ∧
      next.releasedGenerationsAt = runtime.releasedGenerationsAt ∧
      next.nextPlacementEpoch = runtime.nextPlacementEpoch ∧
      next.journal = runtime.journal ++ [.cancelled handle.program handle.requestId] := by
  unfold cancelRequest at cancelled
  cases removed : runtime.requestPool.cancel handle with
  | none => simp [removed] at cancelled
  | some outcome =>
    obtain ⟨wasFront, pool⟩ := outcome
    simp only [removed, Option.bind_eq_bind, Option.bind_some, Option.pure_def,
      Option.some.injEq] at cancelled
    subst cancelled
    cases wasFront <;> simp [programLen]

end ProgramRuntime

end SmetricRouter.ProgramScheduling
