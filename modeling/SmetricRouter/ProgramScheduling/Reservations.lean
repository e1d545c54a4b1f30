import SmetricRouter.ProgramScheduling.Sections

/-! The output reservation of a Program against the hints of its requests.

A Program has one slot for the declared output of all its requests. An arrival
writes it, a completion clears it, and a cancellation or a failover leaves it as
it is. The requests in flight are followed beside the run, since the runtime only
counts them.
-/

namespace SmetricRouter.ProgramScheduling

open ProgramSchedulerState Function Sample

variable {F T : Type} [F64 F] {self : ProgramScheduler F}
  {state next : ProgramSchedulerState F T} {flights : ProgramRef → List ProgramDispatch}

section Outstanding

/-- The declared output of the request that arrived last. Requests are dispatched
in the order of their arrival, so every waiting one arrived after those in flight. -/
def latestHint (waiting : List PendingProgramRequest) (flying : List ProgramDispatch) : Option Nat :=
  match waiting.getLast? with
  | some request => request.hints.expectedOutputTokens
  | none => flying.getLast?.bind (·.requestHints.expectedOutputTokens)

theorem latestHint_arrive (waiting : List PendingProgramRequest) (request : PendingProgramRequest)
    (flying : List ProgramDispatch) :
    latestHint (waiting ++ [request]) flying = request.hints.expectedOutputTokens := by
  rw [latestHint, List.getLast?_append_of_ne_nil _ (List.cons_ne_nil _ _)]
  rfl

theorem latestHint_dispatch {dispatch : ProgramDispatch} {request : PendingProgramRequest}
    (hints : dispatch.requestHints = request.hints) (rest : List PendingProgramRequest)
    (flying : List ProgramDispatch) :
    latestHint rest (flying ++ [dispatch]) = latestHint (request :: rest) flying := by
  cases rest with
  | nil =>
    rw [latestHint, List.getLast?_append_of_ne_nil _ (List.cons_ne_nil _ _)]
    exact congrArg ProgramRequestHints.expectedOutputTokens hints
  | cons =>
    rw [latestHint, latestHint, List.getLast?_cons_cons]
    rw [List.getLast?_eq_getLast_of_ne_nil (List.cons_ne_nil _ _)]

def Reserved (flights : ProgramRef → List ProgramDispatch) (state : ProgramSchedulerState F T) :
    Prop :=
  ∀ program decision, state.decisions.lookup program = some decision →
    decision.outputTokenReservation = latestHint (state.waiting program) (flights program)

theorem reserved_iff_accounts : Reserved flights state ↔
    ∀ program account, state.books.account program = some account →
      account.outputTokenReservation = latestHint (state.waiting program) (flights program) := by
  constructor
  · intro reserved program account known
    obtain ⟨decision, decided, rfl⟩ := Option.map_eq_some_iff.mp known
    exact reserved _ _ decided
  · intro reserved program decision decided
    have known : state.books.account program = some decision.account := by
      simp [books, decided]
    exact reserved _ decision.account known

omit [F64 F] in
def ProgramSchedulerState.Unserved (state : ProgramSchedulerState F T) (program : ProgramRef) :
    Prop :=
  ((state.runtime.find program).any fun record => record.inFlightRequests == 0) ∧
    (state.decisions.lookup program).any fun decision => decision.completedRequests == 0

instance (dispatch : ProgramDispatch) (usage : ProgramUsageObservation) :
    Decidable (state.Accepts dispatch usage) :=
  inferInstanceAs (Decidable (_ ∧ ¬ _ = none))

variable [AffinityTree T]

/-- The requests in flight after a section. A claim adds the one it dispatches, an
accepted completion takes its own away, and all go when a placement is lost. -/
def fly (state : ProgramSchedulerState F T) (event : Event F) (next : ProgramSchedulerState F T)
    (flights : ProgramRef → List ProgramDispatch) : ProgramRef → List ProgramDispatch :=
  match event with
  | .claim handle now =>
    match (ProgramScheduler.claimDispatch state handle now).1 with
    | none => flights
    | some dispatch =>
      Function.update flights dispatch.program (flights dispatch.program ++ [dispatch])
  | .complete dispatch _ _ usage _ _ =>
    if state.Accepts dispatch usage then
      Function.update flights dispatch.program ((flights dispatch.program).erase dispatch)
    else flights
  | .sync _ => fun program =>
    if state.runtime.placement program ≠ none ∧ next.runtime.placement program = none then []
    else flights program
  | _ => flights

/-- A run with the requests in flight, each section from a state that permits it. -/
inductive FlightRun (setup : Setup F)
    (permits : ProgramSchedulerState F T → (ProgramRef → List ProgramDispatch) → Event F → Prop) :
    List (Event F × Output F) → (ProgramRef → List ProgramDispatch) → ProgramSchedulerState F T →
      Prop where
  | start : FlightRun setup permits [] (fun _ => []) (.new setup.config)
  | next {trace : List (Event F × Output F)} {flights : ProgramRef → List ProgramDispatch}
      {state next : ProgramSchedulerState F T} {event : Event F} {output : Output F}
      (order : IterationOrder) (run : FlightRun setup permits trace flights state)
      (permitted : permits state flights event)
      (stepped : (setup.scheduler order).step state event = .ok (output, next)) :
      FlightRun setup permits (trace ++ [(event, output)]) (fly state event next flights) next

variable {setup : Setup F} {trace : List (Event F × Output F)}

theorem FlightRun.run {permits : ProgramSchedulerState F T →
      (ProgramRef → List ProgramDispatch) → Event F → Prop}
    (flown : FlightRun setup permits trace flights state) : Run setup trace state := by
  induction flown with
  | start => exact .start
  | next _ _ _ stepped ih => exact ih.next _ stepped

end Outstanding

section Sections

variable [AffinityTree T]

/-- The section leaves no hint to restore. A completion is of the last
outstanding request with a hint; a cancelled request was not the latest, or what
is left declares the same, or its Program goes with it; and a Program with
nothing waiting does not lose its placement while its latest request in flight
has a hint. -/
def KeepsLatest (state : ProgramSchedulerState F T) (flights : ProgramRef → List ProgramDispatch) :
    Event F → Prop
  | .complete dispatch _ _ usage _ _ => state.Accepts dispatch usage →
      latestHint (state.waiting dispatch.program) ((flights dispatch.program).erase dispatch) = none
  | .cancel handle _ _ _ => ∀ position,
      (state.waiting handle.program).findIdx? (fun request => request.id == handle.requestId) =
          some position →
        latestHint ((state.waiting handle.program).eraseIdx position) (flights handle.program) =
            latestHint (state.waiting handle.program) (flights handle.program) ∨
          (state.waiting handle.program).length = 1 ∧ state.Unserved handle.program
  | .sync pool => ∀ program target, state.runtime.placement program = some target →
      target ∈ state.core.lost pool → state.waiting program = [] →
        latestHint [] (flights program) = none
  | _ => True

omit [AffinityTree T] in
theorem Commits.accounts {middle : ProgramSchedulerState F T} {globalMode : Bool}
    (taken : Commits self middle next) (inv : middle.Inv globalMode) :
    ∀ program account, next.books.account program = some account →
      middle.books.account program = some account := by
  refine taken.keeps (fun last => ∀ program account, last.books.account program = some account →
    middle.books.account program = some account) inv ?_ fun _ _ known => known
  intro _ _ _ commit kept _ account known
  exact kept _ account (commit.accounts known)

theorem Section.fly_sync {pool : PoolSnapshot} (taken : Section self state (.sync pool) next)
    (inv : state.Inv self.config.globalQueue) (after : next.Inv self.config.globalQueue)
    (keeps : KeepsLatest state flights (.sync pool : Event F)) {program : ProgramRef} :
    latestHint (state.waiting program) (fly state (.sync pool) next flights program) =
      latestHint (state.waiting program) (flights program) := by
  simp only [fly]
  split
  · rename_i ends
    obtain ⟨target, placed⟩ := Option.ne_none_iff_exists'.mp ends.1
    have lost : target ∈ state.core.lost pool := by
      by_contra kept
      cases taken with
      | synced _ next core =>
        have same : next.runtime.placement program = state.runtime.placement program :=
          congrArg (fun core : Core => core.runtime.placement _) core
        rw [same] at ends
        exact ends.1 ends.2
      | replaced _ next _ books =>
        rw [← seat_eq_placement inv] at placed
        have stays : next.runtime.seat program = some target :=
          books.stays _ _ placed kept
        rw [seat_eq_placement after, ends.2] at stays
        cases stays
    cases empty : state.waiting program with
    | nil => exact (keeps _ _ placed lost empty).symm
    | cons =>
      rw [latestHint, latestHint, List.getLast?_eq_getLast_of_ne_nil (List.cons_ne_nil _ _)]
  · rfl

omit [AffinityTree T] in
theorem ProgramScheduler.completedRequests_accountCancellation (runtime : ProgramRuntime)
    (program : ProgramRef) (pausedAt : Instant) :
    (((self.accountCancellation state { state with runtime := runtime } program
      pausedAt).decisions.lookup program).map (·.completedRequests)) =
        (state.decisions.lookup program).map (·.completedRequests) := by
  rcases self.accountCancellation_cases state program pausedAt with same | ⟨_, _, refunded⟩
  · rw [same]
  · rw [refunded]
    simp only [modifyDecision]
    rw [Table.lookup_modify, if_pos rfl, Option.map_map]
    rfl

variable {program : ProgramRef} {record : RuntimeProgram}

omit [AffinityTree T] in
theorem ProgramScheduler.releaseProgram_forgets
    (quiet : Quiet state program) (found : state.runtime.find program = some record)
    {now : Instant} : (self.releaseProgram state program now).books.account program = none := by
  obtain ⟨_, released⟩ := quiet.releases now found
  simp only [releaseProgram, released]
  rw [books_eraseDecision]
  exact update_self _ _ _

variable {runtime : ProgramRuntime} {handle : ProgramRequestHandle}

theorem ProgramRuntime.cancelRequest_quiet {next : ProgramRuntime}
    (cancels : runtime.cancelRequest handle = some next)
    (only : (runtime.requestPool.queue handle.program).length = 1)
    (idle : ((runtime.find handle.program).any fun record => record.inFlightRequests == 0) = true) :
    ∃ record, next.find handle.program = some record ∧ record.inFlightRequests = 0 ∧
      next.requestPool.queue handle.program = [] := by
  obtain ⟨waiting, position, stored, located, finds, pool⟩ := Core.cancelRequest_leaves cancels
  rw [RequestPool.queue_eq_of_lookup stored] at only
  have inside : position < waiting.length :=
    (List.findIdx?_eq_some_iff_getElem.mp located).1
  simp only [Option.any_eq_true, beq_iff_eq] at idle
  obtain ⟨record, found, grounded⟩ := idle
  refine ⟨Card.quiesce (waiting.eraseIdx position) record, ?_, ?_, ?_⟩
  · rw [finds, Function.update_self, found, Option.map_some]
  · unfold Card.quiesce
    split
    · split <;> exact grounded
    · exact grounded
  · rw [pool.queue, RequestPool.queue_leaving, if_pos rfl, ← List.length_eq_zero_iff,
      List.length_eraseIdx_of_lt inside, only]

omit [AffinityTree T] in
theorem ProgramScheduler.removeUnstarted_forgets
    (found : state.runtime.find program = some record) (idle : record.inFlightRequests = 0)
    (empty : state.runtime.requestPool.queue program = [])
    (unserved : ((state.decisions.lookup program).any fun decision =>
      decision.completedRequests == 0) = true) (releasedAt : Instant) :
    (self.removeUnstarted state program releasedAt).books.account program = none := by
  have exact : record.reference = program := (ProgramRuntime.find_eq_some.mp found).2
  have quiet : ((state.runtime.view program).any fun view =>
      view.inFlightRequests == 0 && view.waitingRequests == 0) = true := by
    simp [ProgramRuntime.view, found, idle, exact, RequestPool.programLen, empty]
  have released : (self.removeUnstarted state program releasedAt) =
      self.releaseProgram (if (state.runtime.view program).any fun view =>
        decide (0 < view.waitingRequests) then state else state.dequeue program) program
          releasedAt := by
    unfold removeUnstarted
    rw [if_pos ⟨quiet, unserved⟩]
  have quietly : Quiet state program := by
    intro _ stored
    rw [found] at stored
    cases stored
    exact ⟨idle, empty⟩
  rw [released]
  split
  · exact releaseProgram_forgets quietly found
  · have dequeued : Quiet (state.dequeue program) program := quietly
    have same : (state.dequeue program).runtime.find program = some record := found
    exact releaseProgram_forgets dequeued same

omit [AffinityTree T] in
theorem ProgramScheduler.cancelRetainedRequest_forgets (inv : state.Inv self.config.globalQueue)
    {pausedAt releasedAt scheduledAt : Instant}
    (cancels : state.runtime.cancelRequest handle = some runtime)
    (only : (state.waiting handle.program).length = 1) (unserved : state.Unserved handle.program) :
    Returns (self.cancelRetainedRequest state handle pausedAt releasedAt scheduledAt) fun result =>
      result.2.books.account handle.program = none := by
  obtain ⟨_, found, idle, empty⟩ :=
    ProgramRuntime.cancelRequest_quiet cancels only unserved.1
  have releases : Commits self (self.cancelledState state runtime handle.program pausedAt) _ :=
    self.removeUnstarted_commits runtime handle.program pausedAt releasedAt
  have left := releases.inv (self.cancelledState_inv inv cancels pausedAt)
  have kept := @accountCancellation_runtime _ _ state _ self runtime handle.program pausedAt
  have still : (((self.accountCancellation state { state with runtime := runtime } handle.program
      pausedAt).decisions.lookup handle.program).any fun decision =>
        decision.completedRequests == 0) = true := by
    have served := congrArg (Option.any (· == 0))
      (@completedRequests_accountCancellation _ _ _ self state runtime handle.program pausedAt)
    rw [Option.any_map, Option.any_map] at served
    exact served.trans unserved.2
  have forgotten : (self.removeUnstarted (self.accountCancellation state
      { state with runtime := runtime } handle.program pausedAt) handle.program
        releasedAt).books.account handle.program = none :=
    removeUnstarted_forgets (by rw [kept, found]) idle (by rw [kept, empty]) still releasedAt
  unfold cancelRetainedRequest
  rw [cancels]
  apply Ensures.bind (self.scheduleWaiting_commits left scheduledAt)
  intro next scheduled
  apply Ensures.pure
  cases known : next.books.account handle.program with
  | none => rfl
  | some =>
    rw [scheduled.accounts left _ _ known] at forgotten
    cases forgotten

theorem ProgramScheduler.step_reserved {event : Event F} {output : Output F}
    (sound : self.Sound state) (after : next.Inv self.config.globalQueue)
    (stepped : self.step state event = .ok (output, next)) (keeps : KeepsLatest state flights event)
    (reserved : Reserved flights state) : Reserved (fly state event next flights) next := by
  rw [reserved_iff_accounts] at reserved ⊢
  intro program account known
  have taken := step_section sound stepped
  obtain ⟨middle, ⟨inv, opening, _, _⟩, decides, _⟩ := taken.opens sound.inv after
  have entered := decides.accounts inv program _ known
  rw [(decides.schedules inv).waiting inv]
  generalize accounts_eq : middle.books.account = accounts at opening entered
  generalize waiting_eq : middle.waiting = waiting at opening
  cases opening with
  | plain event plain =>
    rw [reserved program account entered]
    cases event with
    | sync => exact (taken.fly_sync sound.inv after keeps).symm
    | expire | tick | beginObservation | applyObservations | evict => rfl
    | arrive | claim | cancel | complete => exact plain.elim
  | arrived _ _ arriving _ _ hints =>
    by_cases same : program = arriving
    · subst same
      rw [update_self] at entered ⊢
      cases entered
      rw [latestHint_arrive, hints]
      unfold Account.arriving
      split <;> rfl
    · rw [update_of_ne same] at entered ⊢
      exact reserved _ account entered
  | unclaimed _ _ refused =>
    simp only [fly, refused]
    exact reserved _ account entered
  | claimed handle _ _ _ _ issued own hints front =>
    simp only [fly, issued]
    rw [own]
    by_cases same : program = handle.program
    · subst same
      rw [update_self, update_self, latestHint_dispatch hints, ← front]
      exact reserved _ account entered
    · rw [update_of_ne same, update_of_ne same]
      exact reserved _ account entered
  | uncancelled =>
    exact reserved _ account entered
  | cancelled handle pausedAt releasedAt scheduledAt _ cancels position located =>
    by_cases same : program = handle.program
    · subst same
      rw [update_self]
      rcases keeps position located with kept | ⟨only, unserved⟩
      · exact (reserved _ account entered).trans kept.symm
      · have forgets : Returns (self.step state (.cancel handle pausedAt releasedAt scheduledAt))
            fun result => result.2.books.account handle.program = none := by
          apply Ensures.bind (cancelRetainedRequest_forgets sound.inv cancels only unserved)
          rintro ⟨_, _⟩ forgotten
          exact Ensures.pure forgotten
        rw [forgets.ok_of stepped] at known
        cases known
    · rw [update_of_ne same]
      exact reserved _ account entered
  | stale _ _ _ _ _ _ refused =>
    simp only [fly, if_neg refused]
    exact reserved _ account entered
  | completed dispatch _ _ _ _ _ _ accepted freed =>
    simp only [fly, if_pos accepted]
    by_cases same : program = dispatch.program
    · subst same
      rw [update_self] at entered ⊢
      cases entered
      exact freed.trans (keeps accepted).symm
    · rw [update_of_ne same] at entered ⊢
      exact reserved _ account entered

/-- In every run whose sections leave no hint to restore, a Program reserves what
the latest of its outstanding requests declares, and nothing without one. -/
theorem run_reserved {setup : Setup F} {trace : List (Event F × Output F)}
    (flown : FlightRun setup KeepsLatest trace flights state) : Reserved flights state := by
  induction flown with
  | start => exact fun _ _ decided => nomatch decided
  | next order flown permitted stepped ih =>
    have after := (flown.run.next _ stepped).sound order
    exact ProgramScheduler.step_reserved (flown.run.sound _) after.inv stepped permitted ih

end Sections

namespace Sample

abbrev Flights : Type := ProgramRef → List ProgramDispatch

/-- Run sections and follow the requests in flight, as long as each passes the
check. -/
def playFlights (setup : Setup Exact) (check : State → Flights → Event Exact → Bool)
    (events : List (Event Exact)) (trace : List (Event Exact × Output Exact)) (flights : Flights)
    (state : State) : Option (List (Event Exact × Output Exact) × Flights × State) :=
  match events with
  | [] => some (trace, flights, state)
  | event :: rest =>
    if check state flights event then
      match (setup.scheduler .filled).step state event with
      | .ok (output, next) =>
        playFlights setup check rest (trace ++ [(event, output)]) (fly state event next flights) next
      | .error _ => none
    else none

theorem flightRun_of_play {setup : Setup Exact} {check : State → Flights → Event Exact → Bool}
    {permits : State → Flights → Event Exact → Prop}
    (checked : ∀ state flights event, check state flights event = true → permits state flights event)
    {events : List (Event Exact)} {trace longer : List (Event Exact × Output Exact)}
    {flights ended : Flights} {state last : State} (flown : FlightRun setup permits trace flights state)
    (played : playFlights setup check events trace flights state = some (longer, ended, last)) :
    FlightRun setup permits longer ended last := by
  induction events generalizing state trace flights with
  | nil =>
    cases played
    exact flown
  | cons _ _ ih =>
    unfold playFlights at played
    split at played
    · rename_i passed
      split at played
      · exact ih (flown.next .filled (checked _ _ _ passed) ‹_›) played
      · cases played
    · cases played

def firstDispatch (expectedOutputTokens : Nat) : ProgramDispatch :=
  ⟨⟨"pool", "program", 0⟩, "target", 1, 1, 2, 1, true, none,
    { expectedOutputTokens := some expectedOutputTokens }⟩

end Sample

/-- A request that declares five tokens is in flight and one that declares seven
waits. The first completes and leaves nothing reserved for the second. -/
theorem run_reserved_fails :
    ∃ (trace : _) (flights : Sample.Flights) (state : Sample.State),
      FlightRun (Sample.router false false) (fun _ _ _ => True) trace flights state ∧
        ¬ Reserved flights state := by
  have played : (playFlights (router false false) (fun _ _ _ => true)
      [.sync (snapshot 0 "pool" ["target"]),
        .arrive (hinted (arrival "pool" "program" 1) 5) 1,
        .claim ⟨⟨"pool", "program", 0⟩, 1, 0⟩ 2,
        .arrive (hinted (arrival "pool" "program" 3) 7) 3,
        .complete (firstDispatch 5) true false {} none 4]
      [] (fun _ => []) (.new (config false false))).map (fun played =>
        ((played.2.2.decisions.lookup ⟨"pool", "program", 0⟩).map (·.outputTokenReservation),
          latestHint (played.2.2.waiting ⟨"pool", "program", 0⟩)
            (played.2.1 ⟨"pool", "program", 0⟩))) = some (some none, some 7) := by
    decide +kernel
  obtain ⟨⟨trace, flights, state⟩, reached, seen⟩ := Option.map_eq_some_iff.mp played
  simp only [Prod.mk.injEq] at seen
  obtain ⟨decided, latest⟩ := seen
  obtain ⟨decision, stored, empty⟩ := Option.map_eq_some_iff.mp decided
  refine ⟨trace, flights, state, flightRun_of_play (fun _ _ _ _ => trivial) .start reached, ?_⟩
  intro reserved
  have held := reserved _ decision stored
  rw [empty, latest] at held
  cases held

/-- One request at a time: the reservation goes with its request. -/
theorem run_reserved_completed :
    ∃ (trace : _) (flights : Sample.Flights) (state : Sample.State),
      FlightRun (Sample.router false false) KeepsLatest trace flights state ∧
        (state.decisions.lookup ⟨"pool", "program", 0⟩).map (·.outputTokenReservation) =
          some (some 7) ∧ Reserved flights state := by
  have played : ((playFlights (router false false) (fun state flights event => match event with
        | .sync pool => (state.core.lost pool).isEmpty
        | .complete dispatch _ _ _ _ _ =>
          (latestHint (state.waiting dispatch.program)
            ((flights dispatch.program).erase dispatch)).isNone
        | .cancel _ _ _ _ => false
        | _ => true)
      [.sync (snapshot 0 "pool" ["target"]),
        .arrive (hinted (arrival "pool" "program" 1) 5) 1,
        .claim ⟨⟨"pool", "program", 0⟩, 1, 0⟩ 2,
        .complete (firstDispatch 5) true false {} none 3,
        .arrive (hinted (arrival "pool" "program" 4) 7) 4]
      [] (fun _ => []) (.new (config false false))).map (fun played =>
        (played.2.2.decisions.lookup ⟨"pool", "program", 0⟩).map (·.outputTokenReservation))) =
          some (some (some 7)) := by
    decide +kernel
  obtain ⟨⟨trace, flights, state⟩, reached, seen⟩ := Option.map_eq_some_iff.mp played
  have flown : FlightRun (router false false) KeepsLatest trace flights state := by
    refine flightRun_of_play ?_ .start reached
    intro state flights event passed
    cases event with
    | sync =>
      intro _ _ _ lost
      rw [List.isEmpty_iff.mp passed] at lost
      cases lost
    | complete => exact fun _ => Option.isNone_iff_eq_none.mp passed
    | cancel => cases passed
    | _ => trivial
  exact ⟨trace, flights, state, flown, seen, run_reserved flown⟩

end SmetricRouter.ProgramScheduling
