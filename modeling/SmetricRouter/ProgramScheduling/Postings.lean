import SmetricRouter.ProgramScheduling.RunInvariants

/-! What the sections of the scheduler enter into the books.

Scheduling decisions post admissions, vacated seats and closed accounts. The
sections around them change one account and charge the difference, or change
nothing in the books at all.
-/

namespace SmetricRouter.ProgramScheduling

open ProgramSchedulerState ProgramRuntime Function ProgramScheduler

variable {F T : Type} [F64 F] {self : ProgramScheduler F} {globalMode : Bool}
  {state next : ProgramSchedulerState F T}

abbrev Posts (weigh : Account → F) : Books F → Books F → Prop :=
  Relation.ReflTransGen (Posting weigh)

variable {weigh : Account → F} {books : Books F}

theorem Posts.seats {next : Books F} (posted : Posts weigh books next) :
    books.admissions.length < next.admissions.length ∨
      (next.admissions = books.admissions ∧
        ∀ program target, next.seat program = some target → books.seat program = some target) := by
  induction posted with
  | refl => exact .inr ⟨rfl, fun _ _ sits => sits⟩
  | tail _ posted ih =>
    cases posted with
    | seat =>
      simp only [Books.record, Books.charge, Books.place, List.length_append, List.length_singleton]
      refine .inl (Nat.lt_succ_of_le ?_)
      exact ih.elim le_of_lt fun before => (congrArg List.length before.1).ge
    | vacate program =>
      refine ih.imp_right fun before => ⟨before.1, fun other place sits => before.2 _ _ ?_⟩
      simp only [Books.charge, Books.place] at sits
      by_cases same : other = program
      · rw [same, update_self] at sits
        cases sits
      · rwa [update_of_ne same] at sits
    | enroll | regrade => exact ih

theorem Posts.unseating {next : Books F} (posted : Posts weigh books next)
    (unrecorded : next.admissions = books.admissions) (program : ProgramRef) (target : String)
    (sits : next.seat program = some target) : books.seat program = some target := by
  rcases posted.seats with more | ⟨_, seats⟩
  · exact absurd (congrArg List.length unrecorded) more.ne'
  · exact seats _ _ sits

section Waiting

omit [F64 F]

def ProgramSchedulerState.waiting (state : ProgramSchedulerState F T) (program : ProgramRef) :
    List PendingProgramRequest := state.runtime.requestPool.queue program

variable {reference : ProgramRef} {card after : Card} {label : Label}

theorem CardStep.requests_scheduling
    (stepped : CardStep globalMode reference card label after) (allowed : label.scheduling) :
    after.requests = card.requests := by
  cases stepped with
  | stay | activate | pause | release => rfl
  | arrivePlaced | arriveHomeless | arriveQueued | unmark | dispatch | complete | cancel | extend
  | failOver | shrink | lose => exact allowed.elim

theorem CardStep.requests_syncing {pool : String} {removed : List String}
    (stepped : CardStep globalMode reference card label after)
    (allowed : label.syncing pool removed) : after.requests = card.requests := by
  cases stepped with
  | stay | extend => rfl
  | failOver => exact (Card.failOver_fields _ _ _ _ _).2.1
  | arrivePlaced | arriveHomeless | arriveQueued | activate | pause | unmark | dispatch | complete
  | cancel | release | shrink | lose => exact allowed.elim

theorem Schedules.waiting (taken : Schedules globalMode state next) (inv : state.Inv globalMode) :
    next.waiting = state.waiting := by
  funext program
  refine taken.evolves.keeps_card (fun card => card.requests = state.waiting _) inv _ ?_ rfl
  intro _ _ _ allowed _ stepped same
  exact (stepped.requests_scheduling allowed).trans same

end Waiting

variable {program : ProgramRef} {decision : ProgramDecisionState F} {runtime : ProgramRuntime}
  {now : Instant}

section Commits

theorem ProgramScheduler.commitAdmission_books {target : String} (plan : RankAdmissionPlan F)
    (now : Instant) (decided : state.decisions.lookup program = some decision)
    (activated : state.runtime.activate program target = some runtime) :
    state.books.seat program = none ∧
      (self.commitAdmission state program target plan now).books =
        ((state.books.place program (some target)).charge target
          (self.weigh decision.account)).record ⟨program, target, plan,
            self.targetUsage (self.commitAdmission state program target plan now) target now⟩ := by
  have kept : ({ state with runtime := runtime }.modifyDecision program
      (admittedDecision target now)).books = books { state with runtime := runtime } :=
    books_modifyDecision_same _ program fun _ => rfl
  have entered : (self.commitAdmission state program target plan now).books =
      (adjustUsage ({ state with runtime := runtime }.modifyDecision program
        (admittedDecision target now)) target (self.privateTokens decision)).books.record
        ⟨program, target, plan,
          self.targetUsage (self.commitAdmission state program target plan now) target now⟩ := by
    simp only [commitAdmission, decided, activated]
    rfl
  rw [entered, books_adjustUsage, kept]
  obtain ⟨record, found, paused, _, rfl⟩ := activate_some activated
  obtain ⟨_, rfl⟩ := find_eq_some.mp found
  constructor
  · refine (seat_of_find found).trans ?_
    simp [RuntimeProgram.seat, paused]
  · refine Books.ext ?_ rfl rfl rfl rfl
    exact seat_of_insert (state.runtime.opened record target) rfl (reference_of_find found)

theorem ProgramScheduler.pauseIdle_books {reason : ProgramPauseReason}
    (paused : self.pauseIdle state program reason now = some next) :
    ∃ target decision, state.books.seat program = some target ∧
      state.decisions.lookup program = some decision ∧
      next.books = (state.books.place program none).charge target
        (-self.weigh decision.account) := by
  obtain ⟨target, decision, _, placed, decided, idled, rfl⟩ := self.pauseIdle_eq_some paused
  obtain ⟨record, found, active, _, rfl⟩ := pauseIdle_some idled
  obtain ⟨_, rfl⟩ := find_eq_some.mp found
  refine ⟨target, decision, ?_, decided, ?_⟩
  · refine (seat_of_find found).trans ?_
    simp only [placement, found, Option.bind_some] at placed
    simp [RuntimeProgram.seat, active, placed]
  · rw [books_adjustUsage, books_modifyDecision_same _ record.reference fun _ => by rfl]
    refine Books.ext ?_ rfl rfl rfl rfl
    exact seat_of_insert { record with state := .paused, placement := none } rfl
      (reference_of_find found)

theorem ProgramScheduler.releaseProgram_posts (inv : state.Inv globalMode) (program : ProgramRef)
    (now : Instant) :
    Posts self.weigh state.books (self.releaseProgram state program now).books := by
  cases released : state.runtime.releaseIdle program now with
  | none =>
    rw [self.releaseProgram_of_absent released]
    exact .refl
  | some runtime =>
    obtain ⟨record, found, _, _, runtime_eq⟩ := releaseIdle_some released
    obtain ⟨stored, rfl⟩ := find_eq_some.mp found
    obtain ⟨decision, decided, facts⟩ := inv.decision found
    have known : state.books.account record.reference = some decision.account := by
      simp [books, decided]
    have seat : state.books.seat record.reference = record.seat := seat_of_find found
    have emptied : books { state.dequeue record.reference with runtime := runtime } =
        state.books.place record.reference none :=
      Books.ext (seat_of_erase (by rw [runtime_eq]) stored) rfl rfl rfl rfl
    have unseated : (state.books.place record.reference none).seat record.reference = none :=
      update_self _ _ _
    simp only [releaseProgram, released, view, found, decided, Option.map_some]
    rw [books_eraseDecision]
    cases active : record.state with
    | active =>
      obtain ⟨target, placed⟩ := Option.isSome_iff_exists.mp (facts.activePlaced.mp active)
      have seated : state.books.seat record.reference = some target := by
        rw [seat, RuntimeProgram.seat, if_pos active, placed]
      simp only [Option.filter, beq_self_eq_true, if_true, placed, Option.bind_eq_bind,
        Option.bind_some, Option.pure_def]
      rw [books_adjustUsage, emptied]
      exact .tail (.single (.vacate _ _ _ seated known)) (.enroll _ none unseated)
    | paused =>
      have nowhere : state.books.place record.reference none = state.books := by
        have unplaced : state.books.seat record.reference = none := by
          rw [seat, RuntimeProgram.seat, active]
          exact if_neg (by simp)
        refine Books.ext ?_ rfl rfl rfl rfl
        rw [← unplaced]
        exact update_eq_self _ _
      simp only [Option.filter, reduceCtorEq, beq_iff_eq, if_false, Option.bind_eq_bind,
        Option.bind_none]
      rw [emptied, nowhere]
      rw [nowhere] at unseated
      exact .single (.enroll _ none unseated)

theorem ProgramScheduler.commitAdmission_posts (program : ProgramRef) (target : String)
    (plan : RankAdmissionPlan F) (now : Instant) :
    Posts self.weigh state.books (self.commitAdmission state program target plan now).books := by
  rcases self.commitAdmission_cases program target plan now with
    unchanged | ⟨decision, _, decided, activated⟩
  · rw [unchanged]
  · obtain ⟨unseated, entered⟩ := commitAdmission_books _ now decided activated
    rw [entered]
    refine .single (.seat _ _ decision.account _ unseated ?_)
    simp [books, decided]

theorem Commit.posts (commit : Commit self state next) (inv : state.Inv globalMode) :
    Posts self.weigh state.books next.books := by
  cases commit with
  | resume _ _ _ now => exact commitAdmission_posts _ _ _ now
  | bind _ _ now => exact commitAdmission_posts _ _ _ now
  | pause _ _ _ _ _ paused =>
    obtain ⟨_, decision, seated, decided, entered⟩ := pauseIdle_books paused
    rw [entered]
    refine .single (.vacate _ _ decision.account seated ?_)
    simp [books, decided]
  | release _ now => exact releaseProgram_posts inv _ now
  | note _ remark => rw [remark.noted.books]
  | prune | wake => exact .refl

theorem Commits.posts (taken : Commits self state next) (inv : state.Inv globalMode) :
    Posts self.weigh state.books next.books := by
  refine taken.keeps (fun next => Posts self.weigh state.books next.books) inv ?_ .refl
  intro _ _ kept commit posted
  exact posted.trans (commit.posts kept)

theorem Commit.accounts (commit : Commit self state next) {account : Account}
    (known : next.books.account program = some account) :
    state.books.account program = some account := by
  have admits reference target plan now :
      (self.commitAdmission state reference target plan now).books.account =
        state.books.account := by
    rcases self.commitAdmission_cases reference target plan now with
      unchanged | ⟨_, _, decided, activated⟩
    · rw [unchanged]
    · rw [(commitAdmission_books plan now decided activated).2]
      rfl
  cases commit with
  | resume | bind =>
    rwa [admits] at known
  | pause _ _ _ _ _ paused =>
    obtain ⟨_, _, _, _, entered⟩ := pauseIdle_books paused
    rw [entered] at known
    exact known
  | release reference =>
    unfold releaseProgram at known
    split at known
    · exact known
    · rw [books_eraseDecision] at known
      simp only [Books.setAccount] at known
      by_cases same : program = reference
      · rw [same, update_self] at known
        cases known
      · rw [update_of_ne same] at known
        split at known <;> exact known
  | note _ remark => rwa [remark.noted.books] at known
  | prune | wake => exact known

end Commits

section Completion

namespace ProgramScheduler

variable {dispatch : ProgramDispatch} {usage : ProgramUsageObservation}
  {action : Option CompletionAction} {facts : CompletionFacts F}
  {settled : ProgramSchedulerState F T}

theorem books_markedState (completed : state.runtime.completeRequest dispatch usage = some runtime)
    (terminate : Bool) : (markedState state runtime dispatch terminate).books = state.books := by
  have marked : (markedState state runtime dispatch terminate).books =
      books { state with runtime := runtime } :=
    books_modifyDecision_same _ dispatch.program fun _ => rfl
  rw [marked]
  refine Books.ext ?_ rfl rfl rfl rfl
  obtain ⟨_, found, _, _, rfl⟩ := completeRequest_some completed
  refine seat_of_replace found ?_ ?_ rfl
  · rfl
  · rfl

theorem pauseCompleted_books (program : ProgramRef) (action : Option CompletionAction)
    (now : Instant) :
    Posts self.weigh state.books (self.pauseCompleted state program action now).books ∧
      (self.pauseCompleted state program action now).books.account = state.books.account ∧
      (self.pauseCompleted state program action now).books.admissions = state.books.admissions ∧
      ∀ target, (self.pauseCompleted state program action now).books.seat program = some target →
        state.books.seat program = some target := by
  unfold pauseCompleted
  split
  · rename_i reason
    cases paused : self.pauseIdle state program reason now with
    | none => exact ⟨.refl, rfl, rfl, fun _ seated => seated⟩
    | some =>
      obtain ⟨_, decision, seated, decided, entered⟩ := pauseIdle_books paused
      rw [Option.getD_some, entered]
      refine ⟨.single (.vacate _ _ decision.account seated ?_), rfl, rfl, ?_⟩
      · simp [books, decided]
      · intro _ sits
        simp only [Books.charge, Books.place, update_self, reduceCtorEq] at sits
  · exact ⟨.refl, rfl, rfl, fun _ seated => seated⟩

theorem settleCompletion_posts (inv : state.Inv globalMode) {before : Account}
    (known : state.books.account dispatch.program = some before)
    (seats : ∀ target, state.books.seat dispatch.program = some target → target = dispatch.targetId)
    (settles : self.settleCompletion state dispatch usage facts action (self.weigh before) now =
      .ok settled) :
    Posts self.weigh state.books settled.books ∧
      settled.books.admissions = state.books.admissions ∧
      ∃ after, after.outputTokenReservation = none ∧
        settled.books.account = update state.books.account dispatch.program (some after) := by
  obtain ⟨decision, decided, rfl⟩ := Option.map_eq_some_iff.mp known
  have recorded : (state.modifyDecision dispatch.program
      (recordCompletion dispatch usage facts action now)).books =
      state.books.setAccount dispatch.program
        (some (recordCompletion dispatch usage facts action now decision).account) :=
    books_modifyDecision state decided _
  have noted_decision : (state.modifyDecision dispatch.program
      (recordCompletion dispatch usage facts action now)).decisions.lookup dispatch.program =
      some (recordCompletion dispatch usage facts action now decision) := by
    simp [modifyDecision, Table.lookup_modify, decided]
  have freed : (recordCompletion dispatch usage facts action now
      decision).account.outputTokenReservation = none := rfl
  -- The windows of the target are not in the books.
  have unwindowed : ∀ accounted : ProgramSchedulerState F T, (if facts.success then
        pure { accounted with
          rankFactors := accounted.rankFactors.update dispatch.targetId fun factors =>
            factors.pushRequest (completionSample decision
              (recordCompletion dispatch usage facts action now decision) dispatch usage facts now)
              self.config.progressTtl.statsWindowSize }
      else (pure accounted : Except Fault _)) = .ok settled → settled.books = accounted.books := by
    intro _ written
    split at written <;> cases written <;> rfl
  unfold settleCompletion at settles
  simp only [decided] at settles
  split at settles
  · rename_i active
    simp only [Option.any_eq_true, beq_iff_eq] at active
    obtain ⟨view, seen, active⟩ := active
    obtain ⟨record, found, state_eq, _⟩ := view_some seen
    have stored : state.runtime.find dispatch.program = some record := found
    obtain ⟨_, _, facts⟩ := inv.decision stored
    obtain ⟨target, placed⟩ :=
      Option.isSome_iff_exists.mp (facts.activePlaced.mp (state_eq.trans active))
    have seated : state.books.seat dispatch.program = some target := by
      refine (seat_eq_placement inv dispatch.program).trans ?_
      simp [placement, stored, placed]
    rw [decisionAt_of noted_decision] at settles
    rw [unwindowed _ settles, books_adjustUsage, recorded, ← seats target seated]
    exact ⟨.single (.regrade _ target _ _ seated known), rfl, _, freed, rfl⟩
  · rename_i idle
    have unseated : state.books.seat dispatch.program = none := by
      cases sits : state.books.seat dispatch.program with
      | none => rfl
      | some =>
        obtain ⟨record, found, seat⟩ := Option.bind_eq_some_iff.mp sits
        refine absurd ?_ idle
        have active : record.state = .active := by
          by_contra paused
          rw [RuntimeProgram.seat, if_neg paused] at seat
          cases seat
        have viewed : state.runtime.find dispatch.program = some record := found
        simp [modifyDecision, view, viewed, active]
    rw [unwindowed _ settles, recorded]
    exact ⟨.single (.enroll _ _ unseated), rfl, _, freed, rfl⟩

theorem Completes.settled_posts {terminate : Bool}
    (completes : self.Completes state dispatch terminate usage now next runtime decision facts action
      settled) (inv : state.Inv globalMode) :
    settled.Inv globalMode ∧ settled.waiting = state.waiting ∧
      Posts self.weigh state.books settled.books ∧
      settled.books.admissions = state.books.admissions ∧
      ∃ after, after.outputTokenReservation = none ∧
        settled.books.account = update state.books.account dispatch.program (some after) := by
  have markedInv : (markedState state runtime dispatch terminate).Inv globalMode :=
    completes.moved.inv inv
  have settling := completes.schedules inv
  have pausing := self.pauseCompleted_commits now completes.pauses
  have marked_books := books_markedState completes.completed terminate
  obtain ⟨paused, accounts, unrecorded, seats⟩ :
      Posts self.weigh (markedState state runtime dispatch terminate).books _ ∧ _ :=
    pauseCompleted_books dispatch.program action now
  rw [marked_books] at paused accounts unrecorded seats
  have known : (self.pauseCompleted (markedState state runtime dispatch terminate)
      dispatch.program action now).books.account dispatch.program = some decision.account := by
    rw [accounts]
    simp [books, completes.decided]
  have settles := settleCompletion_posts (pausing.inv markedInv) known ?_ completes.settles
  · obtain ⟨posted, kept, after, freed, entered⟩ := settles
    refine ⟨settling.inv markedInv, ?_, paused.trans posted, kept.trans unrecorded, after, freed, ?_⟩
    · rw [settling.waiting markedInv]
      obtain ⟨_, _, _, _, runtime_is⟩ := completeRequest_some completes.completed
      rw [runtime_is]
      rfl
    · rw [entered, accounts]
  · intro target sits
    have seated := (seat_eq_placement inv dispatch.program).symm.trans (seats target sits)
    rw [completes.placed, Option.some.injEq] at seated
    exact seated.symm

end ProgramScheduler

end Completion

section Cancellation

theorem Card.quiesce_cases (rest : List PendingProgramRequest) (record : RuntimeProgram) :
    ((Card.quiesce rest record).seat = record.seat ∧
      (Card.quiesce rest record).state = record.state) ∨
    (record.state = .active ∧ (Card.quiesce rest record).seat = none ∧
      (Card.quiesce rest record).state = .paused) := by
  unfold Card.quiesce
  split
  · split
    · rename_i active
      exact .inr ⟨active, rfl, rfl⟩
    · exact .inl ⟨rfl, rfl⟩
  · exact .inl ⟨rfl, rfl⟩

variable {handle : ProgramRequestHandle}

theorem ProgramRuntime.seat_cancelRequest {next : ProgramRuntime}
    (cancelled : runtime.cancelRequest handle = some next) :
    (next.seat = runtime.seat ∧
      (next.view handle.program).map (·.state) = (runtime.view handle.program).map (·.state)) ∨
    ∃ record, runtime.find handle.program = some record ∧ record.state = .active ∧
      next.seat = update runtime.seat handle.program none ∧
      (next.view handle.program).map (·.state) = some .paused := by
  obtain ⟨waiting, position, _, _, finds, _⟩ := Core.cancelRequest_leaves cancelled
  have own := congrFun finds handle.program
  rw [update_self] at own
  have seats : next.seat = update runtime.seat handle.program
      ((next.find handle.program).bind (·.seat)) := by
    funext other
    by_cases same : other = handle.program
    · rw [same, update_self]
      rfl
    · rw [update_of_ne same]
      unfold seat
      rw [finds, update_of_ne same]
  rw [seats]
  unfold view
  cases found : runtime.find handle.program with
  | none =>
    rw [found, Option.map_none] at own
    refine .inl ⟨?_, by rw [own]; rfl⟩
    rw [own, update_eq_self_iff]
    unfold seat
    rw [found]
  | some record =>
    rw [found, Option.map_some] at own
    rw [own]
    rcases Card.quiesce_cases (waiting.eraseIdx position) record with
      ⟨kept, state_eq⟩ | ⟨active, emptied, paused⟩
    · refine .inl ⟨?_, congrArg some state_eq⟩
      rw [Option.bind_some, kept, update_eq_self_iff]
      exact (seat_of_find found).symm
    · refine .inr ⟨record, rfl, active, ?_, congrArg some paused⟩
      rw [Option.bind_some, emptied]

theorem ProgramScheduler.cancelledState_posts (inv : state.Inv globalMode)
    (cancelled : state.runtime.cancelRequest handle = some runtime) (pausedAt : Instant) :
    Posts self.weigh state.books
      (self.cancelledState state runtime handle.program pausedAt).books := by
  have dequeued : (self.cancelledState state runtime handle.program pausedAt).books =
      (self.accountCancellation state { state with runtime := runtime } handle.program
        pausedAt).books := by
    unfold cancelledState
    split <;> rfl
  rw [dequeued]
  rcases seat_cancelRequest cancelled with
    ⟨seats, states⟩ | ⟨_, found, active, seats, paused⟩
  · have unaccounted : self.accountCancellation state { state with runtime := runtime }
        handle.program pausedAt = { state with runtime := runtime } := by
      refine self.accountCancellation_keeps (fun _ after seen left active paused => ?_) _
      rw [seen, show runtime.view handle.program = some after from left, Option.map_some,
        Option.map_some, paused, active] at states
      cases states
    have same : books { state with runtime := runtime } = state.books := Books.ext seats rfl rfl rfl rfl
    rw [unaccounted, same]
  · obtain ⟨decision, decided, facts⟩ := inv.decision found
    obtain ⟨target, placed⟩ := Option.isSome_iff_exists.mp (facts.activePlaced.mp active)
    have last : decision.lastTarget = some target := facts.placedLast _ placed
    have known : state.books.account handle.program = some decision.account := by
      simp [books, decided]
    have seated : state.books.seat handle.program = some target := by
      refine (seat_of_find found).trans ?_
      rw [RuntimeProgram.seat, if_pos active, placed]
    obtain ⟨_, seen, paused⟩ := Option.map_eq_some_iff.mp paused
    obtain ⟨_, left, unchanged, _⟩ := view_some seen
    have refunded := self.accountCancellation_refunds found active left (unchanged.trans paused)
      decided last pausedAt
    have kept : ((adjustUsage { state with runtime := runtime } target
        (-self.privateTokens decision)).modifyDecision handle.program
          (cancelledDecision pausedAt)).books = _ :=
      books_modifyDecision_same _ handle.program fun _ => rfl
    rw [refunded, kept, books_adjustUsage]
    have emptied : books { state with runtime := runtime } =
        state.books.place handle.program none := Books.ext seats rfl rfl rfl rfl
    rw [emptied]
    exact .single (.vacate handle.program _ decision.account seated known)

end Cancellation

section Claim

variable [AffinityTree T]

theorem ProgramScheduler.claimDispatch_books (inv : state.Inv globalMode)
    (handle : ProgramRequestHandle) (now : Instant) :
    (claimDispatch state handle now).2.books = state.books := by
  cases placed : state.runtime.placement handle.program with
  | none => rw [claimDispatch_unplaced now placed]
  | some target =>
    obtain ⟨record, found, placement⟩ := Option.bind_eq_some_iff.mp placed
    have active : record.state = .active := inv.placement_active placed _ found
    have seats : (state.runtime.admitFront handle target now).2.seat = state.runtime.seat := by
      rw [admitFront_active now found active placement]
      exact seat_dispatchFront found
    obtain ⟨_, claimed, _⟩ := claimDispatch_placed now placed
    rw [claimed]
    exact Books.ext seats rfl rfl rfl rfl

end Claim

section Sync

/-- Seats and meters may go with lost targets; every account and record stays. -/
structure Books.Loses (books : Books F) (lost : List String) (next : Books F) : Prop where
  account : next.account = books.account
  admissions : next.admissions = books.admissions
  seat : ∀ program target, next.seat program = some target → books.seat program = some target
  stays : ∀ program target, books.seat program = some target → target ∉ lost →
    next.seat program = some target
  nothing : lost = [] → next = books

variable {lost : List String}

omit [F64 F] in
theorem Books.Loses.refl : books.Loses lost books :=
  ⟨rfl, rfl, fun _ _ sits => sits, fun _ _ sits _ => sits, fun _ => rfl⟩

omit [F64 F] in
theorem Books.Loses.trans {next last : Books F}
    (first : books.Loses lost next) (second : next.Loses lost last) : books.Loses lost last where
  account := second.account.trans first.account
  admissions := second.admissions.trans first.admissions
  seat program target sits := first.seat program target (second.seat program target sits)
  stays program target sits kept :=
    second.stays program target (first.stays program target sits kept) kept
  nothing none_lost := (second.nothing none_lost).trans (first.nothing none_lost)

variable [AffinityTree T]

theorem ProgramRuntime.seat_invalidatePlacement {next : ProgramRuntime}
    (invalidated : runtime.invalidatePlacement program lost = some next) :
    next.seat = update runtime.seat program none ∧ lost ≠ [] ∧
      ∀ target, runtime.seat program = some target → target ∈ lost := by
  obtain ⟨record, _, found, placed, gone, next_is⟩ := invalidatePlacement_some invalidated
  obtain ⟨_, rfl⟩ := find_eq_some.mp found
  have vacated : ∀ seat, runtime.seat record.reference = some seat → seat ∈ lost := by
    intro seat sits
    rw [seat_of_find found, RuntimeProgram.seat] at sits
    split at sits
    · rw [placed] at sits
      cases sits
      exact gone
    · cases sits
  refine ⟨?_, List.ne_nil_of_mem gone, vacated⟩
  rw [next_is]
  exact seat_of_insert (runtime.evicted record) rfl (reference_of_find found)

namespace ProgramScheduler

variable (pool : String)

omit [AffinityTree T] in
theorem books_installTargets (targets : List ProgramTarget) :
    (installTargets state pool targets).books = state.books := by
  refine Books.ext rfl rfl ?_ rfl rfl
  funext target
  simp only [books, installTargets]
  rw [Table.lookup_foldl_orDefault]
  split
  · cases state.observations.lookup target <;> rfl
  · rfl

theorem failOver_books (lost : List String) (clock : ProgramRef → FailoverClock)
    (affected : AffectedProgram) :
    Ensures (fun _ => True) (self.failOver pool lost clock state affected) fun next =>
      state.books.Loses lost next.books ∧
        next.targetSnapshotRevision = state.targetSnapshotRevision := by
  have rebound (base : ProgramSchedulerState F T) replacement interrupted :
      (base.modifyDecision affected.program (reboundDecision replacement interrupted
        (clock affected.program).pausedAt)).books = base.books := by
    apply books_modifyDecision_same
    intro _
    unfold reboundDecision
    split <;> rfl
  have invalidated (bindings : ProgramBindings T) :
      state.books.Loses lost (books { ({ state with
        runtime := (state.runtime.invalidatePlacement affected.program lost).getD state.runtime
        bindings := state.bindings.releaseProgram affected.program } :
          ProgramSchedulerState F T).dequeue affected.program with bindings := bindings }) := by
    cases ended : state.runtime.invalidatePlacement affected.program lost with
    | none => exact .refl
    | some runtime =>
      obtain ⟨seats, some_lost, vacated⟩ := seat_invalidatePlacement ended
      refine ⟨rfl, rfl, ?_, ?_, fun none_lost => absurd none_lost some_lost⟩
      · intro program target sits
        have seated : runtime.seat program = some target := sits
        rw [seats] at seated
        by_cases same : program = affected.program
        · rw [same, update_self] at seated
          cases seated
        · rw [update_of_ne same] at seated
          exact seated
      · intro program target sits kept
        have different : program ≠ affected.program := by
          rintro rfl
          exact kept (vacated target sits)
        have seated : runtime.seat program = some target := by
          rw [seats, update_of_ne different]
          exact sits
        exact seated
  apply Ensures.bind (Ensures.unclaimed _)
  rintro ⟨_, bindings⟩ _
  simp only
  split
  · obtain ⟨_, _, requeued⟩ := self.requeue_eq _ _ _
    rw [requeued]
    exact ⟨(congrArg (state.books.Loses lost) (rebound _ _ _)).mpr (invalidated bindings), rfl⟩
  · apply Ensures.pure
    rw [rebound]
    exact ⟨invalidated bindings, rfl⟩

theorem removeTargets_books (lost : List String) :
    state.books.Loses lost (lost.foldl (removeTarget pool) state).books ∧
      (lost.foldl (removeTarget pool) state).targetSnapshotRevision =
        state.targetSnapshotRevision := by
  have kept : (lost.foldl (removeTarget pool) state).books.account = state.books.account ∧
      (lost.foldl (removeTarget pool) state).books.admissions = state.books.admissions ∧
      (lost.foldl (removeTarget pool) state).books.seat = state.books.seat ∧
      (lost.foldl (removeTarget pool) state).targetSnapshotRevision =
        state.targetSnapshotRevision := by
    apply foldl_invariant (fun _ (next : ProgramSchedulerState F T) =>
      next.books.account = state.books.account ∧ next.books.admissions = state.books.admissions ∧
        next.books.seat = state.books.seat ∧
        next.targetSnapshotRevision = state.targetSnapshotRevision) ⟨rfl, rfl, rfl, rfl⟩
    intro target _ _ same
    exact same
  obtain ⟨accounts, admissions, seats, revision⟩ := kept
  refine ⟨⟨accounts, admissions, fun _ _ sits => ?_, fun _ _ sits _ => ?_,
    fun none_lost => ?_⟩, revision⟩
  · rw [← seats]
    exact sits
  · rw [seats]
    exact sits
  · rw [none_lost]
    rfl

theorem replaceTargets_books {pool : String} {targets : List ProgramTarget}
    (clock : ProgramRef → FailoverClock) :
    Ensures (fun _ => True) (self.replaceTargets state pool targets clock) fun next =>
      state.books.Loses ((state.poolTargets pool).filter (· ∉ incomingIds targets)) next.books ∧
        next.targetSnapshotRevision = state.targetSnapshotRevision := by
  unfold replaceTargets
  simp only
  generalize (state.poolTargets pool).filter (· ∉ incomingIds targets) = lost
  have cleaned : state.books.Loses lost
      (lost.foldl (removeTarget pool) (installTargets state pool targets)).books ∧
      (lost.foldl (removeTarget pool) (installTargets state pool targets)).targetSnapshotRevision =
        state.targetSnapshotRevision := by
    rw [← books_installTargets pool targets]
    exact removeTargets_books _ lost
  generalize lost.foldl (removeTarget pool) (installTargets state pool targets) = middle at cleaned ⊢
  have failing : Ensures (fun _ => True)
      ((self.affectedPrograms middle pool (incomingIds targets) lost).foldlM
        (self.failOver pool lost clock) middle)
      fun next => state.books.Loses lost next.books ∧
        next.targetSnapshotRevision = state.targetSnapshotRevision := by
    apply Ensures.foldlM fun _ (next : ProgramSchedulerState F T) =>
      state.books.Loses lost next.books ∧
        next.targetSnapshotRevision = state.targetSnapshotRevision
    · exact cleaned
    · rintro _ _ _ ⟨loses, revision⟩
      refine Ensures.mono (failOver_books _ lost _ _) ?_
      rintro _ ⟨step, same⟩
      exact ⟨loses.trans step, same.trans revision⟩
  exact Ensures.bind failing fun _ loses => Ensures.pure loses

end ProgramScheduler

end Sync

end SmetricRouter.ProgramScheduling
