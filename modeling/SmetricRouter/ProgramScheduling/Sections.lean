import SmetricRouter.ProgramScheduling.History
import SmetricRouter.ProgramScheduling.Postings

/-! Sections cut where their scheduling decisions begin.

A transition of the machine says what a section does to Programs and queues.
Here the state before the decisions is kept as a whole, with its books and its
target list, so that a fact about either is followed through every commit.
-/

namespace SmetricRouter.ProgramScheduling

open ProgramSchedulerState Function Ensures ProgramScheduler RequestPool

variable {F T : Type} [F64 F] {self : ProgramScheduler F} {globalMode : Bool}
  {state next : ProgramSchedulerState F T}

/-- The state between the entry of an arrival and the decisions that follow it. -/
structure Enters (scheduler : ProgramScheduler F) (state : ProgramSchedulerState F T)
    (arrival : Arrival) (middle : ProgramSchedulerState F T) : Prop where
  inv : middle.Inv scheduler.config.globalQueue
  core : ∃ home deadline,
    middle.core = state.core.arrive scheduler.config.globalQueue arrival home deadline
  targets : SameTargets state middle
  books : middle.books = scheduler.arrivedBooks state (state.core.retained arrival).1.program
    (Account.arriving (state.books.account (state.core.retained arrival).1.program)
      arrival.identity arrival.estimatedContextTokens)
  registers : ProgramScheduler.Registers state arrival.identity
    (state.core.retained arrival).1.program arrival.arrivedAt middle

variable [AffinityTree T]

/-- Everything a section can do. -/
inductive Section (self : ProgramScheduler F) (state : ProgramSchedulerState F T) :
    Event F → ProgramSchedulerState F T → Prop where
  | synced (pool next) (core : next.core = state.core) (books : next.books = state.books)
      (targets : SameTargets state next) : Section self state (.sync pool) next
  | replaced (pool next)
      (replaced : ProgramScheduler.Replaced self.config.globalQueue state pool.modelPool
        pool.snapshot.targets next.core)
      (books : state.books.Loses (state.core.lost pool) next.books)
      (revision : next.targetSnapshotRevision = state.targetSnapshotRevision + 1) :
      Section self state (.sync pool) next
  | arrived (arrival : Arrival) (activatedAt : Instant) (middle next : ProgramSchedulerState F T)
      (enters : Enters self state arrival middle) (decides : Commits self middle next)
      (arrived : self.arrivedState state arrival = .ok middle) :
      Section self state (.arrive arrival activatedAt) next
  | claimed (handle now) :
      Section self state (.claim handle now) (ProgramScheduler.claimDispatch state handle now).2
  | expired (now next) (decides : Commits self state next) : Section self state (.expire now) next
  | uncancelled (handle pausedAt releasedAt scheduledAt)
      (absent : state.runtime.cancelRequest handle = none) :
      Section self state (.cancel handle pausedAt releasedAt scheduledAt) state
  | cancelled (handle pausedAt releasedAt scheduledAt runtime next)
      (cancels : state.runtime.cancelRequest handle = some runtime)
      (decides : Commits self (self.cancelledState state runtime handle.program pausedAt) next) :
      Section self state (.cancel handle pausedAt releasedAt scheduledAt) next
  | stale (dispatch success terminate usage decodeSeconds now)
      (refused : state.runtime.placement dispatch.program ≠ some dispatch.targetId ∨
        state.runtime.completeRequest dispatch usage = none) :
      Section self state (.complete dispatch success terminate usage decodeSeconds now) state
  | completed (dispatch : ProgramDispatch) (success terminate : Bool)
      (usage : ProgramUsageObservation) (decodeSeconds : Option F) (now : Instant)
      (runtime : ProgramRuntime) (decision : ProgramDecisionState F) (facts : CompletionFacts F)
      (action : Option CompletionAction) (settled next : ProgramSchedulerState F T)
      (completes : self.Completes state dispatch terminate usage now next runtime decision facts
        action settled)
      (opened : self.settledState state dispatch success terminate usage decodeSeconds now =
        .ok settled) :
      Section self state (.complete dispatch success terminate usage decodeSeconds now) next
  | ticked (now next) (decides : Commits self state next) : Section self state (.tick now) next
  | observed (targets) : Section self state (.beginObservation targets) state
  | applied (epoch observations) :
      Section self state (.applyObservations epoch observations)
        (self.applyObservations state epoch observations)
  | evicted (maxSize) :
      Section self state (.evict maxSize)
        { state with
          bindings := { state.bindings with policy := state.bindings.policy.evict maxSize } }

namespace ProgramScheduler

theorem syncTargetSnapshotLocked_section (sound : self.Sound state) {pool : PoolSnapshot}
    (synced : self.syncTargetSnapshotLocked state pool = .ok next) :
    Section self state (.sync pool) next := by
  by_cases fresh : (state.modelTargetSnapshots.lookup pool.modelPool).any fun current =>
      current.address == pool.snapshot.address
  · simp only [syncTargetSnapshotLocked, if_pos fresh, Except.ok.injEq] at synced
    cases synced
    exact .synced _ _ rfl rfl ⟨rfl, rfl⟩
  · by_cases changed : targetsUnchanged state pool.modelPool pool.snapshot.targets
    · simp only [syncTargetSnapshotLocked, if_neg fresh, if_pos changed, Except.ok.injEq] at synced
      cases synced
      exact .synced _ _ rfl rfl ⟨rfl, rfl⟩
    · by_cases room : state.targetSnapshotRevision = u64Max
      · simp only [syncTargetSnapshotLocked, if_neg fresh, if_neg changed, if_pos room,
          reduceCtorEq] at synced
      · have replaced := ((syncTargetSnapshotLocked_replaces sound fresh changed room).ok_of
          synced).2
        simp only [syncTargetSnapshotLocked, if_neg fresh, if_neg changed, if_neg room] at synced
        obtain ⟨loses, revision⟩ := (replaceTargets_books pool.clock).ok_of synced
        exact .replaced pool next replaced loses revision

theorem step_section (sound : self.Sound state) {event : Event F} {output : Output F}
    (stepped : self.step state event = .ok (output, next)) : Section self state event next := by
  have ensured : Ensures (fun _ => True) (self.step state event) fun result =>
      Section self state event result.2 := by
    cases event with
    | sync pool =>
      cases synced : self.syncTargetSnapshotLocked state pool with
      | error => simp only [step, synced]; exact trivial
      | ok =>
        simp only [step, synced]
        exact syncTargetSnapshotLocked_section sound synced
    | arrive arrival activatedAt =>
      apply bind (self.arrive_decides sound _ _).ensures
      rintro ⟨_, last⟩ ⟨home, deadline, _, ⟨_, _, middleSound, core, targets, books,
        registers⟩, arrived, ⟨_, _, decides⟩ | ⟨_, _, unchanged⟩⟩
      · have commits := (self.decideArrival_commits middleSound.inv _ arrival.arrivedAt
          activatedAt).ok_of decides
        exact pure (.arrived _ _ _ _
          ⟨middleSound.inv, ⟨home, deadline, core⟩, targets, books, registers⟩ commits arrived)
      · cases unchanged
        exact pure (.arrived _ _ _ _
          ⟨middleSound.inv, ⟨home, deadline, core⟩, targets, books, registers⟩ .refl arrived)
    | claim _ now => exact .claimed _ now
    | expire now =>
      apply bind (self.runRequestArrivalDecisions_commits sound.inv now).ensures
      exact fun last decides => pure (.expired now _ decides)
    | cancel _ _ _ scheduledAt =>
      apply bind (self.cancelRetainedRequest_commits sound.inv scheduledAt).ensures
      rintro ⟨_, last⟩ (⟨absent, unchanged⟩ | ⟨_, runtime, cancels, decides⟩)
      · cases unchanged
        exact pure (.uncancelled _ _ _ _ absent)
      · exact pure (.cancelled _ _ _ _ _ _ cancels decides)
    | complete _ _ _ _ decodeSeconds now =>
      apply bind (self.complete_completes sound.inv decodeSeconds now).ensures
      rintro last (⟨rfl, refused⟩ | ⟨_, decision, facts, _, settled, completes, opened⟩)
      · exact pure (.stale _ _ _ _ decodeSeconds now refused)
      · exact pure (.completed _ _ _ _ decodeSeconds now _ _ _ _ settled _ completes opened)
    | tick now =>
      apply bind (self.tick_commits sound.inv now).ensures
      exact fun _ decides => pure (.ticked now _ decides)
    | beginObservation _ => exact .observed _
    | applyObservations epoch _ => exact .applied _ _
    | evict _ => exact .evicted _
  exact ensured.ok_of stepped

end ProgramScheduler

section Opening

/-- The sections that enter no request and settle none. -/
def Event.plain : Event F → Prop
  | .arrive _ _ | .claim _ _ | .cancel _ _ _ _ | .complete _ _ _ _ _ _ => False
  | _ => True

def ProgramSchedulerState.Accepts (state : ProgramSchedulerState F T) (dispatch : ProgramDispatch)
    (usage : ProgramUsageObservation) : Prop :=
  state.runtime.placement dispatch.program = some dispatch.targetId ∧
    state.runtime.completeRequest dispatch usage ≠ none

/-- What a section does to the accounts and the waiting requests before it takes
its decisions. -/
inductive Opening (state : ProgramSchedulerState F T) : Event F → (ProgramRef → Option Account) →
    (ProgramRef → List PendingProgramRequest) → Prop where
  | plain (event) (plain : event.plain) : Opening state event state.books.account state.waiting
  | arrived (arrival activatedAt program request)
      (own : program = (state.core.retained arrival).1.program)
      (hints : request.hints = arrival.identity.requestHints) :
      Opening state (.arrive arrival activatedAt)
        (Function.update state.books.account program (some (Account.arriving
          (state.books.account program) arrival.identity arrival.estimatedContextTokens)))
        (Function.update state.waiting program (state.waiting program ++ [request]))
  | unclaimed (handle now) (refused : (ProgramScheduler.claimDispatch state handle now).1 = none) :
      Opening state (.claim handle now) state.books.account state.waiting
  | claimed (handle now dispatch request rest)
      (issued : (ProgramScheduler.claimDispatch state handle now).1 = some dispatch)
      (own : dispatch.program = handle.program) (hints : dispatch.requestHints = request.hints)
      (front : state.waiting handle.program = request :: rest) :
      Opening state (.claim handle now) state.books.account
        (Function.update state.waiting handle.program rest)
  | uncancelled (handle pausedAt releasedAt scheduledAt)
      (absent : state.runtime.cancelRequest handle = none) :
      Opening state (.cancel handle pausedAt releasedAt scheduledAt) state.books.account
        state.waiting
  | cancelled (handle pausedAt releasedAt scheduledAt runtime)
      (cancels : state.runtime.cancelRequest handle = some runtime) (position)
      (located : (state.waiting handle.program).findIdx?
        (fun request => request.id == handle.requestId) = some position) :
      Opening state (.cancel handle pausedAt releasedAt scheduledAt) state.books.account
        (Function.update state.waiting handle.program
          ((state.waiting handle.program).eraseIdx position))
  | stale (dispatch success terminate usage decodeSeconds now)
      (refused : ¬ state.Accepts dispatch usage) :
      Opening state (.complete dispatch success terminate usage decodeSeconds now)
        state.books.account state.waiting
  | completed (dispatch success terminate usage decodeSeconds now account)
      (accepted : state.Accepts dispatch usage) (freed : account.outputTokenReservation = none) :
      Opening state (.complete dispatch success terminate usage decodeSeconds now)
        (Function.update state.books.account dispatch.program (some account)) state.waiting

/-- A section up to its decisions: what it opens with, without any admission. -/
structure Opens (scheduler : ProgramScheduler F) (state : ProgramSchedulerState F T)
    (event : Event F) (middle : ProgramSchedulerState F T) : Prop where
  inv : middle.Inv scheduler.config.globalQueue
  opening : Opening state event middle.books.account middle.waiting
  admissions : middle.admissions = state.admissions
  seats : ∀ program target,
    middle.books.seat program = some target → state.books.seat program = some target

omit [F64 F] [AffinityTree T] in
theorem ProgramScheduler.Replaced.waiting {pool : String} {targets : List ProgramTarget}
    (replaced : ProgramScheduler.Replaced globalMode state pool targets next.core)
    (inv : state.Inv globalMode) : next.waiting = state.waiting := by
  obtain ⟨base, evolved, shrunk, _⟩ := replaced
  funext program
  have kept : (base.card program).requests = state.waiting program := by
    refine evolved.keeps_card (fun card => card.requests = state.waiting _) inv _ ?_ rfl
    intro card _ _ allowed _ stepped same
    exact (stepped.requests_syncing allowed).trans same
  have same : next.waiting program = (base.card program).requests :=
    congrArg (fun core : Core => core.runtime.requestPool.queue _) shrunk
  exact same.trans kept

omit [AffinityTree T] in
theorem ProgramScheduler.arrivedBooks_fields (self : ProgramScheduler F)
    {state : ProgramSchedulerState F T} (program : ProgramRef) (account : Account) :
    (self.arrivedBooks state program account).account =
        update state.books.account program (some account) ∧
      (self.arrivedBooks state program account).seat = state.books.seat ∧
      (self.arrivedBooks state program account).admissions = state.books.admissions := by
  unfold arrivedBooks
  split
  · split <;> exact ⟨rfl, rfl, rfl⟩
  · exact ⟨rfl, rfl, rfl⟩

theorem Enters.opens {arrival : Arrival} {middle : ProgramSchedulerState F T}
    (enters : Enters self state arrival middle) (activatedAt : Instant) :
    Opens self state (.arrive arrival activatedAt) middle := by
  obtain ⟨account, seats, admissions⟩ := self.arrivedBooks_fields
    (state.core.retained _).1.program
    (Account.arriving (state.books.account (state.core.retained _).1.program)
      arrival.identity arrival.estimatedContextTokens)
  rw [← enters.books] at account seats admissions
  refine ⟨enters.inv, ?_, admissions, ?_⟩
  · obtain ⟨home, deadline, core⟩ := enters.core
    have retained : middle.runtime = (state.core.retained arrival).2 :=
      (congrArg Core.runtime core).trans (Core.runtime_arrive state.core _ _ _ _)
    have waiting : middle.waiting = update state.waiting (state.core.retained arrival).1.program
        (state.waiting (state.core.retained arrival).1.program ++
          [⟨wrappingSucc state.runtime.requestPool.nextRequestId, arrival.arrivedAt,
            arrival.estimatedContextTokens, arrival.routingText, arrival.identity.requestHints,
            state.runtime.requestPool.nextNotifier⟩]) := by
      funext program
      unfold waiting
      rw [retained, update_apply]
      exact queue_retain _ _ _ _ _ _ _
    rw [account, waiting]
    exact .arrived _ _ _ _ rfl rfl
  · rw [seats]
    exact fun _ _ sits => sits

variable {runtime : ProgramRuntime} {handle : ProgramRequestHandle}

omit [F64 F] [AffinityTree T] in
theorem ProgramRuntime.admitFront_queue {record : RuntimeProgram} {target : String} (now : Instant)
    (found : runtime.find handle.program = some record) (active : record.state = .active)
    (placed : record.placement = some target) :
    ((runtime.admitFront handle target now).1 = none ∧
      (runtime.admitFront handle target now).2.requestPool = runtime.requestPool) ∨
    ∃ dispatch request rest, (runtime.admitFront handle target now).1 = some dispatch ∧
      dispatch.program = handle.program ∧ dispatch.requestHints = request.hints ∧
      runtime.requestPool.queue handle.program = request :: rest ∧
      ∀ program, (runtime.admitFront handle target now).2.requestPool.queue program =
        if program = handle.program then rest else runtime.requestPool.queue program := by
  obtain ⟨stored, exact⟩ := find_eq_some.mp found
  rw [admitFront_active now found active placed]
  simp only [dispatchFront, stored]
  cases taken : runtime.requestPool.takeFront handle with
  | none => exact .inl ⟨rfl, rfl⟩
  | some outcome =>
    obtain ⟨request, _⟩ := outcome
    obtain ⟨rest, waiting, _, rfl⟩ := takeFront_some taken
    refine .inr ⟨_, request, rest, rfl, exact, rfl, queue_eq_of_lookup waiting, ?_⟩
    intro _
    rw [queue_notifyFront, queue_leaving]

theorem claimDispatch_opens {now : Instant} (inv : state.Inv self.config.globalQueue)
    (after : (claimDispatch state handle now).2.Inv self.config.globalQueue) :
    Opens self state (.claim handle now) (claimDispatch state handle now).2 := by
  have books := claimDispatch_books inv handle now
  refine ⟨after, ?_, congrArg Books.admissions books, ?_⟩
  · rw [books]
    cases placed : state.runtime.placement handle.program with
    | none =>
      have unchanged := claimDispatch_unplaced now placed
      rw [unchanged]
      exact .unclaimed _ now (congrArg Prod.fst unchanged)
    | some target =>
      obtain ⟨_, found, placement⟩ := Option.bind_eq_some_iff.mp placed
      have active := inv.placement_active placed _ found
      obtain ⟨_, claimed, _⟩ := claimDispatch_placed now placed
      have answer := congrArg Prod.fst claimed
      have runtime : (claimDispatch state handle now).2.runtime =
          (state.runtime.admitFront handle target now).2 := by rw [claimed]
      rcases ProgramRuntime.admitFront_queue now found active placement with
        ⟨refused, pool⟩ | ⟨dispatch, request, rest, issued, own, hints, front, queues⟩
      · have waiting : (claimDispatch state handle now).2.waiting = state.waiting := by
          unfold waiting
          rw [runtime, pool]
        rw [waiting]
        exact .unclaimed _ now (answer.trans refused)
      · have waiting : (claimDispatch state handle now).2.waiting =
            update state.waiting handle.program rest := by
          funext program
          unfold waiting
          rw [runtime, queues, update_apply]
        rw [waiting]
        exact .claimed _ now _ _ _ (answer.trans issued) own hints front
  · rw [books]
    exact fun _ _ sits => sits

omit [AffinityTree T] in
theorem ProgramScheduler.cancelledState_fields (self : ProgramScheduler F)
    (state : ProgramSchedulerState F T) (runtime : ProgramRuntime) (program : ProgramRef)
    (pausedAt : Instant) :
    (self.cancelledState state runtime program pausedAt).books.account = state.books.account ∧
      (self.cancelledState state runtime program pausedAt).books.admissions =
        state.books.admissions := by
  have accounted : (self.accountCancellation state { state with runtime := runtime } program
      pausedAt).books.account = state.books.account ∧
      (self.accountCancellation state { state with runtime := runtime } program
        pausedAt).books.admissions = state.books.admissions := by
    rcases self.accountCancellation_cases state program pausedAt with same | ⟨_, _, refunded⟩
    · rw [same]
      exact ⟨rfl, rfl⟩
    · rw [refunded, books_modifyDecision_same _ program fun _ => by rfl]
      exact ⟨rfl, rfl⟩
  unfold cancelledState
  split <;> exact accounted

theorem cancelledState_opens (inv : state.Inv self.config.globalQueue)
    (cancels : state.runtime.cancelRequest handle = some runtime)
    (pausedAt releasedAt scheduledAt : Instant) :
    Opens self state (.cancel handle pausedAt releasedAt scheduledAt)
      (self.cancelledState state runtime handle.program pausedAt) := by
  have posted : Posts self.weigh state.books
      (self.cancelledState state runtime handle.program pausedAt).books :=
    cancelledState_posts inv cancels _
  obtain ⟨accounts, admissions⟩ := self.cancelledState_fields _ _ handle.program _
  refine ⟨self.cancelledState_inv inv cancels _, ?_, admissions, posted.unseating admissions⟩
  obtain ⟨waiting, position, stored, located, _, pool⟩ := Core.cancelRequest_leaves cancels
  have queue : state.waiting handle.program = waiting := queue_eq_of_lookup stored
  have left : (self.cancelledState state runtime handle.program pausedAt).waiting =
      update state.waiting handle.program (waiting.eraseIdx position) := by
    have kept : (self.cancelledState state runtime handle.program pausedAt).runtime = runtime :=
      (congrArg Core.runtime (self.core_cancelledState _ handle.program _)).trans
        (Core.runtime_cancel _ _ _)
    funext program
    unfold ProgramSchedulerState.waiting
    rw [kept, pool.queue, queue_leaving, update_apply]
  rw [accounts, left, ← queue]
  rw [← queue] at located
  exact .cancelled _ _ _ _ _ cancels _ located

/-- The state in which a section begins to take its decisions. -/
def ProgramScheduler.openedState (self : ProgramScheduler F) (state : ProgramSchedulerState F T) :
    Event F → Except Fault (ProgramSchedulerState F T)
  | .arrive arrival _ => self.arrivedState state arrival
  | .cancel handle pausedAt _ _ =>
    match state.runtime.cancelRequest handle with
    | none => .ok state
    | some runtime => .ok (self.cancelledState state runtime handle.program pausedAt)
  | .complete dispatch success terminate usage decodeSeconds now =>
    self.settledState state dispatch success terminate usage decodeSeconds now
  | _ => .ok state

theorem Section.opens {event : Event F} (taken : Section self state event next)
    (inv : state.Inv self.config.globalQueue) (after : next.Inv self.config.globalQueue) :
    ∃ middle, Opens self state event middle ∧ Commits self middle next ∧
      (middle = next ∨ self.openedState state event = .ok middle) := by
  cases taken with
  | synced _ next core books =>
    have waiting : next.waiting = state.waiting :=
      congrArg (fun core : Core => core.runtime.requestPool.queue) core
    refine ⟨next, ⟨after, ?_, congrArg Books.admissions books, ?_⟩, .refl, .inl rfl⟩
    · rw [books, waiting]
      exact .plain _ trivial
    · rw [books]
      exact fun _ _ sits => sits
  | replaced _ next replaced books =>
    refine ⟨next, ⟨after, ?_, books.admissions, books.seat⟩, .refl, .inl rfl⟩
    rw [books.account, replaced.waiting inv]
    exact .plain _ trivial
  | arrived _ _ middle _ enters decides arrived =>
    exact ⟨middle, enters.opens _, decides, .inr arrived⟩
  | claimed =>
    exact ⟨_, claimDispatch_opens inv after, .refl, .inl rfl⟩
  | expired _ _ decides | ticked _ _ decides =>
    exact ⟨state, ⟨inv, .plain _ trivial, rfl, fun _ _ sits => sits⟩, decides, .inr rfl⟩
  | uncancelled _ _ _ _ absent =>
    exact ⟨state, ⟨inv, .uncancelled _ _ _ _ absent, rfl, fun _ _ sits => sits⟩, .refl, .inl rfl⟩
  | cancelled _ _ _ _ _ _ cancels decides =>
    refine ⟨_, cancelledState_opens inv cancels _ _ _, decides, .inr ?_⟩
    simp only [openedState, cancels]
  | stale _ _ _ _ _ _ refused =>
    refine ⟨state, ⟨inv, .stale _ _ _ _ _ _ ?_, rfl, fun _ _ sits => sits⟩, .refl, .inl rfl⟩
    rintro ⟨placed, completed⟩
    exact refused.elim (fun elsewhere => elsewhere placed) completed
  | completed dispatch _ _ usage _ _ _ _ _ _ settled _ completes opened =>
    obtain ⟨settledInv, waiting, posted, unrecorded, account, freed, entered⟩ :=
      completes.settled_posts inv
    have accepted : state.Accepts dispatch usage :=
      ⟨completes.placed, by rw [completes.completed]; exact Option.some_ne_none _⟩
    refine ⟨settled, ⟨settledInv, ?_, unrecorded, posted.unseating unrecorded⟩,
      completes.decides, .inr opened⟩
    rw [entered, waiting]
    exact .completed _ _ _ _ _ _ account accepted freed
  | observed =>
    exact ⟨state, ⟨inv, .plain _ trivial, rfl, fun _ _ sits => sits⟩, .refl, .inl rfl⟩
  | applied epoch _ =>
    obtain ⟨_, applied⟩ := self.applyObservations_eq _ epoch _
    rw [applied] at after ⊢
    exact ⟨_, ⟨after, .plain _ trivial, rfl, fun _ _ sits => sits⟩, .refl, .inl rfl⟩
  | evicted =>
    exact ⟨_, ⟨after, .plain _ trivial, rfl, fun _ _ sits => sits⟩, .refl, .inl rfl⟩

end Opening

end SmetricRouter.ProgramScheduling
