import SmetricRouter.ProgramScheduling.History

/-! The mark on the first dispatch of a placement epoch.

An admission leaves a mark that the first dispatch of its epoch is to take. A
claim takes the mark off before it looks whether its request is the front one,
so a claim that returns nothing can lose it. As long as only the front request
claims while the mark is there, every dispatch is marked exactly when it is the
first of its epoch.
-/

namespace SmetricRouter.ProgramScheduling

open ProgramRuntime Function Sample

variable (program : ProgramRef)

/-- What an event makes of the latest placement epoch of a Program and of the
dispatches handed out in it. -/
def placementAfter (placement : Option (Nat × List ProgramDispatch)) :
    LifecycleEvent → Option (Nat × List ProgramDispatch)
  | .admitted other epoch => if other = program then some (epoch, []) else placement
  | .dispatched _ dispatch =>
    if dispatch.program = program then
      placement.map fun (epoch, dispatches) => (epoch, dispatches ++ [dispatch])
    else placement
  | .retained _ _ | .cancelled _ _ | .invalidated _ _ => placement

def placementOf (journal : List LifecycleEvent) : Option (Nat × List ProgramDispatch) :=
  journal.foldl (placementAfter program) none

/-- Every dispatch belongs to the latest placement epoch of its Program, and is
marked exactly when it is the first of that epoch. -/
def MarkLaw (journal : List LifecycleEvent) : Prop :=
  ∀ earlier requestId dispatch later,
    journal = earlier ++ .dispatched requestId dispatch :: later →
      ∃ dispatches,
        placementOf dispatch.program earlier = some (dispatch.placementEpoch, dispatches) ∧
          (dispatch.placementStartRequest = true ↔ dispatches = [])

theorem placementOf_append (journal events : List LifecycleEvent) :
    placementOf program (journal ++ events) =
      events.foldl (placementAfter program) (placementOf program journal) :=
  List.foldl_append

theorem MarkLaw.append {journal : List LifecycleEvent} (law : MarkLaw journal)
    (event : LifecycleEvent)
    (own : ∀ requestId dispatch, event = .dispatched requestId dispatch →
      ∃ dispatches,
        placementOf dispatch.program journal = some (dispatch.placementEpoch, dispatches) ∧
          (dispatch.placementStartRequest = true ↔ dispatches = [])) :
    MarkLaw (journal ++ [event]) := by
  intro _ _ _ later split
  rcases List.eq_nil_or_concat later with rfl | ⟨before, _, rfl⟩
  · obtain ⟨rfl, same⟩ := List.append_inj' split rfl
    exact own _ _ (List.singleton_inj.mp same)
  · rw [List.concat_eq_append, ← List.cons_append, ← List.append_assoc] at split
    exact law _ _ _ _ (List.append_inj_left' split rfl)

def LifecycleEvent.plain : LifecycleEvent → Prop
  | .retained _ _ | .cancelled _ _ | .invalidated _ _ => True
  | .admitted _ _ | .dispatched _ _ => False

/-- The law of the journal, and the mark of every active Program says whether its
placement epoch has no dispatch yet. -/
structure Marked (runtime : ProgramRuntime) : Prop where
  law : MarkLaw runtime.journal
  current : ∀ program record, runtime.find program = some record → record.state = .active →
    ∃ dispatches, placementOf program runtime.journal = some (record.placementEpoch, dispatches) ∧
      (record.placementStartRequestPending = true ↔ dispatches = [])

/-- Nothing is admitted or dispatched, and what is active keeps epoch and mark. -/
structure KeepsMarks (runtime next : ProgramRuntime) : Prop where
  journal : ∃ events, next.journal = runtime.journal ++ events ∧ events.length ≤ 1 ∧
    ∀ event ∈ events, event.plain
  records : ∀ program record, next.find program = some record → record.state = .active →
    ∃ old, runtime.find program = some old ∧ old.state = .active ∧
      old.placementEpoch = record.placementEpoch ∧
      old.placementStartRequestPending = record.placementStartRequestPending

variable {runtime next : ProgramRuntime}

namespace KeepsMarks

variable {program} {record : Option RuntimeProgram}

theorem silent (same : next.journal = runtime.journal) :
    ∃ events, next.journal = runtime.journal ++ events ∧ events.length ≤ 1 ∧
      ∀ event ∈ events, event.plain :=
  ⟨[], by rw [same, List.append_nil], Nat.zero_le _, fun _ member => absurd member List.not_mem_nil⟩

theorem noted {event : LifecycleEvent}
    (journal : next.journal = runtime.journal ++ [event]) (plain : event.plain) :
    ∃ events, next.journal = runtime.journal ++ events ∧ events.length ≤ 1 ∧
      ∀ event ∈ events, event.plain := by
  refine ⟨[event], journal, Nat.le_refl _, ?_⟩
  rintro _ member
  rwa [List.mem_singleton.mp member]

theorem update (finds : next.find = update runtime.find program record)
    (own : ∀ after, record = some after → after.state = .active →
      ∃ old, runtime.find program = some old ∧ old.state = .active ∧
        old.placementEpoch = after.placementEpoch ∧
        old.placementStartRequestPending = after.placementStartRequestPending)
    (journal : ∃ events, next.journal = runtime.journal ++ events ∧ events.length ≤ 1 ∧
      ∀ event ∈ events, event.plain) : KeepsMarks runtime next := by
  refine ⟨journal, fun _ stored found active => ?_⟩
  rw [finds, update_apply] at found
  split at found
  · rename_i same
    subst same
    exact own stored found active
  · exact ⟨stored, found, active, rfl, rfl⟩

end KeepsMarks

variable {record : RuntimeProgram} {dispatch : ProgramDispatch}

namespace Marked

variable (marked : Marked runtime)

include marked

theorem plain (keeps : KeepsMarks runtime next) : Marked next := by
  obtain ⟨events, journal, single, quiet⟩ := keeps.journal
  have placement program :
      placementOf program next.journal = placementOf program runtime.journal := by
    rw [journal, placementOf_append]
    clear journal single
    induction events with
    | nil => rfl
    | cons event _ ih =>
      have first := quiet _ List.mem_cons_self
      cases event with
      | retained | cancelled | invalidated =>
        exact ih fun _ member => quiet _ (List.mem_cons_of_mem _ member)
      | admitted | dispatched => exact first.elim
  constructor
  · rw [journal]
    rcases Nat.le_one_iff_eq_zero_or_eq_one.mp single with none | one
    · rw [List.length_eq_zero_iff.mp none, List.append_nil]
      exact marked.law
    · obtain ⟨_, rfl⟩ := List.length_eq_one_iff.mp one
      refine marked.law.append _ ?_
      rintro _ _ rfl
      exact (quiet _ List.mem_cons_self).elim
  · intro _ _ found active
    obtain ⟨old, live, wasActive, epoch, mark⟩ := keeps.records _ _ found active
    obtain ⟨dispatches, current, pending⟩ := marked.current _ old live wasActive
    refine ⟨dispatches, ?_, ?_⟩
    · rw [placement, current, epoch]
    · rw [← mark]
      exact pending

variable {program : ProgramRef}

theorem admitted {epoch : Nat} (finds : next.find = update runtime.find program (some record))
    (opened : record.placementEpoch = epoch) (mark : record.placementStartRequestPending = true)
    (journal : next.journal = runtime.journal ++ [.admitted program epoch]) : Marked next := by
  have placement other : placementOf other next.journal =
      if program = other then some (epoch, []) else placementOf other runtime.journal := by
    rw [journal, placementOf_append]
    rfl
  constructor
  · rw [journal]
    refine marked.law.append _ ?_
    intro _ _ same
    cases same
  · intro _ stored found active
    rw [finds, update_apply] at found
    rw [placement]
    split at found
    · rename_i same
      cases found
      exact ⟨[], by rw [if_pos same.symm, opened], fun _ => rfl, fun _ => mark⟩
    · rename_i apart
      rw [if_neg (Ne.symm apart)]
      exact marked.current _ stored found active

theorem dispatched {requestId : Nat} {old : RuntimeProgram}
    (found : runtime.find program = some old) (active : old.state = .active)
    (finds : next.find = update runtime.find program (some record))
    (kept : record.placementEpoch = old.placementEpoch)
    (unmarked : record.placementStartRequestPending = false) (own : dispatch.program = program)
    (epoch : dispatch.placementEpoch = old.placementEpoch)
    (mark : dispatch.placementStartRequest = old.placementStartRequestPending)
    (journal : next.journal = runtime.journal ++ [.dispatched requestId dispatch]) :
    Marked next := by
  obtain ⟨dispatches, current, pending⟩ := marked.current _ old found active
  constructor
  · rw [journal]
    refine marked.law.append _ ?_
    rintro _ _ ⟨⟩
    refine ⟨dispatches, ?_, ?_⟩
    · rw [own, current, epoch]
    · rw [mark]
      exact pending
  · intro other stored live wasActive
    rw [journal, placementOf_append]
    rw [finds, update_apply] at live
    split at live
    · rename_i same
      subst same
      cases live
      refine ⟨dispatches ++ [dispatch], ?_, ?_⟩
      · simp [placementAfter, if_pos own, current, kept]
      · rw [unmarked]
        simp
    · rename_i apart
      have foreign : dispatch.program ≠ other := fun same => apart (same.symm.trans own)
      simp only [List.foldl_cons, List.foldl_nil, placementAfter, if_neg foreign]
      exact marked.current _ stored live wasActive

end Marked

theorem Core.retained_keepsMarks {core : Core} (keyed : core.runtime.Keyed) (arrival : Arrival) :
    KeepsMarks core.runtime (core.retained arrival).2 := by
  refine ⟨KeepsMarks.noted rfl trivial, fun _ record found active => ?_⟩
  rw [Core.retained, find_retainRequest keyed] at found
  split at found
  · rename_i same
    cases found
    rcases materialize_find keyed arrival.identity arrival.estimatedContextTokens with
      ⟨old, stored, continued⟩ | ⟨_, paused, _⟩
    · rw [continued] at active ⊢
      exact ⟨old, same ▸ stored, active, rfl, rfl⟩
    · have impossible : ProgramState.paused = .active := paused.symm.trans active
      cases impossible
  · exact ⟨record, found, active, rfl, rfl⟩

theorem ProgramRuntime.completeRequest_keepsMarks {usage : ProgramUsageObservation}
    (completed : runtime.completeRequest dispatch usage = some next) : KeepsMarks runtime next := by
  obtain ⟨old, found, _, _, rfl⟩ := completeRequest_some completed
  refine .update (find_update_of_insert found _ ?_ rfl) ?_ (KeepsMarks.silent rfl)
  · exact (find_eq_some.mp found).2
  · rintro _ ⟨⟩ active
    exact ⟨old, found, active, rfl, rfl⟩

def Label.dispatches : Label → Prop
  | .dispatch _ _ => True
  | _ => False

theorem Label.grounded_follows : Label.Follows fun label => ¬ label.dispatches where
  scheduling label allowed := by
    cases label with
    | dispatch => exact allowed.elim
    | _ => exact id
  syncing label _ _ allowed := by
    cases label with
    | dispatch => exact allowed.elim
    | _ => exact id
  shrink _ _ := id

section Moves

variable {globalMode : Bool} {core next : Core} {label : Label}

theorem Move.marked (taken : Move globalMode core label next) (keyed : core.runtime.Keyed)
    (grounded : ¬ label.dispatches) (marked : Marked core.runtime) : Marked next.runtime := by
  have stepped := taken.runtimeStep keyed
  cases stepped with
  | quiet _ _ finds silent =>
    refine marked.plain ⟨KeepsMarks.silent silent.journal, fun _ record found active => ?_⟩
    rw [finds] at found
    exact ⟨record, found, active, rfl, rfl⟩
  | admitted _ _ _ _ _ finds _ _ journal =>
    exact marked.admitted finds rfl rfl journal
  | paused _ _ _ _ finds silent =>
    refine marked.plain (.update finds ?_ (KeepsMarks.silent silent.journal))
    rintro after ⟨⟩ active
    cases active
  | unmarked | dispatched => exact absurd trivial grounded
  | cancelled _ _ _ _ _ finds _ _ journal =>
    refine marked.plain (.update finds ?_ (KeepsMarks.noted journal trivial))
    intro _ changed active
    obtain ⟨old, live, rfl⟩ := Option.map_eq_some_iff.mp changed
    unfold Card.quiesce at active ⊢
    split at active
    · split at active <;> rename_i state
      · cases active
      · exact absurd active state
    · rename_i busy
      rw [if_neg busy]
      exact ⟨old, live, active, rfl, rfl⟩
  | released _ _ _ _ finds silent =>
    exact marked.plain (.update finds nofun (KeepsMarks.silent silent.journal))
  | invalidated _ _ _ _ _ _ _ finds _ _ journal =>
    refine marked.plain (.update finds ?_ (KeepsMarks.noted journal trivial))
    rintro _ ⟨⟩ active
    cases active
  | retained arrival =>
    cases taken with
    | arrive _ =>
      rw [Core.runtime_arrive]
      exact marked.plain (Core.retained_keepsMarks keyed _)
  | completed _ _ =>
    cases taken with
    | complete _ _ _ _ completed =>
      exact marked.plain (completeRequest_keepsMarks completed)

/-- A claim while the mark is there comes from the front request of its Program. -/
def Core.ClaimsFront {F : Type} (core : Core) : Event F → Prop
  | .claim handle _ => ∀ record, core.runtime.find handle.program = some record →
      record.state = .active → record.placementStartRequestPending = true →
        (core.runtime.requestPool.queue handle.program).head?.map (·.id) = some handle.requestId
  | _ => True

theorem ProgramRuntime.admitFront_marked
    {handle : ProgramRequestHandle} {target : String} (now : Instant)
    (found : runtime.find handle.program = some record) (active : record.state = .active)
    (placed : record.placement = some target)
    (fronted : record.placementStartRequestPending = true →
      (runtime.requestPool.queue handle.program).head?.map (·.id) = some handle.requestId)
    (marked : Marked runtime) : Marked (runtime.admitFront handle target now).2 := by
  obtain ⟨stored, exact⟩ := find_eq_some.mp found
  rw [admitFront_active now found active placed]
  simp only [dispatchFront, stored]
  cases taken : runtime.requestPool.takeFront handle with
  | none =>
    refine marked.plain (.update (find_update_of_insert found _ ?_ rfl) ?_ (KeepsMarks.silent rfl))
    · exact exact
    · rintro _ ⟨⟩ _
      refine ⟨record, found, active, rfl, ?_⟩
      -- A front request would have been taken, so the mark was gone before.
      cases mark : record.placementStartRequestPending with
      | false => rfl
      | true =>
        obtain ⟨_, front, named⟩ := Option.map_eq_some_iff.mp (fronted mark)
        obtain ⟨_, waiting⟩ := List.head?_eq_some_iff.mp front
        have lookup := RequestPool.lookup_of_queue waiting
        simp [RequestPool.takeFront, lookup, named] at taken
  | some outcome =>
    refine marked.dispatched found active (find_update_of_insert found _ ?_ rfl) rfl rfl exact rfl
      rfl rfl
    exact exact

theorem Transition.marked {F : Type} {event : Event F} {output : Output F}
    (transition : Transition globalMode core event output next) (inv : core.Inv globalMode)
    (fronted : core.ClaimsFront event) (marked : Marked core.runtime) : Marked next.runtime := by
  by_cases claims : ∃ handle now, event = .claim handle now
  · obtain ⟨handle, now, rfl⟩ := claims
    cases transition with
    | unclaimed => exact marked
    | claimed handle now _ placed =>
      obtain ⟨_, found, placement⟩ := Option.bind_eq_some_iff.mp placed
      have active := inv.placement_active placed _ found
      exact admitFront_marked now found active placement (fronted _ found active) marked
  · refine transition.keeps_kind (fun core => Marked core.runtime) inv ?_ Label.grounded_follows
      (fun _ _ _ sound grounded taken marked => taken.marked sound.keyed grounded marked) marked
    intro _ opens
    cases event with
    | claim handle now => exact absurd ⟨handle, now, rfl⟩ claims
    | arrive | cancel | complete =>
      cases opens
      exact id
    | _ => cases opens

end Moves

section Runs

variable {F T : Type} [F64 F] [AffinityTree T] {setup : Setup F}
  {trace : List (Event F × Output F)} {state : ProgramSchedulerState F T}

/-- In every run in which a claim made while the mark is there comes from the
front request, a dispatch is marked exactly when it is the first of its
placement epoch. -/
theorem run_markLaw (run : GuardedRun setup Core.ClaimsFront trace state) :
    MarkLaw state.runtime.journal := by
  have marked := run.invariant (fun core => Marked core.runtime)
    ⟨fun _ _ _ _ split => absurd split (by simp [ProgramSchedulerState.new,
      ProgramSchedulerState.core, empty]), nofun⟩
    (fun _ _ _ _ inv fronted transition marked =>
      transition.marked inv fronted marked)
  exact marked.law

namespace Sample

def claimsInOrder (state : State) : Event Exact → Bool
  | .claim handle _ =>
    (state.runtime.requestPool.queue handle.program).head?.map (·.id) == some handle.requestId
  | _ => true

theorem claimsInOrder_claimsFront (state : State) (event : Event Exact)
    (passed : claimsInOrder state event = true) : state.core.ClaimsFront event := by
  cases event with
  | claim => exact fun _ _ _ _ => beq_iff_eq.mp passed
  | _ => trivial

end Sample

/-- A Program is admitted with one request waiting and gets another one; the tasks
claim in the order of their requests. -/
theorem run_markLaw_sample :
    ∃ trace state, GuardedRun (Sample.router false false) Core.ClaimsFront trace state ∧
      ((state : Sample.State).runtime.journal.filterMap fun
        | .dispatched requestId dispatch => some (requestId, dispatch.placementStartRequest)
        | _ => none) = [(1, true), (2, false)] ∧ MarkLaw state.runtime.journal := by
  obtain ⟨trace, state, run, dispatches⟩ := guarded_of_play (router false false)
    claimsInOrder_claimsFront
    [.sync (snapshot 0 "a" ["t"]), .arrive (arrival "a" "p" 1) 1,
      .arrive (arrival "a" "p" 2) 2, .claim ⟨⟨"a", "p", 0⟩, 1, 0⟩ 3,
      .claim ⟨⟨"a", "p", 0⟩, 2, 1⟩ 4]
    (fun _ state => (state.runtime.journal.filterMap fun
      | .dispatched requestId dispatch => some (requestId, dispatch.placementStartRequest)
      | _ => none) = [(1, true), (2, false)]) (by decide +kernel)
  exact ⟨trace, state, run, dispatches, run_markLaw run⟩

/-- The task of the second request takes the lock first. Its claim returns nothing
and takes the mark off, so the first dispatch of the epoch is not marked. -/
theorem markLaw_fails_second_claims :
    ∃ trace state, Run (Sample.router false false) trace state ∧
      ¬ MarkLaw (state : Sample.State).runtime.journal := by
  obtain ⟨trace, state, run, journal⟩ := run_of_play (router false false)
    [.sync (snapshot 0 "a" ["t"]), .arrive (arrival "a" "p" 1) 1,
      .arrive (arrival "a" "p" 2) 2, .claim ⟨⟨"a", "p", 0⟩, 2, 1⟩ 3,
      .claim ⟨⟨"a", "p", 0⟩, 1, 0⟩ 4]
    (fun _ state => state.runtime.journal =
      [.retained ⟨"a", "p", 0⟩ 1, .admitted ⟨"a", "p", 0⟩ 1, .retained ⟨"a", "p", 0⟩ 2,
        .dispatched 1 ⟨⟨"a", "p", 0⟩, "t", 1, 1, 4, 1, false, none, {}⟩]) (by decide +kernel)
  refine ⟨trace, state, run, fun law => ?_⟩
  rw [journal] at law
  obtain ⟨_, placement, marked⟩ := law [_, _, _] _ _ [] rfl
  cases placement
  exact absurd (marked.mpr rfl) (by decide)

end Runs

end SmetricRouter.ProgramScheduling
