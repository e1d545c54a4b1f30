import SmetricRouter.Library.FifoLedger
import SmetricRouter.ProgramScheduling.History

/-! Requests are conserved and served in order.

The journal names every request that was retained, dispatched or cancelled. For
each Program generation it is the history of a queue served from the front.
-/

namespace SmetricRouter.ProgramScheduling

open ProgramRuntime RequestPool

variable {event : LifecycleEvent}

namespace LifecycleEvent

variable (program : ProgramRef)

def retainedBy : LifecycleEvent → Option Nat
  | .retained owner requestId => if owner = program then some requestId else none
  | _ => none

def dispatchedBy : LifecycleEvent → Option Nat
  | .dispatched requestId dispatch => if dispatch.program = program then some requestId else none
  | _ => none

def cancelledBy : LifecycleEvent → Option Nat
  | .cancelled owner requestId => if owner = program then some requestId else none
  | _ => none

def retainedId : LifecycleEvent → Option Nat
  | .retained _ requestId => some requestId
  | _ => none

def dispatchedId : LifecycleEvent → Option Nat
  | .dispatched requestId _ => some requestId
  | _ => none

/-- The event opens or ends a placement and concerns no request. -/
def aboutPlacement : LifecycleEvent → Bool
  | .admitted _ _ | .invalidated _ _ => true
  | _ => false

theorem ignored (placed : event.aboutPlacement = true) (program : ProgramRef) :
    event.retainedBy program = none ∧ event.dispatchedBy program = none ∧
      event.cancelledBy program = none ∧ event.retainedId = none ∧ event.dispatchedId = none := by
  cases event with
  | admitted | invalidated => exact ⟨rfl, rfl, rfl, rfl, rfl⟩
  | retained | dispatched | cancelled => cases placed

end LifecycleEvent

namespace ProgramRuntime

variable (runtime : ProgramRuntime) (program : ProgramRef)

def arrivals : List Nat :=
  runtime.journal.filterMap (LifecycleEvent.retainedBy program)

def dispatches : List Nat :=
  runtime.journal.filterMap (LifecycleEvent.dispatchedBy program)

def cancellations : List Nat :=
  runtime.journal.filterMap (LifecycleEvent.cancelledBy program)

def waiting : List Nat :=
  (runtime.requestPool.queue program).map (·.id)

def identifiers : List Nat :=
  runtime.journal.filterMap LifecycleEvent.retainedId

def dispatchedIds : List Nat :=
  runtime.journal.filterMap LifecycleEvent.dispatchedId

theorem journal_append {runtime next : ProgramRuntime}
    (journal : next.journal = runtime.journal ++ [event]) :
    (∀ program, next.arrivals program =
      runtime.arrivals program ++ (event.retainedBy program).toList) ∧
    (∀ program, next.dispatches program =
      runtime.dispatches program ++ (event.dispatchedBy program).toList) ∧
    (∀ program, next.cancellations program =
      runtime.cancellations program ++ (event.cancelledBy program).toList) ∧
    next.identifiers = runtime.identifiers ++ event.retainedId.toList ∧
    next.dispatchedIds = runtime.dispatchedIds ++ event.dispatchedId.toList := by
  have selected {β : Type} (select : LifecycleEvent → Option β) : next.journal.filterMap select =
      runtime.journal.filterMap select ++ (select event).toList := by
    rw [journal, List.filterMap_append, List.filterMap_cons]
    cases select event <;> rfl
  exact ⟨fun _ => selected _, fun _ => selected _, fun _ => selected _, selected _, selected _⟩

end ProgramRuntime

open LifecycleEvent

theorem RequestPool.total_storeQueue {requests : Table ProgramRef (List PendingProgramRequest)}
    {program : ProgramRef} (rest : List PendingProgramRequest) {waiting : List PendingProgramRequest}
    (stored : requests.lookup program = some waiting) :
    (storeQueue requests program rest).total List.length + waiting.length =
      requests.total List.length + rest.length := by
  unfold storeQueue
  by_cases emptied : rest = []
  · have erased := Table.total_erase requests List.length program
    rw [emptied]
    rw [stored] at erased
    simpa using erased
  · have inserted := Table.total_insert requests List.length program rest
    rw [if_neg emptied]
    rw [stored] at inserted
    exact inserted

/-- The books of the runtime agree with its request pool. -/
structure Booked (runtime : ProgramRuntime) : Prop where
  numbered : runtime.identifiers = List.range' 1 runtime.requestPool.nextRequestId
  owned : ∀ first second requestId, requestId ∈ runtime.arrivals first →
    requestId ∈ runtime.arrivals second → first = second
  fifo : ∀ program, FifoLedger (runtime.arrivals program) (runtime.dispatches program)
    (runtime.waiting program) (runtime.cancellations program)
  once : runtime.dispatchedIds.Nodup
  stored : ∀ program, runtime.requestPool.requests.lookup program ≠ some []
  counted : runtime.requestPool.retainedRequestCount =
    runtime.requestPool.requests.total List.length
  few : runtime.requestPool.retainedRequestCount ≤ runtime.requestPool.nextRequestId

namespace Booked

variable {runtime next : ProgramRuntime}

theorem empty : Booked .empty where
  numbered := rfl
  owned := nofun
  fifo := fun _ => .empty
  once := .nil
  stored := nofun
  counted := rfl
  few := Nat.le_refl 0

variable (booked : Booked runtime)

include booked

variable {program : ProgramRef}

theorem fresh {requestId : Nat} (member : requestId ∈ runtime.arrivals program) :
    requestId ≤ runtime.requestPool.nextRequestId := by
  obtain ⟨event, recorded, selected⟩ := List.mem_filterMap.mp member
  have known : requestId ∈ runtime.identifiers := by
    refine List.mem_filterMap.mpr ⟨event, recorded, ?_⟩
    cases event with
    | retained =>
      simp only [retainedBy] at selected
      split at selected
      · exact selected
      · cases selected
    | _ => cases selected
  rw [booked.numbered, List.mem_range'_1] at known
  omega

theorem undispatched (program : ProgramRef) (requestId : Nat)
    (member : requestId ∈ runtime.waiting program) : requestId ∉ runtime.dispatchedIds := by
  intro gone
  obtain ⟨event, recorded, selected⟩ := List.mem_filterMap.mp gone
  cases event with
  | dispatched _ dispatch =>
    have served : requestId ∈ runtime.dispatches dispatch.program :=
      List.mem_filterMap.mpr ⟨_, recorded, by
        simp only [dispatchedBy, if_true]
        exact selected⟩
    have ledger := booked.fifo program
    have own := ((ledger.mem_iff _).mp (List.mem_append_right _ member)).1
    have theirs := (((booked.fifo dispatch.program).mem_iff requestId).mp
      (List.mem_append_left _ served)).1
    rw [booked.owned _ _ requestId theirs own] at served
    exact (List.nodup_append.mp ledger.nodup).2.2 requestId served _ member rfl
  | _ => cases selected

theorem skip (events : List LifecycleEvent)
    (unrelated : ∀ event ∈ events, event.aboutPlacement = true)
    (journal : next.journal = runtime.journal ++ events)
    (pool : runtime.requestPool.Same next.requestPool) : Booked next := by
  have kept {α : Type} (select : LifecycleEvent → Option α)
      (ignores : ∀ event, event.aboutPlacement = true → select event = none) :
      next.journal.filterMap select = runtime.journal.filterMap select := by
    rw [journal, List.filterMap_append, List.filterMap_eq_nil_iff.mpr (fun event member =>
      ignores event (unrelated event member)), List.append_nil]
  have arrivals : next.arrivals = runtime.arrivals :=
    funext fun program => kept _ fun _ placed => (ignored placed program).1
  have dispatches : next.dispatches = runtime.dispatches :=
    funext fun program => kept _ fun _ placed => (ignored placed program).2.1
  have cancellations : next.cancellations = runtime.cancellations :=
    funext fun program => kept _ fun _ placed => (ignored placed program).2.2.1
  have identifiers : next.identifiers = runtime.identifiers :=
    kept _ fun _ placed => (ignored placed ⟨"", "", 0⟩).2.2.2.1
  have dispatchedIds : next.dispatchedIds = runtime.dispatchedIds :=
    kept _ fun _ placed => (ignored placed ⟨"", "", 0⟩).2.2.2.2
  have waiting : next.waiting = runtime.waiting := by
    funext program
    simp [waiting, pool.queue]
  refine ⟨?_, ?_, ?_, ?_, ?_, ?_, ?_⟩
  · rw [identifiers, pool.nextRequestId, booked.numbered]
  · rw [arrivals]
    exact booked.owned
  · rw [arrivals, dispatches, cancellations, waiting]
    exact booked.fifo
  · rw [dispatchedIds]
    exact booked.once
  · rw [pool.requests]
    exact booked.stored
  · rw [pool.count, pool.requests, booked.counted]
  · rw [pool.count, pool.nextRequestId]
    exact booked.few

theorem silent (silent : Silent runtime next) : Booked next := by
  refine booked.skip [] (fun _ member => absurd member List.not_mem_nil) ?_ silent.pool
  rw [silent.journal, List.append_nil]

variable {request : PendingProgramRequest}

theorem retain (room : next.identifiers.length < 2 ^ 64)
    (numbered : request.id = wrappingSucc runtime.requestPool.nextRequestId)
    (requests : next.requestPool.requests = runtime.requestPool.requests.insert program
      (runtime.requestPool.queue program ++ [request]))
    (nextRequestId : next.requestPool.nextRequestId = request.id)
    (count : next.requestPool.retainedRequestCount =
      saturatingAdd runtime.requestPool.retainedRequestCount 1)
    (journal : next.journal = runtime.journal ++ [.retained program request.id]) : Booked next := by
  obtain ⟨arrived, dispatches, cancellations, identifiers, dispatchedIds⟩ := journal_append journal
  simp only [retainedId, Option.toList_some] at identifiers
  have arrivals other : next.arrivals other =
      runtime.arrivals other ++ if program = other then [request.id] else [] := by
    rw [arrived, retainedBy]
    split <;> rfl
  have waiting other : next.waiting other =
      runtime.waiting other ++ if program = other then [request.id] else [] := by
    simp only [waiting, queue, requests, Table.lookup_insert_eq]
    by_cases same : other = program
    · subst same
      simp
    · simp [same, Ne.symm same]
  -- The counter has not wrapped, so the identifier is a new one.
  rw [identifiers, booked.numbered, List.length_append, List.length_range',
    List.length_singleton] at room
  have number : request.id = runtime.requestPool.nextRequestId + 1 := by
    rw [numbered]
    exact Nat.mod_eq_of_lt room
  have unknown other : request.id ∉ runtime.arrivals other := by
    intro member
    have := booked.fresh member
    omega
  have few := booked.few
  have small : runtime.requestPool.retainedRequestCount < u64Max := by
    unfold u64Max
    omega
  refine ⟨?_, ?_, ?_, ?_, ?_, ?_, ?_⟩
  · rw [identifiers, booked.numbered, nextRequestId, number, List.range'_1_concat, Nat.add_comm]
  · intro first second requestId left right
    rw [arrivals, List.mem_append] at left right
    have newest owner (new : requestId ∈ if program = owner then [request.id] else []) :
        program = owner ∧ requestId = request.id := by
      split at new
      · exact ⟨‹_›, List.mem_singleton.mp new⟩
      · cases new
    rcases left with old | new <;> rcases right with old' | new'
    · exact booked.owned first second _ old old'
    · exact absurd old ((newest second new').2 ▸ unknown first)
    · exact absurd old' ((newest first new).2 ▸ unknown second)
    · exact (newest first new).1.symm.trans (newest second new').1
  · intro other
    rw [arrivals, waiting, dispatches, cancellations]
    simp only [dispatchedBy, cancelledBy, Option.toList_none, List.append_nil]
    by_cases same : program = other
    · rw [if_pos same]
      exact (booked.fifo _).arrive (unknown _)
    · rw [if_neg same, List.append_nil, List.append_nil]
      exact booked.fifo _
  · rw [dispatchedIds]
    simpa [dispatchedId] using booked.once
  · intro other
    rw [requests, Table.lookup_insert_eq]
    by_cases same : other = program
    · simp [same]
    · rw [if_neg same]
      exact booked.stored _
  · have inserted := Table.total_insert runtime.requestPool.requests List.length program
      (runtime.requestPool.queue program ++ [request])
    have length : ((runtime.requestPool.requests.lookup program).map List.length).getD 0 =
        (runtime.requestPool.queue program).length := by
      unfold queue
      cases runtime.requestPool.requests.lookup program <;> rfl
    rw [List.length_append, List.length_singleton] at inserted
    rw [count, saturatingAdd_of_lt small, requests, booked.counted]
    omega
  · rw [count, saturatingAdd_of_lt small, nextRequestId, number]
    exact Nat.succ_le_succ few

variable {queue rest : List PendingProgramRequest}

theorem leave (departs : event.retainedId = none ∧ ∀ other, event.retainedBy other = none ∧
      (other ≠ program → event.dispatchedBy other = none ∧ event.cancelledBy other = none))
    (stored : runtime.requestPool.requests.lookup program = some queue)
    (shorter : queue.length = rest.length + 1)
    (ledger : FifoLedger (runtime.arrivals program)
      (runtime.dispatches program ++ (event.dispatchedBy program).toList) (rest.map (·.id))
      (runtime.cancellations program ++ (event.cancelledBy program).toList))
    (once : (runtime.dispatchedIds ++ event.dispatchedId.toList).Nodup)
    (pool : (runtime.requestPool.leaving program rest).Same next.requestPool)
    (journal : next.journal = runtime.journal ++ [event]) : Booked next := by
  obtain ⟨arrived, dispatches, cancellations, identifiers, dispatchedIds⟩ := journal_append journal
  have arrivals : next.arrivals = runtime.arrivals := by
    funext other
    rw [arrived, (departs.2 other).1, Option.toList_none, List.append_nil]
  have waiting other : next.waiting other =
      if other = program then rest.map (·.id) else runtime.waiting other := by
    rw [waiting, pool.queue, queue_leaving]
    split <;> rfl
  have total := RequestPool.total_storeQueue rest stored
  obtain ⟨requests, nextRequestId, count⟩ := pool
  dsimp only [leaving] at requests nextRequestId count
  refine ⟨?_, ?_, ?_, ?_, ?_, ?_, ?_⟩
  · rw [identifiers, departs.1, nextRequestId, Option.toList_none, List.append_nil, booked.numbered]
  · rw [arrivals]
    exact booked.owned
  · intro other
    rw [arrivals, waiting, dispatches, cancellations]
    by_cases same : other = program
    · rw [if_pos same, same]
      exact ledger
    · obtain ⟨undispatched, uncancelled⟩ := (departs.2 other).2 same
      rw [if_neg same, undispatched, uncancelled, Option.toList_none, List.append_nil,
        List.append_nil]
      exact booked.fifo other
  · rw [dispatchedIds]
    exact once
  · intro other
    rw [requests, RequestPool.lookup_storeQueue]
    by_cases same : other = program
    · by_cases emptied : rest = [] <;> simp [same, emptied]
    · rw [if_neg same]
      exact booked.stored other
  · rw [count, requests, booked.counted]
    omega
  · rw [count, nextRequestId]
    exact (Nat.sub_le _ _).trans booked.few

theorem dispatch {dispatch : ProgramDispatch} (own : dispatch.program = program)
    (stored : runtime.requestPool.requests.lookup program = some (request :: rest))
    (pool : (runtime.requestPool.leaving program rest).Same next.requestPool)
    (journal : next.journal = runtime.journal ++ [.dispatched request.id dispatch]) :
    Booked next := by
  have waiting : runtime.waiting program = request.id :: rest.map (·.id) := by
    rw [waiting, queue_eq_of_lookup stored, List.map_cons]
  have ledger := booked.fifo program
  rw [waiting] at ledger
  refine booked.leave ⟨rfl, fun _ => ⟨rfl, fun apart => ⟨?_, rfl⟩⟩⟩ stored rfl ?_ ?_ pool journal
  · rw [dispatchedBy, own, if_neg apart.symm]
  · simpa [dispatchedBy, own, cancelledBy] using ledger.serve
  · have undispatched := booked.undispatched program request.id
      (by rw [waiting]; exact List.mem_cons_self)
    refine List.nodup_append.mpr ⟨booked.once, List.nodup_singleton _, ?_⟩
    intro _ member _ single same
    rw [List.mem_singleton.mp single] at same
    exact undispatched (same ▸ member)

theorem cancel {handle : ProgramRequestHandle} {position : Nat}
    (stored : runtime.requestPool.requests.lookup handle.program = some queue)
    (located : queue.findIdx? (fun request => request.id == handle.requestId) = some position)
    (pool : (runtime.requestPool.leaving handle.program (queue.eraseIdx position)).Same
      next.requestPool)
    (journal : next.journal = runtime.journal ++ [.cancelled handle.program handle.requestId]) :
    Booked next := by
  obtain ⟨present, named, _⟩ := List.findIdx?_eq_some_iff_getElem.mp located
  have waiting : runtime.waiting handle.program = queue.map (·.id) := by
    rw [waiting, queue_eq_of_lookup stored]
  have ledger := booked.fifo handle.program
  rw [waiting] at ledger
  have cancelled := ledger.cancel _ (by simpa using present)
  refine booked.leave ⟨rfl, fun _ => ⟨rfl, fun apart => ⟨rfl, ?_⟩⟩⟩ stored ?_ ?_ ?_ pool journal
  · rw [cancelledBy, if_neg apart.symm]
  · rw [List.length_eraseIdx_of_lt present]
    omega
  · simp only [List.getElem_map, List.eraseIdx_map, beq_iff_eq.mp named] at cancelled
    simpa [dispatchedBy, cancelledBy] using cancelled
  · simpa [dispatchedId] using booked.once

theorem step {label : Label} (stepped : RuntimeStep runtime next label)
    (room : next.identifiers.length < 2 ^ 64) : Booked next := by
  cases stepped with
  | quiet | paused | unmarked | completed | released =>
    exact booked.silent ‹_›
  | retained _ _ _ _ _ numbered requests nextRequestId count _ journal =>
    exact booked.retain room numbered requests nextRequestId count journal
  | admitted | invalidated =>
    rename_i pool _ journal
    exact booked.skip _ (by simp [aboutPlacement]) journal pool
  | dispatched _ _ _ _ _ _ _ waiting _ own _ _ _ pool _ journal =>
    exact booked.dispatch own waiting pool journal
  | cancelled _ _ _ stored located _ pool _ journal =>
    exact booked.cancel stored located pool journal

end Booked

/-- Requests are conserved: each identifier is given out once and is afterwards
in one place, and each Program generation is served in the order of arrival. -/
structure Conserves (runtime : ProgramRuntime) : Prop where
  distinct : runtime.identifiers.Nodup
  owned : ∀ first second requestId, requestId ∈ runtime.arrivals first →
    requestId ∈ runtime.arrivals second → first = second
  placed : ∀ program, ∀ requestId ∈ runtime.arrivals program,
    (runtime.waiting program).count requestId + (runtime.dispatches program).count requestId +
      (runtime.cancellations program).count requestId = 1
  once : runtime.dispatchedIds.Nodup
  fifo : ∀ program, runtime.dispatches program = (runtime.arrivals program).filter fun requestId =>
    requestId ∉ runtime.cancellations program ∧ requestId ∉ runtime.waiting program
  counted : runtime.retainedRequestCount = (runtime.requestPool.requests.values.map List.length).sum
  stored : ∀ program queue, runtime.requestPool.requests.lookup program = some queue → queue ≠ []

theorem Booked.conserves {runtime : ProgramRuntime} (booked : Booked runtime) :
    Conserves runtime where
  distinct := by
    rw [booked.numbered]
    exact List.nodup_range'
  owned := booked.owned
  placed := fun program _ member => (booked.fifo _).placed member
  once := booked.once
  fifo := fun program => (booked.fifo _).served_eq
  counted := booked.counted
  stored := fun program _ stored empty => booked.stored program (empty ▸ stored)

section Runs

variable {F T : Type} [F64 F] [AffinityTree T] {setup : Setup F}
  {trace : List (Event F × Output F)} {state : ProgramSchedulerState F T}

/-- In every run that retains fewer than `2 ^ 64` requests, requests are conserved. -/
theorem run_conserves (run : Run setup trace state)
    (few : state.runtime.identifiers.length < 2 ^ 64) : Conserves state.runtime :=
  (run.bounded LifecycleEvent.retainedId Booked .empty
    (fun _ _ _ stepped room booked => booked.step stepped room) few).conserves

theorem run_conserves_sample :
    ∃ trace state, Run (Sample.router false false) trace state ∧
      (state : Sample.State).runtime.arrivals ⟨"a", "p", 0⟩ = [1, 2, 3] ∧
      state.runtime.dispatches ⟨"a", "p", 0⟩ = [1] ∧
      state.runtime.cancellations ⟨"a", "p", 0⟩ = [3] ∧ Conserves state.runtime := by
  obtain ⟨trace, state, run, identifiers, facts⟩ := Sample.run_of_play (Sample.router false false)
    [.sync (Sample.snapshot 0 "a" ["t"]), .arrive (Sample.arrival "a" "p" 1) 1,
      .arrive (Sample.arrival "a" "p" 2) 2, .arrive (Sample.arrival "a" "p" 3) 3,
      .claim ⟨⟨"a", "p", 0⟩, 1, 0⟩ 4, .cancel ⟨⟨"a", "p", 0⟩, 3, 2⟩ 5 5 5]
    (fun _ state => state.runtime.identifiers = [1, 2, 3] ∧
      state.runtime.arrivals ⟨"a", "p", 0⟩ = [1, 2, 3] ∧
      state.runtime.dispatches ⟨"a", "p", 0⟩ = [1] ∧
      state.runtime.cancellations ⟨"a", "p", 0⟩ = [3]) (by decide +kernel)
  obtain ⟨arrivals, dispatches, cancellations⟩ := facts
  exact ⟨trace, state, run, arrivals, dispatches, cancellations,
    run_conserves run (by rw [identifiers]; decide)⟩

end Runs

end SmetricRouter.ProgramScheduling
