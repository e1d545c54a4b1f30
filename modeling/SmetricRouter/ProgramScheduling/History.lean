import SmetricRouter.ProgramScheduling.RunInvariants

/-! What the moves of the machine write down.

The runtime numbers requests and placements, and its journal keeps what was
retained, admitted, dispatched, cancelled and invalidated. This is everything a
move can do to the records, the requests, the numbers and the journal at once.
-/

namespace SmetricRouter.ProgramScheduling

open ProgramRuntime

/-- The record with which a Program takes a request continues the one it has. -/
structure Continues (old : Option RuntimeProgram) (record : RuntimeProgram) : Prop where
  live : ∀ before, old = some before →
    record.state = before.state ∧ record.placement = before.placement ∧
      record.placementEpoch = before.placementEpoch ∧
      record.inFlightRequests = before.inFlightRequests
  fresh : old = none → Fresh record

def Label.flies : Label → Prop
  | .dispatch _ _ | .complete _ _ => True
  | _ => False

variable {label : Label}

theorem Label.scheduling_grounded (allowed : label.scheduling) : ¬ label.flies := by
  cases label with
  | dispatch | complete => exact allowed.elim
  | _ => exact id

theorem Label.syncing_grounded {pool : String} {removed : List String}
    (allowed : label.syncing pool removed) : ¬ label.flies := by
  cases label with
  | dispatch | complete => exact allowed.elim
  | _ => exact id

/-- Nothing but the records changes. -/
structure Silent (runtime next : ProgramRuntime) : Prop where
  pool : runtime.requestPool.Same next.requestPool
  epoch : next.nextPlacementEpoch = runtime.nextPlacementEpoch
  journal : next.journal = runtime.journal

/-- What a move of a given name writes down. -/
inductive RuntimeStep (runtime next : ProgramRuntime) : Label → Prop where
  | quiet (label : Label) (grounded : ¬ label.flies) (finds : next.find = runtime.find)
      (silent : Silent runtime next) : RuntimeStep runtime next label
  | retained (arrival record request) (continues : Continues (runtime.find record.reference) record)
      (finds : next.find = Function.update runtime.find record.reference (some record))
      (numbered : request.id = wrappingSucc runtime.requestPool.nextRequestId)
      (requests : next.requestPool.requests = runtime.requestPool.requests.insert record.reference
        (runtime.requestPool.queue record.reference ++ [request]))
      (nextRequestId : next.requestPool.nextRequestId = request.id)
      (count : next.requestPool.retainedRequestCount =
        saturatingAdd runtime.requestPool.retainedRequestCount 1)
      (epoch : next.nextPlacementEpoch = runtime.nextPlacementEpoch)
      (journal : next.journal = runtime.journal ++ [.retained record.reference request.id]) :
      RuntimeStep runtime next (.arrive arrival)
  | admitted (program target record) (found : runtime.find program = some record)
      (paused : record.state = .paused)
      (finds : next.find = Function.update runtime.find program
        (some (runtime.opened record target)))
      (pool : runtime.requestPool.Same next.requestPool)
      (epoch : next.nextPlacementEpoch = saturatingAdd runtime.nextPlacementEpoch 1)
      (journal : next.journal = runtime.journal ++
        [.admitted program (saturatingAdd runtime.nextPlacementEpoch 1)]) :
      RuntimeStep runtime next (.activate program target)
  | paused (program record) (found : runtime.find program = some record)
      (idle : record.inFlightRequests = 0)
      (finds : next.find = Function.update runtime.find program
        (some { record with state := .paused, placement := none }))
      (silent : Silent runtime next) : RuntimeStep runtime next (.pause program)
  | unmarked (handle now record) (found : runtime.find handle.program = some record)
      (finds : next.find = Function.update runtime.find handle.program
        (some { record with placementStartRequestPending := false }))
      (silent : Silent runtime next) : RuntimeStep runtime next (.dispatch handle now)
  | dispatched (handle now record request rest dispatch)
      (found : runtime.find handle.program = some record)
      (waiting : runtime.requestPool.requests.lookup handle.program = some (request :: rest))
      (named : request.id = handle.requestId) (own : dispatch.program = handle.program)
      (current : dispatch.placementEpoch = record.placementEpoch)
      (placed : record.placement = some dispatch.targetId)
      (finds : next.find = Function.update runtime.find handle.program (some
        { record with
          placementStartRequestPending := false
          status := .reasoning
          inFlightRequests := saturatingAdd record.inFlightRequests 1 }))
      (pool : (runtime.requestPool.leaving handle.program rest).Same next.requestPool)
      (epoch : next.nextPlacementEpoch = runtime.nextPlacementEpoch)
      (journal : next.journal = runtime.journal ++ [.dispatched request.id dispatch]) :
      RuntimeStep runtime next (.dispatch handle now)
  | completed (dispatch usage record after) (found : runtime.find dispatch.program = some record)
      (current : record.placementEpoch = dispatch.placementEpoch)
      (busy : record.inFlightRequests ≠ 0)
      (kept : after.state = record.state ∧ after.placement = record.placement ∧
        after.placementEpoch = record.placementEpoch)
      (counted : after.inFlightRequests = record.inFlightRequests - 1)
      (finds : next.find = Function.update runtime.find dispatch.program (some after))
      (silent : Silent runtime next) :
      RuntimeStep runtime next (.complete dispatch usage)
  | cancelled (handle waiting position)
      (stored : runtime.requestPool.requests.lookup handle.program = some waiting)
      (located : waiting.findIdx? (fun request => request.id == handle.requestId) = some position)
      (finds : next.find = Function.update runtime.find handle.program
        ((runtime.find handle.program).map (Card.quiesce (waiting.eraseIdx position))))
      (pool : (runtime.requestPool.leaving handle.program (waiting.eraseIdx position)).Same
        next.requestPool)
      (epoch : next.nextPlacementEpoch = runtime.nextPlacementEpoch)
      (journal : next.journal = runtime.journal ++ [.cancelled handle.program handle.requestId]) :
      RuntimeStep runtime next (.cancel handle)
  | released (program record) (found : runtime.find program = some record)
      (idle : record.inFlightRequests = 0)
      (finds : next.find = Function.update runtime.find program none)
      (silent : Silent runtime next) : RuntimeStep runtime next (.release program)
  | invalidated (program removed record target) (found : runtime.find program = some record)
      (placed : record.placement = some target) (gone : target ∈ removed)
      (finds : next.find = Function.update runtime.find program
        (some (runtime.evicted record)))
      (pool : runtime.requestPool.Same next.requestPool)
      (epoch : next.nextPlacementEpoch = saturatingAdd runtime.nextPlacementEpoch 1)
      (journal : next.journal = runtime.journal ++
        [.invalidated program (saturatingAdd runtime.nextPlacementEpoch 1)]) :
      RuntimeStep runtime next (.failOver program removed)

theorem RuntimeStep.journal_extends {runtime next : ProgramRuntime}
    (stepped : RuntimeStep runtime next label) :
    ∃ events, next.journal = runtime.journal ++ events := by
  cases stepped with
  | quiet | paused | unmarked | completed | released =>
    have silent : Silent runtime next := ‹_›
    exact ⟨[], by rw [silent.journal, List.append_nil]⟩
  | _ => exact ⟨_, by assumption⟩

theorem Core.runtime_cancel (core : Core) (program : ProgramRef) (runtime : ProgramRuntime) :
    (core.cancel program runtime).runtime = runtime := by
  simp only [cancel]
  split <;> rfl

namespace ProgramRuntime

variable {runtime : ProgramRuntime}

theorem retainRequest_step (keyed : runtime.Keyed) {arrival : Arrival} :
    RuntimeStep runtime (runtime.retainRequest arrival.identity arrival.estimatedContextTokens
      arrival.routingText arrival.arrivedAt).2 (.arrive arrival) := by
  refine .retained _ { (runtime.materialize arrival.identity arrival.estimatedContextTokens).1 with
      status := .reasoning }
    ⟨wrappingSucc runtime.requestPool.nextRequestId, arrival.arrivedAt,
      arrival.estimatedContextTokens, arrival.routingText, arrival.identity.requestHints,
      runtime.requestPool.nextNotifier⟩ ?_ ?_ rfl rfl rfl rfl rfl rfl
  · constructor
    · intro _ live
      rcases materialize_find keyed arrival.identity arrival.estimatedContextTokens with
        ⟨old, found, record⟩ | ⟨absent, _⟩
      · cases found.symm.trans live
        rw [record]
        exact ⟨rfl, rfl, rfl, rfl⟩
      · cases absent.symm.trans live
    · intro absent
      rcases materialize_find keyed arrival.identity arrival.estimatedContextTokens with
        ⟨_, found, _⟩ | ⟨_, fresh⟩
      · cases found.symm.trans absent
      · exact ⟨fresh.paused, fresh.unplaced, fresh.unnumbered, fresh.idle⟩
  · funext other
    rw [find_retainRequest keyed, Function.update_apply]

variable {handle : ProgramRequestHandle} {record : RuntimeProgram} {target : String}

theorem admitFront_step (now : Instant) (found : runtime.find handle.program = some record)
    (active : record.state = .active) (placed : record.placement = some target) :
    RuntimeStep runtime (runtime.admitFront handle target now).2 (.dispatch handle now) := by
  obtain ⟨stored, exact⟩ := find_eq_some.mp found
  rw [admitFront_active now found active placed]
  simp only [dispatchFront, stored]
  cases taken : runtime.requestPool.takeFront handle with
  | none =>
    exact .unmarked _ now _ found (find_update_of_insert found _ exact rfl) ⟨.refl _, rfl, rfl⟩
  | some outcome =>
    obtain ⟨request, _⟩ := outcome
    obtain ⟨rest, waiting, named, rfl⟩ := RequestPool.takeFront_some taken
    exact .dispatched _ now _ _ _ _ found waiting named exact rfl placed
      (find_update_of_insert found _ exact rfl)
      ((RequestPool.Same.refl _).notifyFront record.reference) rfl rfl

theorem admitFront_journal (now : Instant) (found : runtime.find handle.program = some record)
    (active : record.state = .active) (placed : record.placement = some target) :
    (runtime.admitFront handle target now).2.journal = runtime.journal ++
      ((runtime.admitFront handle target now).1.map
        (LifecycleEvent.dispatched handle.requestId)).toList := by
  obtain ⟨stored, _⟩ := find_eq_some.mp found
  rw [admitFront_active now found active placed]
  simp only [dispatchFront, stored]
  cases taken : runtime.requestPool.takeFront handle with
  | none => simp
  | some outcome =>
    obtain ⟨_, _⟩ := outcome
    obtain ⟨_, _, named, rfl⟩ := RequestPool.takeFront_some taken
    simp [named]

end ProgramRuntime

theorem Move.runtimeStep {globalMode : Bool} {core next : Core}
    (taken : Move globalMode core label next) (keyed : core.runtime.Keyed) :
    RuntimeStep core.runtime next.runtime label := by
  cases taken with
  | arrive arrival =>
    rw [Core.runtime_arrive]
    exact retainRequest_step keyed
  | activate _ target _ _ activated =>
    obtain ⟨record, found, paused, waiting, rfl⟩ := activate_some activated
    have exact := (find_eq_some.mp found).2
    subst exact
    exact .admitted record.reference _ _ found paused (find_update_of_insert found _ rfl rfl)
      ((RequestPool.Same.refl _).notifyFront record.reference) rfl rfl
  | pause program _ _ paused =>
    obtain ⟨record, found, active, idle, rfl⟩ := pauseIdle_some paused
    exact .paused _ _ found idle (find_update_of_insert found _ (find_eq_some.mp found).2 rfl)
      ⟨.refl _, rfl, rfl⟩
  | dispatch _ _ now placed active =>
    obtain ⟨record, found, placement⟩ := Option.bind_eq_some_iff.mp placed
    exact admitFront_step now found (active _ found) placement
  | complete dispatch usage _ _ completed =>
    obtain ⟨record, found, current, busy, rfl⟩ := completeRequest_some completed
    refine .completed _ _ _ _ found current busy ?_ ?_
      (find_update_of_insert found _ ?_ rfl) ⟨.refl _, rfl, rfl⟩
    · exact ⟨rfl, rfl, rfl⟩
    · rfl
    · exact (find_eq_some.mp found).2
  | cancel handle _ cancelled =>
    rw [Core.runtime_cancel]
    obtain ⟨_, _, _, _, _, _, _, epoch, journal⟩ := cancelRequest_some cancelled
    obtain ⟨waiting, position, stored, located, finds, pooled⟩ :=
      Core.cancelRequest_leaves cancelled
    exact .cancelled _ waiting _ stored located finds pooled epoch journal
  | release _ _ _ released =>
    obtain ⟨record, found, idle, quiet, rfl⟩ := releaseIdle_some released
    obtain ⟨stored, exact⟩ := find_eq_some.mp found
    subst exact
    refine .released record.reference _ found idle ?_ ⟨.refl _, rfl, rfl⟩
    funext other
    rw [Function.update_apply]
    exact find_of_erase rfl stored _
  | prune | extend | shrink => exact .quiet _ id rfl ⟨.refl _, rfl, rfl⟩
  | wake program => exact .quiet _ id rfl ⟨(RequestPool.Same.refl _).notifyFront _, rfl, rfl⟩
  | failOver program _ removed =>
    rw [(Core.failOver_frame _ _ _ _ _ _).2.2]
    cases invalidated : core.runtime.invalidatePlacement program removed with
    | none => exact .quiet _ id rfl ⟨.refl _, rfl, rfl⟩
    | some =>
      obtain ⟨record, target, found, placed, gone, rfl⟩ :=
        invalidatePlacement_some invalidated
      exact .invalidated _ _ _ _ found placed gone (find_update_of_insert found _
          (find_eq_some.mp found).2 rfl) (.refl _) rfl rfl

/-- What every step keeps as long as the journal has few events of some kind
holds in every run whose journal has few of them. -/
theorem Run.bounded {F T : Type} [F64 F] [AffinityTree T] {setup : Setup F}
    {trace : List (Event F × Output F)} {state : ProgramSchedulerState F T} {α : Type}
    (select : LifecycleEvent → Option α) (holds : ProgramRuntime → Prop) (initially : holds .empty)
    (step : ∀ runtime label next, RuntimeStep runtime next label →
      (next.journal.filterMap select).length < 2 ^ 64 → holds runtime → holds next)
    (run : Run setup trace state) (few : (state.runtime.journal.filterMap select).length < 2 ^ 64) :
    holds state.runtime := by
  refine run.invariant (fun _ core =>
    (core.runtime.journal.filterMap _).length < 2 ^ 64 → holds core.runtime) ?_ ?_ few
  · exact fun _ => initially
  · intro _ core _ _ next inv transition held
    refine transition.keeps (fun core =>
      (core.runtime.journal.filterMap _).length < 2 ^ 64 → holds core.runtime) inv ?_ held
    intro core label next inv taken held room
    have stepped := taken.runtimeStep inv.keyed
    obtain ⟨_, journal⟩ := stepped.journal_extends
    refine step core.runtime _ next.runtime stepped room (held ?_)
    rw [journal, List.filterMap_append, List.length_append] at room
    omega

end SmetricRouter.ProgramScheduling
