import SmetricRouter.ProgramScheduling.Card

/-! Every move of the machine is at most one step of each card. -/

namespace SmetricRouter.ProgramScheduling

open ProgramRuntime Function ProgramScheduling.Core Card

variable (queue : List ProgramRef) (program reference : ProgramRef)

theorem count_filter_ne :
    (queue.filter (· ≠ program)).count reference =
      if reference = program then 0 else queue.count reference := by
  by_cases same : reference = program
  · rw [if_pos same, List.count_eq_zero]
    simp [same]
  · rw [if_neg same]
    exact List.count_filter (by simpa using same)

theorem count_pushWaiter :
    (pushWaiter queue program).count reference =
      if reference = program then max 1 (queue.count reference) else queue.count reference := by
  unfold pushWaiter
  by_cases same : reference = program
  · subst same
    by_cases present : reference ∈ queue
    · have positive := List.count_pos_iff.mpr present
      simp only [present, if_true]
      omega
    · simp [present, List.count_eq_zero.mpr present]
  · have other : ¬ program = reference := fun equal => same equal.symm
    by_cases present : program ∈ queue <;> simp [present, same, other]

theorem count_append_singleton :
    (queue ++ [program]).count reference =
      if reference = program then queue.count reference + 1 else queue.count reference := by
  by_cases same : reference = program
  · subst same
    simp
  · have other : ¬ program = reference := fun equal => same equal.symm
    simp [same, other]

variable {old : RuntimeProgram} {globalMode : Bool}

namespace Core

variable (core : Core) (program reference : ProgramRef)

theorem card_setStanding (standing : Option Standing) :
    (core.setStanding program standing).card reference =
      if reference = program then { core.card reference with standing := standing }
      else core.card reference := by
  by_cases same : reference = program
  · subst same
    simp [card, setStanding]
  · simp [card, setStanding, same]

theorem setStanding_setStanding (program : ProgramRef) (first second : Option Standing) :
    (core.setStanding program first).setStanding program second =
      core.setStanding program second := by
  simp [setStanding]

theorem card_dequeue :
    (core.dequeue program).card reference =
      if reference = program then (core.card reference).unqueued else core.card reference := by
  by_cases same : reference = program
  · simp only [card, dequeue, unqueued, count_filter_ne, same, if_true]
  · simp [card, dequeue, same]

variable {reference : ProgramRef}

theorem card_editQueue (globalMode : Bool) (pool target : String) {program : ProgramRef}
    {change : List ProgramRef → List ProgramRef} {count : Nat → Nat}
    (counts : ∀ queue : List ProgramRef, (change queue).count reference =
      if reference = program then count (queue.count reference) else queue.count reference) :
    (core.editQueue globalMode pool target change).card reference =
      if reference = program then (core.card reference).setQueue globalMode pool target count
      else core.card reference := by
  have updated (queues : String → List ProgramRef) name :
      (fun other => (update queues name (change (queues name)) other).count reference) =
        if reference = program then
          update (fun other => (queues other).count reference) name
            (count ((queues name).count reference))
        else fun other => (queues other).count reference := by
    funext other
    by_cases here : other = name
    · subst here
      rw [update_self, counts]
      by_cases same : reference = program <;> simp [same]
    · by_cases same : reference = program <;> simp [here, same]
  cases globalMode with
  | true =>
    by_cases same : reference = program <;> simp_all [card, editQueue, setQueue]
  | false =>
    by_cases same : reference = program <;> simp_all [card, editQueue, setQueue]

variable (runtime : ProgramRuntime)

theorem card_runtime (reference : ProgramRef) :
    card { core with runtime := runtime } reference =
      { core.card reference with
        program := runtime.find reference
        requests := runtime.requestPool.queue reference } := rfl

theorem card_runtime_same (found : runtime.find reference = core.runtime.find reference)
    (waiting : runtime.requestPool.queue reference = core.runtime.requestPool.queue reference) :
    card { core with runtime := runtime } reference = core.card reference := by
  rw [card_runtime, found, waiting]
  rfl

theorem card_of_insert (found : core.runtime.find reference = some old) (record : RuntimeProgram)
    (exact : record.reference = reference)
    (programs : runtime.programs = core.runtime.programs.insert reference.key record)
    (requests : ∀ other, other ≠ reference →
      runtime.requestPool.queue other = core.runtime.requestPool.queue other) (other : ProgramRef) :
    card { core with runtime := runtime } other =
      if other = reference then
        { core.card reference with
          program := some record
          requests := runtime.requestPool.queue reference }
      else core.card other := by
  subst exact
  have finds := find_of_insert _ programs (reference_of_find found) other
  by_cases same : other = record.reference
  · subst same
    rw [if_pos rfl] at finds ⊢
    rw [card_runtime, finds]
  · rw [if_neg same] at finds ⊢
    exact card_runtime_same _ _ finds (requests _ same)

section Arrival

variable {core : Core} (keyed : core.runtime.Keyed) (arrival : Arrival) {record : RuntimeProgram}
  (materialized : (core.runtime.materialize arrival.identity
    arrival.estimatedContextTokens).1 = record)

include keyed materialized

theorem card_retained (standing : Standing) (reference : ProgramRef) :
    (setStanding { core with runtime := (core.retained arrival).2 } record.reference
      (some standing)).card reference =
      if reference = record.reference then
        (core.card reference).retain { record with status := .reasoning } standing
          ⟨wrappingSucc core.runtime.requestPool.nextRequestId, arrival.arrivedAt,
            arrival.estimatedContextTokens, arrival.routingText, arrival.identity.requestHints,
            core.runtime.requestPool.nextNotifier⟩
      else core.card reference := by
  subst materialized
  rw [card_setStanding, card_runtime, retained, find_retainRequest keyed, queue_retainRequest]
  split <;> rfl

variable (home : Option String)
  (bound : ∀ target, home = some target → target ∈ core.targets arrival.identity.modelPool)
  (unbound : home = none → core.targets arrival.identity.modelPool = [])

include bound unbound

theorem retains_arrival :
    (core.card record.reference).Retains { record with status := .reasoning }
      (core.arrivingStanding record.reference home arrival.arrivedAt) arrival.arrivedAt := by
  subst materialized
  have pool := materialize_modelPool keyed arrival.identity arrival.estimatedContextTokens
  refine ⟨rfl, ?_, ?_, home, rfl, ?_, ?_⟩
  · intro _ live
    rcases materialize_find keyed arrival.identity arrival.estimatedContextTokens with
      ⟨known, found, record⟩ | ⟨absent, _⟩
    · cases found.symm.trans live
      rw [record]
      exact ⟨rfl, rfl, rfl⟩
    · cases absent.symm.trans live
  · intro absent
    rcases materialize_find keyed arrival.identity arrival.estimatedContextTokens with
      ⟨_, found, _⟩ | ⟨_, paused, unplaced, _, idle⟩
    · cases found.symm.trans absent
    · exact ⟨paused, unplaced, idle⟩
  · simpa [card, pool] using bound
  · simpa [card, pool] using unbound

omit materialized in
theorem cardStep_arrive (reference : ProgramRef) (deadline : Instant) :
    CardStep globalMode reference (core.card reference) (.arrive arrival)
      ((core.arrive globalMode arrival home deadline).card reference) := by
  have finds := find_retainRequest keyed arrival.identity
    arrival.estimatedContextTokens arrival.routingText arrival.arrivedAt
  have pool := materialize_modelPool keyed arrival.identity arrival.estimatedContextTokens
  have named : (core.retained arrival).1.program =
      (core.runtime.materialize arrival.identity arrival.estimatedContextTokens).1.reference := rfl
  generalize materialized : (core.runtime.materialize arrival.identity
    arrival.estimatedContextTokens).1 = record at *
  have retained := card_retained keyed arrival materialized
  have retains := retains_arrival keyed arrival materialized _ bound unbound
  unfold Core.retained at retained named
  simp only [arrive, placement, named, finds, if_true, Option.bind_some]
  generalize core.arrivingStanding record.reference home arrival.arrivedAt = standing at *
  cases placed : record.placement with
  | some =>
    simp only [Option.isSome_some, if_true, retained]
    by_cases same : reference = record.reference
    · rw [if_pos same]
      subst same
      exact .arrivePlaced _ _ _ _ retains (by simp [placed])
    · rw [if_neg same]
      exact .stay _ (by simp)
  | none =>
    simp only [Option.isSome_none, Bool.false_eq_true, if_false]
    cases last : standing.lastTarget with
    | none =>
      simp only [retained]
      by_cases same : reference = record.reference
      · rw [if_pos same]
        subst same
        exact .arriveHomeless _ _ _ _ retains pool placed last
      · rw [if_neg same]
        exact .stay _ (by simp)
    | some target =>
      have pushed := fun queue => count_pushWaiter queue record.reference reference
      rw [setStanding_setStanding, card_editQueue _ globalMode _ target pushed, retained]
      by_cases same : reference = record.reference
      · simp only [same, if_true]
        rw [← pool, ← last]
        exact .arriveQueued _ _ _ _ retains _ _ placed last
      · simp only [same, if_false]
        exact .stay _ (by simp)

end Arrival

end Core

variable {core : Core} (reference : ProgramRef) {label : Label}

theorem CardStep.of_eq {card next : Card}
    (unlisted : ∀ pool removed, label ≠ .shrink pool removed) (same : next = card) :
    CardStep globalMode reference card label next := same ▸ .stay label unlisted

variable {runtime next : ProgramRuntime}

namespace Core

theorem cardStep_activate (program : ProgramRef) (target : String) (runtime : ProgramRuntime)
    (listed : target ∈ core.targets program.modelPool)
    (activated : core.runtime.activate program target = some runtime) :
    CardStep globalMode reference (core.card reference) (.activate program target)
      ((core.activate program target runtime).card reference) := by
  obtain ⟨record, found, paused, waiting, rfl⟩ := activate_some activated
  have exact := (find_eq_some.mp found).2
  have changed := card_of_insert _
    ((core.runtime.openPlacement { record with status := .reasoning } target true).notifyFront
      program) found (core.runtime.opened record target) exact (by rw [← exact]; rfl)
    (fun other _ => RequestPool.queue_notifyFront _ _ _) reference
  simp only [activate, card_dequeue, card_setStanding, changed]
  by_cases same : reference = program
  · subst same
    simp only [if_true, notifyFront, RequestPool.queue_notifyFront]
    exact .activate _ target _ found paused waiting listed
  · simp only [same, if_false]
    exact .stay _ (by simp)

variable {program : ProgramRef} {runtime : ProgramRuntime}

theorem cardStep_of_insert (unlisted : ∀ pool removed, label ≠ .shrink pool removed)
    (found : core.runtime.find program = some old) (record : RuntimeProgram)
    (exact : record.reference = program)
    (programs : runtime.programs = core.runtime.programs.insert program.key record)
    (requests : ∀ other, other ≠ program →
      runtime.requestPool.queue other = core.runtime.requestPool.queue other)
    (step : CardStep globalMode program (core.card program) label
      { core.card program with
        program := some record
        requests := runtime.requestPool.queue program }) :
    CardStep globalMode reference (core.card reference) label
      (card { core with runtime := runtime } reference) := by
  rw [card_of_insert core runtime found record exact programs requests reference]
  by_cases same : reference = program
  · subst same
    rw [if_pos rfl]
    exact step
  · rw [if_neg same]
    exact .stay _ unlisted

theorem cardStep_pause
    (acting : ∀ record, core.runtime.find program = some record → record.status = .acting)
    (paused : core.runtime.pauseIdle program = some runtime) :
    CardStep globalMode reference (core.card reference) (.pause program)
      (card { core with runtime := runtime } reference) := by
  obtain ⟨record, found, active, idle, rfl⟩ := pauseIdle_some paused
  have exact := (find_eq_some.mp found).2
  refine cardStep_of_insert _ (by simp) found { record with state := .paused, placement := none }
    exact rfl (fun _ _ => rfl) ?_
  exact .pause _ found active (acting _ found) idle

variable (handle : ProgramRequestHandle)

theorem cardStep_dispatch {target : String} (now : Instant)
    (placed : core.runtime.placement handle.program = some target)
    (active : ∀ record, core.runtime.find handle.program = some record → record.state = .active) :
    CardStep globalMode reference (core.card reference) (.dispatch handle now)
      (card { core with runtime := (core.runtime.admitFront handle target now).2 } reference) := by
  obtain ⟨record, found, placement⟩ := Option.bind_eq_some_iff.mp placed
  obtain ⟨stored, exact⟩ := find_eq_some.mp found
  rw [admitFront_active now found (active record found) placement]
  simp only [dispatchFront, stored]
  cases taken : core.runtime.requestPool.takeFront handle with
  | none =>
    refine cardStep_of_insert _ (by simp) found { record with placementStartRequestPending := false }
      exact rfl (fun _ _ => rfl) ?_
    exact .unmark _ now _ found
  | some outcome =>
    obtain ⟨_, _⟩ := outcome
    obtain ⟨_, waiting, _, rfl⟩ := RequestPool.takeFront_some taken
    have front := RequestPool.queue_eq_of_lookup waiting
    have queues := RequestPool.queue_leaving core.runtime.requestPool handle.program
    refine cardStep_of_insert _ (by simp) found { record with
        placementStartRequestPending := false
        status := .reasoning
        inFlightRequests := saturatingAdd record.inFlightRequests 1 } exact rfl ?_ ?_
    · intro _ distinct
      rw [RequestPool.queue_notifyFront, queues, if_neg distinct]
    · rw [RequestPool.queue_notifyFront, queues, if_pos rfl]
      exact .dispatch _ now _ _ _ found (active _ found) front

theorem cardStep_complete {dispatch : ProgramDispatch} {usage : ProgramUsageObservation}
    (completed : core.runtime.completeRequest dispatch usage = some runtime) :
    CardStep globalMode reference (core.card reference) (.complete dispatch usage)
      (card { core with runtime := runtime } reference) := by
  obtain ⟨record, found, _, busy, rfl⟩ := completeRequest_some completed
  have exact := (find_eq_some.mp found).2
  refine cardStep_of_insert _ (by simp) found _ ?_ rfl (fun _ _ => rfl) ?_
  · exact exact
  · have quiet : core.runtime.requestPool.programLen record.reference = 0 ↔
        core.runtime.requestPool.queue dispatch.program = [] := by
      rw [exact]
      exact List.length_eq_zero_iff
    simp only [quiet]
    exact .complete _ _ _ _ found busy

theorem quiesce_reference (rest : List PendingProgramRequest) (program : RuntimeProgram) :
    (quiesce rest program).reference = program.reference := by
  unfold quiesce
  split_ifs <;> rfl

variable {handle : ProgramRequestHandle}

theorem find_cancelRequest {next : ProgramRuntime} {rest : List PendingProgramRequest}
    (programs : next.programs = runtime.programs.modify handle.program.key fun program =>
      if program.reference = handle.program ∧ program.inFlightRequests = 0 ∧ rest = [] then
        if program.state = .active then
          { program with status := .acting, state := .paused, placement := none }
        else { program with status := .acting }
      else program) :
    next.find = Function.update runtime.find handle.program
      ((runtime.find handle.program).map (quiesce rest)) := by
  have change program (exact : program.reference = handle.program) :
      (if program.reference = handle.program ∧ program.inFlightRequests = 0 ∧ rest = [] then
        if program.state = .active then
          { program with status := .acting, state := .paused, placement := none }
        else { program with status := .acting }
      else program) = quiesce rest program := by
    simp [quiesce, exact]
  have kept := quiesce_reference rest
  funext other
  rw [Function.update_apply]
  unfold find
  rw [programs, Table.lookup_modify]
  by_cases sameKey : other.key = handle.program.key
  · rw [sameKey]
    cases stored : runtime.programs.lookup handle.program.key with
    | none => simp
    | some program =>
      by_cases exact : program.reference = handle.program
      · rw [Option.map_some, change program exact]
        by_cases same : other = handle.program
        · simp [Option.filter, same, kept, exact]
        · have mismatch : ¬ handle.program = other := fun equal => same equal.symm
          simp [Option.filter, same, kept, exact, mismatch]
      · by_cases same : other = handle.program
        · simp [Option.filter, same, exact]
        · simp [Option.filter, same, exact]
  · have same : other ≠ handle.program := fun equal => sameKey (by rw [equal])
    rw [if_neg sameKey, if_neg same]

theorem cancelRequest_leaves (cancelled : runtime.cancelRequest handle = some next) :
    ∃ waiting position, runtime.requestPool.requests.lookup handle.program = some waiting ∧
      waiting.findIdx? (fun request => request.id == handle.requestId) = some position ∧
      next.find = Function.update runtime.find handle.program
        ((runtime.find handle.program).map (quiesce (waiting.eraseIdx position))) ∧
      (runtime.requestPool.leaving handle.program (waiting.eraseIdx position)).Same
        next.requestPool := by
  obtain ⟨wasFront, _, removed, pooled, programs, _⟩ :=
    cancelRequest_some cancelled
  obtain ⟨waiting, position, stored, located, _, rfl⟩ := RequestPool.cancel_some removed
  refine ⟨waiting, position, stored, located, ?_, ?_⟩
  · refine find_cancelRequest ?_
    rw [programs]
    congr 1
    funext program
    by_cases exact : program.reference = handle.program
    · simp [RequestPool.programLen, exact, RequestPool.queue_leaving]
    · simp [exact]
  · rw [pooled]
    cases wasFront
    · exact .refl _
    · exact (RequestPool.Same.refl _).notifyFront handle.program

theorem cardStep_cancel (cancelled : core.runtime.cancelRequest handle = some runtime) :
    CardStep globalMode reference (core.card reference) (.cancel handle)
      ((core.cancel handle.program runtime).card reference) := by
  obtain ⟨waiting, position, stored, located, finds, pooled⟩ := cancelRequest_leaves cancelled
  have queues other : runtime.requestPool.queue other =
      if other = handle.program then waiting.eraseIdx position
      else core.runtime.requestPool.queue other := by
    rw [pooled.queue, RequestPool.queue_leaving]
  have queued := RequestPool.queue_eq_of_lookup stored
  have present : position < waiting.length := (List.findIdx?_eq_some_iff_getElem.mp located).1
  by_cases same : reference = handle.program
  · subst same
    have cancelledCard : card { core with runtime := runtime } handle.program =
        { core.card handle.program with
          requests := (core.card handle.program).requests.eraseIdx position
          program := (core.card handle.program).program.map
            (Card.quiesce ((core.card handle.program).requests.eraseIdx position)) } := by
      rw [card_runtime, finds, Function.update_self, queues, if_pos rfl]
      simp [card, queued]
    have viewed : ((runtime.view handle.program).any fun view =>
        decide (0 < view.waitingRequests)) = true ↔
        (core.card handle.program).program.isSome ∧
          (core.card handle.program).requests.eraseIdx position ≠ [] := by
      simp only [view, finds, Function.update_self, card, queued]
      cases found : core.runtime.find handle.program with
      | none => simp
      | some =>
        have exact := (find_eq_some.mp found).2
        simp only [Option.map_some, Option.any_some, RequestPool.programLen, quiesce_reference,
          exact, queues, if_true, decide_eq_true_eq, Option.isSome_some, true_and,
          List.length_pos_iff]
    have stepped : (core.cancel handle.program runtime).card handle.program =
        (core.card handle.program).cancel position := by
      simp only [cancel, Card.cancel, viewed]
      split
      · exact cancelledCard
      · rw [card_dequeue, if_pos rfl, cancelledCard]
    rw [stepped]
    exact .cancel _ _ (by simpa [card, queued] using present)
  · have unchanged : (core.cancel handle.program runtime).card reference = core.card reference := by
      have frame := card_runtime_same _ _ (by rw [finds, Function.update_of_ne same])
        (by rw [queues, if_neg same])
      unfold cancel
      split
      · exact frame
      · rw [card_dequeue, if_neg same, frame]
    rw [unchanged]
    exact .stay _ (by simp)

theorem cardStep_release {now : Instant}
    (released : core.runtime.releaseIdle program now = some runtime) :
    CardStep globalMode reference (core.card reference) (.release program)
      ((core.release program runtime).card reference) := by
  obtain ⟨record, found, idle, quiet, next⟩ := releaseIdle_some released
  obtain ⟨stored, exact⟩ := find_eq_some.mp found
  subst exact
  have programs : runtime.programs = core.runtime.programs.erase record.reference.key := by
    rw [next]
  have pooled : runtime.requestPool = core.runtime.requestPool := by rw [next]
  have finds := find_of_erase programs stored reference
  rw [release, card_dequeue, card_setStanding, card_runtime core runtime, finds, pooled]
  by_cases same : reference = record.reference
  · subst same
    simp only [if_true]
    exact .release record found idle quiet
  · simp only [same, if_false]
    exact .stay _ (by simp)

variable {ids : List String} {pool : String}

theorem cardStep_extend (kept : ∀ target ∈ core.targets pool, target ∈ ids) :
    CardStep globalMode reference (core.card reference) (.extend pool)
      (card { core with targets := update core.targets pool ids } reference) := by
  by_cases same : reference.modelPool = pool
  · subst same
    have grown : card { core with
        targets := update core.targets reference.modelPool ids } reference =
        { core.card reference with targets := ids } := by
      simp [card]
    rw [grown]
    exact .extend ids kept
  · refine .of_eq _ (by simp) ?_
    simp [card, update_of_ne same]

variable {removed : List String}

theorem cardStep_shrink (settled : ∀ program standing, program.modelPool = pool →
      core.standing program = some standing →
        (∀ target, standing.lastTarget = some target → target ∈ ids) ∧
        (standing.lastTarget = none → ids = [])) (lost : ∀ target ∈ removed, target ∉ ids) :
    CardStep globalMode reference (core.card reference) (.shrink pool removed)
      ((core.shrink pool ids removed).card reference) := by
  have counts : (fun target => List.count reference
      (if target ∈ removed then [] else core.rankQueue target)) =
      fun target => if target ∈ removed then 0 else (core.rankQueue target).count reference := by
    funext target
    split <;> rfl
  by_cases same : reference.modelPool = pool
  · subst same
    have shrunk : (core.shrink reference.modelPool ids removed).card reference =
        { (core.card reference).lose removed with targets := ids } := by
      simp [card, shrink, lose, counts]
    rw [shrunk]
    exact .shrink ids _ (fun _ => settled _ _ rfl) lost
  · have shrunk : (core.shrink pool ids removed).card reference =
        (core.card reference).lose removed := by
      simp [card, shrink, lose, update_of_ne same, counts]
    rw [shrunk]
    exact .lose _ _ same

theorem card_interrupt (program : ProgramRef) (removed : List String) :
    card { core with
      runtime := (core.runtime.invalidatePlacement program removed).getD core.runtime }
      reference =
      if reference = program then
        { core.card reference with
          program := (core.card reference).program.map
            (interrupt removed (saturatingAdd core.runtime.nextPlacementEpoch 1)) }
      else core.card reference := by
  cases invalidated : core.runtime.invalidatePlacement program removed with
  | some runtime =>
    obtain ⟨record, _, found, placed, gone, next⟩ :=
      invalidatePlacement_some invalidated
    have exact := (find_eq_some.mp found).2
    have ended : interrupt removed (saturatingAdd core.runtime.nextPlacementEpoch 1) record =
        core.runtime.evicted record := by
      simp [interrupt, evicted, placed, gone]
    have pooled : runtime.requestPool = core.runtime.requestPool := by rw [next]
    have programs : runtime.programs = core.runtime.programs.insert program.key
        (interrupt removed (saturatingAdd core.runtime.nextPlacementEpoch 1) record) := by
      rw [next, ended]
    rw [Option.getD_some, card_of_insert core runtime found _ (by rw [ended]; exact exact) programs
      (fun _ _ => by rw [pooled]) reference]
    by_cases same : reference = program
    · subst same
      simp [pooled, card, found]
    · simp [same]
  | none =>
    rw [Option.getD_none]
    by_cases same : reference = program
    · subst same
      rw [if_pos rfl]
      cases found : core.runtime.find reference with
      | none => simp [card, found]
      | some record =>
        have kept : interrupt removed
            (saturatingAdd core.runtime.nextPlacementEpoch 1) record = record := by
          cases placed : record.placement with
          | none => simp [interrupt, placed]
          | some =>
            have outside := invalidatePlacement_none invalidated found placed
            simp [interrupt, placed, outside]
        simp [card, found, kept]
    · rw [if_neg same]

theorem cardStep_failOver {current : List String} {standing : Standing}
    {replacement : Option String} (standing_eq : core.standing program = some standing)
    (homeless : ∀ target, standing.lastTarget = some target → target ∈ removed)
    (listed : ∀ target ∈ current, target ∈ core.targets program.modelPool)
    (bound : ∀ target, replacement = some target → target ∈ current)
    (unbound : replacement = none → current = []) :
    CardStep globalMode reference (core.card reference) (.failOver program removed)
      ((core.failOver globalMode program removed standing replacement).card reference) := by
  have appended := fun queue => count_append_singleton queue program reference
  have movedCard : (dequeue (setStanding { core with
      runtime := (core.runtime.invalidatePlacement program removed).getD core.runtime } program
      (some { standing with lastTarget := replacement })) program).card reference =
      if reference = program then
        (core.card reference).moved removed (saturatingAdd core.runtime.nextPlacementEpoch 1)
          standing replacement
      else core.card reference := by
    rw [card_dequeue, card_setStanding, card_interrupt]
    by_cases same : reference = program
    · simp only [same, if_true]
      rfl
    · simp [same]
  by_cases same : reference = program
  · subst same
    rw [if_pos rfl] at movedCard
    have stepped : (core.failOver globalMode reference removed standing replacement).card
        reference =
        (core.card reference).failOver globalMode reference.modelPool removed
          (saturatingAdd core.runtime.nextPlacementEpoch 1) standing replacement := by
      simp only [failOver, Card.failOver]
      have queued : (core.card reference).requests = core.runtime.requestPool.queue reference := rfl
      rw [queued]
      by_cases quiet : core.runtime.requestPool.queue reference = []
      · rw [if_pos quiet, if_pos quiet, movedCard]
      · rw [if_neg quiet, if_neg quiet]
        cases globalMode with
        | true =>
          rw [if_pos rfl, card_editQueue _ true _ _ appended, if_pos rfl, movedCard]
          rfl
        | false =>
          cases replacement with
          | none => exact movedCard
          | some =>
            simp only [Bool.false_eq_true, if_false]
            rw [card_editQueue _ false _ _ appended, if_pos rfl, movedCard]
            rfl
    rw [stepped]
    exact .failOver current removed _ standing _ standing_eq homeless listed bound unbound
  · rw [if_neg same] at movedCard
    refine .of_eq reference (by simp) ?_
    simp only [failOver]
    split
    · exact movedCard
    · split
      · rw [card_editQueue _ true _ _ appended, if_neg same, movedCard]
      · split
        · rw [card_editQueue _ false _ _ appended, if_neg same, movedCard]
        · exact movedCard

end Core

namespace ProgramRuntime

theorem Keyed.modify {key : RuntimeKey}
    {change : RuntimeProgram → RuntimeProgram} (keyed : runtime.Keyed)
    (kept : ∀ program, (change program).reference = program.reference)
    (programs : next.programs = runtime.programs.modify key change) : next.Keyed := by
  intro other _ found
  rw [programs, Table.lookup_modify] at found
  by_cases same : other = key
  · rw [if_pos same, Option.map_eq_some_iff] at found
    obtain ⟨old, stored, rfl⟩ := found
    rw [kept, keyed key old stored, same]
  · rw [if_neg same] at found
    exact keyed _ _ found

theorem Keyed.admitFront (keyed : runtime.Keyed)
    {handle : ProgramRequestHandle} {target : String} {program : RuntimeProgram} (now : Instant)
    (found : runtime.find handle.program = some program) (active : program.state = .active)
    (placed : program.placement = some target) :
    (runtime.admitFront handle target now).2.Keyed := by
  obtain ⟨stored, exact⟩ := find_eq_some.mp found
  rw [admitFront_active now found active placed]
  simp only [dispatchFront, stored]
  split
  · refine keyed.insert _ ?_ rfl
    exact congrArg ProgramRef.key exact
  · refine keyed.insert _ ?_ rfl
    exact congrArg ProgramRef.key exact

end ProgramRuntime

namespace Core

section Frame

variable (core : Core) (globalMode : Bool)

theorem runtime_arrive (arrival : Arrival) (home : Option String) (deadline : Instant) :
    (core.arrive globalMode arrival home deadline).runtime =
      (core.retained arrival).2 := by
  simp only [arrive]
  split
  · rfl
  · split
    · rfl
    · cases globalMode <;> rfl

theorem failOver_frame (removed : List String) (program : ProgramRef) (standing : Standing)
    (replacement : Option String) :
    (core.failOver globalMode program removed standing replacement).standing =
        update core.standing program (some { standing with lastTarget := replacement }) ∧
      (core.failOver globalMode program removed standing replacement).targets = core.targets ∧
      (core.failOver globalMode program removed standing replacement).runtime =
        (core.runtime.invalidatePlacement program removed).getD core.runtime := by
  fun_cases Core.failOver core globalMode program removed standing replacement <;>
    exact ⟨rfl, rfl, rfl⟩

end Frame

end Core

namespace Move

variable {next : Core}

variable (taken : Move globalMode core label next)

include taken

theorem keyed (keyed : core.runtime.Keyed) : next.runtime.Keyed := by
  cases taken with
  | arrive arrival =>
    have retained := keyed.retainRequest arrival.identity arrival.estimatedContextTokens
      arrival.routingText arrival.arrivedAt
    rw [runtime_arrive]
    exact retained
  | activate _ target runtime _ activated =>
    obtain ⟨record, found, _, _, rfl⟩ := activate_some activated
    exact keyed.insert (core.runtime.opened record target) rfl rfl
  | pause _ _ _ paused =>
    obtain ⟨record, found, _, _, rfl⟩ := pauseIdle_some paused
    refine keyed.insert _ ?_ rfl
    exact congrArg ProgramRef.key (find_eq_some.mp found).2
  | dispatch _ _ now placed active =>
    obtain ⟨record, found, placement⟩ := Option.bind_eq_some_iff.mp placed
    exact keyed.admitFront now found (active _ found) placement
  | complete _ _ _ _ completed =>
    obtain ⟨record, found, _, _, rfl⟩ := completeRequest_some completed
    refine keyed.insert _ ?_ rfl
    exact congrArg ProgramRef.key (find_eq_some.mp found).2
  | cancel _ _ cancelled =>
    obtain ⟨_, _, _, _, programs, _⟩ := cancelRequest_some cancelled
    have kept := keyed.modify (fun program => by split_ifs <;> rfl) programs
    unfold Core.cancel
    split <;> exact kept
  | release program _ runtime released =>
    obtain ⟨_, _, _, _, next⟩ := releaseIdle_some released
    have programs : runtime.programs = core.runtime.programs.erase program.key := by rw [next]
    exact keyed.erase programs
  | prune | wake | extend | shrink => exact keyed
  | failOver program _ removed =>
    have kept : ((core.runtime.invalidatePlacement program removed).getD core.runtime).Keyed := by
      cases invalidated : core.runtime.invalidatePlacement program removed with
      | none => exact keyed
      | some =>
        obtain ⟨_, _, found, _, _, rfl⟩ :=
          invalidatePlacement_some invalidated
        refine keyed.insert _ ?_ rfl
        exact congrArg ProgramRef.key (find_eq_some.mp found).2
    rw [(failOver_frame _ _ _ _ _ _).2.2]
    exact kept

theorem cardStep (keyed : core.runtime.Keyed) :
    CardStep globalMode reference (core.card reference) label (next.card reference) := by
  cases taken with
  | arrive _ home _ bound unbound =>
    exact cardStep_arrive keyed _ _ bound unbound _ _
  | activate program target runtime listed activated =>
    exact cardStep_activate _ _ _ _ listed activated
  | pause program runtime acting paused =>
    exact cardStep_pause _ acting paused
  | dispatch handle _ now placed active =>
    exact cardStep_dispatch _ _ now placed active
  | complete _ _ runtime _ completed =>
    exact cardStep_complete _ completed
  | cancel _ runtime cancelled =>
    exact cardStep_cancel _ cancelled
  | release program now _ released =>
    exact cardStep_release _ released
  | prune => exact .stay _ (by simp)
  | wake program =>
    exact .of_eq _ (by simp) (card_runtime_same core _ rfl (RequestPool.queue_notifyFront _ _ _))
  | extend _ ids kept => exact cardStep_extend _ kept
  | failOver _ current removed _ _ standing_eq homeless listed bound
      unbound =>
    exact cardStep_failOver _ standing_eq homeless listed bound unbound
  | shrink _ ids _ settled lost =>
    exact cardStep_shrink _ settled lost

end Move

end SmetricRouter.ProgramScheduling
