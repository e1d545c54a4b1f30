import SmetricRouter.ProgramScheduling.Tasks

/-! What an acquisition leaves behind when it returns an error.

A timeout cancels the request on its way out. The error of an arrival that finds
no target returns before anything would cancel the request, which stays retained.
-/

namespace SmetricRouter.ProgramScheduling

open ProgramRuntime Sample RequestPool

variable {globalMode : Bool} {core next : Core} {runtime : ProgramRuntime} {F : Type}
  {event : Event F} {output : Output F}

section Queues

theorem RuntimeStep.queue_sublist {next : ProgramRuntime} {label : Label}
    (stepped : RuntimeStep runtime next label) (settled : ¬ label.arrives) (program : ProgramRef) :
    (next.requestPool.queue program).Sublist (runtime.requestPool.queue program) := by
  have left (handle : ProgramRequestHandle) rest
      (pool : (runtime.requestPool.leaving handle.program rest).Same next.requestPool)
      (shorter : rest.Sublist (runtime.requestPool.queue handle.program)) :
      (next.requestPool.queue program).Sublist (runtime.requestPool.queue program) := by
    rw [pool.queue, queue_leaving]
    split
    · rename_i same
      rw [same]
      exact shorter
    · exact .refl _
  cases stepped with
  | quiet | paused | unmarked | completed | released =>
    have silent : Silent runtime next := ‹_›
    rw [silent.pool.queue]
  | admitted | invalidated =>
    rename_i pool _ _
    rw [pool.queue]
  | retained => exact absurd trivial settled
  | dispatched _ _ _ _ _ _ _ waiting _ _ _ _ _ pool =>
    refine left _ _ pool ?_
    rw [queue_eq_of_lookup waiting]
    exact List.sublist_cons_self _ _
  | cancelled _ waiting _ stored _ _ pool =>
    refine left _ _ pool ?_
    rw [queue_eq_of_lookup stored]
    exact List.eraseIdx_sublist waiting _

theorem Transition.queue_sublist
    (transition : Transition globalMode core event output next) (inv : core.Inv globalMode)
    (settled : ¬ event.arrives) (program : ProgramRef) :
    (next.runtime.requestPool.queue program).Sublist (core.runtime.requestPool.queue program) := by
  refine transition.keeps_settled (fun later => (later.runtime.requestPool.queue _).Sublist
    (core.runtime.requestPool.queue _)) inv settled ?_ (.refl _)
  intro _ _ _ sound plain moved shorter
  exact ((moved.runtimeStep sound.keyed).queue_sublist plain _).trans shorter

end Queues

variable {handle : ProgramRequestHandle}

theorem ProgramRuntime.cancelRequest_removes {next : ProgramRuntime}
    (cancelled : runtime.cancelRequest handle = some next)
    (distinct : ((runtime.requestPool.queue handle.program).map (·.id)).Nodup) :
    ∀ request ∈ next.requestPool.queue handle.program, request.id ≠ handle.requestId := by
  obtain ⟨waiting, position, stored, located, _, pooled⟩ := Core.cancelRequest_leaves cancelled
  rw [queue_eq_of_lookup stored] at distinct
  intro _ member named
  rw [pooled.queue, queue_leaving, if_pos rfl] at member
  obtain ⟨inside, matched, _⟩ := List.findIdx?_eq_some_iff_getElem.mp located
  have here : waiting[position].id = handle.requestId := by simpa using matched
  obtain ⟨other, bound, apart, found⟩ := List.mem_eraseIdx_iff_getElem.mp member
  have same : other = position := by
    refine (@List.Nodup.getElem_inj_iff _ _ distinct _ (by simpa using bound) position
      (by simpa using inside)).mp ?_
    rw [List.getElem_map, List.getElem_map, found, named, here]
  exact apart same

theorem ProgramRuntime.cancelRequest_absent (absent : runtime.cancelRequest handle = none) :
    ∀ request ∈ runtime.requestPool.queue handle.program, request.id ≠ handle.requestId := by
  intro request member named
  unfold queue at member
  cases stored : runtime.requestPool.requests.lookup handle.program with
  | none =>
    rw [stored] at member
    cases member
  | some waiting =>
    rw [stored] at member
    cases located : waiting.findIdx? fun request => request.id == handle.requestId with
    | none => exact absurd named (by simpa using List.findIdx?_eq_none_iff.mp located request member)
    | some => simp [cancelRequest, cancel, stored, located] at absent

theorem Transition.cancel_removes {pausedAt releasedAt scheduledAt : Instant}
    (transition : Transition globalMode core (.cancel handle pausedAt releasedAt scheduledAt)
      output next) (inv : core.Inv globalMode)
    (distinct : ((core.runtime.requestPool.queue handle.program).map (·.id)).Nodup) :
    ∀ request ∈ next.runtime.requestPool.queue handle.program, request.id ≠ handle.requestId := by
  cases transition with
  | uncancelled _ _ _ _ absent =>
    exact cancelRequest_absent absent
  | cancelled handle _ _ _ _ _ moved evolved =>
    intro _ member
    rw [evolved.queue_of_scheduling (moved.inv inv)] at member
    generalize label_is : Label.cancel handle = label at moved
    cases moved with
    | cancel _ _ cancelled =>
      cases label_is
      rw [Core.runtime_cancel] at member
      exact cancelRequest_removes cancelled distinct _ member
    | _ => cases label_is

section Law

variable {T : Type}

/-- An arrival finds a target in its pool, and no request of its Program still
waits under the identifier it is given. -/
def Core.Receives (core : Core) : TaskAction F → Prop
  | .begin arrival _ => core.targets arrival.identity.modelPool ≠ [] ∧
      ∀ request ∈ core.runtime.requestPool.queue (core.retained arrival).1.program,
        request.id ≠ (core.retained arrival).1.requestId
  | _ => True

instance (core : Core) (action : TaskAction F) : Decidable (core.Receives action) :=
  match action with
  | .begin _ _ => inferInstanceAs (Decidable (_ ∧ ∀ request ∈ _, _))
  | .other _ | .claim _ _ | .giveUp _ | .proceed _ | .poll _ | .wake _ | .elapse _ | .decide _ _
  | .drop _ | .cancel _ _ _ _ => .isTrue trivial

/-- A failed acquisition leaves nothing behind. -/
structure FailureLaw (system : TaskSystem F T) : Prop where
  unretained : ∀ name, .failed name ∈ system.log →
    ∀ program, ∀ request ∈ system.state.runtime.requestPool.queue program, request.notifier ≠ name
  uncounted : ∀ name, .failed name ∈ system.log →
    ∀ program view, system.state.runtime.view program = some view →
      view.waitingRequests = ((system.state.runtime.requestPool.queue program).filter
        (·.notifier ≠ name)).length
  undispatched : system.log.Pairwise fun earlier later =>
    ∀ name, earlier = .failed name → later ≠ .dispatched name

/-- What every step keeps while arrivals find targets. -/
structure Cleared (system : TaskSystem F T) : Prop where
  staffing : Staffing system.tasks system.state.runtime
  homed : ∀ reference, (system.state.core.card reference).Homed
  numbered : ∀ program, ((system.state.runtime.requestPool.queue program).map (·.id)).Nodup
  failed : ∀ name, .failed name ∈ system.log →
    name < system.state.runtime.requestPool.nextNotifier ∧
      ∀ program, ∀ request ∈ system.state.runtime.requestPool.queue program, request.notifier ≠ name
  undispatched : system.log.Pairwise fun earlier later =>
    ∀ name, earlier = .failed name → later ≠ .dispatched name

variable {system next : TaskSystem F T}

namespace Cleared

variable {state : ProgramSchedulerState F T}

variable (cleared : Cleared system)

include cleared

theorem law : FailureLaw system where
  unretained := fun name recorded => (cleared.failed name recorded).2
  uncounted := by
    intro name recorded program _ seen
    obtain ⟨_, _, _, _, _, _, waiting⟩ := view_some seen
    have all : (system.state.runtime.requestPool.queue program).filter (·.notifier ≠ name) =
        system.state.runtime.requestPool.queue program := by
      rw [List.filter_eq_self]
      intro request member
      simpa using (cleared.failed name recorded).2 program request member
    rw [all, waiting]
  undispatched := cleared.undispatched

variable (inv : system.state.core.Inv globalMode)

include inv

variable (transition : Transition globalMode system.state.core event output next.state.core)

include transition

theorem advance
    (numbered : ∀ program, ((next.state.runtime.requestPool.queue program).map (·.id)).Nodup)
    (staffed : Staffing next.tasks next.state.runtime) (outcomes : List AcquisitionOutcome)
    (logged : next.log = system.log ++ outcomes)
    (failures : ∀ name, .failed name ∈ outcomes →
      name < next.state.runtime.requestPool.nextNotifier ∧
        ∀ program, ∀ request ∈ next.state.runtime.requestPool.queue program,
          request.notifier ≠ name)
    (ordered : outcomes.Pairwise fun earlier later =>
      ∀ name, earlier = .failed name → later ≠ .dispatched name)
    (alive : ∀ name, .failed name ∈ system.log → .dispatched name ∉ outcomes) : Cleared next where
  staffing := staffed
  homed := transition.keeps_homed inv cleared.homed
  numbered := numbered
  failed := by
    intro name recorded
    rw [logged, List.mem_append] at recorded
    rcases recorded with old | new
    · obtain ⟨given, absent⟩ := cleared.failed _ old
      have woken := (transition.wakes inv cleared.staffing.allotted).2
      refine ⟨given.trans_le woken.allocated, fun program request member => ?_⟩
      rcases woken.requests program request member with waiting | ⟨fresh, _⟩
      · exact absent _ _ waiting
      · rintro rfl
        exact absurd given (Nat.not_lt.mpr fresh)
    · exact failures _ new
  undispatched := by
    rw [logged, List.pairwise_append]
    refine ⟨cleared.undispatched, ordered, ?_⟩
    rintro _ old _ new _ rfl rfl
    exact alive _ old new

omit transition in
theorem numbered_of_settled
    (transition : Transition globalMode system.state.core event output state.core)
    (settled : ¬ event.arrives) (program : ProgramRef) :
    ((state.runtime.requestPool.queue program).map (·.id)).Nodup :=
  (cleared.numbered program).sublist ((transition.queue_sublist inv settled program).map (·.id))

theorem silent (settled : ¬ event.arrives) (staffed : Staffing next.tasks next.state.runtime)
    (logged : next.log = system.log) : Cleared next :=
  cleared.advance inv transition (cleared.numbered_of_settled inv transition settled) staffed []
    (by rw [logged, List.append_nil]) nofun .nil nofun

omit transition

theorem numbered_of_begun {arrival : Arrival} {activatedAt : Instant}
    (transition : Transition globalMode system.state.core (.arrive arrival activatedAt) output
      state.core)
    (unused : ∀ request ∈ system.state.runtime.requestPool.queue
      (system.state.core.retained arrival).1.program,
        request.id ≠ (system.state.core.retained arrival).1.requestId) (program : ProgramRef) :
    ((state.runtime.requestPool.queue program).map (·.id)).Nodup := by
  have queue : state.runtime.requestPool.queue program = _ :=
    transition.queue_of_arrive inv _
  rw [queue, show (system.state.core.retained arrival).2.requestPool.queue program = _ from
    queue_retainRequest system.state.runtime arrival.identity
      arrival.estimatedContextTokens arrival.routingText arrival.arrivedAt program]
  split
  · rename_i own
    rw [List.map_append, List.map_singleton, ← List.concat_eq_append]
    refine List.Nodup.concat ?_ (cleared.numbered _)
    intro used
    obtain ⟨_, member, same⟩ := List.mem_map.mp used
    exact unused _ (by subst own; exact member) same
  · exact cleared.numbered _

end Cleared

theorem TaskStep.cleared {action : TaskAction F} (step : TaskStep globalMode system action next)
    (inv : system.state.core.Inv globalMode) (received : system.state.core.Receives action)
    (cleared : Cleared system) : Cleared next := by
  have staffed := step.staffing inv cleared.staffing
  cases step with
  | other event _ _ foreign transition =>
    refine cleared.silent inv transition ?_ staffed rfl
    intro arrives
    cases event <;> first | exact arrives | cases foreign
  | begun _ _ _ transition =>
    exact cleared.advance inv transition
      (cleared.numbered_of_begun inv transition received.2) staffed []
      (List.append_nil _).symm nofun .nil nofun
  | stranded _ _ error state transition =>
    generalize answer : (Output.arrived (.error error) : Output F) = output at transition
    generalize after : state.core = core at transition
    cases transition with
    | arrived => cases answer
    | stranded _ _ _ _ _ homeless unbound =>
      exact absurd (homeless.unlisted inv.keyed (cleared.homed _) unbound) received.1
  | claimed name _ handle _ state _ transition =>
    refine cleared.advance inv transition (cleared.numbered_of_settled inv transition id) staffed
      (system.frontOutcome handle.program) rfl ?_ ?_ ?_
    all_goals unfold TaskSystem.frontOutcome
    all_goals cases front : (system.state.runtime.requestPool.queue handle.program).head? with
      | none => simp
      | some request => ?_
    · simp
    · simp
    · intro name recorded member
      have named : name = request.notifier := by simpa using member
      exact (cleared.failed _ recorded).2 _ _ (List.mem_of_head? front) named.symm
  | unclaimed _ _ _ _ _ transition | decided _ _ _ _ _ _ transition =>
    exact cleared.silent inv transition id staffed rfl
  | rephased =>
    exact ⟨staffed, cleared.homed, cleared.numbered, cleared.failed, cleared.undispatched⟩
  | cancelled name _ _ _ handle returns _ _ stored transition =>
    have between := cleared.staffing.wakes (transition.wakes inv cleared.staffing.allotted).2
    have removed := transition.cancel_removes inv (cleared.numbered handle.program)
    refine cleared.advance inv transition (cleared.numbered_of_settled inv transition id) staffed
      (if returns then [.failed name] else []) rfl ?_ ?_ ?_
    · intro other recorded
      have same : other = name := by
        split at recorded
        · simpa using recorded
        · cases recorded
      subst same
      refine ⟨(between.named _ _ stored).2, fun _ _ member named => ?_⟩
      obtain ⟨numbered, own⟩ := between.own _ _ _ member (named ▸ stored)
      subst own
      exact removed _ member numbered.symm
    · split
      · exact List.pairwise_singleton _ _
      · exact .nil
    · intro _ _ member
      split at member <;> simp at member

end Law

section Reached

variable {T : Type} [F64 F] [AffinityTree T] {setup : Setup F} {system : TaskSystem F T}

/-- In every interleaving in which each arrival finds a target and an unused
identifier, an acquisition that returned an error left nothing behind. -/
theorem interleaving_failureLaw (reached : Interleaving setup Core.Receives system) :
    FailureLaw system := by
  have cleared := reached.invariant Cleared
    ⟨.empty, fun reference => Run.start.homed reference, fun _ => .nil, nofun, .nil⟩
    (fun _ _ _ inv received step cleared => step.cleared inv received cleared)
  exact cleared.law

/-- A request waits behind another Program until its queue timeout passes. -/
theorem interleaving_failureLaw_timeout :
    ∃ system : TaskSystem Exact Sample.Texts,
      Interleaving (Sample.router false true) Core.Receives system ∧
      system.log = [.dispatched 0, .failed 1] ∧ FailureLaw system := by
  have played : (interleave (router false true)
      (fun state action => decide (state.core.Receives action))
      [.other (.sync (snapshot 0 "a" ["t"])), .begin (arrival "a" "p" 1) 1,
        .claim 0 2, .begin (arrival "a" "q" 3) 3, .claim 1 4, .giveUp 1, .cancel 1 5 5 5]
      (.new (router false true))).map (·.log) = some [.dispatched 0, .failed 1] := by
    decide +kernel
  obtain ⟨system, reached, logged⟩ := Option.map_eq_some_iff.mp played
  have run := interleaving_of_interleave Core.Receives
    (fun _ _ passed => of_decide_eq_true passed) .start reached
  exact ⟨system, run, logged, interleaving_failureLaw run⟩

/-- The only target is removed between the caller's own sync and its arrival. -/
theorem failureLaw_fails_unlisted :
    ∃ system : TaskSystem Exact Sample.Texts,
      Interleaving (Sample.router false false) (fun _ _ => True) system ∧
      system.log = [.failed 0] ∧ ¬ FailureLaw system := by
  have played : (interleave (router false false) (fun _ _ => true)
      [.other (.sync (snapshot 0 "a" ["t"])), .other (.sync (snapshot 1 "a" [])),
        .begin (arrival "a" "p" 1) 1]
      (.new (router false false))).map (fun system => (system.log,
        (system.state.runtime.requestPool.queue ⟨"a", "p", 0⟩).map (·.notifier))) =
      some ([.failed 0], [0]) := by
    decide +kernel
  obtain ⟨system, reached, facts⟩ := Option.map_eq_some_iff.mp played
  simp only [Prod.mk.injEq] at facts
  obtain ⟨logged, queue⟩ := facts
  obtain ⟨request, _, waiting, notifier, _⟩ := List.map_eq_cons_iff.mp queue
  have run := interleaving_of_interleave (fun _ _ => True) (fun _ _ _ => trivial) .start reached
  refine ⟨system, run, logged, fun law => ?_⟩
  exact law.unretained 0 (by rw [logged]; exact List.mem_singleton_self _) ⟨"a", "p", 0⟩ request
    (by rw [waiting]; exact List.mem_cons_self) notifier

end Reached

end SmetricRouter.ProgramScheduling
