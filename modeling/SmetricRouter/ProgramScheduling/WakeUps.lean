import SmetricRouter.ProgramScheduling.History
import SmetricRouter.ProgramScheduling.WaitingLaws

/-! Which waiters a section wakes.

Whenever a Program becomes active, or a request becomes the front of an active
Program, the section signals that request's notifier, unless the request itself
has just arrived. Other signals are kept.
-/

namespace SmetricRouter.ProgramScheduling

open ProgramRuntime Function RequestPool

def Allotted (runtime : ProgramRuntime) : Prop :=
  ∀ program, ∀ request ∈ runtime.requestPool.queue program,
    request.notifier < runtime.requestPool.nextNotifier

/-- What a section does to the queues and the notifiers. -/
structure Wakes (runtime next : ProgramRuntime) : Prop where
  allocated : runtime.requestPool.nextNotifier ≤ next.requestPool.nextNotifier
  cells : ∀ notifier < runtime.requestPool.nextNotifier,
    (runtime.requestPool.notifiers notifier).Rung (next.requestPool.notifiers notifier)
  opened : ∀ notifier, runtime.requestPool.nextNotifier ≤ notifier →
    notifier < next.requestPool.nextNotifier → (next.requestPool.notifiers notifier).waiter = .idle
  requests : ∀ program, ∀ request ∈ next.requestPool.queue program,
    request ∈ runtime.requestPool.queue program ∨
      runtime.requestPool.nextNotifier ≤ request.notifier ∧
        request.notifier < next.requestPool.nextNotifier
  fronts : ∀ program record request, next.find program = some record → record.state = .active →
    (next.requestPool.queue program).head? = some request →
      (∃ before, runtime.find program = some before ∧ before.state = .active ∧
        (runtime.requestPool.queue program).head? = some request) ∨
      (next.requestPool.notifiers request.notifier).signalled ∨
      runtime.requestPool.nextNotifier ≤ request.notifier

variable {runtime : ProgramRuntime} {record : RuntimeProgram}

namespace Wakes

variable {next last : ProgramRuntime}

theorem refl (runtime : ProgramRuntime) : Wakes runtime runtime where
  allocated := Nat.le_refl _
  cells _ _ := .refl _
  opened _ fresh old := absurd old (Nat.not_lt.mpr fresh)
  requests _ _ member := .inl member
  fronts _ record _ found active front := .inl ⟨record, found, active, front⟩

theorem allotted (wakes : Wakes runtime next) (known : Allotted runtime) : Allotted next := by
  intro program request member
  rcases wakes.requests program request member with old | ⟨_, fresh⟩
  · exact (known _ _ old).trans_le wakes.allocated
  · exact fresh

theorem trans (first : Wakes runtime next) (second : Wakes next last) (known : Allotted next) :
    Wakes runtime last where
  allocated := first.allocated.trans second.allocated
  cells := fun notifier old =>
    (first.cells notifier old).trans (second.cells notifier (old.trans_le first.allocated))
  opened := by
    intro notifier fresh bound
    rcases Nat.lt_or_ge notifier next.requestPool.nextNotifier with early | late
    · exact (second.cells _ early).idle (first.opened _ fresh early)
    · exact second.opened _ late bound
  requests := by
    intro program request member
    rcases second.requests program request member with old | ⟨fresh, bound⟩
    · rcases first.requests program request old with older | ⟨fresh, bound⟩
      · exact .inl older
      · exact .inr ⟨fresh, bound.trans_le second.allocated⟩
    · exact .inr ⟨first.allocated.trans fresh, bound⟩
  fronts := by
    intro program record request found active front
    rcases second.fronts program record request found active front with
      ⟨middle, live, activeThen, frontThen⟩ | signalled | fresh
    · rcases first.fronts program middle request live activeThen frontThen with
        same | signalled | fresh
      · exact .inl same
      · have waiting := known _ _ (List.mem_of_head? frontThen)
        exact .inr (.inl ((second.cells request.notifier waiting).signalled signalled))
      · exact .inr (.inr fresh)
    · exact .inr (.inl signalled)
    · exact .inr (.inr (first.allocated.trans fresh))

theorem silent (pool : next.requestPool = runtime.requestPool)
    (active : ∀ program record, next.find program = some record → record.state = .active →
      ∃ before, runtime.find program = some before ∧ before.state = .active) :
    Wakes runtime next := by
  refine ⟨by rw [pool], fun _ _ => by rw [pool]; exact .refl _, ?_, ?_, ?_⟩
  · intro _ fresh old
    rw [pool] at old
    exact absurd old (Nat.not_lt.mpr fresh)
  · intro program _ member
    rw [pool] at member
    exact .inl member
  · intro _ _ _ found running front
    obtain ⟨before, live, wasActive⟩ := active _ _ found running
    rw [pool] at front
    exact .inl ⟨before, live, wasActive, front⟩

/-- The record of one Program is rewritten, which makes none active. -/
theorem rewrite {program : ProgramRef} {after : RuntimeProgram}
    (found : runtime.find program = some record) (own : after.reference = program)
    (programs : next.programs = runtime.programs.insert program.key after)
    (pool : next.requestPool = runtime.requestPool)
    (running : after.state = .active → record.state = .active) : Wakes runtime next := by
  refine silent pool fun _ stored live active => ?_
  rw [find_update_of_insert found after own programs, update_apply] at live
  split at live
  · rename_i same
    cases live
    exact ⟨record, same ▸ found, running active⟩
  · exact ⟨stored, live, active⟩

theorem ring {middle : RequestPool} (program : ProgramRef)
    (pool : next.requestPool = middle.notifyFront program)
    (allocated : middle.nextNotifier = runtime.requestPool.nextNotifier)
    (cells : middle.notifiers = runtime.requestPool.notifiers)
    (requests : ∀ other, ∀ request ∈ middle.queue other, request ∈ runtime.requestPool.queue other)
    (others : ∀ other record, other ≠ program → next.find other = some record →
      record.state = .active → (∃ before, runtime.find other = some before ∧
        before.state = .active) ∧ middle.queue other = runtime.requestPool.queue other) :
    Wakes runtime next := by
  have rung notifier :
      (middle.notifiers notifier).Rung ((middle.notifyFront program).notifiers notifier) := by
    unfold RequestPool.notifyFront
    cases (middle.queue program).head? with
    | none => exact .refl _
    | some =>
      simp only [update_apply]
      split
      · rename_i same
        rw [same]
        exact .notifyOne _
      · exact .refl _
  have counter : (middle.notifyFront program).nextNotifier = middle.nextNotifier := by
    unfold RequestPool.notifyFront
    cases (middle.queue program).head? <;> rfl
  refine ⟨?_, ?_, ?_, ?_, ?_⟩
  · rw [pool, counter, allocated]
  · intro _ _
    rw [pool, ← cells]
    exact rung _
  · intro _ fresh old
    rw [pool, counter, allocated] at old
    exact absurd old (Nat.not_lt.mpr fresh)
  · intro other _ member
    rw [pool, queue_notifyFront] at member
    exact .inl (requests _ _ member)
  · intro other _ _ found active front
    rw [pool, queue_notifyFront] at front
    by_cases same : other = program
    · subst same
      right
      left
      rw [pool]
      unfold RequestPool.notifyFront
      rw [front]
      simp only [update_self]
      exact Notify.notifyOne_signalled _
    · obtain ⟨⟨before, live, wasActive⟩, queue⟩ := others _ _ same found active
      rw [queue] at front
      exact .inl ⟨before, live, wasActive, front⟩

end Wakes

section Moves

variable {globalMode : Bool} {core next : Core} {label : Label} {arrival : Arrival}

theorem wakes_retained (keyed : core.runtime.Keyed) :
    Wakes core.runtime (core.retained arrival).2 := by
  have queues program : (core.retained arrival).2.requestPool.queue program = _ :=
    queue_retainRequest core.runtime _ _ _ _ _
  have finds program : (core.retained arrival).2.find program = _ :=
    find_retainRequest keyed _ _ _ _ _
  refine ⟨Nat.le_succ _, ?_, ?_, ?_, ?_⟩
  · intro notifier old
    have kept : (core.retained arrival).2.requestPool.notifiers notifier =
        core.runtime.requestPool.notifiers notifier := update_of_ne (Nat.ne_of_lt old) _ _
    rw [kept]
    exact .refl _
  · intro _ fresh bound
    cases Nat.le_antisymm fresh (Nat.le_of_lt_succ bound)
    have opened : (core.retained arrival).2.requestPool.notifiers
        core.runtime.requestPool.nextNotifier = {} := update_self _ _ _
    rw [opened]
  · intro program _ member
    rw [queues program] at member
    split at member
    · rcases List.mem_append.mp member with old | last
      · exact .inl old
      · rw [List.mem_singleton.mp last]
        exact .inr ⟨Nat.le_refl _, Nat.lt_succ_self _⟩
    · exact .inl member
  · intro program record _ found active front
    rw [queues program] at front
    rw [finds program] at found
    split at front
    · rename_i own
      rw [if_pos own] at found
      cases waiting : core.runtime.requestPool.queue program with
      | nil =>
        rw [waiting] at front
        cases front
        exact .inr (.inr (Nat.le_refl _))
      | cons =>
        rw [waiting] at front
        cases front
        cases found
        rcases materialize_find keyed arrival.identity arrival.estimatedContextTokens with
          ⟨old, stored, materialized⟩ | ⟨_, paused, _⟩
        · rw [materialized] at active
          exact .inl ⟨old, own ▸ stored, active, rfl⟩
        · rw [paused] at active
          cases active
    · rename_i other
      rw [if_neg other] at found
      exact .inl ⟨record, found, active, front⟩

variable {handle : ProgramRequestHandle}

theorem wakes_admitFront {target : String} (now : Instant)
    (found : runtime.find handle.program = some record) (active : record.state = .active)
    (placed : record.placement = some target) :
    Wakes runtime (runtime.admitFront handle target now).2 := by
  obtain ⟨stored, own⟩ := find_eq_some.mp found
  rw [admitFront_active now found active placed]
  simp only [dispatchFront, stored]
  cases taken : runtime.requestPool.takeFront handle with
  | none => exact .rewrite found (by exact own) rfl rfl fun _ => active
  | some outcome =>
    obtain ⟨_, _⟩ := outcome
    obtain ⟨_, waiting, _, rfl⟩ := takeFront_some taken
    have queued := queue_eq_of_lookup waiting
    refine .ring record.reference rfl rfl rfl ?_ ?_
    · intro other _ member
      rw [queue_leaving] at member
      split at member
      · rename_i same
        rw [same, queued]
        exact List.mem_cons_of_mem _ member
      · exact member
    · intro other after apart live running
      rw [own] at apart
      rw [queue_leaving, if_neg apart]
      refine ⟨⟨after, ?_, running⟩, rfl⟩
      have finds := (congrFun (find_update_of_insert found _ (by exact own) rfl)
        other).symm.trans live
      rwa [update_of_ne apart] at finds

theorem Card.active_of_quiesce {rest : List PendingProgramRequest}
    (active : (Card.quiesce rest record).state = .active) : record.state = .active := by
  unfold Card.quiesce at active
  split at active
  · split at active
    · cases active
    · exact active
  · exact active

theorem wakes_cancelRequest {next : ProgramRuntime}
    (cancelled : runtime.cancelRequest handle = some next) : Wakes runtime next := by
  obtain ⟨_, _, removed, pooled, _⟩ := cancelRequest_some cancelled
  obtain ⟨waiting, position, stored, located, front, rfl⟩ := cancel_some removed
  obtain ⟨_, _, stored', located', finds, _⟩ := Core.cancelRequest_leaves cancelled
  have queued := queue_eq_of_lookup stored
  have shorter other request (member : request ∈
        (runtime.requestPool.leaving handle.program (waiting.eraseIdx position)).queue other) :
      request ∈ runtime.requestPool.queue other := by
    rw [queue_leaving] at member
    split at member
    · rename_i same
      rw [same, queued]
      exact List.mem_of_mem_eraseIdx member
    · exact member
  cases position with
  | zero =>
    rw [front] at pooled
    refine .ring handle.program pooled rfl rfl shorter ?_
    intro other record apart found active
    rw [finds, update_of_ne apart] at found
    rw [queue_leaving, if_neg apart]
    exact ⟨⟨record, found, active⟩, rfl⟩
  | succ =>
    rw [front, if_neg (by simp)] at pooled
    refine ⟨Nat.le_of_eq (by rw [pooled]; rfl), fun _ _ => by rw [pooled]; exact .refl _, ?_, ?_, ?_⟩
    · intro _ fresh old
      rw [pooled] at old
      exact absurd old (Nat.not_lt.mpr fresh)
    · intro other request member
      rw [pooled] at member
      exact .inl (shorter other _ member)
    · intro other record request found active first
      rw [pooled, queue_leaving] at first
      rw [finds, update_apply] at found
      left
      by_cases same : other = handle.program
      · -- The front request is still there, so the Program keeps its placement.
        rw [if_pos same] at found first
        rw [← same] at found
        obtain ⟨before, live, rfl⟩ := Option.map_eq_some_iff.mp found
        refine ⟨before, live, Card.active_of_quiesce active, ?_⟩
        rw [same, queued, ← first]
        cases waiting <;> rfl
      · rw [if_neg same] at found first
        exact ⟨record, found, active, first⟩

theorem Move.wakes (taken : Move globalMode core label next) (keyed : core.runtime.Keyed) :
    Wakes core.runtime next.runtime := by
  cases taken with
  | arrive _ =>
    rw [Core.runtime_arrive]
    exact wakes_retained keyed
  | activate _ _ _ _ activated =>
    obtain ⟨record, found, paused, _, rfl⟩ := activate_some activated
    have own := (find_eq_some.mp found).2
    subst own
    refine .ring record.reference rfl rfl rfl (fun _ _ member => member) ?_
    intro other after apart live active
    have finds := (congrFun (find_update_of_insert found _ (by rfl) rfl) other).symm.trans live
    rw [update_of_ne apart] at finds
    exact ⟨⟨after, finds, active⟩, rfl⟩
  | pause _ _ _ paused =>
    obtain ⟨_, found, _, _, rfl⟩ := pauseIdle_some paused
    exact .rewrite found (by exact (find_eq_some.mp found).2) rfl rfl nofun
  | dispatch _ _ now placed active =>
    obtain ⟨record, found, placement⟩ := Option.bind_eq_some_iff.mp placed
    exact wakes_admitFront now found (active record found) placement
  | complete _ _ _ _ completed =>
    obtain ⟨_, found, _, _, rfl⟩ := completeRequest_some completed
    exact .rewrite found (by exact (find_eq_some.mp found).2) rfl rfl id
  | cancel _ _ cancelled =>
    rw [Core.runtime_cancel]
    exact wakes_cancelRequest cancelled
  | release _ _ _ released =>
    obtain ⟨record, found, _, _, rfl⟩ := releaseIdle_some released
    obtain ⟨stored, own⟩ := find_eq_some.mp found
    subst own
    refine .silent rfl ?_
    intro _ after live active
    have finds := (find_of_erase rfl stored _).symm.trans live
    split at finds
    · cases finds
    · exact ⟨after, finds, active⟩
  | prune | extend | shrink =>
    exact .silent rfl fun _ record found active => ⟨record, found, active⟩
  | wake program =>
    exact .ring _ rfl rfl rfl (fun _ _ member => member)
      fun _ record _ found active => ⟨⟨record, found, active⟩, rfl⟩
  | failOver program _ removed =>
    rw [(Core.failOver_frame _ _ _ _ _ _).2.2]
    cases invalidated : core.runtime.invalidatePlacement program removed with
    | none => exact .refl _
    | some =>
      obtain ⟨_, _, found, _, _, rfl⟩ := invalidatePlacement_some invalidated
      exact .rewrite found (by exact (find_eq_some.mp found).2) rfl rfl nofun

theorem Transition.wakes {F : Type} {event : Event F} {output : Output F}
    (transition : Transition globalMode core event output next) (inv : core.Inv globalMode)
    (known : Allotted core.runtime) : Allotted next.runtime ∧ Wakes core.runtime next.runtime := by
  refine transition.keeps
    (fun later => Allotted later.runtime ∧ Wakes core.runtime later.runtime) inv ?_
    ⟨known, .refl _⟩
  rintro _ _ _ sound taken ⟨allotted, before⟩
  have stepped := taken.wakes sound.keyed
  exact ⟨stepped.allotted allotted, before.trans stepped allotted⟩

theorem Evolves.queue_of_scheduling
    (evolved : Evolves globalMode Label.scheduling core next) (inv : core.Inv globalMode)
    (program : ProgramRef) :
    next.runtime.requestPool.queue program = core.runtime.requestPool.queue program := by
  have kept := @Evolves.invariant globalMode Label.scheduling _ next
    (fun later => later.Inv globalMode ∧ later.runtime.requestPool.queue program =
      core.runtime.requestPool.queue program) evolved (by
      rintro _ _ _ allowed taken ⟨sound, same⟩
      refine ⟨taken.inv sound, ?_⟩
      cases taken.runtimeStep sound.keyed with
      | admitted _ _ _ _ _ _ pool => exact (pool.queue _).trans same
      | quiet | paused | released =>
        exact (‹Silent _ _›.pool.queue _).trans same
      | retained | unmarked | dispatched | completed | cancelled | invalidated =>
        exact allowed.elim)
  exact (kept ⟨inv, rfl⟩).2

theorem Transition.queue_of_arrive {F : Type} {activatedAt : Instant} {output : Output F}
    (transition : Transition globalMode core (.arrive arrival activatedAt) output next)
    (inv : core.Inv globalMode) (program : ProgramRef) :
    next.runtime.requestPool.queue program =
      (core.retained arrival).2.requestPool.queue program := by
  cases transition with
  | arrived _ _ _ _ _ moved _ evolved =>
    rw [evolved.queue_of_scheduling (moved.inv inv), Core.runtime_arrive]
  | stranded => rw [Core.runtime_arrive]

end Moves

end SmetricRouter.ProgramScheduling
