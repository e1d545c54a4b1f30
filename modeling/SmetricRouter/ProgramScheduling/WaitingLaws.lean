import SmetricRouter.ProgramScheduling.RunInvariants

/-! Laws of waiting Programs.

A Program that waits should stand in its queue, one that has gone quiet should
be acting, and one that waits should have a deadline. Each law is kept by every
move except one kind, and that kind is always a part of a target
synchronization or of an arrival that finds no target. A run in which no
section takes the harmful move obeys the law throughout.
-/

namespace SmetricRouter.ProgramScheduling

open ProgramRuntime Sample

variable {globalMode : Bool} {reference : ProgramRef} {card next : Card} {label : Label}
  {removed : List String}

namespace Card

def Queued (globalMode : Bool) (reference : ProgramRef) (card : Card) : Prop :=
  ∀ record standing target, card.program = some record → card.standing = some standing →
    record.state = .paused → card.requests ≠ [] → standing.lastTarget = some target →
      (if globalMode then card.global reference.modelPool else card.rank target) ≠ 0

theorem cancel_waiting {card : Card} {position : Nat}
    (waiting : (card.cancel position).requests ≠ []) :
    card.requests ≠ [] ∧ (card.cancel position).program = card.program ∧
      (card.cancel position).standing = card.standing ∧
      (card.program.isSome → (card.cancel position).rank = card.rank ∧
        (card.cancel position).global = card.global) := by
  obtain ⟨requests, program, standing, _⟩ := cancel_fields _
  rw [requests] at waiting
  have kept : quiesce (card.requests.eraseIdx position) = id := by
    funext record
    simp [quiesce, waiting]
  refine ⟨?_, by rw [program, kept, Option.map_id, id], standing, ?_⟩
  · intro empty
    rw [empty] at waiting
    exact waiting rfl
  · intro live
    unfold cancel
    rw [if_pos ⟨live, waiting⟩]
    exact ⟨rfl, rfl⟩

/-- A Program leaves its queue only by resuming, by running out of requests, or
because a pool it does not belong to drops the whole queue. -/
theorem Queued.step (ok : card.Ok globalMode reference)
    (stepped : CardStep globalMode reference card label next)
    (spared : ∀ pool removed, label = .shrink pool removed → reference.modelPool ≠ pool →
      ∀ target ∈ removed, card.rank target = 0)
    (queued : card.Queued globalMode reference) : next.Queued globalMode reference := by
  intro record standing target program standing_eq paused waiting last
  cases stepped with
  | stay | extend => exact queued record _ _ program standing_eq paused waiting last
  | arrivePlaced _ _ stored request retains placed =>
    cases program
    have facts := ok.retain stored request retains
    rw [facts.activePlaced.mpr (Option.isSome_iff_ne_none.mpr placed)] at paused
    cases paused
  | arriveHomeless _ _ _ _ _ _ _ homeless =>
    cases standing_eq
    rw [homeless] at last
    cases last
  | arriveQueued _ _ stored _ _ _ _ _ bound =>
    rw [(setQueue_fields _ _).2.2.1] at standing_eq
    cases standing_eq
    rw [show stored.lastTarget = some target from last] at bound
    cases bound
    exact setQueue_count _ reference.modelPool _ (max 1) (fun old => by omega)
  | activate => cases program; cases paused
  | pause _ live _ acting =>
    obtain ⟨_, _, facts⟩ := ok.of_program live
    exact absurd (facts.actingQuiet acting).2 waiting
  | unmark _ _ old live | complete _ _ old _ live =>
    cases program
    exact queued old standing _ live standing_eq paused waiting last
  | dispatch _ _ old _ _ _ active =>
    cases program
    rw [show old.state = .paused from paused] at active
    cases active
  | cancel _ _ =>
    obtain ⟨waited, sameProgram, sameStanding, sameQueues⟩ := cancel_waiting waiting
    rw [sameProgram] at program
    rw [sameStanding] at standing_eq
    obtain ⟨rank, global⟩ := sameQueues (by rw [program]; rfl)
    rw [rank, global]
    exact queued record _ _ program standing_eq paused waited last
  | release => cases program
  | failOver _ removed epoch old replacement =>
    obtain ⟨_, requests, moved, _⟩ :=
      failOver_fields _ reference.modelPool _ epoch old
    rw [requests] at waiting
    rw [moved] at standing_eq
    cases standing_eq
    cases (show replacement = some target from last)
    cases globalMode with
    | true =>
      simp only [Card.failOver, waiting, if_false, if_true]
      exact setQueue_count true reference.modelPool "" (fun _ => 1) (fun _ => Nat.one_ne_zero)
    | false =>
      simp only [Card.failOver, waiting, if_false, Bool.false_eq_true]
      exact setQueue_count false reference.modelPool _ (fun _ => 1) (fun _ => Nat.one_ne_zero)
  | shrink _ removed settled lost =>
    have home := (settled standing standing_eq).1 _ last
    have present := queued record _ _ program standing_eq paused waiting last
    have spared : target ∉ removed := fun gone => lost _ gone home
    simpa [lose, spared] using present
  | lose _ removed foreign =>
    have present := queued record _ _ program standing_eq paused waiting last
    by_cases gone : target ∈ removed
    · have empty := spared _ _ rfl foreign _ gone
      simpa [lose, empty] using present
    · simpa [lose, gone] using present

def Settles (card : Card) : Prop :=
  ∀ record, card.program = some record → record.status = .reasoning →
    record.inFlightRequests ≠ 0 ∨ card.requests ≠ []

def PlacedOn (removed : List String) (record : RuntimeProgram) : Prop :=
  ∃ target, record.placement = some target ∧ target ∈ removed

variable {record : RuntimeProgram}

theorem interrupt_of_placed (epoch : Nat) (placed : PlacedOn removed record) :
    interrupt removed epoch record =
      { record with
        state := .paused
        placement := none
        placementEpoch := epoch
        placementStartRequestPending := false
        inFlightRequests := 0 } := by
  obtain ⟨_, placement, gone⟩ := placed
  simp [interrupt, placement, gone]

theorem interrupt_of_unplaced (epoch : Nat)
    (unplaced : ¬ PlacedOn removed record) : interrupt removed epoch record = record := by
  cases placement : record.placement with
  | none => simp [interrupt, placement]
  | some target =>
    have spared : target ∉ removed := fun gone => unplaced ⟨target, placement, gone⟩
    simp [interrupt, placement, spared]

theorem interrupt_unplaced (removed : List String) (epoch : Nat) (record : RuntimeProgram) :
    ¬ PlacedOn removed (interrupt removed epoch record) := by
  by_cases placed : PlacedOn removed record
  · rw [interrupt_of_placed epoch placed]
    rintro ⟨_, placement, _⟩
    cases placement
  · rw [interrupt_of_unplaced epoch placed]
    exact placed

/-- Only a failover that drops the last requests in flight leaves a quiet
Program reasoning. -/
theorem Settles.step (stepped : CardStep globalMode reference card label next)
    (calm : ∀ removed record, label = .failOver reference removed →
      card.program = some record → PlacedOn removed record →
        record.inFlightRequests = 0 ∨ card.requests ≠ [])
    (settles : card.Settles) : next.Settles := by
  intro record program reasoning
  cases stepped with
  | stay | extend | shrink | lose => exact settles record program reasoning
  | arrivePlaced | arriveHomeless =>
    right
    exact List.append_ne_nil_of_right_ne_nil _ (List.cons_ne_nil _ _)
  | arriveQueued =>
    right
    rw [(setQueue_fields _ _).2.1]
    exact List.append_ne_nil_of_right_ne_nil _ (List.cons_ne_nil _ _)
  | activate _ _ _ _ _ waiting => exact .inr waiting
  | pause old _ _ acting =>
    cases program
    rw [show old.status = .reasoning from reasoning] at acting
    cases acting
  | unmark _ _ old live =>
    cases program
    exact settles old live reasoning
  | dispatch =>
    cases program
    left
    exact saturatingAdd_pos
  | complete _ _ old =>
    cases program
    by_cases quiet : old.inFlightRequests - 1 = 0 ∧ card.requests = []
    · simp only [quiet, and_self, if_true] at reasoning
      cases reasoning
    · exact not_and_or.mp quiet
  | cancel _ position =>
    obtain ⟨requests, programs, _⟩ := cancel_fields _
    rw [programs] at program
    obtain ⟨old, live, rfl⟩ := Option.map_eq_some_iff.mp program
    rw [requests]
    by_cases quiet : old.inFlightRequests = 0 ∧ card.requests.eraseIdx position = []
    · rw [quiesce, if_pos quiet] at reasoning
      split at reasoning <;> cases reasoning
    · rw [quiesce, if_neg quiet]
      exact not_and_or.mp quiet
  | release => cases program
  | failOver _ removed epoch old _ =>
    obtain ⟨programs, requests, _⟩ :=
      failOver_fields _ reference.modelPool _ epoch old
    rw [programs] at program
    obtain ⟨before, live, rfl⟩ := Option.map_eq_some_iff.mp program
    rw [requests]
    by_cases placed : PlacedOn removed before
    · rw [interrupt_of_placed epoch placed] at reasoning
      right
      rcases settles before live reasoning with busy | waiting
      · exact (calm _ _ rfl live placed).resolve_left busy
      · exact waiting
    · rw [interrupt_of_unplaced epoch placed] at reasoning ⊢
      exact settles _ live reasoning

def Covered (card : Card) : Prop :=
  ∀ record standing, card.program = some record → card.standing = some standing →
    record.state = .paused → card.requests ≠ [] →
      standing.queuedAt.isSome ∧ standing.forceResumeDeadline.isSome

def Homed (card : Card) : Prop :=
  ∀ standing, card.standing = some standing → standing.lastTarget = none → card.targets = []

theorem Homed.retains {standing : Standing} {arrivedAt : Instant} (homed : card.Homed)
    (retains : card.Retains record standing arrivedAt) (homeless : standing.lastTarget = none) :
    card.targets = [] := by
  obtain ⟨_, standing_is, _, unbound⟩ := retains.bound
  cases stored : card.standing with
  | none =>
    rw [stored] at standing_is
    subst standing_is
    exact unbound homeless
  | some =>
    rw [stored] at standing_is
    subst standing_is
    exact homed _ stored homeless

theorem Homed.step (stepped : CardStep globalMode reference card label next)
    (plain : ∀ pool, label ≠ .extend pool)
    (still : ∀ program removed, label ≠ .failOver program removed)
    (homed : (∀ removed, label ≠ .shrink reference.modelPool removed) → card.Homed) :
    next.Homed := by
  intro standing standing_eq homeless
  cases stepped with
  | stay _ unlisted => exact homed (unlisted _) _ standing_eq homeless
  | arrivePlaced _ _ _ _ retains | arriveHomeless _ _ _ _ retains =>
    cases standing_eq
    exact (homed nofun).retains retains homeless
  | arriveQueued _ _ stored _ _ _ _ _ home =>
    rw [(setQueue_fields _ _).2.2.1] at standing_eq
    cases standing_eq
    rw [show stored.lastTarget = none from homeless] at home
    cases home
  | activate =>
    cases standing_eq
    cases homeless
  | pause | unmark | dispatch | complete => exact homed nofun standing standing_eq homeless
  | cancel _ _ =>
    obtain ⟨_, _, sameStanding, sameTargets⟩ := cancel_fields _
    rw [sameStanding] at standing_eq
    rw [sameTargets]
    exact homed nofun standing standing_eq homeless
  | release => cases standing_eq
  | extend => exact absurd rfl (plain reference.modelPool)
  | failOver _ _ => exact absurd rfl (still _ _)
  | shrink _ _ settled => exact (settled _ standing_eq).2 homeless
  | lose _ _ foreign =>
    refine homed ?_ _ standing_eq homeless
    rintro _ ⟨⟩
    exact foreign rfl

/-- Only an arrival that finds no target, and a failover of a Program that has
requests and a placement, leave a waiting Program without a deadline. -/
theorem Covered.step (ok : card.Ok globalMode reference)
    (stepped : CardStep globalMode reference card label next)
    (homed : ∀ arrival record standing, label = .arrive arrival →
      reference.modelPool = arrival.identity.modelPool →
        card.Retains record standing arrival.arrivedAt → standing.lastTarget ≠ none)
    (idle : ∀ removed record, label = .failOver reference removed →
      card.program = some record → PlacedOn removed record → card.requests = [])
    (covered : card.Covered) : next.Covered := by
  intro record standing program standing_eq paused waiting
  cases stepped with
  | stay | extend | shrink | lose =>
    exact covered record _ program standing_eq paused waiting
  | arrivePlaced _ _ stored request retains placed =>
    cases program
    have facts := ok.retain stored request retains
    rw [facts.activePlaced.mpr (Option.isSome_iff_ne_none.mpr placed)] at paused
    cases paused
  | arriveHomeless _ arriving stored _ retains pool _ homeless =>
    exact absurd homeless (homed _ arriving stored rfl pool retains)
  | arriveQueued _ _ stored =>
    rw [(setQueue_fields _ _).2.2.1] at standing_eq
    cases standing_eq
    refine ⟨?_, rfl⟩
    cases stored.queuedAt <;> rfl
  | activate => cases program; cases paused
  | pause _ live _ acting =>
    obtain ⟨_, _, facts⟩ := ok.of_program live
    exact absurd (facts.actingQuiet acting).2 waiting
  | unmark _ _ old live | complete _ _ old _ live =>
    cases program
    exact covered old _ live standing_eq paused waiting
  | dispatch _ _ old _ _ _ active =>
    cases program
    rw [show old.state = .paused from paused] at active
    cases active
  | cancel _ _ =>
    obtain ⟨waited, sameProgram, sameStanding, _⟩ := cancel_waiting waiting
    rw [sameProgram] at program
    rw [sameStanding] at standing_eq
    exact covered record _ program standing_eq paused waited
  | release => cases program
  | failOver _ removed epoch old _ old_eq =>
    obtain ⟨programs, requests, moved, _⟩ :=
      failOver_fields _ reference.modelPool _ epoch old
    rw [programs] at program
    obtain ⟨before, live, rfl⟩ := Option.map_eq_some_iff.mp program
    rw [requests] at waiting
    rw [moved] at standing_eq
    cases standing_eq
    have unplaced : ¬ PlacedOn removed before := fun placed =>
      waiting (idle _ _ rfl live placed)
    rw [interrupt_of_unplaced epoch unplaced] at paused
    exact covered _ old live old_eq paused waiting

end Card

section Synchronization

variable {pool : String}

theorem CardStep.foreign_syncing (stepped : CardStep globalMode reference card label next)
    (allowed : label.syncing pool removed) (foreign : reference.modelPool ≠ pool) :
    next = card := by
  cases stepped with
  | stay => rfl
  | extend => exact absurd allowed foreign
  | failOver => exact absurd allowed.1 foreign
  | _ => exact allowed.elim

theorem CardStep.excused_syncing (excuse : RuntimeProgram → List PendingProgramRequest → Prop)
    (stepped : CardStep globalMode reference card label next) (allowed : label.syncing pool removed)
    (excused : ∀ record, card.program = some record → Card.PlacedOn removed record →
      excuse record card.requests) :
    ∀ record, next.program = some record → Card.PlacedOn removed record →
      excuse record next.requests := by
  cases stepped with
  | stay | extend => exact excused
  | failOver _ _ epoch =>
    obtain ⟨_, rfl⟩ := allowed
    intro _ found placed
    rw [(Card.failOver_fields _ _ _ _ _).1] at found
    obtain ⟨_, _, rfl⟩ := Option.map_eq_some_iff.mp found
    exact absurd placed (Card.interrupt_unplaced _ epoch _)
  | _ => exact allowed.elim

end Synchronization

variable {F T : Type} {core next : Core} {event : Event F} {output : Output F}

/-- A synchronization drops no queue that holds a Program of another pool. -/
def Core.SparesQueues (core : Core) : Event F → Prop
  | .sync pool => ∀ target ∈ core.lost pool, ∀ program ∈ core.rankQueue target,
      program.modelPool = pool.modelPool
  | _ => True

/-- A synchronization ends no placement on which requests are in flight while
none waits. -/
def Core.SparesBusy (core : Core) : Event F → Prop
  | .sync pool => ∀ reference record, reference.modelPool = pool.modelPool →
      core.runtime.find reference = some record → Card.PlacedOn (core.lost pool) record →
        record.inFlightRequests = 0 ∨ core.runtime.requestPool.queue reference ≠ []
  | _ => True

/-- A synchronization ends no placement of a Program with waiting requests, and
an arrival finds a target in its pool. -/
def Core.SparesWaiting (core : Core) : Event F → Prop
  | .sync pool => ∀ reference record, reference.modelPool = pool.modelPool →
      core.runtime.find reference = some record → Card.PlacedOn (core.lost pool) record →
        core.runtime.requestPool.queue reference = []
  | .arrive arrival _ => core.targets arrival.identity.modelPool ≠ []
  | _ => True

theorem Event.opens_plain (opens : event.Opens label) :
    (∀ pool removed, label ≠ .shrink pool removed) ∧
      ∀ program removed, label ≠ .failOver program removed := by
  cases event <;> cases opens <;> exact ⟨nofun, nofun⟩

theorem Core.retained_pool {arrival : Arrival} (keyed : core.runtime.Keyed) :
    (core.retained arrival).1.program.modelPool = arrival.identity.modelPool :=
  materialize_modelPool keyed arrival.identity arrival.estimatedContextTokens

theorem Core.Strands.unlisted {arrival : Arrival} {home : Option String}
    (strands : core.Strands arrival home) (keyed : core.runtime.Keyed)
    (homed : (core.card (core.retained arrival).1.program).Homed)
    (unbound : home = none → core.targets arrival.identity.modelPool = []) :
    core.targets arrival.identity.modelPool = [] := by
  have homeless := strands.2
  unfold Core.arrivingStanding at homeless
  cases stored : core.standing (core.retained arrival).1.program with
  | none =>
    rw [stored] at homeless
    exact unbound homeless
  | some _ =>
    rw [stored] at homeless
    rw [← Core.retained_pool keyed]
    exact homed _ stored homeless

variable (transition : Transition globalMode core event output next) (inv : core.Inv globalMode)

include transition inv

theorem Transition.keeps_queued (spares : core.SparesQueues event)
    (queued : ∀ reference, (core.card reference).Queued globalMode reference)
    (reference : ProgramRef) : (next.card reference).Queued globalMode reference := by
  refine transition.keeps_card (Card.Queued _ _) _ inv ?_ ?_ ?_ (queued _)
  · intro label next opens stepped
    exact Card.Queued.step (inv.cards _) stepped
      (fun pool removed shrunk => absurd shrunk ((Event.opens_plain opens).1 _ _))
      (queued _)
  · intro card _ next allowed ok stepped held
    refine Card.Queued.step ok stepped ?_ held
    rintro pool _ rfl
    exact allowed.elim
  · rintro pool _ _ rfl evolved shrunk
    have during := evolved.keeps_card
      (fun card => card.Queued _ reference ∧ (reference.modelPool ≠ pool.modelPool →
        ∀ target ∈ core.lost _, card.rank target = 0)) inv _
      (by
        rintro _ _ _ allowed ok stepped ⟨held, empty⟩
        refine ⟨Card.Queued.step ok stepped ?_ held, ?_⟩
        · rintro _ _ rfl
          exact allowed.elim
        · intro foreign
          rw [stepped.foreign_syncing allowed foreign]
          exact empty foreign)
      ⟨queued _, fun foreign _ gone =>
        List.count_eq_zero.mpr fun member => foreign (spares _ gone _ member)⟩
    refine Card.Queued.step ((evolved.inv inv).cards _) shrunk ?_ during.1
    rintro _ _ ⟨⟩ foreign
    exact during.2 foreign

theorem Transition.keeps_settles (spares : core.SparesBusy event)
    (settles : ∀ reference, (core.card reference).Settles) (reference : ProgramRef) :
    (next.card reference).Settles := by
  refine transition.keeps_card Card.Settles _ inv ?_ ?_ ?_ (settles _)
  · intro label next opens stepped
    exact Card.Settles.step stepped
      (fun removed _ failed => absurd failed ((Event.opens_plain opens).2 _ _))
      (settles _)
  · intro card _ next allowed ok stepped held
    refine Card.Settles.step stepped ?_ held
    rintro _ record rfl
    exact allowed.elim
  · rintro pool _ _ rfl evolved shrunk
    have during := evolved.keeps_card
      (fun card => card.Settles ∧ (reference.modelPool = pool.modelPool →
        ∀ record, card.program = some record → Card.PlacedOn (core.lost _) record →
          record.inFlightRequests = 0 ∨ card.requests ≠ [])) inv _
      (by
        rintro _ _ _ allowed _ stepped ⟨held, excused⟩
        refine ⟨Card.Settles.step stepped ?_ held, ?_⟩
        · rintro _ record rfl found placed
          obtain ⟨own, rfl⟩ := allowed
          exact excused own _ found placed
        · intro own
          exact stepped.excused_syncing
            (fun record requests => record.inFlightRequests = 0 ∨ requests ≠ []) allowed
            (excused own))
      ⟨settles _, fun own _ => spares _ _ own⟩
    exact Card.Settles.step shrunk (fun _ _ failed => nomatch failed) during.1

theorem Transition.keeps_homed (homed : ∀ reference, (core.card reference).Homed)
    (reference : ProgramRef) : (next.card reference).Homed := by
  refine transition.keeps_card Card.Homed _ inv ?_ ?_ ?_ (homed _)
  · intro label next opens stepped
    obtain ⟨_, settled⟩ := Event.opens_plain opens
    refine Card.Homed.step stepped ?_ settled fun _ => homed _
    rintro pool rfl
    cases event <;> cases opens
  · intro _ _ next allowed ok stepped held
    refine Card.Homed.step stepped ?_ ?_ fun _ => held
    · rintro pool rfl
      exact allowed.elim
    · rintro _ _ rfl
      exact allowed.elim
  · rintro pool _ _ rfl evolved shrunk
    refine Card.Homed.step shrunk nofun nofun fun elsewhere => ?_
    have foreign : reference.modelPool ≠ pool.modelPool := by
      intro own
      exact elsewhere (core.lost _) (by rw [own])
    exact evolved.keeps_card Card.Homed inv _ (fun _ _ _ allowed _ stepped held => by
        rw [stepped.foreign_syncing allowed foreign]
        exact held) (homed _)

theorem Transition.keeps_covered (spares : core.SparesWaiting event)
    (homed : ∀ reference, (core.card reference).Homed)
    (covered : ∀ reference, (core.card reference).Covered)
    (reference : ProgramRef) : (next.card reference).Covered := by
  refine transition.keeps_card Card.Covered _ inv ?_ ?_ ?_ (covered _)
  · intro label next opens stepped
    refine Card.Covered.step (inv.cards _) stepped ?_
      (fun removed _ failed => absurd failed ((Event.opens_plain opens).2 _ _))
      (covered _)
    rintro arrival record standing rfl own retains homeless
    have empty : core.targets reference.modelPool = [] := (homed _).retains retains homeless
    cases event with
    | arrive =>
      cases opens
      rw [own] at empty
      exact spares empty
    | _ => cases opens
  · intro card _ next allowed ok stepped held
    refine Card.Covered.step ok stepped ?_ ?_ held
    · rintro _ record _ rfl
      exact allowed.elim
    · rintro _ record rfl
      exact allowed.elim
  · rintro pool _ _ rfl evolved shrunk
    have during := evolved.keeps_card
      (fun card => card.Covered ∧ (reference.modelPool = pool.modelPool →
        ∀ record, card.program = some record → Card.PlacedOn (core.lost _) record →
          card.requests = [])) inv _
      (by
        rintro _ _ _ allowed ok stepped ⟨held, excused⟩
        refine ⟨Card.Covered.step ok stepped ?_ ?_ held, ?_⟩
        · rintro _ record _ rfl
          exact allowed.elim
        · rintro _ record rfl found placed
          obtain ⟨own, rfl⟩ := allowed
          exact excused own _ found placed
        · intro own
          exact stepped.excused_syncing (fun _ requests => requests = []) allowed (excused own))
      ⟨covered _, fun own _ => spares _ _ own⟩
    exact Card.Covered.step ((evolved.inv inv).cards _) shrunk
      (fun _ _ _ arrived => nomatch arrived) (fun _ _ failed => nomatch failed) during.1

/-- Where the Programs stand: a waiting one in one queue and once, an active one
in none. -/
structure QueueLaw (globalMode : Bool) (state : ProgramSchedulerState F T) : Prop where
  waiting : ∀ reference record decision target,
    state.runtime.find reference = some record →
    state.decisions.lookup reference = some decision → record.state = .paused →
    state.runtime.requestPool.queue reference ≠ [] → decision.lastTarget = some target →
      (∀ other, (state.rankQueue other).count reference =
        if globalMode = false ∧ other = target then 1 else 0) ∧
      ∀ pool, (state.globalQueue pool).count reference =
        if globalMode = true ∧ pool = reference.modelPool then 1 else 0
  active : ∀ reference record, state.runtime.find reference = some record →
    record.state = .active →
      (∀ target, reference ∉ state.rankQueue target) ∧ ∀ pool, reference ∉ state.globalQueue pool

omit transition inv

variable {state : ProgramSchedulerState F T}

theorem ProgramSchedulerState.Inv.queueLaw (inv : state.Inv globalMode)
    (queued : ∀ reference, (state.core.card reference).Queued globalMode reference) :
    QueueLaw globalMode state where
  waiting := by
    intro reference record decision target found decided paused waiting last
    obtain ⟨_, stored, facts⟩ := inv.decision found
    rw [decided] at stored
    cases stored
    have present := queued reference record decision.standing _ found
      (by simp [Core.card, ProgramSchedulerState.core, decided]) paused
      waiting last
    constructor
    · intro other
      by_cases zero : (state.rankQueue other).count reference = 0
      · rw [zero, if_neg]
        rintro ⟨rfl, rfl⟩
        exact present zero
      · obtain ⟨mode, _, _, home, once⟩ := facts.rankSound other zero
        rw [show decision.lastTarget = some other from home] at last
        cases last
        rw [if_pos ⟨mode, rfl⟩]
        exact once
    · intro pool
      by_cases zero : (state.globalQueue pool).count reference = 0
      · rw [zero, if_neg]
        rintro ⟨rfl, rfl⟩
        exact present zero
      · obtain ⟨mode, _, _, own, once⟩ := facts.globalSound pool zero
        rw [if_pos ⟨mode, own⟩]
        exact once
  active := by
    intro _ _ found active
    obtain ⟨_, _, facts⟩ := inv.decision found
    obtain ⟨rank, global⟩ := facts.active_unqueued active
    exact ⟨fun target => List.count_eq_zero.mp (rank target),
      fun pool => List.count_eq_zero.mp (global pool)⟩

/-- What the status of a Program says, and who may be released after a pause. -/
structure StatusLaw [F64 F] (setup : Setup F) (state : ProgramSchedulerState F T) : Prop where
  reasoning : ∀ key program, state.runtime.programs.lookup key = some program →
    (program.status = .reasoning ↔ program.inFlightRequests ≠ 0 ∨
      state.runtime.requestPool.queue program.reference ≠ [])
  released : ∀ order now key program decision pausedAt,
    state.runtime.programs.lookup key = some program → program.state = .paused →
    program.inFlightRequests = 0 → state.runtime.requestPool.queue program.reference = [] →
    state.decisions.lookup program.reference = some decision →
    decision.pausedAt = some pausedAt → setup.config.pausedRetentionTtl ≤ now - pausedAt →
      program.reference ∈ (setup.scheduler order).expiredPaused state now

theorem ProgramSchedulerState.Inv.statusLaw [F64 F] {setup : Setup F} (inv : state.Inv globalMode)
    (settles : ∀ reference, (state.core.card reference).Settles) : StatusLaw setup state := by
  have law key program (stored : state.runtime.programs.lookup key = some program) :
      program.status = .reasoning ↔ program.inFlightRequests ≠ 0 ∨
        state.runtime.requestPool.queue program.reference ≠ [] := by
    have found : state.runtime.find program.reference = some program :=
      find_eq_some.mpr ⟨inv.stored key program stored ▸ stored, rfl⟩
    obtain ⟨_, _, facts⟩ := inv.decision found
    constructor
    · exact settles program.reference program found
    · intro busy
      cases status : program.status with
      | reasoning => rfl
      | acting =>
        obtain ⟨idle, quiet⟩ := facts.actingQuiet status
        rcases busy with inFlight | waiting
        · exact absurd idle inFlight
        · exact absurd quiet waiting
  refine ⟨law, ?_⟩
  intro order _ key program decision _ stored paused idle quiet decided since elapsed
  have found : state.runtime.find program.reference = some program :=
    find_eq_some.mpr ⟨inv.stored key program stored ▸ stored, rfl⟩
  have acting : program.status = .acting := by
    cases status : program.status with
    | acting => rfl
    | reasoning =>
      rcases (law key program stored).mp status with inFlight | waiting
      · exact absurd idle inFlight
      · exact absurd quiet waiting
  obtain ⟨view, scanned, same⟩ := exists_iterViews order found
  obtain ⟨_, viewed, _, state_eq, status_eq, inFlight_eq, _, _, waiting_eq⟩ :=
    mem_iterViews inv.stored scanned
  rw [same, found] at viewed
  cases viewed
  refine List.mem_map.mpr ⟨view, List.mem_filter.mpr ⟨scanned, ?_⟩, same⟩
  rw [same, quiet] at waiting_eq
  have viewedDecision : state.decisions.lookup view.reference = some decision := by
    rw [same]
    exact decided
  simp only [← state_eq, ← status_eq, ← inFlight_eq, ← waiting_eq, viewedDecision, paused, acting,
    idle, since, Option.bind_some, Option.any_some, List.length_nil]
  exact decide_eq_true elapsed

def CoverageLaw (state : ProgramSchedulerState F T) : Prop :=
  ∀ key program, state.runtime.programs.lookup key = some program → program.state = .paused →
    state.runtime.requestPool.queue program.reference ≠ [] →
      ∃ decision, state.decisions.lookup program.reference = some decision ∧
        decision.queuedAt.isSome ∧ decision.forceResumeDeadline.isSome

theorem ProgramSchedulerState.Inv.coverageLaw (inv : state.Inv globalMode)
    (covered : ∀ reference, (state.core.card reference).Covered) : CoverageLaw state := by
  intro key program stored paused waiting
  have found : state.runtime.find program.reference = some program :=
    find_eq_some.mpr ⟨inv.stored key _ stored ▸ stored, rfl⟩
  obtain ⟨decision, decided, _⟩ := inv.decision found
  refine ⟨decision, decided, ?_⟩
  exact covered program.reference _ decision.standing found
    (by simp [Core.card, ProgramSchedulerState.core, decided]) paused waiting

namespace Sample

def calm (state : State) : Event Exact → Bool
  | .sync pool => (state.core.lost pool).isEmpty
  | .arrive arrival _ => !(state.poolTargets arrival.identity.modelPool).isEmpty
  | _ => true

def ofPool (pool : String) : Event Exact × Output Exact → Bool
  | (.arrive arrival _, _) => arrival.identity.modelPool == pool
  | _ => true

theorem calm_spares (state : State) (event : Event Exact) (quiet : calm state event = true) :
    state.core.SparesQueues event ∧ state.core.SparesBusy event ∧
      state.core.SparesWaiting event := by
  cases event with
  | sync pool =>
    have none_lost : state.core.lost pool = [] := List.isEmpty_iff.mp quiet
    have unplaced record : ¬ Card.PlacedOn (state.core.lost pool) record := by
      rintro ⟨_, _, gone⟩
      rw [none_lost] at gone
      cases gone
    refine ⟨?_, ?_, ?_⟩
    · intro _ gone
      rw [none_lost] at gone
      cases gone
    · intro _ record _ _ placed
      exact absurd placed (unplaced _)
    · intro _ _ _ _ placed
      exact absurd placed (unplaced _)
  | arrive arrival =>
    refine ⟨trivial, trivial, ?_⟩
    intro empty
    simp only [calm, show state.poolTargets arrival.identity.modelPool = [] from empty] at quiet
    cases quiet
  | _ => exact ⟨trivial, trivial, trivial⟩

def contended : List (Event Exact) :=
  [.sync (snapshot 0 "a" ["t"]), .arrive (arrival "a" "p" 1) 1, .arrive (arrival "a" "q" 2) 2]

end Sample

section Runs

variable [F64 F] [AffinityTree T] {setup : Setup F} {trace : List (Event F × Output F)}
  {state : ProgramSchedulerState F T}

/-- Queues stay in order in every run in which no synchronization drops a queue
that holds Programs of another pool. -/
theorem run_queueLaw (run : GuardedRun setup Core.SparesQueues trace state) :
    QueueLaw setup.config.globalQueue state := by
  refine (run.run.sound .filled).inv.queueLaw (run.invariant (fun core => ∀ reference,
    (core.card reference).Queued setup.config.globalQueue reference) ?_ ?_)
  · intro _ _ _ _ found
    cases found
  · intro _ _ _ _ inv spares transition queued
    exact transition.keeps_queued inv spares queued

theorem run_queueLaw_contended :
    ∃ trace state, GuardedRun (Sample.router false false) Core.SparesQueues trace state ∧
      (state : Sample.State).rankQueue "t" = [⟨"a", "q", 0⟩] ∧ QueueLaw false state := by
  obtain ⟨trace, state, run, queue⟩ := guarded_of_play (router false false)
    (fun state _ quiet => (calm_spares _ _ quiet).1) contended
    (fun _ state => state.rankQueue "t" = [⟨"a", "q", 0⟩]) (by decide +kernel)
  exact ⟨trace, state, run, queue, run_queueLaw run⟩

/-- Another pool lists the target and gives it up again: the waiting Program
stands in no queue any more. -/
theorem queueLaw_fails_shared_target :
    ∃ trace state, Run (Sample.router false false) trace state ∧
      (∀ arrival activatedAt, Event.arrive arrival activatedAt ∈ trace.map Prod.fst →
        arrival.identity.modelPool = "a") ∧ ¬ QueueLaw false (state : Sample.State) := by
  obtain ⟨trace, state, run, facts⟩ := run_of_play (router false false)
    (contended ++ [.sync (snapshot 1 "b" ["t"]), .sync (snapshot 2 "b" [])])
    (fun trace state => (∀ entry ∈ trace, ofPool "a" entry) ∧
      (state.runtime.find ⟨"a", "q", 0⟩).map (·.state) = some .paused ∧
      (state.decisions.lookup ⟨"a", "q", 0⟩).map (·.lastTarget) = some (some "t") ∧
      (state.runtime.requestPool.queue ⟨"a", "q", 0⟩).length = 1 ∧ state.rankQueue "t" = [])
    (by decide +kernel)
  simp only [Option.map_eq_some_iff] at facts
  obtain ⟨arrivals, ⟨_, found, paused⟩, ⟨_, decided, last⟩, waiting, empty⟩ := facts
  refine ⟨trace, state, run, ?_, ?_⟩
  · intro _ _ member
    obtain ⟨⟨_, _⟩, entry, rfl⟩ := List.mem_map.mp member
    exact beq_iff_eq.mp (arrivals _ entry)
  · intro law
    have once := (law.waiting ⟨"a", "q", 0⟩ _ _ "t" found decided paused
      (List.ne_nil_of_length_pos (by omega)) last).1 "t"
    rw [empty] at once
    cases once

/-- Status follows the requests in every run in which no synchronization ends a
placement with requests in flight and none waiting. -/
theorem run_statusLaw (run : GuardedRun setup Core.SparesBusy trace state) :
    StatusLaw setup state := by
  refine (run.run.sound .filled).inv.statusLaw
    (run.invariant (fun core => ∀ reference, (core.card reference).Settles) ?_ ?_)
  · intro _ _ found
    cases found
  · intro _ _ _ _ inv spares transition settles
    exact transition.keeps_settles inv spares settles

theorem run_statusLaw_contended :
    ∃ trace state, GuardedRun (Sample.router false false) Core.SparesBusy trace state ∧
      ((state : Sample.State).runtime.find ⟨"a", "p", 0⟩).map (·.status) = some .reasoning ∧
      StatusLaw (Sample.router false false) state := by
  obtain ⟨trace, state, run, status⟩ := guarded_of_play (router false false)
    (fun state _ quiet => (calm_spares _ _ quiet).2.1) contended
    (fun _ state => (state.runtime.find ⟨"a", "p", 0⟩).map (·.status) = some .reasoning)
    (by decide +kernel)
  exact ⟨trace, state, run, status, run_statusLaw run⟩

/-- A target disappears while a request is in flight there and none waits: the
Program has gone quiet and is still reasoning. -/
theorem statusLaw_fails_lost_placement :
    ∃ trace state, Run (Sample.router false false) trace state ∧
      ¬ StatusLaw (Sample.router false false) (state : Sample.State) := by
  obtain ⟨trace, state, run, facts⟩ := run_of_play (router false false)
    [.sync (snapshot 0 "a" ["t"]), .arrive (arrival "a" "p" 1) 1,
      .claim ⟨⟨"a", "p", 0⟩, 1, 0⟩ 2, .sync (snapshot 1 "a" [])]
    (fun _ state => (state.runtime.programs.lookup ⟨"a", "p"⟩).map (fun program =>
        (program.reference, program.status, program.inFlightRequests)) =
          some (⟨"a", "p", 0⟩, .reasoning, 0) ∧
      state.runtime.requestPool.queue ⟨"a", "p", 0⟩ = []) (by decide +kernel)
  simp only [Prod.mk.injEq, Option.map_eq_some_iff] at facts
  obtain ⟨⟨program, stored, reference, status, idle⟩, quiet⟩ := facts
  refine ⟨trace, state, run, ?_⟩
  intro law
  rcases (law.reasoning _ program stored).mp status with busy | waiting
  · exact busy idle
  · rw [reference] at waiting
    exact waiting quiet

theorem Run.homed (run : Run setup trace state) (reference : ProgramRef) :
    (state.core.card reference).Homed := by
  refine run.invariant (fun _ core => ∀ reference, (core.card reference).Homed) ?_ ?_ _
  · intro _ _ found
    cases found
  · intro _ _ _ _ _ inv transition homed
    exact transition.keeps_homed inv homed

/-- Waiting Programs have deadlines in every run in which no synchronization
ends the placement of a Program with waiting requests and every arrival finds a
target in its pool. -/
theorem run_coverageLaw (run : GuardedRun setup Core.SparesWaiting trace state) :
    CoverageLaw state := by
  have kept := run.invariant (fun core => (∀ reference, (core.card _).Homed) ∧
    ∀ reference, (core.card _).Covered) (by
      constructor
      · intro _ _ found
        cases found
      · intro _ _ _ found
        cases found) (by
      rintro _ _ _ _ inv spares transition ⟨homed, covered⟩
      exact ⟨transition.keeps_homed inv homed, transition.keeps_covered inv spares homed covered⟩)
  exact (run.run.sound .filled).inv.coverageLaw kept.2

theorem run_coverageLaw_contended :
    ∃ trace state, GuardedRun (Sample.router false false) Core.SparesWaiting trace state ∧
      ((state : Sample.State).runtime.find ⟨"a", "q", 0⟩).map (·.state) = some .paused ∧
      CoverageLaw state := by
  obtain ⟨trace, state, run, paused⟩ := guarded_of_play (router false false)
    (fun state _ quiet => (calm_spares _ _ quiet).2.2) contended
    (fun _ state => (state.runtime.find ⟨"a", "q", 0⟩).map (·.state) = some .paused)
    (by decide +kernel)
  exact ⟨trace, state, run, paused, run_coverageLaw run⟩

/-- A resumed Program fails over before its request is claimed: it waits again,
without a deadline. -/
theorem coverageLaw_fails_failover :
    ∃ trace state, Run (Sample.router false false) trace state ∧
      ¬ CoverageLaw (state : Sample.State) := by
  obtain ⟨trace, state, run, facts⟩ := run_of_play (router false false)
    [.sync (snapshot 0 "a" ["t"]), .arrive (arrival "a" "p" 1) 1, .sync (snapshot 1 "a" ["u"])]
    (fun _ state => (state.runtime.programs.lookup ⟨"a", "p"⟩).map (fun program =>
        (program.reference, program.state)) = some (⟨"a", "p", 0⟩, .paused) ∧
      (state.runtime.requestPool.queue ⟨"a", "p", 0⟩).length = 1 ∧
      (state.decisions.lookup ⟨"a", "p", 0⟩).map (·.forceResumeDeadline) = some none)
    (by decide +kernel)
  simp only [Prod.mk.injEq, Option.map_eq_some_iff] at facts
  obtain ⟨⟨_, stored, reference, paused⟩, waiting, _, decided, uncovered⟩ := facts
  refine ⟨trace, state, run, ?_⟩
  intro law
  obtain ⟨_, found, _, covered⟩ := law _ _ stored paused
    (List.ne_nil_of_length_pos (by rw [reference, waiting]; exact Nat.one_pos))
  rw [reference, decided] at found
  cases found
  rw [uncovered] at covered
  cases covered

end Runs

end SmetricRouter.ProgramScheduling
