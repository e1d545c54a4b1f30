import SmetricRouter.ProgramScheduling.FailedAcquisitions

/-! The force-resume deadline of a waiting Program.

The deadline is to be frozen when a Program enters a queue. Every section keeps
it until the Program is admitted or waits for nothing, except an arrival for the
same Program, which computes the deadline anew from its own clock.
-/

namespace SmetricRouter.ProgramScheduling

open Sample

variable {globalMode : Bool} {label : Label} {deadline : Instant}

namespace Card

variable {reference : ProgramRef} {card next : Card}

def WaitsUntil (deadline : Instant) (card : Card) : Prop :=
  ∃ record standing, card.program = some record ∧ record.state = .paused ∧ card.requests ≠ [] ∧
    card.standing = some standing ∧ standing.forceResumeDeadline = some deadline

/-- A waiting Program keeps its deadline until it is activated or has no request
left; only an arrival may set another one. -/
theorem WaitsUntil.step
    (stepped : CardStep globalMode reference card label next) (settled : ¬ label.arrives)
    (waits : card.WaitsUntil deadline) :
    (∃ target, label = .activate reference target) ∨ next.requests = [] ∨
      next.WaitsUntil deadline := by
  obtain ⟨record, standing, live, paused, waiting, stored, due⟩ := waits
  -- A move of an active Program is not a move of a waiting one.
  have idle {old : RuntimeProgram} (found : card.program = some old)
      (active : old.state = .active) : False := by
    rw [live] at found
    cases found
    rw [paused] at active
    cases active
  cases stepped with
  | stay | extend | shrink | lose =>
    exact .inr (.inr ⟨record, standing, live, paused, waiting, stored, due⟩)
  | arrivePlaced | arriveHomeless | arriveQueued => exact absurd trivial settled
  | activate _ target => exact .inl ⟨target, rfl⟩
  | pause _ found active | dispatch _ _ _ _ _ found active => exact (idle found active).elim
  | unmark _ _ _ found | complete _ _ _ _ found =>
    rw [live] at found
    cases found
    exact .inr (.inr ⟨_, standing, rfl, paused, waiting, stored, due⟩)
  | cancel _ position =>
    by_cases left : (card.cancel position).requests = []
    · exact .inr (.inl left)
    · obtain ⟨_, program, standing_eq, _⟩ := cancel_waiting left
      exact .inr (.inr ⟨record, standing, program.trans live, paused, left,
        standing_eq.trans stored, due⟩)
  | release _ _ _ empty => exact absurd empty waiting
  | failOver _ removed epoch old replacement old_eq =>
    obtain ⟨program, requests, moved, _⟩ :=
      failOver_fields card reference.modelPool removed _ old
    rw [stored] at old_eq
    cases old_eq
    refine .inr (.inr ⟨interrupt removed _ record, _, by rw [program, live]; rfl, ?_,
      by rw [requests]; exact waiting, moved, due⟩)
    unfold interrupt
    split
    · rfl
    · exact paused

end Card

def AdmittedSince (before after : ProgramRuntime) (program : ProgramRef) : Prop :=
  ∃ events epoch, after.journal = before.journal ++ events ∧ .admitted program epoch ∈ events

variable {before : ProgramRuntime} {program : ProgramRef}

theorem AdmittedSince.later {after last : ProgramRuntime}
    (admitted : AdmittedSince before after program)
    (stepped : RuntimeStep after last label) : AdmittedSince before last program := by
  obtain ⟨events, epoch, journal, member⟩ := admitted
  obtain ⟨more, extended⟩ := stepped.journal_extends
  refine ⟨events ++ more, epoch, ?_, List.mem_append_left _ member⟩
  rw [extended, journal, List.append_assoc]

/-- Where a Program stands that waited until `deadline` in an earlier state. -/
def HeldSince (before : ProgramRuntime) (program : ProgramRef) (deadline : Instant)
    (core : Core) : Prop :=
  (∃ events, core.runtime.journal = before.journal ++ events) ∧
    (AdmittedSince before core.runtime program ∨ core.runtime.requestPool.queue program = [] ∨
      (core.card program).WaitsUntil deadline)

section Moves

variable {core next : Core}

theorem HeldSince.move (held : HeldSince before program deadline core)
    (inv : core.Inv globalMode) (moved : Move globalMode core label next)
    (settled : ¬ label.arrives) : HeldSince before program deadline next := by
  have stepped := moved.runtimeStep inv.keyed
  obtain ⟨⟨events, journal⟩, alternatives⟩ := held
  obtain ⟨more, extended⟩ := stepped.journal_extends
  refine ⟨⟨events ++ more, by rw [extended, journal, List.append_assoc]⟩, ?_⟩
  rcases alternatives with admitted | empty | waits
  · exact .inl (admitted.later stepped)
  · have shorter := stepped.queue_sublist settled program
    rw [empty] at shorter
    exact .inr (.inl (List.sublist_nil.mp shorter))
  · rcases waits.step (moved.cardStep program inv.keyed) settled with
      ⟨target, rfl⟩ | empty | waits
    · left
      cases moved with
      | activate program target runtime _ activated =>
        obtain ⟨record, found, _, _, rfl⟩ := ProgramRuntime.activate_some activated
        have exact := (ProgramRuntime.find_eq_some.mp found).2
        have opened : (core.runtime.openPlacement { record with status := .reasoning } target
          true).journal = core.runtime.journal ++
            [.admitted program (saturatingAdd core.runtime.nextPlacementEpoch 1)] := by
          rw [← exact]
          rfl
        refine ⟨events ++ [.admitted program (saturatingAdd core.runtime.nextPlacementEpoch 1)],
          _, ?_, List.mem_append_right _ (List.mem_singleton_self _)⟩
        rw [← List.append_assoc, ← journal, ← opened]
        rfl
    · exact .inr (.inl empty)
    · exact .inr (.inr waits)

theorem Core.card_arrive_other (keyed : core.runtime.Keyed) {arrival : Arrival}
    (home : Option String) (due : Instant) (other : program ≠ (core.retained arrival).1.program) :
    (core.arrive globalMode arrival home due).card program = core.card program := by
  have retained standing := (card_retained keyed arrival rfl standing program).trans (if_neg other)
  simp only [arrive]
  split
  · exact retained _
  · split
    · exact retained _
    · rw [setStanding_setStanding, card_editQueue _ globalMode _ _ fun queue =>
        count_pushWaiter queue _ program]
      exact (if_neg other).trans (retained _)

end Moves

section Sections

variable {F : Type} {core next : Core} {event : Event F} {output : Output F}

/-- No request arrives for a Program that already waits and has its deadline. -/
def Core.Refrains (core : Core) : Event F → Prop
  | .arrive arrival _ => ∀ deadline,
      ¬ (core.card (core.retained arrival).1.program).WaitsUntil deadline
  | _ => True

theorem Transition.held (transition : Transition globalMode core event output next)
    (inv : core.Inv globalMode) (refrains : core.Refrains event)
    (waits : (core.card program).WaitsUntil deadline) :
    HeldSince core.runtime program deadline next := by
  have initially : HeldSince core.runtime program deadline core :=
    ⟨⟨[], (List.append_nil _).symm⟩, .inr (.inr waits)⟩
  -- After an arrival for another Program this one is as before.
  have arrives {arrival : Arrival} {home : Option String} {due : Instant}
      (others : ∀ deadline, ¬ (core.card (core.retained arrival).1.program).WaitsUntil deadline)
      (moved : Move globalMode core (.arrive arrival) (core.arrive globalMode arrival home due)) :
      HeldSince core.runtime program deadline (core.arrive globalMode arrival home due) := by
    have apart : program ≠ (core.retained arrival).1.program := by
      rintro rfl
      exact others _ waits
    refine ⟨(moved.runtimeStep inv.keyed).journal_extends, .inr (.inr ?_)⟩
    rw [Core.card_arrive_other inv.keyed home due apart]
    exact waits
  by_cases arriving : event.arrives
  · cases transition with
    | arrived _ _ _ _ _ moved _ evolved =>
      exact evolved.keeps _ (moved.inv inv) (fun _ => Label.scheduling_settled)
        (fun _ _ _ sound settled taken held => held.move sound taken settled)
        (arrives refrains moved)
    | stranded _ _ _ _ moved => exact arrives refrains moved
    | _ => exact arriving.elim
  · exact transition.keeps_settled _ inv arriving
      (fun _ _ _ sound settled taken held => held.move sound taken settled) initially

end Sections

section Runs

variable {F T : Type}

def ProgramSchedulerState.WaitsUntil (state : ProgramSchedulerState F T) (program : ProgramRef)
    (deadline : Instant) : Prop :=
  ∃ record decision, state.runtime.find program = some record ∧ record.state = .paused ∧
    state.runtime.requestPool.queue program ≠ [] ∧
    state.decisions.lookup program = some decision ∧
    decision.forceResumeDeadline = some deadline

theorem ProgramSchedulerState.waitsUntil_card (state : ProgramSchedulerState F T)
    : (state.core.card program).WaitsUntil deadline ↔ state.WaitsUntil program deadline := by
  constructor
  · rintro ⟨record, standing, live, paused, waiting, stored, due⟩
    obtain ⟨decision, decided, rfl⟩ := Option.map_eq_some_iff.mp stored
    exact ⟨record, decision, live, paused, waiting, decided, due⟩
  · rintro ⟨record, decision, live, paused, waiting, decided, due⟩
    exact ⟨record, decision.standing, live, paused, waiting,
      Option.map_eq_some_iff.mpr ⟨decision, decided, rfl⟩, due⟩

/-- A Program that waits is admitted or left without requests, or it still waits
with a deadline that is not later. -/
def DeadlineHeld (state next : ProgramSchedulerState F T) : Prop :=
  ∀ program deadline, state.WaitsUntil program deadline →
    AdmittedSince state.runtime next.runtime program ∨
      next.runtime.requestPool.queue program = [] ∨
      ∃ later ≤ deadline, next.WaitsUntil program later

variable [F64 F] [AffinityTree T] {setup : Setup F} {trace : List (Event F × Output F)}
  {state next : ProgramSchedulerState F T} {order : IterationOrder} {event : Event F}
  {output : Output F}

/-- No section of a run moves the deadline of a waiting Program later, unless a
further request of that Program arrives. -/
theorem run_deadlineHeld (run : Run setup trace state)
    (stepped : (setup.scheduler order).step state event = .ok (output, next))
    (refrains : state.core.Refrains event) : DeadlineHeld state next := by
  intro _ deadline waits
  have held := (run.transition stepped).held (run.sound order).inv refrains
    (state.waitsUntil_card.mpr waits)
  rcases held.2 with admitted | empty | still
  · exact .inl admitted
  · exact .inr (.inl empty)
  · exact .inr (.inr ⟨deadline, Nat.le_refl _, next.waitsUntil_card.mp still⟩)

/-- Another Program arrives while one waits. -/
theorem run_deadlineHeld_sample :
    ∃ trace state output next, Run (Sample.router false false) trace state ∧
      ((Sample.router false false).scheduler .filled).step state
        (.arrive (Sample.arrival "a" "r" 5) 5) = .ok (output, (next : Sample.State)) ∧
      state.WaitsUntil ⟨"a", "q", 0⟩ 12 ∧ DeadlineHeld state next := by
  obtain ⟨trace, state, output, next, run, stepped, facts⟩ :=
    step_of_play (router false false) contended
      (.arrive (arrival "a" "r" 5) 5)
      (fun state _ => (state.runtime.find ⟨"a", "q", 0⟩).map (·.state) = some .paused ∧
        (state.runtime.requestPool.queue ⟨"a", "q", 0⟩).length = 1 ∧
        (state.decisions.lookup ⟨"a", "q", 0⟩).map (·.forceResumeDeadline) = some (some 12) ∧
        (state.runtime.find (state.core.retained (arrival "a" "r" 5)).1.program).isNone)
      (by decide +kernel)
  simp only [Option.map_eq_some_iff] at facts
  obtain ⟨⟨record, found, paused⟩, _, ⟨decision, decided, due⟩, absent⟩ := facts
  refine ⟨trace, state, output, next, run, stepped, ⟨record, decision, found, paused,
    List.ne_nil_of_length_pos (by omega), decided, due⟩, run_deadlineHeld run stepped ?_⟩
  rintro _ ⟨arriving, _, live, _⟩
  rw [show state.runtime.find _ = some arriving from live] at absent
  cases absent

/-- A second request of a waiting Program arrives three instants later and moves
the deadline of both. -/
theorem deadlineHeld_fails_second_arrival :
    ∃ trace state output next, Run (Sample.router false false) trace state ∧
      ((Sample.router false false).scheduler .filled).step state
        (.arrive (Sample.arrival "a" "q" 5) 5) = .ok (output, (next : Sample.State)) ∧
      ¬ DeadlineHeld state next := by
  obtain ⟨trace, state, output, next, run, stepped, facts⟩ :=
    step_of_play (router false false) contended
      (.arrive (arrival "a" "q" 5) 5)
      (fun state next => (state.runtime.find ⟨"a", "q", 0⟩).map (·.state) = some .paused ∧
        (state.runtime.requestPool.queue ⟨"a", "q", 0⟩).length = 1 ∧
        (state.decisions.lookup ⟨"a", "q", 0⟩).bind (·.forceResumeDeadline) = some 12 ∧
        next.runtime.journal.drop state.runtime.journal.length = [.retained ⟨"a", "q", 0⟩ 3] ∧
        (next.runtime.requestPool.queue ⟨"a", "q", 0⟩).length = 2 ∧
        (next.decisions.lookup ⟨"a", "q", 0⟩).bind (·.forceResumeDeadline) = some 15)
      (by decide +kernel)
  simp only [Option.map_eq_some_iff, Option.bind_eq_some_iff] at facts
  obtain ⟨⟨record, found, paused⟩, _, ⟨decision, decided, due⟩, journal, left, moved, stored,
    later⟩ := facts
  refine ⟨trace, state, output, next, run, stepped, fun held => ?_⟩
  rcases held ⟨"a", "q", 0⟩ 12 ⟨record, decision, found, paused,
      List.ne_nil_of_length_pos (by omega), decided, due⟩ with
    ⟨events, epoch, extended, member⟩ | empty | ⟨deadline, sooner, _, other, _, _, _, same, due⟩
  · rw [extended, List.drop_left] at journal
    rw [journal] at member
    simp at member
  · rw [empty] at left
    cases left
  · rw [stored] at same
    cases same
    rw [later] at due
    cases due
    exact absurd sooner (by decide)

end Runs

end SmetricRouter.ProgramScheduling
