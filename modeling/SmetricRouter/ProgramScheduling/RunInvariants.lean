import SmetricRouter.ProgramScheduling.Steps

/-! What holds in every state of every run. -/

namespace SmetricRouter.ProgramScheduling

open ProgramSchedulerState ProgramRuntime

variable {F T : Type} [F64 F] {setup : Setup F} {globalMode : Bool}

theorem core_new_inv (config : ProgramSchedulerConfig F) :
    (ProgramSchedulerState.new config : ProgramSchedulerState F T).Inv globalMode :=
  ⟨nofun, fun _ => .absent rfl rfl rfl (fun _ => rfl) (fun _ => rfl)⟩

theorem new_built {setup : Setup F} :
    (ProgramBindings.new setup.config.bindingStrategy setup.config.hashVirtualNodes :
      ProgramBindings T).policy.Built setup.fbiHash
        (setup.config.progressTtl.tokenCapacity.isSome = true) := by
  have balanced := setup.config.balance_capacity
  have nodes := setup.config.virtualNodes_pos
  generalize setup.config.bindingStrategy = strategy at balanced ⊢
  cases strategy with
  | consistentHash => exact ⟨nodes, nofun⟩
  | programRoundRobin | leastProgramCount | cacheAware => trivial
  | reasoningTokenBalance => exact balanced rfl

variable {state : ProgramSchedulerState F T} {event : Event F} {output : Output F}

section Runs

variable [AffinityTree T] {trace : List (Event F × Output F)}

theorem Run.sound (run : Run setup trace state) (order : IterationOrder) :
    (setup.scheduler order).Sound state := by
  induction run with
  | start => exact ⟨core_new_inv setup.config, new_built, ProgramLineage.forest_empty⟩
  | @next trace state next event output taken run stepped ih =>
    have before : (setup.scheduler taken).Sound state := ⟨ih.inv, ih.built, ih.forest⟩
    have after := ((ProgramScheduler.step_transition before _).ok_of stepped).1
    exact ⟨after.inv, after.built, after.forest⟩

theorem Run.transition {next : ProgramSchedulerState F T}
    {order : IterationOrder} (run : Run setup trace state)
    (stepped : (setup.scheduler order).step state event = .ok (output, next)) :
    Transition setup.config.globalQueue state.core event output next.core :=
  ((ProgramScheduler.step_transition (run.sound order) event).ok_of stepped).2

theorem Run.invariant (holds : List (Event F × Output F) → Core → Prop)
    (initially : holds [] (ProgramSchedulerState.new setup.config : ProgramSchedulerState F T).core)
    (kept : ∀ trace core event output next, core.Inv setup.config.globalQueue →
      Transition setup.config.globalQueue core event output next → holds trace core →
        holds (trace ++ [(event, output)]) next)
    (run : Run setup trace state) : holds trace state.core := by
  induction run with
  | start => exact initially
  | next order run stepped ih =>
    exact kept _ _ _ _ _ (run.sound order).inv (run.transition stepped) ih

variable {permits : Core → Event F → Prop}

theorem GuardedRun.invariant (holds : Core → Prop)
    (initially : holds (ProgramSchedulerState.new setup.config : ProgramSchedulerState F T).core)
    (kept : ∀ core event output next, core.Inv setup.config.globalQueue → permits core event →
      Transition setup.config.globalQueue core event output next → holds core → holds next)
    (guarded : GuardedRun setup permits trace state) : holds state.core := by
  induction guarded with
  | start => exact initially
  | next order guarded permitted stepped ih =>
    exact kept _ _ _ _ (guarded.run.sound order).inv permitted (guarded.run.transition stepped) ih

end Runs

def Label.arrives : Label → Prop
  | .arrive _ => True
  | _ => False

theorem Label.scheduling_settled {label : Label} (allowed : label.scheduling) :
    ¬ label.arrives := by
  cases label with
  | arrive => exact allowed.elim
  | _ => exact id

theorem Label.syncing_settled {label : Label} {pool : String} {removed : List String}
    (allowed : label.syncing pool removed) : ¬ label.arrives := by
  cases label with
  | arrive => exact allowed.elim
  | _ => exact id

def Event.arrives : Event F → Prop
  | .arrive _ _ => True
  | _ => False

def Event.Opens : Event F → Label → Prop
  | .arrive arrival _, label => label = .arrive arrival
  | .claim handle now, label => label = .dispatch handle now
  | .cancel handle _ _ _, label => label = .cancel handle
  | .complete dispatch _ _ usage _ _, label => label = .complete dispatch usage
  | _, _ => False

variable {core next : Core}

variable (holds : Core → Prop) {allowed : Label → Prop}

theorem Evolves.keeps {kind : Label → Prop}
    (evolved : Evolves globalMode kind core next) (inv : core.Inv globalMode)
    (within : ∀ label, kind label → allowed label)
    (step : ∀ core label next, core.Inv globalMode → allowed label →
      Move globalMode core label next → holds core → holds next) (initially : holds core) :
    holds next := by
  have kept := @Evolves.invariant _ _ _ next (fun core => core.Inv globalMode ∧ holds _) evolved (by
      rintro _ _ later allowed taken ⟨sound, held⟩
      exact ⟨taken.inv sound, step _ _ _ sound (within _ allowed) taken held⟩)
  exact (kept ⟨inv, initially⟩).2

/-- The kinds of moves that a section takes after its opening move. -/
structure Label.Follows (allowed : Label → Prop) : Prop where
  scheduling : ∀ label : Label, label.scheduling → allowed label
  syncing : ∀ (label : Label) (pool : String) (removed : List String),
    label.syncing pool removed → allowed label
  shrink : ∀ (pool : String) (removed : List String), allowed (.shrink pool removed)

variable (transition : Transition globalMode core event output next)

include transition

omit [F64 F] in
theorem Transition.keeps_kind (inv : core.Inv globalMode)
    (opens : ∀ label, event.Opens label → allowed label) (follows : Label.Follows allowed)
    (step : ∀ core label next, core.Inv globalMode → allowed label →
      Move globalMode core label next → holds core → holds next) (initially : holds core) :
    holds next := by
  have opened {label : Label} {middle : Core} (opening : event.Opens label)
      (moved : Move globalMode core label middle) : holds middle :=
    step _ _ _ inv (opens _ opening) moved initially
  have schedules {first last : Core} (sound : first.Inv globalMode) (held : holds first)
      (evolved : Evolves globalMode Label.scheduling first last) : holds last :=
    evolved.keeps _ sound follows.scheduling step held
  cases transition with
  | synced | unclaimed | uncancelled | stale | observed | applied | evicted => exact initially
  | replaced _ _ evolved moved =>
    exact step _ _ _ (evolved.inv inv) (follows.shrink _ _) moved
      (evolved.keeps _ inv (fun label => follows.syncing label _ _) step initially)
  | arrived _ _ _ _ _ moved _ evolved | cancelled _ _ _ _ _ _ moved evolved
  | completed _ _ _ _ _ _ _ _ moved evolved =>
    exact schedules (moved.inv inv) (opened rfl moved) evolved
  | stranded _ _ _ _ moved | claimed _ _ _ _ moved => exact opened rfl moved
  | expired _ _ evolved | ticked _ _ evolved => exact schedules inv initially evolved

omit [F64 F] in
theorem Transition.keeps (inv : core.Inv globalMode)
    (step : ∀ core label next, core.Inv globalMode → Move globalMode core label next →
      holds core → holds next) (initially : holds core) : holds next :=
  transition.keeps_kind holds inv (fun _ _ => trivial)
    ⟨fun _ _ => trivial, fun _ _ _ _ => trivial, fun _ _ => trivial⟩
    (fun core label next sound _ => step core label next sound) initially

omit [F64 F] in
theorem Transition.keeps_settled (inv : core.Inv globalMode) (settled : ¬ event.arrives)
    (step : ∀ core label next, core.Inv globalMode → ¬ label.arrives →
      Move globalMode core label next → holds core → holds next) (initially : holds core) :
    holds next := by
  refine transition.keeps_kind _ inv ?_ ⟨fun _ => Label.scheduling_settled,
    fun _ _ _ => Label.syncing_settled, fun _ _ => id⟩ step initially
  intro _ opens
  cases event with
  | arrive => exact absurd trivial settled
  | claim | cancel | complete =>
    cases opens
    exact id
  | _ => cases opens

omit transition

omit [F64 F] in
theorem Transition.keeps_card (holds : Card → Prop) (reference : ProgramRef)
    (transition : Transition globalMode core event output next) (inv : core.Inv globalMode)
    (opening : ∀ label next, event.Opens label →
      CardStep globalMode reference (core.card reference) label next → holds next)
    (scheduling : ∀ card label next, label.scheduling → card.Ok globalMode reference →
      CardStep globalMode reference card label next → holds card → holds next)
    (syncing : ∀ pool base next, event = .sync pool →
      Evolves globalMode (Label.syncing pool.modelPool (core.lost pool)) core base →
      CardStep globalMode reference (base.card reference) (.shrink pool.modelPool (core.lost pool))
        next → holds next) (initially : holds (core.card reference)) :
    holds (next.card reference) := by
  have opened {label : Label} {middle : Core} (opens : event.Opens label)
      (moved : Move globalMode core label middle) : holds (middle.card reference) :=
    opening _ _ opens (moved.cardStep _ inv.keyed)
  cases transition with
  | synced | unclaimed | uncancelled | stale | observed | applied | evicted => exact initially
  | replaced _ _ evolved moved =>
    exact syncing _ _ _ rfl evolved (moved.cardStep _ (evolved.inv inv).keyed)
  | arrived _ _ _ _ _ moved _ evolved | cancelled _ _ _ _ _ _ moved evolved
  | completed _ _ _ _ _ _ _ _ moved evolved =>
    exact evolved.keeps_card _ (moved.inv inv) _ scheduling (opened rfl moved)
  | stranded _ _ _ _ moved | claimed _ _ _ _ moved => exact opened rfl moved
  | expired _ _ evolved | ticked _ _ evolved =>
    exact evolved.keeps_card _ inv _ scheduling initially

/-- The lifecycle facts of one live Program and its requests. -/
structure Lifecycle (state : ProgramSchedulerState F T) (program : RuntimeProgram) : Prop where
  activePlaced : program.state = .active ↔ program.placement.isSome
  pausedIdle : program.state = .paused → program.inFlightRequests = 0
  actingQuiet : program.status = .acting → program.inFlightRequests = 0 ∧
    state.runtime.requestPool.queue program.reference = []
  placedListed : ∀ target, program.placement = some target →
    target ∈ state.poolTargets program.reference.modelPool

/-- The five maps of the scheduler state agree with each other. -/
structure Consistent (state : ProgramSchedulerState F T) : Prop where
  lifecycle : ∀ key program, state.runtime.programs.lookup key = some program →
    program.reference.key = key ∧ Lifecycle state program
  decisions : ∀ reference, reference ∈ state.decisions.keys ↔
    ∃ program, state.runtime.programs.lookup reference.key = some program ∧
      program.reference = reference
  requests : ∀ reference, state.runtime.requestPool.queue reference ≠ [] →
    ∃ program, state.runtime.programs.lookup reference.key = some program ∧
      program.reference = reference

omit [F64 F] in
theorem ProgramSchedulerState.Inv.consistent (inv : state.Inv globalMode) : Consistent state where
  lifecycle := by
    intro key program stored
    have own := inv.stored key _ stored
    have found : state.runtime.find program.reference = some program :=
      find_eq_some.mpr ⟨own ▸ stored, rfl⟩
    obtain ⟨decision, _, facts⟩ := inv.decision found
    refine ⟨own, facts.activePlaced, facts.pausedIdle, facts.actingQuiet, ?_⟩
    intro _ placed
    exact facts.lastListed _ (facts.placedLast _ placed)
  decisions := by
    intro reference
    rw [Table.mem_keys_iff]
    constructor
    · rintro ⟨decision, decided⟩
      obtain ⟨record, found, _⟩ := inv.record decided
      exact ⟨record, find_eq_some.mp found⟩
    · rintro ⟨record, found⟩
      obtain ⟨decision, decided, _⟩ := inv.decision (find_eq_some.mpr found)
      exact ⟨decision, decided⟩
  requests := by
    intro _ waiting
    obtain ⟨record, _, found, _⟩ := (inv.cards _).of_requests waiting
    exact ⟨record, find_eq_some.mp found⟩

/-- In every reachable state the maps agree, and no section that starts there
indexes a missing decision: the only way to stop is an exhausted revision. -/
theorem run_consistent [AffinityTree T] {trace : List (Event F × Output F)}
    {state : ProgramSchedulerState F T} (run : Run setup trace state) :
    Consistent state ∧ ∀ order event fault,
      (setup.scheduler order).step state event = .error fault → fault = .revisionExhausted := by
  constructor
  · exact (run.sound .filled).inv.consistent
  · intro order event _ stopped
    have ensured := ProgramScheduler.step_transition (run.sound order) event
    rw [stopped] at ensured
    exact ensured

theorem run_consistent_sample :
    ∃ trace state, Run (Sample.router false false) trace state ∧
      (state : Sample.State).runtime.programs.keys = [⟨"pool", "program"⟩] ∧ Consistent state := by
  obtain ⟨trace, state, run, keys⟩ := Sample.run_of_play (Sample.router false false)
    [.sync (Sample.snapshot 0 "pool" ["target"]), .arrive (Sample.arrival "pool" "program" 1) 1]
    (fun _ state => state.runtime.programs.keys = [⟨"pool", "program"⟩]) (by decide +kernel)
  exact ⟨trace, state, run, keys, (run_consistent run).1⟩

theorem Sample.step_of_play (setup : Setup Exact) (events : List (Event Exact))
    (event : Event Exact) (holds : Sample.State → Sample.State → Prop)
    [∀ state next, Decidable (holds state next)]
    (played : (Sample.play setup (fun _ _ => true) events [] (.new setup.config)).any fun reached =>
      ((setup.scheduler .filled).step reached.2 event).toOption.any fun stepped =>
        holds reached.2 stepped.2) :
    ∃ trace state output next, Run setup trace state ∧
      (setup.scheduler .filled).step state event = .ok (output, next) ∧ holds state next := by
  obtain ⟨trace, state, run, stepping⟩ := Sample.run_of_play setup events (fun _ state =>
    ((setup.scheduler .filled).step state event).toOption.any fun stepped =>
      holds state stepped.2) (by simpa using played)
  obtain ⟨⟨output, next⟩, returned, held⟩ := (Option.any_eq_true _ _).mp stepping
  exact ⟨trace, state, output, next, run, ok_of_toOption returned, of_decide_eq_true held⟩

end SmetricRouter.ProgramScheduling
