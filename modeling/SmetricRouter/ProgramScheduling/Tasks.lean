import SmetricRouter.ProgramScheduling.WakeUps

/-! The tasks that wait for admission, interleaved with everything else.

An acquisition retains its request in one section and then loops: it takes the
lock to claim, and when the claim returns nothing it waits on its notifier until
it is signalled or its timer runs out. Giving up, and dropping the task while it
waits, both cancel the request in a section of their own. The steps of all
tasks and the sections of other callers are interleaved in any order.

A task is named by the notifier of its request, which no other request shares.
-/

namespace SmetricRouter.ProgramScheduling

open Function

/-- Where an acquisition is between two steps of its own. -/
inductive TaskPhase where
  /-- About to take the lock and claim. -/
  | claiming
  /-- The claim returned nothing; the queue timeout is looked at next. -/
  | checking
  /-- The deadline has been read; the wait has not been polled yet. -/
  | polling
  /-- Suspended until the notifier or the timer fires. -/
  | blocked
  /-- The timer fired; about to take the lock and run the decisions. -/
  | expired
  /-- The guard is being dropped; about to take the lock and cancel. The flag says
  whether the acquisition returns an error or was dropped. -/
  | cancelling (returns : Bool)
  deriving DecidableEq, Repr

structure AcquisitionTask where
  handle : ProgramRequestHandle
  phase : TaskPhase
  deriving DecidableEq, Repr

inductive AcquisitionOutcome where
  | failed (notifier : Nat)
  | dispatched (notifier : Nat)
  deriving DecidableEq, Repr

structure TaskSystem (F T : Type) where
  state : ProgramSchedulerState F T
  tasks : Nat → Option AcquisitionTask
  /-- History variable, oldest first: the errors returned, and the requests
  dispatched, each by the notifier of its request. -/
  log : List AcquisitionOutcome

/-- One step of one task, or one section of another caller. -/
inductive TaskAction (F : Type) where
  | other (event : Event F)
  | begin (arrival : Arrival) (activatedAt : Instant)
  | claim (task : Nat) (now : Instant)
  /-- The queue timeout has passed. -/
  | giveUp (task : Nat)
  /-- The queue timeout has not passed; the force-resume deadline is read. -/
  | proceed (task : Nat)
  | poll (task : Nat)
  | wake (task : Nat)
  | elapse (task : Nat)
  | decide (task : Nat) (now : Instant)
  /-- The task is dropped while it is suspended. -/
  | drop (task : Nat)
  | cancel (task : Nat) (pausedAt releasedAt scheduledAt : Instant)

def Event.foreign {F : Type} : Event F → Bool
  | .sync _ | .complete _ _ _ _ _ _ | .tick _ | .beginObservation _ | .applyObservations _ _
  | .evict _ => true
  | .arrive _ _ | .claim _ _ | .expire _ | .cancel _ _ _ _ => false

variable {F T : Type}

namespace TaskSystem

variable (system : TaskSystem F T)

def cell (notifier : Nat) : Notify :=
  system.state.runtime.requestPool.notifiers notifier

def setCell (notifier : Nat) (cell : Notify) : TaskSystem F T :=
  { system with
    state := { system.state with
      runtime := { system.state.runtime with
        requestPool := { system.state.runtime.requestPool with
          notifiers := Function.update system.state.runtime.requestPool.notifiers notifier cell } } } }

def setTask (notifier : Nat) (task : Option AcquisitionTask) : TaskSystem F T :=
  { system with tasks := Function.update system.tasks notifier task }

def advance (next : ProgramSchedulerState F T) : TaskSystem F T :=
  { system with state := next }

def record (outcomes : List AcquisitionOutcome) : TaskSystem F T :=
  { system with log := system.log ++ outcomes }

def frontOutcome (program : ProgramRef) : List AcquisitionOutcome :=
  ((system.state.runtime.requestPool.queue program).head?.map fun request =>
    .dispatched request.notifier).toList

variable [F64 F] [AffinityTree T]

def new (setup : Setup F) : TaskSystem F T := ⟨.new setup.config, fun _ => none, []⟩

/-- Run one action; `none` when it is not enabled or its section stops. -/
def act (scheduler : ProgramScheduler F) (system : TaskSystem F T) :
    TaskAction F → Option (TaskSystem F T)
  | .other event =>
    if event.foreign then
      match scheduler.step system.state event with
      | .ok (_, next) => some (system.advance next)
      | .error _ => none
    else none
  | .begin arrival activatedAt =>
    match scheduler.step system.state (.arrive arrival activatedAt) with
    | .ok (.arrived (.ok handle), next) =>
      some ((system.advance next).setTask handle.notifier (some ⟨handle, .claiming⟩))
    | .ok (.arrived (.error _), next) =>
      -- The guard does not exist yet, so nothing cancels the request.
      some ((system.advance next).record [.failed system.state.runtime.requestPool.nextNotifier])
    | _ => none
  | .claim name now =>
    match system.tasks name with
    | some ⟨handle, .claiming⟩ =>
      match scheduler.step system.state (.claim handle now) with
      | .ok (.claimed (some _), next) =>
        some (((system.advance next).record (system.frontOutcome handle.program)).setTask name none)
      | .ok (.claimed none, next) =>
        some ((system.advance next).setTask name (some ⟨handle, .checking⟩))
      | _ => none
    | _ => none
  | .giveUp name =>
    match system.tasks name with
    | some ⟨handle, .checking⟩ => some (system.setTask name (some ⟨handle, .cancelling true⟩))
    | _ => none
  | .proceed name =>
    match system.tasks name with
    | some ⟨handle, .checking⟩ => some (system.setTask name (some ⟨handle, .polling⟩))
    | _ => none
  | .poll name =>
    match system.tasks name with
    | some ⟨handle, .polling⟩ =>
      let (completed, cell) := (system.cell name).poll
      some ((system.setCell name cell).setTask name
        (some ⟨handle, if completed then .claiming else .blocked⟩))
    | _ => none
  | .wake name =>
    match system.tasks name with
    | some ⟨handle, .blocked⟩ =>
      if (system.cell name).waiter = .notified then
        some ((system.setCell name (system.cell name).resume).setTask name
          (some ⟨handle, .claiming⟩))
      else none
    | _ => none
  | .elapse name =>
    match system.tasks name with
    | some ⟨handle, .blocked⟩ =>
      some ((system.setCell name (system.cell name).abandon).setTask name (some ⟨handle, .expired⟩))
    | _ => none
  | .decide name now =>
    match system.tasks name with
    | some ⟨handle, .expired⟩ =>
      match scheduler.step system.state (.expire now) with
      | .ok (_, next) =>
        some ((system.advance next).setTask name (some ⟨handle, .claiming⟩))
      | .error _ => none
    | _ => none
  | .drop name =>
    match system.tasks name with
    | some ⟨handle, .blocked⟩ =>
      some ((system.setCell name (system.cell name).abandon).setTask name
        (some ⟨handle, .cancelling false⟩))
    | _ => none
  | .cancel name pausedAt releasedAt scheduledAt =>
    match system.tasks name with
    | some ⟨handle, .cancelling returns⟩ =>
      match scheduler.step system.state (.cancel handle pausedAt releasedAt scheduledAt) with
      | .ok (_, next) =>
        some (((system.advance next).record (if returns then [.failed name] else [])).setTask name
          none)
      | .error _ => none
    | _ => none

end TaskSystem

def TaskPhase.atLock : TaskPhase → Prop
  | .claiming | .expired | .cancelling _ => True
  | .checking | .polling | .blocked => False

/-- The tasks agree with the queues and the notifiers, and no task sleeps through
its turn. -/
structure Staffing (tasks : Nat → Option AcquisitionTask) (runtime : ProgramRuntime) : Prop where
  allotted : Allotted runtime
  named : ∀ name task, tasks name = some task →
    task.handle.notifier = name ∧ name < runtime.requestPool.nextNotifier
  own : ∀ program task, ∀ request ∈ runtime.requestPool.queue program,
    tasks request.notifier = some task →
      task.handle.requestId = request.id ∧ task.handle.program = program
  rested : ∀ name task, tasks name = some task → task.phase ≠ .blocked →
    (runtime.requestPool.notifiers name).waiter = .idle
  awake : ∀ program record request task, runtime.find program = some record →
    record.state = .active → (runtime.requestPool.queue program).head? = some request →
      tasks request.notifier = some task →
        task.phase.atLock ∨ (runtime.requestPool.notifiers request.notifier).signalled

variable {name : Nat} {globalMode : Bool} {core : Core}

namespace Staffing

variable {tasks : Nat → Option AcquisitionTask} {runtime next : ProgramRuntime}

theorem empty : Staffing (fun _ => none) .empty := by
  constructor
  case allotted =>
    intro _ _ member
    cases member
  all_goals
    intros
    contradiction

variable {task : AcquisitionTask}

theorem stored_update {other : Nat} {changed : Option AcquisitionTask}
    (stored : update tasks name changed other = some task) :
    (other = name ∧ changed = some task) ∨ (other ≠ name ∧ tasks other = some task) := by
  rw [update_apply] at stored
  split at stored
  case isTrue same => exact .inl ⟨same, stored⟩
  case isFalse apart => exact .inr ⟨apart, stored⟩

variable (staffing : Staffing tasks runtime)

include staffing

theorem wakes (wakes : Wakes runtime next) :
    Staffing tasks next where
  allotted := wakes.allotted staffing.allotted
  named := by
    intro name task stored
    obtain ⟨named, old⟩ := staffing.named name _ stored
    exact ⟨named, old.trans_le wakes.allocated⟩
  own := by
    intro program task request member stored
    rcases wakes.requests program request member with old | ⟨fresh, _⟩
    · exact staffing.own program _ _ old stored
    · exact absurd (staffing.named _ task stored).2 (Nat.not_lt.mpr fresh)
  rested := by
    intro name task stored phase
    have old := (staffing.named name _ stored).2
    exact (wakes.cells name old).idle (staffing.rested _ _ stored phase)
  awake := by
    intro program record request task found active front stored
    have old := (staffing.named _ task stored).2
    rcases wakes.fronts program record request found active front with
      ⟨before, live, wasActive, wasFront⟩ | signalled | fresh
    · exact (staffing.awake program _ _ task live wasActive wasFront stored).imp_right
        (wakes.cells _ old).signalled
    · exact .inr signalled
    · exact absurd old (Nat.not_lt.mpr fresh)

theorem remove (name : Nat) : Staffing (update tasks name none) runtime := by
  have kept {other : Nat} {task : AcquisitionTask}
      (stored : update tasks name none other = some task) : tasks other = some task := by
    obtain ⟨_, ⟨⟩⟩ | ⟨_, old⟩ := stored_update stored
    exact old
  exact ⟨staffing.allotted, fun other task stored => staffing.named other _ (kept stored),
    fun program task request member stored =>
      staffing.own program _ _ member (kept stored),
    fun other task stored => staffing.rested other _ (kept stored),
    fun program record request task found active front stored =>
      staffing.awake program record request task found active front (kept stored)⟩

theorem assign (task : AcquisitionTask) (cell : Notify)
    (named : task.handle.notifier = name ∧ name < runtime.requestPool.nextNotifier)
    (own : ∀ program, ∀ request ∈ runtime.requestPool.queue program, request.notifier = name →
      task.handle.requestId = request.id ∧ task.handle.program = program)
    (rested : task.phase ≠ .blocked → cell.waiter = .idle)
    (ready : task.phase.atLock ∨ ∀ record request,
      runtime.find task.handle.program = some record → record.state = .active →
        (runtime.requestPool.queue task.handle.program).head? = some request →
          request.notifier = name → cell.signalled) :
    Staffing (update tasks name (some task))
      { runtime with
        requestPool := { runtime.requestPool with
          notifiers := update runtime.requestPool.notifiers name cell } } := by
  refine ⟨staffing.allotted, ?_, ?_, ?_, ?_⟩
  · intro other changed found
    obtain ⟨rfl, ⟨⟩⟩ | ⟨_, found⟩ := stored_update found
    · exact named
    · exact staffing.named other _ found
  · intro program changed request member found
    obtain ⟨same, ⟨⟩⟩ | ⟨_, found⟩ := stored_update found
    · exact own program _ member same
    · exact staffing.own program _ request member found
  · intro other changed found awake
    obtain ⟨rfl, ⟨⟩⟩ | ⟨apart, found⟩ := stored_update found
    · simp only [update_self]
      exact rested awake
    · simp only [update_of_ne apart]
      exact staffing.rested other _ found awake
  · intro program record request changed found active front assigned
    obtain ⟨rfl, ⟨⟩⟩ | ⟨apart, assigned⟩ := stored_update assigned
    · simp only [update_self]
      refine ready.imp_right fun signals => ?_
      obtain ⟨_, rfl⟩ := own program _ (List.mem_of_head? front) rfl
      exact signals record _ found active front rfl
    · simp only [update_of_ne apart]
      exact staffing.awake program _ request _ found active front assigned

theorem rephase_same (stored : tasks name = some task) (phase : TaskPhase)
    (rested : task.phase ≠ .blocked)
    (ready : phase.atLock ∨ ∀ record request, runtime.find task.handle.program = some record →
      record.state = .active →
        (runtime.requestPool.queue task.handle.program).head? = some request →
          request.notifier = name → (runtime.requestPool.notifiers name).signalled) :
    Staffing (update tasks name (some ⟨task.handle, phase⟩)) runtime := by
  have changed := staffing.assign ⟨task.handle, phase⟩ (runtime.requestPool.notifiers name)
    (staffing.named name task stored)
    (fun program request member same => staffing.own program task request member (same ▸ stored))
    (fun _ => staffing.rested name _ stored rested) ready
  rwa [update_eq_self] at changed

omit staffing

theorem enlist {after : Core} {arrival : Arrival}
    {activatedAt : Instant} {output : Output F} (staffing : Staffing tasks core.runtime)
    (inv : core.Inv globalMode)
    (transition : Transition globalMode core (.arrive arrival activatedAt) output after) :
    Staffing (update tasks (core.retained arrival).1.notifier
      (some ⟨(core.retained arrival).1, .claiming⟩)) after.runtime := by
  obtain ⟨allotted, woken⟩ := transition.wakes inv staffing.allotted
  have kept := staffing.wakes woken
  have queue program := (transition.queue_of_arrive inv program).trans
    (ProgramRuntime.queue_retainRequest core.runtime _ _ _ _ _)
  have fresh : (core.retained arrival).1.notifier = core.runtime.requestPool.nextNotifier := rfl
  generalize handle_is : (core.retained arrival).1 = handle at fresh
  have program_is : handle.program = (core.runtime.materialize arrival.identity
      arrival.estimatedContextTokens).1.reference := by
    rw [← handle_is]
    rfl
  have numbered : handle.requestId = wrappingSucc core.runtime.requestPool.nextRequestId := by
    rw [← handle_is]
    rfl
  -- The one request with the fresh notifier is the one that has just arrived.
  have mine program request (member : request ∈ after.runtime.requestPool.queue program)
      (named : request.notifier = handle.notifier) :
      handle.requestId = request.id ∧ handle.program = program := by
    have old : request ∉ core.runtime.requestPool.queue program := fun waiting =>
      absurd (staffing.allotted program _ waiting) (by rw [named, fresh]; exact Nat.lt_irrefl _)
    rw [queue program] at member
    split at member
    · rename_i own
      rcases List.mem_append.mp member with waiting | last
      · exact absurd waiting old
      · cases List.mem_singleton.mp last
        exact ⟨numbered, program_is.trans own.symm⟩
    · exact absurd member old
  have arrivedHere : handle.notifier < after.runtime.requestPool.nextNotifier := by
    have last := allotted handle.program
      ⟨wrappingSucc core.runtime.requestPool.nextRequestId, arrival.arrivedAt,
        arrival.estimatedContextTokens, arrival.routingText, arrival.identity.requestHints,
        core.runtime.requestPool.nextNotifier⟩ (by
          rw [queue, if_pos program_is]
          exact List.mem_append_right _ (List.mem_singleton_self _))
    rw [fresh]
    exact last
  have changed := kept.assign ⟨handle, .claiming⟩
    (after.runtime.requestPool.notifiers handle.notifier) ⟨rfl, arrivedHere⟩ mine
    (fun _ => woken.opened _ (Nat.le_of_eq fresh.symm) arrivedHere) (.inl trivial)
  rwa [update_eq_self] at changed

end Staffing

/-- A step of a waiting task outside of the lock. -/
inductive Rephases : TaskPhase → Notify → TaskPhase → Notify → Prop where
  | giveUp (cell) : Rephases .checking cell (.cancelling true) cell
  | proceed (cell) : Rephases .checking cell .polling cell
  | poll (cell) : Rephases .polling cell (if cell.poll.1 then .claiming else .blocked) cell.poll.2
  | wake (cell) : Rephases .blocked cell .claiming cell.resume
  | elapse (cell) : Rephases .blocked cell .expired cell.abandon
  | drop (cell) : Rephases .blocked cell (.cancelling false) cell.abandon

variable {handle : ProgramRequestHandle} {system next : TaskSystem F T} {action : TaskAction F}

section Steps

/-- Everything an action can do, with each section as a transition. -/
inductive TaskStep (globalMode : Bool) (system : TaskSystem F T) :
    TaskAction F → TaskSystem F T → Prop where
  | other (event output state) (foreign : event.foreign = true)
      (transition : Transition globalMode system.state.core event output state.core) :
      TaskStep globalMode system (.other event) (system.advance state)
  | begun (arrival activatedAt state)
      (transition : Transition globalMode system.state.core (.arrive arrival activatedAt)
        (.arrived (.ok (system.state.core.retained arrival).1) : Output F) state.core) :
      TaskStep globalMode system (.begin arrival activatedAt)
        ((system.advance state).setTask (system.state.core.retained arrival).1.notifier
          (some ⟨(system.state.core.retained arrival).1, .claiming⟩))
  | stranded (arrival activatedAt error state)
      (transition : Transition globalMode system.state.core (.arrive arrival activatedAt)
        (.arrived (.error error) : Output F) state.core) :
      TaskStep globalMode system (.begin arrival activatedAt) ((system.advance state).record
        [.failed system.state.runtime.requestPool.nextNotifier])
  | claimed (name now handle dispatch state) (stored : system.tasks name = some ⟨handle, .claiming⟩)
      (transition : Transition globalMode system.state.core (.claim handle now)
        (.claimed (some dispatch) : Output F) state.core) :
      TaskStep globalMode system (.claim name now)
        (((system.advance state).record (system.frontOutcome handle.program)).setTask name none)
  | unclaimed (name now handle state) (stored : system.tasks name = some ⟨handle, .claiming⟩)
      (transition : Transition globalMode system.state.core (.claim handle now)
        (.claimed none : Output F) state.core) :
      TaskStep globalMode system (.claim name now)
        ((system.advance state).setTask name (some ⟨handle, .checking⟩))
  | rephased (action name handle before after cell)
      (stored : system.tasks name = some ⟨handle, before⟩)
      (rephases : Rephases before (system.cell name) after cell) :
      TaskStep globalMode system action
        ((system.setCell name cell).setTask name (some ⟨handle, after⟩))
  | decided (name now handle) (output : Output F) (state)
      (stored : system.tasks name = some ⟨handle, .expired⟩)
      (transition : Transition globalMode system.state.core (.expire now) output state.core) :
      TaskStep globalMode system (.decide name now)
        ((system.advance state).setTask name (some ⟨handle, .claiming⟩))
  | cancelled (name pausedAt releasedAt scheduledAt handle returns) (output : Output F) (state)
      (stored : system.tasks name = some ⟨handle, .cancelling returns⟩)
      (transition : Transition globalMode system.state.core
        (.cancel handle pausedAt releasedAt scheduledAt) output state.core) :
      TaskStep globalMode system (.cancel name pausedAt releasedAt scheduledAt)
        (((system.advance state).record (if returns then [.failed name] else [])).setTask name none)

variable [F64 F] [AffinityTree T] {scheduler : ProgramScheduler F}

omit [AffinityTree T] in
theorem TaskSystem.sound_setCell (sound : scheduler.Sound system.state)
    {cell : Notify} : scheduler.Sound (system.setCell name cell).state :=
  ⟨⟨sound.inv.keyed, sound.inv.cards⟩, sound.built, sound.forest⟩

omit [F64 F] [AffinityTree T] in
theorem TaskStep.rephased_same
    {before after : TaskPhase} (stored : system.tasks name = some ⟨handle, before⟩)
    (rephases : Rephases before (system.cell name) after (system.cell name)) :
    TaskStep globalMode system action (system.setTask name (some ⟨handle, after⟩)) := by
  have step : TaskStep globalMode system action _ :=
    rephased action _ _ _ after _ stored rephases
  unfold TaskSystem.setCell TaskSystem.cell at step
  rwa [update_eq_self] at step

theorem TaskSystem.act_step (sound : scheduler.Sound system.state)
    (acted : system.act scheduler action = some next) :
    scheduler.Sound next.state ∧ TaskStep scheduler.config.globalQueue system action next := by
  have sections {event : Event F} {output : Output F} {state : ProgramSchedulerState F T}
      (stepped : scheduler.step system.state event = .ok (output, state)) :=
    (ProgramScheduler.step_transition sound event).ok_of stepped
  revert acted
  fun_cases act scheduler system action with
  | case1 event foreign output state stepped =>
    rintro ⟨⟩
    obtain ⟨after, transition⟩ := sections stepped
    exact ⟨after, .other event output _ foreign transition⟩
  | case4 arrival activatedAt handle state stepped =>
    rintro ⟨⟩
    obtain ⟨after, transition⟩ := sections stepped
    have handle_is : handle = (system.state.core.retained arrival).1 := by
      cases transition with
      | arrived => rfl
    subst handle_is
    exact ⟨after, .begun arrival activatedAt _ transition⟩
  | case5 arrival activatedAt error state stepped =>
    rintro ⟨⟩
    obtain ⟨after, transition⟩ := sections stepped
    exact ⟨after, .stranded arrival activatedAt _ _ transition⟩
  | case7 name now handle stored dispatch state stepped =>
    rintro ⟨⟩
    obtain ⟨after, transition⟩ := sections stepped
    exact ⟨after, .claimed name now handle _ _ stored transition⟩
  | case8 name now handle stored state stepped =>
    rintro ⟨⟩
    obtain ⟨after, transition⟩ := sections stepped
    exact ⟨after, .unclaimed name now handle _ stored transition⟩
  | case11 _ _ stored =>
    rintro ⟨⟩
    exact ⟨sound, .rephased_same stored (.giveUp _)⟩
  | case13 _ _ stored =>
    rintro ⟨⟩
    exact ⟨sound, .rephased_same stored (.proceed _)⟩
  | case15 name handle stored _ _ polled =>
    rintro ⟨⟩
    have rephases := Rephases.poll (system.cell name)
    rw [polled] at rephases
    exact ⟨sound_setCell sound, .rephased _ name handle _ _ _ stored rephases⟩
  | case17 name handle stored =>
    rintro ⟨⟩
    exact ⟨sound_setCell sound, .rephased _ name handle _ _ _ stored (.wake _)⟩
  | case20 name handle stored =>
    rintro ⟨⟩
    exact ⟨sound_setCell sound, .rephased _ name handle _ _ _ stored (.elapse _)⟩
  | case22 name now handle stored output state stepped =>
    rintro ⟨⟩
    obtain ⟨after, transition⟩ := sections stepped
    exact ⟨after, .decided name now handle _ _ stored transition⟩
  | case25 name handle stored =>
    rintro ⟨⟩
    exact ⟨sound_setCell sound, .rephased _ name handle _ _ _ stored (.drop _)⟩
  | case27 name pausedAt releasedAt scheduledAt handle returns stored output state stepped =>
    rintro ⟨⟩
    obtain ⟨after, transition⟩ := sections stepped
    exact ⟨after, .cancelled name pausedAt _ _ handle _ _ state stored transition⟩
  -- In the other cases the action is not enabled or its section stops.
  | _ => rintro ⟨⟩

end Steps

/-- The systems that some interleaving reaches, each action being permitted in
the state it is taken in. -/
inductive Interleaving {F T : Type} [F64 F] [AffinityTree T] (setup : Setup F)
    (permits : Core → TaskAction F → Prop) : TaskSystem F T → Prop where
  | start : Interleaving setup permits (.new setup)
  | next {system next : TaskSystem F T} {action : TaskAction F} (order : IterationOrder)
      (reached : Interleaving setup permits system) (permitted : permits system.state.core action)
      (acted : system.act (setup.scheduler order) action = some next) :
      Interleaving setup permits next

namespace Sample

/-- Run actions in the order of the tables, as long as each one passes the check. -/
def interleave (setup : Setup Exact) (check : State → TaskAction Exact → Bool) :
    List (TaskAction Exact) → TaskSystem Exact Texts → Option (TaskSystem Exact Texts)
  | [], system => some system
  | action :: rest, system =>
    if check system.state action then
      (system.act (setup.scheduler .filled) action).bind (interleave setup check rest)
    else none

theorem interleaving_of_interleave {setup : Setup Exact}
    {check : State → TaskAction Exact → Bool} (permits : Core → TaskAction Exact → Prop)
    (checked : ∀ state action, check state action = true → permits state.core action)
    {actions : List (TaskAction Exact)} {system last : TaskSystem Exact Texts}
    (reached : Interleaving setup permits system)
    (played : interleave setup check actions system = some last) :
    Interleaving setup permits last := by
  induction actions generalizing system with
  | nil =>
    cases played
    exact reached
  | cons action _ ih =>
    unfold interleave at played
    split at played
    · rename_i passed
      obtain ⟨next, acted, later⟩ := Option.bind_eq_some_iff.mp played
      exact ih (reached.next .filled (checked _ action passed) acted) later
    · cases played

end Sample

section Reached

variable [F64 F] [AffinityTree T] {setup : Setup F} {permits : Core → TaskAction F → Prop}
  {system : TaskSystem F T}

theorem Interleaving.sound (reached : Interleaving setup permits system)
    (order : IterationOrder) : (setup.scheduler order).Sound system.state := by
  induction reached with
  | start => exact Run.start.sound order
  | next taken _ _ acted ih =>
    have before : (setup.scheduler taken).Sound _ := ⟨ih.inv, ih.built, ih.forest⟩
    have after := (TaskSystem.act_step before acted).1
    exact ⟨after.inv, after.built, after.forest⟩

theorem Interleaving.invariant (holds : TaskSystem F T → Prop) (initially : holds (.new setup))
    (kept : ∀ system action next, system.state.core.Inv setup.config.globalQueue →
      permits system.state.core action →
      TaskStep setup.config.globalQueue system action next → holds system → holds next)
    (reached : Interleaving setup permits system) : holds system := by
  induction reached with
  | start => exact initially
  | next order reached permitted acted ih =>
    have sound := reached.sound order
    exact kept _ _ _ sound.inv permitted (TaskSystem.act_step sound acted).2 ih

omit [F64 F] in
theorem Transition.unclaimed_front {next : Core} {now : Instant}
    (transition : Transition globalMode core (.claim handle now) (.claimed none : Output F) next)
    (inv : core.Inv globalMode) {record : RuntimeProgram} {request : PendingProgramRequest}
    (found : core.runtime.find handle.program = some record) (active : record.state = .active)
    (front : (core.runtime.requestPool.queue handle.program).head? = some request) :
    request.id ≠ handle.requestId := by
  obtain ⟨_, _, facts⟩ := (inv.cards handle.program).of_program found
  obtain ⟨target, placed⟩ := Option.isSome_iff_exists.mp (facts.activePlaced.mp active)
  have placement : core.runtime.placement handle.program = some target := by
    rw [ProgramRuntime.placement, found]
    exact placed
  obtain ⟨_, waiting⟩ := List.head?_eq_some_iff.mp front
  intro named
  generalize answer : (Output.claimed none : Output F) = output at transition
  cases transition with
  | unclaimed _ _ unplaced => cases placement.symm.trans unplaced
  | claimed _ now _ elsewhere =>
    cases placement.symm.trans elsewhere
    rw [ProgramRuntime.admitFront_front now found active placed waiting named] at answer
    cases answer

omit [F64 F] [AffinityTree T] in
theorem TaskStep.staffing
    (step : TaskStep globalMode system action next) (inv : system.state.core.Inv globalMode)
    (staffing : Staffing system.tasks system.state.runtime) :
    Staffing next.tasks next.state.runtime := by
  cases step with
  | other _ _ _ _ transition | stranded _ _ _ _ transition =>
    exact staffing.wakes (transition.wakes inv staffing.allotted).2
  | begun _ _ _ transition => exact staffing.enlist inv transition
  | claimed name _ _ _ _ _ transition | cancelled name _ _ _ _ _ _ _ _ transition =>
    exact (staffing.wakes (transition.wakes inv staffing.allotted).2).remove name
  | unclaimed name _ handle _ stored transition =>
    have woken := (transition.wakes inv staffing.allotted).2
    refine (staffing.wakes woken).rephase_same stored .checking nofun (.inr ?_)
    intro record request found active front named
    rcases woken.fronts handle.program record request found active front with
      ⟨before, live, wasActive, wasFront⟩ | signalled | fresh
    · have own := (staffing.own handle.program _ request (List.mem_of_head? wasFront)
        (named ▸ stored)).1
      exact absurd own.symm (transition.unclaimed_front inv live wasActive wasFront)
    · exact named ▸ signalled
    · exact absurd (staffing.named name _ stored).2 (Nat.not_lt.mpr (named ▸ fresh))
  | rephased _ name handle before after cell stored rephases =>
    -- While a task is not at the lock, its turn has been signalled.
    have signals (away : ¬ before.atLock) record request
        (found : system.state.runtime.find handle.program = some record)
        (active : record.state = .active)
        (front : (system.state.runtime.requestPool.queue handle.program).head? = some request)
        (named : request.notifier = name) : (system.cell name).signalled := by
      have either := staffing.awake handle.program record _ _ found active front (named ▸ stored)
      rw [named] at either
      exact either.resolve_left away
    refine staffing.assign ⟨handle, after⟩ cell (staffing.named _ ⟨handle, before⟩ stored)
      (fun program request member same =>
        staffing.own program ⟨handle, before⟩ _ member (same ▸ stored)) ?_ ?_
    · intro awake
      cases rephases with
      | giveUp | proceed => exact staffing.rested name _ stored nofun
      | poll =>
        have idle : (system.cell name).waiter = .idle := staffing.rested name _ stored nofun
        unfold Notify.poll at awake ⊢
        split
        · exact idle
        · rename_i unsignalled
          rw [if_neg unsignalled] at awake
          exact absurd rfl awake
      | wake => rfl
      | elapse | drop => exact Notify.abandon_idle _
    · cases rephases with
      | giveUp | wake | elapse | drop => exact .inl trivial
      | proceed => exact .inr (signals id)
      | poll =>
        cases completed : (system.cell name).poll.1 with
        | true => exact .inl trivial
        | false =>
          right
          intro record request found active front named
          have idle : (system.cell name).waiter = .idle := staffing.rested name _ stored nofun
          have permit := Notify.permit_of_idle (signals id record request found active front named)
            idle
          rw [Notify.poll_of_permit permit] at completed
          cases completed
  | decided _ _ _ _ _ stored transition =>
    exact (staffing.wakes (transition.wakes inv staffing.allotted).2).rephase_same stored .claiming
      nofun (.inl trivial)

theorem Interleaving.staffing (reached : Interleaving setup permits system) :
    Staffing system.tasks system.state.runtime := by
  refine reached.invariant (fun system => Staffing system.tasks system.state.runtime) ?_ ?_
  · exact .empty
  · exact fun _ _ _ inv _ step staffing => step.staffing inv staffing

/-- In every interleaving the front request of an active Program, if its task
still waits, belongs to a task that is about to take the lock or has been
signalled. -/
theorem interleaving_awake (reached : Interleaving setup permits system)
    (attended : ∀ program, ∀ request ∈ system.state.runtime.requestPool.queue program,
      system.tasks request.notifier ≠ none)
    {program : ProgramRef} {record : RuntimeProgram} {request : PendingProgramRequest}
    {rest : List PendingProgramRequest}
    (found : system.state.runtime.find program = some record) (active : record.state = .active)
    (waiting : system.state.runtime.requestPool.queue program = request :: rest) :
    ∃ task, system.tasks request.notifier = some task ∧ task.handle.program = program ∧
      task.handle.requestId = request.id ∧
      (task.phase.atLock ∨ (system.cell request.notifier).signalled) := by
  have member : request ∈ system.state.runtime.requestPool.queue program := by
    rw [waiting]
    exact List.mem_cons_self
  obtain ⟨task, stored⟩ := Option.ne_none_iff_exists'.mp (attended program _ member)
  have staffing := reached.staffing
  obtain ⟨numbered, own⟩ := staffing.own program _ _ member stored
  refine ⟨task, stored, own, numbered, ?_⟩
  exact staffing.awake program _ _ _ found active (by rw [waiting]; rfl) stored

/-- The second of two requests is blocked when the first one is dispatched, and
is signalled by it. -/
theorem interleaving_awake_sample :
    ∃ system : TaskSystem Exact Sample.Texts,
      Interleaving (Sample.router false false) (fun _ _ => True) system ∧
      (system.tasks 1).map (·.phase) = some .blocked ∧ (system.cell 1).signalled := by
  have played : (Sample.interleave (Sample.router false false) (fun _ _ => true)
      [.other (.sync (Sample.snapshot 0 "a" ["t"])), .begin (Sample.arrival "a" "p" 1) 1,
        .begin (Sample.arrival "a" "p" 2) 2, .claim 1 3, .proceed 1, .poll 1, .claim 0 4]
      (.new (Sample.router false false))).map (fun system =>
        (system.state.runtime.requestPool.requests.keys,
          (system.state.runtime.requestPool.queue ⟨"a", "p", 0⟩).map (·.notifier),
          (system.state.runtime.find ⟨"a", "p", 0⟩).map (·.state),
          (system.tasks 1).map (·.phase))) =
        some ([⟨"a", "p", 0⟩], [1], some .active, some .blocked) := by
    decide +kernel
  obtain ⟨system, reached, facts⟩ := Option.map_eq_some_iff.mp played
  simp only [Prod.mk.injEq] at facts
  obtain ⟨keys, queue, active, blocked⟩ := facts
  have run := Sample.interleaving_of_interleave (fun _ _ => True) (fun _ _ _ => trivial) .start
    reached
  obtain ⟨_, found, state⟩ := Option.map_eq_some_iff.mp active
  obtain ⟨request, _, waiting, notifier, _⟩ := List.map_eq_cons_iff.mp queue
  obtain ⟨_, stored, phase⟩ := Option.map_eq_some_iff.mp blocked
  refine ⟨system, run, blocked, ?_⟩
  obtain ⟨_, assigned, _, _, ready⟩ := interleaving_awake run (by
    intro program request member
    have known : program ∈ system.state.runtime.requestPool.requests.keys := by
      rw [Table.mem_keys_iff]
      unfold RequestPool.queue at member
      cases stored : system.state.runtime.requestPool.requests.lookup program with
      | some queue => exact ⟨queue, rfl⟩
      | none =>
        rw [stored] at member
        cases member
    rw [keys, List.mem_singleton] at known
    subst known
    have named : request.notifier ∈ [1] := by
      rw [← queue]
      exact List.mem_map_of_mem member
    rw [List.mem_singleton.mp named, stored]
    nofun) found state waiting
  rw [notifier, stored] at assigned
  cases assigned
  rw [phase, notifier] at ready
  exact ready.resolve_left id

end Reached

end SmetricRouter.ProgramScheduling
