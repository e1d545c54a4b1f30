import SmetricRouter.ProgramScheduling.History

/-! Placement epochs.

Every admission and every invalidation takes the next number of one counter, so
a completion can be told apart from the completions of every other placement,
also when the history of released generations has been pruned.
-/

namespace SmetricRouter.ProgramScheduling

open ProgramRuntime

namespace LifecycleEvent

def opening : LifecycleEvent → Option (ProgramRef × Nat)
  | .admitted program epoch => some (program, epoch)
  | _ => none

def epoch : LifecycleEvent → Option Nat
  | .admitted _ epoch | .invalidated _ epoch => some epoch
  | _ => none

end LifecycleEvent

namespace ProgramRuntime

variable (runtime : ProgramRuntime)

def admissions : List (ProgramRef × Nat) :=
  runtime.journal.filterMap LifecycleEvent.opening

def epochs : List Nat :=
  runtime.journal.filterMap LifecycleEvent.epoch

theorem admissions_sublist_epochs : (runtime.admissions.map Prod.snd).Sublist runtime.epochs := by
  unfold admissions epochs
  induction runtime.journal with
  | nil => exact .slnil
  | cons event _ ih =>
    cases event with
    | admitted _ epoch => exact ih.cons_cons _
    | invalidated _ epoch => exact ih.cons _
    | retained | dispatched | cancelled => exact ih

end ProgramRuntime

/-- The counter has numbered the placements of the journal one after another. -/
def Dated (runtime : ProgramRuntime) : Prop :=
  runtime.epochs = List.range' 1 runtime.nextPlacementEpoch

variable {runtime : ProgramRuntime}

theorem Dated.length (dated : Dated runtime) :
    runtime.epochs.length = runtime.nextPlacementEpoch := by
  rw [show runtime.epochs = _ from dated, List.length_range']

variable {next : ProgramRuntime}

theorem Dated.room {event : LifecycleEvent} {number : Nat} (dated : Dated runtime)
    (journal : next.journal = runtime.journal ++ [event]) (taken : event.epoch = some number)
    (few : next.epochs.length < 2 ^ 64) : runtime.nextPlacementEpoch < u64Max := by
  rw [epochs, journal, List.filterMap_append, List.length_append,
    List.filterMap_cons, taken, List.filterMap_nil, List.length_singleton] at few
  have length := dated.length
  rw [epochs] at length
  unfold u64Max
  omega

theorem Dated.step {label : Label} (dated : Dated runtime)
    (stepped : RuntimeStep runtime next label) (room : next.epochs.length < 2 ^ 64) :
    Dated next := by
  -- An event without a number leaves the counter alone.
  have unnumbered events (plain : events.filterMap LifecycleEvent.epoch = [])
      (journal : next.journal = runtime.journal ++ events)
      (epoch : next.nextPlacementEpoch = runtime.nextPlacementEpoch) : Dated next := by
    rw [Dated, epochs, journal, List.filterMap_append, plain, List.append_nil, epoch]
    exact dated
  have numbered (event : LifecycleEvent)
      (taken : event.epoch = some (saturatingAdd runtime.nextPlacementEpoch 1))
      (journal : next.journal = runtime.journal ++ [event])
      (epoch : next.nextPlacementEpoch = saturatingAdd runtime.nextPlacementEpoch 1) :
      Dated next := by
    have longer : next.epochs = runtime.epochs ++ [saturatingAdd runtime.nextPlacementEpoch 1] := by
      simp [epochs, journal, taken]
    have exact := saturatingAdd_of_lt (dated.room journal taken room)
    rw [Dated, longer, epoch, exact, List.range'_1_concat, Nat.add_comm, ← show _ = _ from dated]
  cases stepped with
  | quiet | paused | unmarked | completed | released =>
    have silent : Silent runtime next := ‹_›
    exact unnumbered [] rfl (by simp [silent.journal]) silent.epoch
  | retained | dispatched | cancelled =>
    rename_i epoch journal
    exact unnumbered _ rfl journal epoch
  | admitted | invalidated =>
    rename_i epoch journal
    exact numbered _ rfl journal epoch

def Stale (runtime : ProgramRuntime) (dispatch : ProgramDispatch) : Prop :=
  ∀ record, runtime.find dispatch.program = some record →
    record.placementEpoch ≠ dispatch.placementEpoch

theorem Stale.refused {dispatch : ProgramDispatch}
    (stale : Stale runtime dispatch) (usage : ProgramUsageObservation) :
    runtime.completeRequest dispatch usage = none := by
  unfold completeRequest
  cases stored : runtime.programs.lookup dispatch.program.key with
  | none => rfl
  | some record =>
    simp only
    rw [if_pos]
    by_cases exact : record.reference = dispatch.program
    · exact .inr (.inl (stale _ (find_eq_some.mpr ⟨stored, exact⟩)))
    · exact .inl exact

section Runs

variable {F T : Type} [F64 F] {state : ProgramSchedulerState F T}

theorem ProgramScheduler.complete_of_stale {self : ProgramScheduler F} {dispatch : ProgramDispatch}
    (stale : Stale state.runtime dispatch) (success terminate : Bool)
    (usage : ProgramUsageObservation) (decodeSeconds : Option F) (now : Instant) :
    self.complete state dispatch success terminate usage decodeSeconds now = .ok state := by
  unfold complete
  split
  · split
    · rfl
    · rw [stale.refused usage]
  · rfl

variable [AffinityTree T] {setup : Setup F} {trace : List (Event F × Output F)}
  {state : ProgramSchedulerState F T}

theorem Run.dated (run : Run setup trace state)
    (few : state.runtime.epochs.length < 2 ^ 64) : Dated state.runtime :=
  run.bounded LifecycleEvent.epoch Dated rfl
    (fun _ _ _ stepped room dated => dated.step stepped room) few

/-- A stale completion changes nothing at all, and as long as fewer than
`2 ^ 64` placements were opened or invalidated no two admissions gave one
Program generation the same epoch. -/
theorem run_fence (run : Run setup trace state) :
    (∀ order dispatch success terminate usage decodeSeconds now, Stale state.runtime dispatch →
      (setup.scheduler order).step state
        (.complete dispatch success terminate usage decodeSeconds now) = .ok (.nothing, state)) ∧
    (state.runtime.epochs.length < 2 ^ 64 → state.runtime.admissions.Nodup) := by
  constructor
  · intro _ _ success terminate usage decodeSeconds now stale
    simp only [ProgramScheduler.step,
      ProgramScheduler.complete_of_stale stale success terminate usage decodeSeconds now]
    rfl
  · intro few
    have distinct : state.runtime.epochs.Nodup := by
      rw [show state.runtime.epochs = _ from run.dated few]
      exact List.nodup_range'
    exact .of_map Prod.snd (distinct.sublist state.runtime.admissions_sublist_epochs)

/-- A Program is admitted, fails over and is admitted again. -/
theorem run_fence_sample :
    ∃ trace state, Run (Sample.router false false) trace state ∧
      (state : Sample.State).runtime.admissions = [(⟨"a", "p", 0⟩, 1), (⟨"a", "p", 0⟩, 3)] ∧
      state.runtime.admissions.Nodup := by
  obtain ⟨trace, state, run, admissions, epochs⟩ := Sample.run_of_play (Sample.router false false)
    [.sync (Sample.snapshot 0 "a" ["t"]), .arrive (Sample.arrival "a" "p" 1) 1,
      .sync (Sample.snapshot 1 "a" ["u"]), .expire 2]
    (fun _ state => state.runtime.admissions = [(⟨"a", "p", 0⟩, 1), (⟨"a", "p", 0⟩, 3)] ∧
      state.runtime.epochs = [1, 2, 3]) (by decide +kernel)
  exact ⟨trace, state, run, admissions, (run_fence run).2 (by rw [epochs]; decide)⟩

end Runs

end SmetricRouter.ProgramScheduling
