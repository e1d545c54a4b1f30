import SmetricRouter.ProgramScheduling.RunInvariants
import Mathlib.Data.List.Chain

/-! How long a waiting acquisition sleeps.

When a claim returns nothing the loop looks at the clock and, under the lock, at the
force-resume deadline of its Program; it then blocks until the earlier of that deadline
and its own. A force-resume deadline that has passed stays in place while the backend of
the target refuses the admission, and then the task does not sleep at all.
-/

namespace SmetricRouter.ProgramScheduling

open Sample

variable {F T : Type}

namespace ProgramSchedulerState

def forceDeadline (state : ProgramSchedulerState F T) (program : ProgramRef) : Option Instant :=
  (state.decisions.lookup program).bind (·.forceResumeDeadline)

def Overdue (state : ProgramSchedulerState F T) (program : ProgramRef) (now : Instant) : Prop :=
  ∃ force, state.forceDeadline program = some force ∧ force ≤ now

end ProgramSchedulerState

/-- What the loop of an acquisition does after a claim that returned nothing: its queue
timeout has passed, or it blocks until the time it returns. -/
def waitUntil (state : ProgramSchedulerState F T) (handle : ProgramRequestHandle)
    (deadline now : Instant) : Except ScheduleError Instant :=
  if deadline ≤ now then .error .queueTimeout
  else .ok ((state.forceDeadline handle.program).elim deadline fun force => min force deadline)

/-- A round of the loop, by the state in which it read the deadlines and by its clock. -/
structure WaitRound (F T : Type) where
  state : ProgramSchedulerState F T
  now : Instant

/-- Rounds that follow each other without a notification: each one blocks, and the clock
is not read again before its timer has fired. What other callers did to the state in the
meantime is not restricted. -/
def Unnotified (handle : ProgramRequestHandle) (deadline : Instant)
    (rounds : List (WaitRound F T)) : Prop :=
  rounds.IsChain fun round later =>
    ∃ wake, waitUntil round.state handle deadline round.now = .ok wake ∧ wake ≤ later.now

/-- The sections of a round: the claim, the reading of the deadline, the decisions once
the timer has fired. -/
def lockings (rounds : List (WaitRound F T)) : Nat := 3 * rounds.length

section Waits

variable {state : ProgramSchedulerState F T} {handle : ProgramRequestHandle}
  {deadline now wake : Instant} {rounds : List (WaitRound F T)}

variable (blocks : waitUntil state handle deadline now = .ok wake)

include blocks

theorem lt_wake_iff : now < wake ↔ ¬ state.Overdue handle.program now := by
  unfold waitUntil at blocks
  split at blocks
  · cases blocks
  · rename_i early
    cases blocks
    cases found : state.forceDeadline handle.program with
    | none | _ => simp [ProgramSchedulerState.Overdue, found, Nat.lt_of_not_le early]

omit blocks in
theorem Unnotified.increasing (quiet : Unnotified handle deadline rounds)
    (timely : ∀ round ∈ rounds, ¬ round.state.Overdue handle.program round.now) :
    (rounds.map WaitRound.now).Pairwise (· < ·) := by
  rw [← List.isChain_iff_pairwise, List.isChain_map]
  refine quiet.imp_of_mem_imp ?_
  rintro round _ member _ ⟨_, blocks, elapsed⟩
  exact Nat.lt_of_lt_of_le ((lt_wake_iff blocks).mpr (timely _ member)) elapsed

theorem Unnotified.replicate (overdue : state.Overdue handle.program now) (count : Nat) :
    Unnotified handle deadline (List.replicate count (⟨state, now⟩ : WaitRound F T)) := by
  have passed : wake ≤ now := by
    by_contra later
    exact (lt_wake_iff blocks).mp (Nat.lt_of_not_le later) overdue
  exact List.isChain_replicate_of_rel _ ⟨wake, blocks, passed⟩

end Waits

/-- The time at which a blocking acquisition wakes by itself is later than its clock
reading exactly if the force-resume deadline has not passed. As long as that is so, a
span of time has room for one round of three sections each instant; otherwise any number
of rounds can follow each other at the same reading of the clock. -/
theorem waits_without_spinning :
    (∀ (state : ProgramSchedulerState F T) handle deadline now wake,
      waitUntil state handle deadline now = .ok wake →
        (now < wake ↔ ¬ state.Overdue handle.program now)) ∧
    (∀ handle deadline (rounds : List (WaitRound F T)) start span,
      Unnotified handle deadline rounds →
      (∀ round ∈ rounds, ¬ round.state.Overdue handle.program round.now) →
      (∀ round ∈ rounds, start ≤ round.now ∧ round.now ≤ start + span) →
        lockings rounds ≤ 3 * (span + 1)) ∧
    ∀ (state : ProgramSchedulerState F T) handle deadline now wake,
      waitUntil state handle deadline now = .ok wake → state.Overdue handle.program now →
        ∀ count, Unnotified handle deadline (List.replicate count ⟨state, now⟩) := by
  refine ⟨fun _ _ _ _ _ => lt_wake_iff, ?_, fun _ _ _ _ _ => Unnotified.replicate⟩
  intro _ _ rounds start span quiet timely within
  have few : (rounds.map WaitRound.now).length ≤ start + span + 1 - start :=
    length_le_of_increasing (quiet.increasing timely) (by simpa using within)
  rw [List.length_map] at few
  unfold lockings
  omega

namespace Sample

def crowded (observedAt : Instant) : Event Exact :=
  .applyObservations ⟨1, (∅ : Table String _).insert "t" ⟨(0 : ℚ), 0, 0, (0 : ℚ), (0 : ℚ)⟩⟩
    [⟨"t", none, none, some 1, observedAt⟩]

def refused : List (Event Exact) :=
  [.sync (snapshot 0 "a" ["t"]), crowded 0, .arrive (arrival "a" "p" 0) 0, crowded 12]

def waiter : ProgramRequestHandle := ⟨⟨"a", "p", 0⟩, 1, 0⟩

end Sample

/-- The decisions at twelve leave the request waiting, whose Program should have been
resumed by force at ten, and the next round wakes at ten. -/
theorem waits_spinning_refused :
    ∃ trace state output next, Run Sample.gatedRouter trace state ∧
      (Sample.gatedRouter.scheduler .filled).step state (.expire 12) =
        .ok (output, (next : Sample.State)) ∧
      (ProgramScheduler.claimDispatch next Sample.waiter 12).1 = none ∧
      ∃ wake, waitUntil next Sample.waiter 100 12 = .ok wake ∧ ¬ 12 < wake := by
  obtain ⟨trace, state, output, next, run, stepped, unclaimed, waits⟩ :=
    step_of_play gatedRouter refused (.expire 12)
      (fun _ next => (ProgramScheduler.claimDispatch next waiter 12).1 = none ∧
        (waitUntil next waiter 100 12).toOption = some 10) (by decide +kernel)
  exact ⟨trace, state, output, next, run, stepped, unclaimed, 10, ok_of_toOption waits, by decide⟩

/-- At four the request sleeps until ten. A second request of the Program puts the deadline
off, and at ten the first sleeps again. -/
theorem waits_without_spinning_early :
    ∃ trace state output next, Run Sample.gatedRouter trace state ∧
      (Sample.gatedRouter.scheduler .filled).step state (.arrive (Sample.arrival "a" "p" 5) 5) =
        .ok (output, (next : Sample.State)) ∧
      waitUntil state Sample.waiter 100 4 = .ok 10 ∧ 4 < 10 ∧
      waitUntil next Sample.waiter 100 10 = .ok 15 ∧ 10 < 15 ∧
      lockings [(⟨state, 4⟩ : WaitRound Exact Sample.Texts), ⟨next, 10⟩] ≤ 3 * (6 + 1) := by
  obtain ⟨trace, state, output, next, run, stepped, sleeps, again⟩ :=
    step_of_play gatedRouter
      [.sync (snapshot 0 "a" ["t"]), crowded 0, .arrive (arrival "a" "p" 0) 0, crowded 4]
      (.arrive (arrival "a" "p" 5) 5)
      (fun state next => (waitUntil state waiter 100 4).toOption = some 10 ∧
        (waitUntil next waiter 100 10).toOption = some 15) (by decide +kernel)
  have first := ok_of_toOption sleeps
  have second := ok_of_toOption again
  obtain ⟨wakes, few, _⟩ := @waits_without_spinning Exact Texts
  have timely := (wakes state _ _ _ _ first).mp (by decide)
  have later := (wakes next _ _ _ _ second).mp (by decide)
  refine ⟨trace, state, output, next, run, stepped, first, (wakes _ _ _ _ _ first).mpr timely,
    second, (wakes _ _ _ _ _ second).mpr later, few waiter 100 _ 4 6 ?_ ?_ ?_⟩
  · exact List.isChain_pair.mpr ⟨10, first, Nat.le_refl 10⟩
  · simpa using ⟨timely, later⟩
  · simp

end SmetricRouter.ProgramScheduling
