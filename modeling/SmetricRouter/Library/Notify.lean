/-! A wake-up cell with one waiting task.

The cell stores at most one permit. Signalling a task that is registered wakes
it; signalling with nobody registered stores the permit for the next poll.
Dropping a wait that was woken but never resumed gives the permit back.
-/

namespace SmetricRouter

inductive Waiter where
  | idle
  | registered
  | notified
  deriving DecidableEq, Repr

structure Notify where
  permit : Bool := false
  waiter : Waiter := .idle
  deriving DecidableEq, Repr

namespace Notify

variable (cell : Notify)

def notifyOne : Notify :=
  match cell.waiter with
  | .registered => { cell with waiter := .notified }
  | _ => { cell with permit := true }

/-- First poll of a wait: consume the permit, or register. The flag says
whether the wait has completed. -/
def poll : Bool × Notify :=
  if cell.permit then (true, { cell with permit := false })
  else (false, { cell with waiter := .registered })

def resume : Notify := { cell with waiter := .idle }

def abandon : Notify :=
  match cell.waiter with
  | .notified => { permit := true, waiter := .idle }
  | _ => { cell with waiter := .idle }

def signalled : Prop := cell.permit = true ∨ cell.waiter = .notified

variable (cell : Notify)

theorem notifyOne_signalled : cell.notifyOne.signalled := by
  unfold notifyOne signalled
  cases cell.waiter <;> simp

/-- What signals may do to a cell: a signal is not lost, and nobody is
registered by one. -/
structure Rung (cell next : Notify) : Prop where
  signalled : cell.signalled → next.signalled
  idle : cell.waiter = .idle → next.waiter = .idle

theorem Rung.refl : cell.Rung cell := ⟨id, id⟩

theorem Rung.trans {cell next last : Notify} (first : cell.Rung next) (second : next.Rung last) :
    cell.Rung last :=
  ⟨second.signalled ∘ first.signalled, second.idle ∘ first.idle⟩

theorem Rung.notifyOne : cell.Rung cell.notifyOne := by
  refine ⟨fun _ => cell.notifyOne_signalled, ?_⟩
  intro idle
  unfold Notify.notifyOne
  rw [idle]

theorem permit_of_idle {cell : Notify} (signalled : cell.signalled) (idle : cell.waiter = .idle) :
    cell.permit = true := by
  rcases signalled with permit | notified
  · exact permit
  · rw [idle] at notified
    cases notified

theorem poll_of_permit {cell : Notify} (permit : cell.permit = true) : cell.poll.1 = true := by
  unfold poll
  rw [if_pos permit]

theorem abandon_idle : cell.abandon.waiter = .idle := by
  unfold abandon
  cases cell.waiter <;> rfl

end Notify

end SmetricRouter
