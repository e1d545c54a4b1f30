import SmetricRouter.ProgramScheduling.TargetSync
import SmetricRouter.ProgramScheduling.CardInvariant

/-! The scheduler state as a state of the machine, and its elementary moves.

Ledger deltas, observations, factors, bindings and lineage are invisible to the
machine, so an operation on those alone is no move at all.
-/

namespace SmetricRouter.ProgramScheduling

open Function

variable {F T : Type}

def ProgramDecisionState.standing (decision : ProgramDecisionState F) : Standing :=
  ⟨decision.lastTarget, decision.queuedAt, decision.forceResumeDeadline⟩

namespace ProgramSchedulerState

def core (state : ProgramSchedulerState F T) : Core where
  runtime := state.runtime
  standing := fun program => (state.decisions.lookup program).map (·.standing)
  rankQueue := state.rankQueue
  globalQueue := state.globalQueue
  targets := state.poolTargets

variable (state : ProgramSchedulerState F T)

theorem core_adjustUsage [F64 F] (target : String) (delta : F) :
    (adjustUsage state target delta).core = state.core := rfl

theorem core_dequeue (program : ProgramRef) :
    (state.dequeue program).core = state.core.dequeue program := by
  have filtered (queues : Table String (List ProgramRef)) name :
      ((queues.mapValues fun queue => queue.filter (· ≠ program)).lookup name).getD [] =
        ((queues.lookup name).getD []).filter (· ≠ program) := by
    rw [Table.lookup_mapValues]
    cases queues.lookup name <;> rfl
  refine Core.ext rfl rfl ?_ ?_ rfl
  · funext target
    exact filtered state.rankQueues _
  · funext pool
    exact filtered state.globalQueues _

theorem core_modifyDecision_same (program : ProgramRef)
    {change : ProgramDecisionState F → ProgramDecisionState F}
    (kept : ∀ decision, (change decision).standing = decision.standing) :
    (state.modifyDecision program change).core = state.core :=
  Core.ext rfl (Table.view_modify_same state.decisions program kept) rfl rfl rfl

variable {program : ProgramRef}

theorem core_modifyDecision
    {decision : ProgramDecisionState F} (found : state.decisions.lookup program = some decision)
    (change : ProgramDecisionState F → ProgramDecisionState F) :
    (state.modifyDecision program change).core =
      state.core.setStanding program (some (change decision).standing) :=
  Core.ext rfl (Table.view_modify _ found change) rfl rfl rfl

theorem core_eraseDecision (program : ProgramRef) (bindings : ProgramBindings T) :
    core { state with decisions := state.decisions.erase program, bindings := bindings } =
      state.core.setStanding program none :=
  Core.ext rfl (Table.view_erase _ state.decisions program) rfl rfl rfl

theorem core_insertDecision (program : ProgramRef)
    (decision : ProgramDecisionState F) (bindings : ProgramBindings T) :
    core { state with
      bindings := bindings, decisions := state.decisions.insert program decision } =
      state.core.setStanding program (some decision.standing) :=
  Core.ext rfl (Table.view_insert _ state.decisions program decision) rfl rfl rfl

theorem core_updateRankQueue (pool target : String) (change : List ProgramRef → List ProgramRef) :
    core { state with rankQueues := state.rankQueues.update target change } =
      state.core.editQueue false pool target change :=
  Core.ext rfl rfl (Table.view_update id state.rankQueues target change) rfl rfl

theorem core_updateGlobalQueue (pool target : String) (change : List ProgramRef → List ProgramRef) :
    core { state with globalQueues := state.globalQueues.update pool change } =
      state.core.editQueue true pool target change :=
  Core.ext rfl rfl rfl (Table.view_update id state.globalQueues pool change) rfl

theorem core_runtime (runtime : ProgramRuntime) :
    core { state with runtime := runtime } = { state.core with runtime := runtime } := rfl

abbrev Inv (globalMode : Bool) (state : ProgramSchedulerState F T) : Prop :=
  state.core.Inv globalMode

variable {globalMode : Bool} {state}

theorem inv_of_core {core : Core} (same : state.core = core) (inv : core.Inv globalMode) :
    state.Inv globalMode := by
  subst same
  exact inv

variable (inv : state.Inv globalMode)

include inv

theorem Inv.stored : state.runtime.Keyed := inv.keyed

theorem Inv.decision {record : RuntimeProgram} (found : state.runtime.find program = some record) :
    ∃ decision, state.decisions.lookup program = some decision ∧
      (state.core.card program).Live globalMode program record decision.standing := by
  obtain ⟨_, standing_eq, facts⟩ := (inv.cards _).of_program found
  obtain ⟨decision, stored, rfl⟩ := Option.map_eq_some_iff.mp standing_eq
  exact ⟨decision, stored, facts⟩

theorem Inv.record
    {decision : ProgramDecisionState F} (found : state.decisions.lookup program = some decision) :
    ∃ record, state.runtime.find program = some record ∧
      (state.core.card program).Live globalMode program record decision.standing := by
  have standing : (state.core.card program).standing = some decision.standing := by
    simp [core, Core.card, found]
  exact (inv.cards _).of_standing standing

omit inv

theorem decisionAt_of {decision : ProgramDecisionState F}
    (decided : state.decisions.lookup program = some decision) :
    state.decisionAt program = .ok decision := by
  simp [decisionAt, decided]

end ProgramSchedulerState

end SmetricRouter.ProgramScheduling
