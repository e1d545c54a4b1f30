import SmetricRouter.ProgramScheduling.Abstraction

/-! The capacity ledger of a scheduler state.

The machine does not see tokens. The books do: which target each Program is
active on, what it is accounted with, and the meter from which the usage of each
target is read. An operation that changes none of these leaves the books alone.
-/

namespace SmetricRouter.ProgramScheduling

open Function

variable {F T : Type}

/-- What the tokens of a Program are computed from. -/
structure Account where
  estimatedContextTokens : Nat
  sharedPrefixTokens : Nat
  outputTokenReservation : Option Nat
  deriving DecidableEq, Repr

structure Meter (F : Type) where
  estimate : Option F
  observedAt : Option Instant
  delta : F

def Meter.charge [F64 F] (meter : Meter F) (tokens : F) : Meter F :=
  { meter with delta := meter.delta + tokens }

def Meter.usage [F64 F] (meter : Meter F) (fresh : Instant → Bool) : Option F :=
  (meter.observedAt.filter fresh).bind fun _ =>
    meter.estimate.map fun tokens => max (tokens + meter.delta) (F64.lit 0)

@[ext] structure Books (F : Type) where
  /-- The target a Program is active on. -/
  seat : ProgramRef → Option String
  account : ProgramRef → Option Account
  meter : String → Meter F
  admissions : List (AdmissionRecord F)
  /-- The adjustments of the meters, oldest first. -/
  ledger : List (String × F)

namespace Books

variable (books : Books F)

def place (program : ProgramRef) (seat : Option String) : Books F :=
  { books with seat := Function.update books.seat program seat }

def setAccount (program : ProgramRef) (account : Option Account) : Books F :=
  { books with account := Function.update books.account program account }

def charge [F64 F] (target : String) (tokens : F) : Books F :=
  { books with
    meter := Function.update books.meter target ((books.meter target).charge tokens)
    ledger := books.ledger ++ [(target, tokens)] }

def record (admission : AdmissionRecord F) : Books F :=
  { books with admissions := books.admissions ++ [admission] }

end Books

/-- An entry that charges a target by what its seats change. -/
inductive Posting [F64 F] (weigh : Account → F) (books : Books F) : Books F → Prop where
  | seat (program target account admission) (unseated : books.seat program = none)
      (known : books.account program = some account) :
      Posting weigh books
        (((books.place program (some target)).charge target (weigh account)).record admission)
  | vacate (program target account) (seated : books.seat program = some target)
      (known : books.account program = some account) :
      Posting weigh books ((books.place program none).charge target (-weigh account))
  /-- The account of a Program without a seat is opened, replaced or closed. -/
  | enroll (program account) (unseated : books.seat program = none) :
      Posting weigh books (books.setAccount program account)
  | regrade (program target before after) (seated : books.seat program = some target)
      (known : books.account program = some before) :
      Posting weigh books
        ((books.setAccount program (some after)).charge target (weigh after - weigh before))

def ProgramDecisionState.account (decision : ProgramDecisionState F) : Account :=
  ⟨decision.estimatedContextTokens, decision.sharedPrefixTokens, decision.outputTokenReservation⟩

def RankObservationState.meter (observation : RankObservationState F) : Meter F :=
  ⟨observation.estimatedActiveProgramTokens, observation.observedAt,
    observation.activeProgramTokenDelta⟩

def RuntimeProgram.seat (program : RuntimeProgram) : Option String :=
  if program.state = .active then program.placement else none

def ProgramRuntime.seat (runtime : ProgramRuntime) (program : ProgramRef) : Option String :=
  (runtime.find program).bind (·.seat)

variable {program : ProgramRef}

section Seats

variable {runtime next : ProgramRuntime}

theorem ProgramRuntime.seat_of_insert (record : RuntimeProgram)
    (programs : next.programs = runtime.programs.insert record.reference.key record)
    (same : ∀ program, runtime.programs.lookup record.reference.key = some program →
      program.reference = record.reference) :
    next.seat = update runtime.seat record.reference record.seat := by
  funext other
  unfold seat
  rw [find_of_insert record programs same other]
  by_cases own : other = record.reference
  · rw [if_pos own, own, update_self]
    rfl
  · rw [if_neg own, update_of_ne own]

variable {record : RuntimeProgram}

theorem ProgramRuntime.seat_of_erase
    (programs : next.programs = runtime.programs.erase record.reference.key)
    (found : runtime.programs.lookup record.reference.key = some record) :
    next.seat = update runtime.seat record.reference none := by
  funext other
  unfold seat
  rw [find_of_erase programs found other]
  by_cases own : other = record.reference
  · rw [if_pos own, own, update_self]
    rfl
  · rw [if_neg own, update_of_ne own]

theorem ProgramRuntime.seat_of_find
    (found : runtime.find program = some record) : runtime.seat program = record.seat := by
  unfold seat
  rw [found]
  rfl

theorem ProgramRuntime.seat_of_unplaced
    (unplaced : runtime.placement program = none) : runtime.seat program = none := by
  unfold seat
  unfold placement at unplaced
  cases found : runtime.find program with
  | none => rfl
  | some =>
    rw [found, Option.bind_some] at unplaced
    simp [RuntimeProgram.seat, unplaced]

theorem ProgramRuntime.seat_retainRequest (keyed : runtime.Keyed) {identity : ProgramIdentity}
    {tokens : Nat} {routingText : Option String} {arrivedAt : Instant} :
    (runtime.retainRequest identity tokens routingText arrivedAt).2.seat = runtime.seat := by
  funext reference
  unfold seat
  rw [find_retainRequest keyed]
  split
  · rename_i own
    rw [own]
    rcases materialize_find keyed identity tokens with ⟨_, found, record⟩ | ⟨absent, paused, _⟩
    · rw [found, record]
      rfl
    · rw [absent]
      simp [RuntimeProgram.seat, paused]
  · rfl

theorem ProgramRuntime.seat_of_replace
    (found : runtime.find program = some record) {changed : RuntimeProgram}
    (reference : changed.reference = record.reference) (seated : changed.seat = record.seat)
    (programs : next.programs = runtime.programs.insert program.key changed) :
    next.seat = runtime.seat := by
  have own : program = changed.reference := (find_eq_some.mp found).2.symm.trans reference.symm
  rw [own] at programs found
  refine (seat_of_insert _ programs (reference_of_find found)).trans ?_
  rw [update_eq_self_iff, seated]
  exact (seat_of_find found).symm

theorem ProgramRuntime.seat_dispatchFront {handle : ProgramRequestHandle} {target : String}
    {now : Instant} {pending : Bool} (found : runtime.find handle.program = some record) :
    (runtime.dispatchFront handle target now pending).2.seat = runtime.seat := by
  unfold dispatchFront
  simp only [(find_eq_some.mp found).1]
  split
  · refine seat_of_replace found ?_ ?_ rfl
    · rfl
    · rfl
  · refine seat_of_replace found ?_ ?_ rfl
    · rfl
    · rfl

end Seats

section Account

variable [F64 F] (self : ProgramScheduler F)

def ProgramScheduler.weigh (account : Account) : F :=
  F64.ofNat (saturatingAdd (account.estimatedContextTokens - account.sharedPrefixTokens)
    (account.outputTokenReservation.getD self.config.progressTtl.decodeBufferTokens))

theorem ProgramScheduler.privateTokens_eq (decision : ProgramDecisionState F) :
    self.privateTokens decision = self.weigh decision.account := rfl

end Account

/-- The known targets and their revision are the same. -/
structure SameTargets (state next : ProgramSchedulerState F T) : Prop where
  targets : next.targets = state.targets
  revision : next.targetSnapshotRevision = state.targetSnapshotRevision

variable {state : ProgramSchedulerState F T}

theorem SameTargets.trans {next last : ProgramSchedulerState F T}
    (first : SameTargets state next) (second : SameTargets next last) : SameTargets state last :=
  ⟨second.targets.trans first.targets, second.revision.trans first.revision⟩

namespace ProgramSchedulerState

variable [F64 F]

def books (state : ProgramSchedulerState F T) : Books F where
  seat := state.runtime.seat
  account := fun program => (state.decisions.lookup program).map (·.account)
  meter := fun target => ((state.observations.lookup target).getD default).meter
  admissions := state.admissions
  ledger := state.ledger

omit [F64 F] in
theorem seat_eq_placement {globalMode : Bool} (inv : state.Inv globalMode) (program : ProgramRef) :
    state.runtime.seat program = state.runtime.placement program := by
  unfold ProgramRuntime.seat ProgramRuntime.placement
  cases found : state.runtime.find program with
  | none => rfl
  | some =>
    obtain ⟨_, _, facts⟩ := inv.decision found
    simp only [Option.bind_some, RuntimeProgram.seat]
    split
    · rfl
    · rename_i paused
      rw [facts.activePlaced, Bool.not_eq_true, Option.isSome_eq_false_iff,
        Option.isNone_iff_eq_none] at paused
      exact paused.symm

variable (state)

theorem books_modifyDecision_same (program : ProgramRef)
    {change : ProgramDecisionState F → ProgramDecisionState F}
    (kept : ∀ decision, (change decision).account = decision.account) :
    (state.modifyDecision program change).books = state.books :=
  Books.ext rfl (Table.view_modify_same state.decisions program kept) rfl rfl rfl

theorem books_modifyDecision
    {decision : ProgramDecisionState F} (found : state.decisions.lookup program = some decision)
    (change : ProgramDecisionState F → ProgramDecisionState F) :
    (state.modifyDecision program change).books =
      state.books.setAccount program (some (change decision).account) :=
  Books.ext rfl (Table.view_modify _ found change) rfl rfl rfl

theorem books_insertDecision (program : ProgramRef)
    (decision : ProgramDecisionState F) (bindings : ProgramBindings T) :
    books { state with
      bindings := bindings, decisions := state.decisions.insert program decision } =
      state.books.setAccount program (some decision.account) :=
  Books.ext rfl (Table.view_insert _ state.decisions program decision) rfl rfl rfl

theorem books_eraseDecision (program : ProgramRef) (bindings : ProgramBindings T) :
    books { state with decisions := state.decisions.erase program, bindings := bindings } =
      state.books.setAccount program none :=
  Books.ext rfl (Table.view_erase _ state.decisions program) rfl rfl rfl

theorem books_updateObservation (target : String)
    (change : RankObservationState F → RankObservationState F) :
    books { state with observations := state.observations.update target change } =
      { state.books with
        meter := update state.books.meter target
          (change ((state.observations.lookup target).getD default)).meter } :=
  Books.ext rfl rfl (Table.view_update (·.meter) state.observations target change) rfl rfl

theorem books_adjustUsage (target : String) (tokens : F) :
    (adjustUsage state target tokens).books = state.books.charge target tokens := by
  have moved := congrArg Books.meter (books_updateObservation state target fun observation =>
    { observation with
      activeProgramTokenDelta := observation.activeProgramTokenDelta + tokens })
  exact Books.ext rfl rfl moved rfl rfl

theorem observedTargetUsage_eq (self : ProgramScheduler F) (state : ProgramSchedulerState F T)
    (target : String) (now : Instant) :
    self.observedTargetUsage state target now =
      (state.books.meter target).usage fun observedAt =>
        decide (now - observedAt ≤ self.config.metricsInterval * 3) := by
  unfold ProgramScheduler.observedTargetUsage ProgramScheduler.observationIsFresh
  simp only [books, Meter.usage]
  cases state.observations.lookup target with
  | none => rfl
  | some observation =>
    cases read : observation.observedAt with
    | none => simp [RankObservationState.meter, read]
    | some =>
      simp only [Option.getD_some, RankObservationState.meter, read, Option.filter, Option.any_some]
      split <;> rfl

end ProgramSchedulerState

end SmetricRouter.ProgramScheduling
