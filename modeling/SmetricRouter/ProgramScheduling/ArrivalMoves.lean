import SmetricRouter.ProgramScheduling.EventMoves

/-! Arrival and claim as moves of the machine.

An arrival binds a new Program to a target of its pool. Binding cannot fail
while the pool lists a target, and the climb to a lineage root always ends, so
the section is total from a sound state.
-/

namespace SmetricRouter.ProgramScheduling

open ProgramSchedulerState ProgramRuntime Function Ensures ProgramScheduling.Core

variable {F T : Type} [F64 F] {arrival : Arrival} {handle : ProgramRequestHandle}
  {runtime : ProgramRuntime} {target : String} {program reference : ProgramRef}

namespace Core

def Strands (core : Core) (arrival : Arrival) (home : Option String) : Prop :=
  (core.retained arrival).2.placement (core.retained arrival).1.program = none ∧
    (core.arrivingStanding (core.retained arrival).1.program home arrival.arrivedAt).lastTarget =
      none

variable {core : Core} {standing : Standing}

section Arrive

variable (retaining : core.retained arrival = (handle, runtime)) (globalMode : Bool)
  (home : Option String) (deadline : Instant)

include retaining

theorem arrive_of_unqueued (unqueued : (runtime.placement handle.program).isSome ∨
      (core.arrivingStanding handle.program home arrival.arrivedAt).lastTarget = none) :
    core.arrive globalMode arrival home deadline =
      { core with runtime := runtime }.setStanding handle.program
        (some (core.arrivingStanding handle.program home arrival.arrivedAt)) := by
  unfold retained at retaining
  simp only [arrive, retaining]
  rcases unqueued with placed | homeless
  · rw [if_pos placed]
  · simp [homeless]

theorem arrive_of_queued (unplaced : runtime.placement handle.program = none)
    (standing_eq : core.arrivingStanding handle.program home arrival.arrivedAt = standing)
    (bound : standing.lastTarget = some target) :
    core.arrive globalMode arrival home deadline =
      ({ core with runtime := runtime }.setStanding handle.program (some
        { standing with
          queuedAt := standing.queuedAt.or (some arrival.arrivedAt)
          forceResumeDeadline := some deadline })).editQueue globalMode
        arrival.identity.modelPool target fun queue => pushWaiter queue handle.program := by
  unfold retained at retaining
  simp [arrive, retaining, unplaced, standing_eq, bound, setStanding_setStanding]

end Arrive

theorem standing_editQueue (core : Core) (globalMode : Bool) (pool target : String)
    (change : List ProgramRef → List ProgramRef) :
    (core.editQueue globalMode pool target change).standing = core.standing := by
  unfold editQueue
  split <;> rfl

theorem isSome_setStanding (known : program = reference ∨ (core.standing program).isSome) :
    ((core.setStanding reference (some standing)).standing program).isSome := by
  simp only [setStanding]
  by_cases same : program = reference
  · rw [same, update_self]
    rfl
  · rw [update_of_ne same]
    exact known.resolve_left same

theorem mem_update_push {queues : String → List ProgramRef} {name other : String}
    (member : program ∈ update queues name (pushWaiter (queues name) reference) other) :
    program = reference ∨ program ∈ queues other := by
  by_cases same : other = name
  · subst same
    rw [update_self] at member
    unfold pushWaiter at member
    split at member
    · exact .inr member
    · rcases List.mem_append.mp member with before | last
      · exact .inr before
      · exact .inl (List.mem_singleton.mp last)
  · rw [update_of_ne same] at member
    exact .inr member

end Core

def Account.arriving (known : Option Account) (identity : ProgramIdentity) (tokens : Nat) :
    Account :=
  match known with
  | some account =>
    ⟨if account.estimatedContextTokens ≤ tokens then tokens else account.estimatedContextTokens,
      account.sharedPrefixTokens, identity.requestHints.expectedOutputTokens⟩
  | none => ⟨tokens, 0, identity.requestHints.expectedOutputTokens⟩

namespace ProgramSchedulerState

def Marked (state : ProgramSchedulerState F T) (program : ProgramRef) : Prop :=
  (state.decisions.lookup program).any (·.pauseWhenIdle)

instance (state : ProgramSchedulerState F T) (program : ProgramRef) :
    Decidable (state.Marked program) := inferInstanceAs (Decidable (_ = true))

end ProgramSchedulerState

/-- The books once an arrival is entered: the new account, and on the target of
a seated Program only what the account grew by. -/
def ProgramScheduler.arrivedBooks (scheduler : ProgramScheduler F)
    (state : ProgramSchedulerState F T) (program : ProgramRef) (account : Account) : Books F :=
  match state.books.account program, state.books.seat program with
  | some before, some target =>
    if ¬ state.Marked program ∧ scheduler.weigh before < scheduler.weigh account then
      (state.books.setAccount program (some account)).charge target
        (scheduler.weigh account - scheduler.weigh before)
    else state.books.setAccount program (some account)
  | _, _ => state.books.setAccount program (some account)

/-- What every step may rely on: the invariant of the machine, binding tables
that match their targets, and a lineage without cycles. -/
structure ProgramScheduler.Sound (scheduler : ProgramScheduler F)
    (state : ProgramSchedulerState F T) : Prop where
  inv : state.Inv scheduler.config.globalQueue
  built : state.bindings.policy.Built scheduler.fbiHash
    (scheduler.config.progressTtl.tokenCapacity.isSome = true)
  forest : ParentForest.Forest state.lineage.parents

namespace ProgramScheduler

variable {self : ProgramScheduler F} {state next : ProgramSchedulerState F T}

theorem Sound.schedules (sound : self.Sound state)
    (taken : Schedules self.config.globalQueue state next) : self.Sound next :=
  ⟨taken.inv sound.inv, taken.policy ▸ sound.built, taken.lineage ▸ sound.forest⟩

theorem Sound.follows (sound : self.Sound state) {label : Label}
    (taken : Follows self.config.globalQueue label state next) : self.Sound next := by
  obtain ⟨_, moved, evolved⟩ := taken.moves
  exact ⟨evolved.inv (moved.inv sound.inv), taken.policy ▸ sound.built,
    taken.lineage ▸ sound.forest⟩

section Candidates

variable (self)

variable [AffinityTree T]

theorem bind_listed (state : ProgramSchedulerState F T)
    (built : state.bindings.policy.Built self.fbiHash
      (self.config.progressTtl.tokenCapacity.isSome = true))
    (identity : ProgramIdentity) (now : Instant) (routingText : Option String) :
    Returns (state.bindings.bind self.fbiHash identity
        (self.bindingCandidates state identity now) routingText) fun bound =>
      (∀ target, bound.1 = some target → target ∈ state.poolTargets identity.modelPool) ∧
        (bound.1 = none → state.poolTargets identity.modelPool = []) ∧
        bound.2.policy.Built self.fbiHash
          (self.config.progressTtl.tokenCapacity.isSome = true) := by
  refine mono (bind_returns built ?_) ?_
  · intro capacity candidate offered
    obtain ⟨_, _, rfl⟩ := List.mem_map.mp offered
    exact capacity
  · rintro ⟨_, _⟩ ⟨⟨names, nothing⟩, rebuilt⟩
    refine ⟨?_, fun unbound => List.map_eq_nil_iff.mp (nothing unbound), rebuilt⟩
    intro target bound
    obtain ⟨_, offered, rfl⟩ := names _ bound
    obtain ⟨_, listed, rfl⟩ := List.mem_map.mp offered
    exact listed

end Candidates

variable {globalMode : Bool} {now : Instant}

section Claim

variable [AffinityTree T]

section

omit [F64 F]

theorem claimDispatch_unplaced (now : Instant)
    (unplaced : state.runtime.placement handle.program = none) :
    claimDispatch state handle now = (none, state) := by
  simp [claimDispatch, unplaced]

theorem claimDispatch_placed (now : Instant)
    (placed : state.runtime.placement handle.program = some target) :
    ∃ policy, claimDispatch state handle now = ((state.runtime.admitFront handle target now).1,
        { state with
          runtime := (state.runtime.admitFront handle target now).2
          bindings := { state.bindings with policy := policy } }) ∧
      ∀ fbiHash balanced, state.bindings.policy.Built fbiHash balanced →
        policy.Built fbiHash balanced := by
  unfold claimDispatch
  rw [placed]
  simp only
  generalize state.runtime.admitFront handle target now = outcome
  obtain ⟨dispatch, _⟩ := outcome
  cases dispatch with
  | none => exact ⟨_, rfl, fun _ _ => id⟩
  | some dispatch =>
    simp only
    cases dispatch.routingText with
    | none => exact ⟨_, rfl, fun _ _ => id⟩
    | some text => exact ⟨_, rfl, fun _ _ built => built.commitPlacement _ _ _⟩

theorem claimDispatch_frame (state : ProgramSchedulerState F T) (handle : ProgramRequestHandle)
    (now : Instant) : ∃ runtime policy, (claimDispatch state handle now).2 =
      { state with runtime := runtime, bindings := { state.bindings with policy := policy } } := by
  cases placed : state.runtime.placement handle.program with
  | none => exact ⟨state.runtime, state.bindings.policy, by rw [claimDispatch_unplaced now placed]⟩
  | some =>
    obtain ⟨policy, claimed, _⟩ := claimDispatch_placed now placed
    exact ⟨_, policy, by rw [claimed]⟩

theorem claimDispatch_core (placed : state.runtime.placement handle.program = some target) :
    (claimDispatch state handle now).2.core =
      { state.core with runtime := (state.runtime.admitFront handle target now).2 } := by
  obtain ⟨_, claimed, _⟩ := claimDispatch_placed now placed
  rw [claimed]
  rfl

end

theorem Sound.claimDispatch (sound : self.Sound state) (handle : ProgramRequestHandle)
    (now : Instant) (placed : state.runtime.placement handle.program = some target) :
    self.Sound (claimDispatch state handle now).2 ∧
      (ProgramScheduler.claimDispatch state handle now).1 =
        (state.runtime.admitFront handle target now).1 := by
  have moved : Move self.config.globalQueue state.core (.dispatch handle now)
      { state.core with runtime := (state.runtime.admitFront handle target now).2 } :=
    .dispatch _ _ now placed (sound.inv.placement_active placed)
  have inv := inv_of_core (claimDispatch_core placed) (moved.inv sound.inv)
  obtain ⟨_, claimed, built⟩ := claimDispatch_placed now placed
  rw [claimed] at inv ⊢
  exact ⟨⟨inv, built _ _ sound.built, sound.forest⟩, rfl⟩

end Claim

variable {decision : ProgramDecisionState F}

section Deadline

variable (self)

theorem rankForceResumeTimeout_returns
    (decided : Decided state (state.rankQueue target)) (candidate : ProgramRef) (now : Instant) :
    Returns (self.rankForceResumeTimeout state target candidate now) fun _ => True := by
  fun_cases rankForceResumeTimeout self state target candidate now with
  | case3 =>
    exact bind (orderCandidates_perm (self.localResumeCmp _ now) (decided.filter _))
      fun _ _ => pure trivial
  | _ => exact pure trivial

variable {candidate : ProgramRef}

theorem globalForceResumeTimeout_returns
    (decided : Decided state (state.globalQueue candidate.modelPool)) (now : Instant) :
    Returns (self.globalForceResumeTimeout state candidate now) fun _ => True := by
  fun_cases globalForceResumeTimeout self state candidate now with
  | case5 =>
    exact bind (orderCandidates_perm (self.localResumeCmp _ now) (decided.filter _))
      fun _ _ => pure trivial
  | _ => exact pure trivial

structure Aside (state next : ProgramSchedulerState F T) : Prop where
  bindings : next.bindings = state.bindings
  lineage : next.lineage = state.lineage
  targets : SameTargets state next
  books : next.books = state.books
  timer : next.timer = state.timer

theorem Aside.trans {last : ProgramSchedulerState F T} (first : Aside state next)
    (second : Aside next last) : Aside state last :=
  ⟨second.bindings.trans first.bindings, second.lineage.trans first.lineage,
    first.targets.trans second.targets, second.books.trans first.books,
    second.timer.trans first.timer⟩

theorem Aside.modifyDecision (state : ProgramSchedulerState F T) (program : ProgramRef)
    {change : ProgramDecisionState F → ProgramDecisionState F}
    (account : ∀ decision, (change decision).account = decision.account)
    (timer : ∀ decision, (change decision).timer = decision.timer) :
    Aside state (state.modifyDecision program change) :=
  ⟨rfl, rfl, ⟨rfl, rfl⟩, books_modifyDecision_same state program account,
    timer_modifyDecision_same state program timer⟩

theorem setForceResumeDeadline_returns (ranked : Decided state (state.rankQueue target))
    (pooled : Decided state (state.globalQueue candidate.modelPool))
    (decided : state.decisions.lookup candidate = some decision) (now : Instant) :
    Returns (self.setForceResumeDeadline state target candidate now) fun next =>
      ∃ deadline, next.core = state.core.setStanding candidate
          (some { decision.standing with forceResumeDeadline := some deadline }) ∧
        Aside state next := by
  unfold setForceResumeDeadline
  split
  · apply bind (self.globalForceResumeTimeout_returns pooled now)
    intro estimate _
    exact pure ⟨_, core_modifyDecision _ decided _, .modifyDecision _ _ (fun _ => rfl) fun _ => rfl⟩
  · apply bind (self.rankForceResumeTimeout_returns ranked _ now)
    intro _ _
    exact pure ⟨_, core_modifyDecision _ decided _, .modifyDecision _ _ (fun _ => rfl) fun _ => rfl⟩

omit [F64 F] in
theorem decided_iff {queue : List ProgramRef} :
    Decided state queue ↔ ∀ program ∈ queue, (state.core.standing program).isSome := by
  simp [Decided, core, Option.isSome_iff_exists]

/-- The Program stands in its queue and knows since when; its deadline is not set yet. -/
structure Stamped (globalMode : Bool) (state : ProgramSchedulerState F T) (modelPool target : String)
    (reference : ProgramRef) (decision : ProgramDecisionState F) (arrivedAt : Instant)
    (stamped : ProgramSchedulerState F T) : Prop where
  core : stamped.core =
    (state.core.editQueue globalMode modelPool target
      (fun queue => pushWaiter queue reference)).setStanding reference
        (some { decision.standing with queuedAt := decision.queuedAt.or (some arrivedAt) })
  decided : stamped.decisions.lookup reference =
    some { decision with queuedAt := decision.queuedAt.or (some arrivedAt) }
  bindings : stamped.bindings = state.bindings
  lineage : stamped.lineage = state.lineage
  targets : SameTargets state stamped
  books : stamped.books = state.books
  timer : stamped.timer = state.timer

namespace Stamped

variable {modelPool : String} {arrivedAt : Instant} {stamped : ProgramSchedulerState F T}

theorem of_push {queued : ProgramSchedulerState F T}
    (core : queued.core = state.core.editQueue globalMode modelPool target
      (fun queue => pushWaiter queue reference))
    (decisions : queued.decisions = state.decisions)
    (decided : state.decisions.lookup reference = some decision) (aside : Aside state queued) :
    Stamped globalMode state modelPool target reference decision arrivedAt
      (queued.modifyDecision reference fun decision =>
        { decision with queuedAt := decision.queuedAt.or (some arrivedAt) }) := by
  have stillDecided : queued.decisions.lookup reference = some decision := by
    rw [decisions]
    exact decided
  refine ⟨?_, ?_, aside.bindings, aside.lineage, ⟨aside.targets.targets, aside.targets.revision⟩,
    ?_, ?_⟩
  · rw [core_modifyDecision queued stillDecided, core]
    rfl
  · simp [modifyDecision, Table.lookup_modify, stillDecided]
  · refine (books_modifyDecision_same _ _ ?_).trans aside.books
    exact fun _ => rfl
  · refine (timer_modifyDecision_same _ _ ?_).trans aside.timer
    exact fun _ => rfl

variable (stands : Stamped globalMode state modelPool target reference decision arrivedAt stamped)

include stands

theorem known (known : program = reference ∨ (state.core.standing program).isSome) :
    (stamped.core.standing program).isSome := by
  rw [stands.core]
  apply isSome_setStanding
  rwa [standing_editQueue]

theorem decided_of {queue before : List ProgramRef}
    (pushed : ∀ program ∈ queue, program = reference ∨ program ∈ before)
    (decided : Decided state before) : Decided stamped queue :=
  decided_iff.mpr fun program member =>
    stands.known ((pushed program member).imp_right (decided_iff.mp decided program))

theorem ranked (ranked : Decided state (state.rankQueue target)) :
    Decided stamped (stamped.rankQueue target) := by
  refine stands.decided_of (fun program member => ?_) ranked
  have pushed : program ∈ stamped.core.rankQueue target := member
  rw [stands.core] at pushed
  cases globalMode with
  | true => exact .inr pushed
  | false => exact mem_update_push pushed

theorem pooled (pooled : Decided state (state.globalQueue modelPool)) :
    Decided stamped (stamped.globalQueue modelPool) := by
  refine stands.decided_of (fun program member => ?_) pooled
  have pushed : program ∈ stamped.core.globalQueue modelPool := member
  rw [stands.core] at pushed
  cases globalMode with
  | true => exact mem_update_push pushed
  | false => exact .inr pushed

end Stamped

theorem enqueueArrival_returns {modelPool : String}
    (own : reference.modelPool = modelPool) (ranked : Decided state (state.rankQueue target))
    (pooled : Decided state (state.globalQueue modelPool))
    (decided : state.decisions.lookup reference = some decision) (arrivedAt : Instant) :
    Returns (self.enqueueArrival state modelPool reference target arrivedAt) fun next =>
      ∃ deadline, next.core =
          (state.core.setStanding reference (some
            { decision.standing with
              queuedAt := decision.queuedAt.or (some arrivedAt)
              forceResumeDeadline := some deadline })).editQueue self.config.globalQueue modelPool
            target (fun queue => pushWaiter queue reference) ∧
        Aside state next := by
  unfold enqueueArrival
  simp only
  generalize stamping : modifyDecision (if self.config.globalQueue then
      { state with
        globalQueues := state.globalQueues.update modelPool fun queue =>
          pushWaiter queue reference }
    else
      { state with
        rankQueues := state.rankQueues.update target fun queue =>
          pushWaiter queue reference }) reference (fun decision =>
      { decision with queuedAt := decision.queuedAt.or (some arrivedAt) }) = stamped
  have stands : Stamped self.config.globalQueue state modelPool target reference decision arrivedAt
      stamped := by
    rw [← stamping]
    cases self.config.globalQueue with
    | true =>
      exact .of_push (core_updateGlobalQueue _ _ _ _) rfl decided ⟨rfl, rfl, ⟨rfl, rfl⟩, rfl, rfl⟩
    | false =>
      exact .of_push (core_updateRankQueue _ _ _ _) rfl decided ⟨rfl, rfl, ⟨rfl, rfl⟩, rfl, rfl⟩
  refine mono (self.setForceResumeDeadline_returns (stands.ranked ranked)
    (own.symm ▸ stands.pooled pooled) stands.decided _) ?_
  rintro _ ⟨deadline, core, aside⟩
  refine ⟨deadline, ?_, .trans ⟨stands.bindings, stands.lineage, stands.targets, stands.books,
    stands.timer⟩ aside⟩
  rw [core, stands.core, setStanding_setStanding]
  unfold editQueue
  split <;> rfl

end Deadline

section Arrival

variable (self) (identity : ProgramIdentity)

omit [F64 F] in
theorem refreshDecision_keeps (tokens : Nat) (decision : ProgramDecisionState F) :
    (refreshDecision identity tokens decision).standing = decision.standing ∧
      (refreshDecision identity tokens decision).pauseWhenIdle = decision.pauseWhenIdle ∧
      (refreshDecision identity tokens decision).timer = decision.timer := by
  unfold refreshDecision describe
  split <;> exact ⟨rfl, rfl, rfl⟩

omit [F64 F] in
theorem account_refreshDecision (tokens : Nat) (decision : ProgramDecisionState F) :
    (refreshDecision identity tokens decision).account =
      Account.arriving (some decision.account) identity tokens := by
  unfold refreshDecision describe Account.arriving ProgramDecisionState.account
  simp only
  split <;> rfl

theorem sampleContinuity_frame (state : ProgramSchedulerState F T) (reference : ProgramRef)
    (arrivedAt : Instant) :
    let sampled := self.sampleContinuity state reference arrivedAt
    Unseen state sampled ∧ SameTargets state sampled ∧ sampled.decisions = state.decisions ∧
      sampled.books = state.books := by
  unfold sampleContinuity
  simp only
  split
  · exact ⟨⟨rfl, rfl, rfl⟩, ⟨rfl, rfl⟩, rfl, rfl⟩
  · split <;> exact ⟨⟨rfl, rfl, rfl⟩, ⟨rfl, rfl⟩, rfl, rfl⟩

theorem accountGrowth_frame (reference : ProgramRef) (placement : String)
    (previousTokens currentTokens : F) :
    let grown := accountGrowth state reference placement previousTokens currentTokens
    Unseen state grown ∧ SameTargets state grown ∧ grown.timer = state.timer := by
  unfold accountGrowth
  split <;> exact ⟨⟨rfl, rfl, rfl⟩, ⟨rfl, rfl⟩, rfl⟩

variable {ensured : ProgramSchedulerState F T}

theorem accountGrowth_books {before after : ProgramDecisionState F}
    (seated : state.books.seat program = some target)
    (known : state.decisions.lookup program = some before)
    (decided : ensured.decisions.lookup program = some after)
    (books : ensured.books = state.books.setAccount program (some after.account))
    (marks : ensured.Marked program ↔ state.Marked program) :
    (accountGrowth ensured program target (self.privateTokens before)
      (self.privateTokens after)).books = self.arrivedBooks state program after.account := by
  have account : state.books.account program = some before.account := by
    simp [ProgramSchedulerState.books, known]
  have unmarked : ((ensured.decisions.lookup program).any fun decision => !decision.pauseWhenIdle) =
      true ↔ ¬ state.Marked program := by
    rw [← marks]
    simp [Marked, decided]
  simp only [accountGrowth, arrivedBooks, account, seated, unmarked, privateTokens_eq]
  split
  · rw [books_adjustUsage, books]
  · exact books

theorem activateBindingOnly_commits (inv : state.Inv globalMode)
    (mode : self.config.bindingOnly = true) (program : ProgramRef) (now : Instant) :
    Commits self state (self.activateBindingOnly state program now) := by
  unfold activateBindingOnly
  split
  · exact .one (.wake _)
  · split
    · exact .refl
    · rename_i target last
      obtain ⟨_, decided, home⟩ := Option.bind_eq_some_iff.mp last
      obtain ⟨_, _, facts⟩ := inv.record decided
      exact .one (.bind _ _ now mode (facts.lastListed _ home) last)

theorem decideArrival_commits (inv : state.Inv globalMode)
    (reference : ProgramRef) (arrivedAt activatedAt : Instant) :
    Returns (self.decideArrival state reference arrivedAt activatedAt) (Commits self state) := by
  unfold decideArrival
  split
  · rename_i mode
    exact pure (self.activateBindingOnly_commits inv mode _ _)
  · exact self.runRequestArrivalDecisions_commits inv _

/-- What entering an arrival changes beside the machine and the books: a Program
without a timer starts as paused, no binding but its own is touched, and its
declared ancestors are observed. -/
structure Registers (state : ProgramSchedulerState F T) (identity : ProgramIdentity)
    (program : ProgramRef) (now : Instant) (next : ProgramSchedulerState F T) : Prop where
  timer : next.timer = Function.update state.timer program
    (some ((state.timer program).getD ⟨some now, none⟩))
  bindings : ∀ key, key ≠ identity.key →
    next.bindings.bindings.lookup key = state.bindings.bindings.lookup key
  lineage : ∃ root, state.lineage.observe identity.modelPool identity.programId
    identity.parentProgramId identity.rootProgramId = .ok (root, next.lineage)

omit [F64 F] in
theorem Registers.congr {before : ProgramSchedulerState F T} {identity : ProgramIdentity}
    (registers : Registers before identity program now ensured)
    (before_timer : before.timer = state.timer) (before_bindings : before.bindings = state.bindings)
    (before_lineage : before.lineage = state.lineage) (timer : next.timer = ensured.timer)
    (bindings : next.bindings = ensured.bindings) (lineage : next.lineage = ensured.lineage) :
    Registers state identity program now next := by
  obtain ⟨registered, bound, observed⟩ := registers
  rw [before_timer] at registered
  rw [before_bindings] at bound
  rw [before_lineage] at observed
  rw [← timer] at registered
  rw [← bindings] at bound
  rw [← lineage] at observed
  exact ⟨registered, bound, observed⟩

/-- An arrival whose request is retained and whose Program has its decision state. -/
structure Entered (scheduler : ProgramScheduler F) (state : ProgramSchedulerState F T)
    (arrival : Arrival) (handle : ProgramRequestHandle) (runtime : ProgramRuntime)
    (home : Option String) (decision : ProgramDecisionState F)
    (ensured : ProgramSchedulerState F T) : Prop where
  retaining : state.core.retained arrival = (handle, runtime)
  bound : ∀ target, home = some target → target ∈ state.core.targets arrival.identity.modelPool
  unbound : home = none → state.core.targets arrival.identity.modelPool = []
  standing : state.core.arrivingStanding handle.program home arrival.arrivedAt = decision.standing
  core : ensured.core =
    { state.core with runtime := runtime }.setStanding handle.program (some decision.standing)
  decided : ensured.decisions.lookup handle.program = some decision
  built : ensured.bindings.policy.Built scheduler.fbiHash
    (scheduler.config.progressTtl.tokenCapacity.isSome = true)
  forest : ParentForest.Forest ensured.lineage.parents
  targets : SameTargets state ensured
  account : Account.arriving (state.books.account handle.program) arrival.identity
    arrival.estimatedContextTokens = decision.account
  books : ensured.books = state.books.setAccount handle.program (some decision.account)
  marks : ensured.Marked handle.program ↔ state.Marked handle.program
  registers : Registers state arrival.identity handle.program arrival.arrivedAt ensured

/-- The state in which an arrival takes its decisions: its request is retained and entered
in the books, and its Program waits in a queue if it has to. -/
structure Arrives (scheduler : ProgramScheduler F) (state : ProgramSchedulerState F T)
    (arrival : Arrival) (home : Option String) (deadline : Instant)
    (middle : ProgramSchedulerState F T) : Prop where
  unbound : home = none → state.core.targets arrival.identity.modelPool = []
  moved : Move scheduler.config.globalQueue state.core (.arrive arrival)
    (state.core.arrive scheduler.config.globalQueue arrival home deadline)
  sound : scheduler.Sound middle
  core : middle.core = state.core.arrive scheduler.config.globalQueue arrival home deadline
  targets : SameTargets state middle
  books : middle.books = scheduler.arrivedBooks state (state.core.retained arrival).1.program
    (Account.arriving (state.books.account (state.core.retained arrival).1.program)
      arrival.identity arrival.estimatedContextTokens)
  registers : Registers state arrival.identity (state.core.retained arrival).1.program
    arrival.arrivedAt middle

namespace Entered

variable {self} {home : Option String}

variable (entered : self.Entered state arrival handle runtime home decision ensured)

include entered

theorem runtime_eq : ensured.runtime = runtime := congrArg Core.runtime entered.core

theorem seat_eq : state.books.seat handle.program = runtime.seat handle.program := by
  rw [← entered.runtime_eq]
  exact (congrFun (congrArg Books.seat entered.books) handle.program).symm

theorem moved (deadline : Instant) : Move self.config.globalQueue state.core (.arrive arrival)
    (state.core.arrive self.config.globalQueue arrival home deadline) :=
  .arrive _ _ _ entered.bound entered.unbound

variable (sound : self.Sound state)

include sound

theorem arrives {deadline : Instant} {middle : ProgramSchedulerState F T}
    (core : middle.core = state.core.arrive self.config.globalQueue arrival home deadline)
    (targets : SameTargets ensured middle)
    (books : middle.books = self.arrivedBooks state handle.program decision.account)
    (timer : middle.timer = ensured.timer) (bindings : middle.bindings = ensured.bindings)
    (lineage : middle.lineage = ensured.lineage) :
    self.Arrives state arrival home deadline middle := by
  have inv : middle.Inv self.config.globalQueue :=
    inv_of_core core ((entered.moved _).inv sound.inv)
  refine ⟨entered.unbound, entered.moved deadline,
    ⟨inv, bindings ▸ entered.built, lineage ▸ entered.forest⟩, core, entered.targets.trans targets,
    ?_, ?_⟩
  · rw [entered.retaining, entered.account]
    exact books
  · rw [entered.retaining]
    exact entered.registers.congr rfl rfl rfl timer bindings lineage

theorem placed (placed : runtime.placement handle.program = some target) :
    self.Arrives state arrival home 0 (accountGrowth ensured handle.program target
      (((state.decisions.lookup handle.program).map self.privateTokens).getD (F64.lit 0))
      (self.privateTokens decision)) := by
  have arrived : ensured.core = state.core.arrive self.config.globalQueue arrival home 0 := by
    rw [entered.core, arrive_of_unqueued entered.retaining _ _ _ (.inl (by rw [placed]; rfl)),
      entered.standing]
  have inv : ensured.Inv self.config.globalQueue :=
    inv_of_core arrived ((entered.moved 0).inv sound.inv)
  have seated : state.books.seat handle.program = some target := by
    rw [entered.seat_eq, ← entered.runtime_eq, seat_eq_placement inv, entered.runtime_eq, placed]
  obtain ⟨before, known⟩ : ∃ before, state.decisions.lookup handle.program = some before := by
    obtain ⟨_, found, _⟩ := Option.bind_eq_some_iff.mp seated
    obtain ⟨before, known, _⟩ := sound.inv.decision found
    exact ⟨before, known⟩
  have grown_books := self.accountGrowth_books seated known entered.decided entered.books
    entered.marks
  rw [known]
  obtain ⟨growth, targets, timer⟩ := @accountGrowth_frame F T _ ensured handle.program target
    (self.privateTokens before) (self.privateTokens decision)
  exact entered.arrives sound (growth.core.trans arrived) targets grown_books timer growth.bindings
    growth.lineage

variable (unplaced : runtime.placement handle.program = none)

include unplaced

omit sound in
theorem unseated_books :
    ensured.books = self.arrivedBooks state handle.program decision.account := by
  have unseated : state.books.seat handle.program = none := by
    rw [entered.seat_eq, seat_of_unplaced unplaced]
  simp only [arrivedBooks, unseated]
  split
  · contradiction
  · exact entered.books

theorem stranded (homeless : decision.lastTarget = none) :
    self.Arrives state arrival home 0 ensured ∧ state.core.Strands arrival home := by
  have nowhere : (state.core.arrivingStanding handle.program home
      arrival.arrivedAt).lastTarget = none := by
    rw [entered.standing]
    exact homeless
  have arrived : ensured.core = state.core.arrive self.config.globalQueue arrival home 0 := by
    rw [entered.core, arrive_of_unqueued entered.retaining _ _ _ (.inr nowhere), entered.standing]
  refine ⟨entered.arrives sound arrived ⟨rfl, rfl⟩ (entered.unseated_books unplaced) rfl rfl rfl, ?_⟩
  unfold Core.Strands
  rw [entered.retaining]
  exact ⟨unplaced, nowhere⟩

theorem queued (bound : decision.lastTarget = some target) :
    Returns (self.enqueueArrival ensured arrival.identity.modelPool handle.program target
        arrival.arrivedAt) fun queued =>
      ∃ deadline, self.Arrives state arrival home deadline queued := by
  have own : handle.program.modelPool = arrival.identity.modelPool :=
    (congrArg (fun outcome => outcome.1.program.modelPool) entered.retaining).symm.trans
      (materialize_modelPool sound.inv.stored arrival.identity arrival.estimatedContextTokens)
  have decided_of {queue : List ProgramRef} (decided : Decided state queue) :
      Decided ensured queue :=
    decided_iff.mpr fun program member => by
      rw [entered.core]
      exact isSome_setStanding (.inr (decided_iff.mp decided _ member))
  have ranked : Decided ensured (ensured.rankQueue target) := by
    rw [show ensured.rankQueue = state.rankQueue from congrArg Core.rankQueue entered.core]
    exact decided_of (decided_rankQueue sound.inv _)
  have pooled : Decided ensured (ensured.globalQueue arrival.identity.modelPool) := by
    rw [show ensured.globalQueue = state.globalQueue from congrArg Core.globalQueue entered.core]
    exact decided_of (decided_globalQueue sound.inv arrival.identity.modelPool)
  refine mono (self.enqueueArrival_returns own ranked pooled entered.decided arrival.arrivedAt) ?_
  rintro queued ⟨deadline, queued_core, aside⟩
  have arrived : queued.core = state.core.arrive self.config.globalQueue arrival home deadline := by
    rw [queued_core, entered.core, setStanding_setStanding,
      arrive_of_queued entered.retaining _ _ _ unplaced entered.standing bound]
    rfl
  exact ⟨deadline, entered.arrives sound arrived aside.targets
    (aside.books.trans (entered.unseated_books unplaced)) aside.timer aside.bindings aside.lineage⟩

omit unplaced

omit sound

theorem not_strands (homed : runtime.placement handle.program ≠ none ∨ decision.lastTarget ≠ none) :
    ¬ state.core.Strands arrival home := by
  rintro ⟨unplaced, homeless⟩
  rw [entered.retaining] at unplaced homeless
  rw [entered.standing] at homeless
  exact homed.elim (· unplaced) (· homeless)

end Entered

variable [AffinityTree T]

theorem ensureDecisionState_returns (built : state.bindings.policy.Built self.fbiHash
      (self.config.progressTtl.tokenCapacity.isSome = true))
    (forest : ParentForest.Forest state.lineage.parents) (identity : ProgramIdentity)
    (reference : ProgramRef) (tokens : Nat) (now : Instant) (routingText : Option String) :
    Returns (self.ensureDecisionState state identity reference tokens now routingText) fun next =>
      ∃ home, (∀ target, home = some target → target ∈ state.poolTargets identity.modelPool) ∧
        (home = none → state.poolTargets identity.modelPool = []) ∧
        next.core = state.core.setStanding reference
          (some (state.core.arrivingStanding reference home now)) ∧
        next.bindings.policy.Built self.fbiHash
          (self.config.progressTtl.tokenCapacity.isSome = true) ∧
        ParentForest.Forest next.lineage.parents ∧
        SameTargets state next ∧
        next.books = state.books.setAccount reference
          (some (Account.arriving (state.books.account reference) identity tokens)) ∧
        (next.Marked reference ↔ state.Marked reference) ∧
        Registers state identity reference now next := by
  apply bind (ProgramLineage.observe_returns forest identity.modelPool identity.programId
    identity.parentProgramId identity.rootProgramId).returned
  rintro ⟨root, lineage⟩ ⟨observed, stillForest⟩
  simp only
  cases decided : state.decisions.lookup reference with
  | some decision =>
    have standing : state.core.standing reference = some decision.standing := by
      simp [core, decided]
    refine pure ⟨(state.poolTargets identity.modelPool).head?, ?_, ?_, ?_, built,
      stillForest, ⟨rfl, rfl⟩, ?_, ?_, ?_, fun _ _ => rfl, root, observed⟩
    · exact fun _ first => List.mem_of_head? first
    · exact fun nothing => List.head?_eq_none_iff.mp nothing
    · rw [core_modifyDecision_same _ reference fun decision =>
        (refreshDecision_keeps identity tokens decision).1]
      simp only [arrivingStanding, standing, Option.getD_some, setStanding]
      rw [← standing, update_eq_self]
      rfl
    · have account : state.books.account reference = some decision.account := by
        simp [books, decided]
      rw [books_modifyDecision { state with lineage := lineage } decided, account,
        account_refreshDecision]
      rfl
    · simp [Marked, modifyDecision, Table.lookup_modify, decided,
        (refreshDecision_keeps identity tokens decision).2.1]
    · have timed : state.timer reference = some decision.timer := by
        simp [timer, decided]
      rw [timer_modifyDecision_same _ reference fun decision =>
        (refreshDecision_keeps identity tokens decision).2.2, timed, Option.getD_some, ← timed,
        update_eq_self]
      rfl
  | none =>
    have standing : state.core.standing reference = none := by
      simp [core, decided]
    apply bind (self.bind_listed { state with lineage := lineage } built identity now
      routingText).returned
    rintro ⟨home, bindings⟩ ⟨binds, bound, unbound, rebuilt⟩
    refine pure ⟨home, bound, unbound, ?_, rebuilt, stillForest, ⟨rfl, rfl⟩, ?_, ?_, ?_,
      fun _ other => bind_other binds other, root, observed⟩
    · refine (core_insertDecision { state with lineage := lineage } reference _ bindings).trans ?_
      simp only [arrivingStanding, standing, Option.getD_none]
      rfl
    · refine (books_insertDecision { state with lineage := lineage } reference _ bindings).trans ?_
      have account : state.books.account reference = none := by
        simp [books, decided]
      rw [account]
      rfl
    · simp [Marked, decided, describe, ProgramDecisionState.new]
    · have untimed : state.timer reference = none := by
        simp [timer, decided]
      rw [untimed]
      exact Table.view_insert _ state.decisions _ _

theorem ensureDecisionState_enters (sound : self.Sound state)
    (retaining : state.core.retained arrival = (handle, runtime)) :
    Returns (self.ensureDecisionState (self.sampleContinuity { state with runtime := runtime }
        handle.program arrival.arrivedAt) arrival.identity handle.program
        arrival.estimatedContextTokens arrival.arrivedAt arrival.routingText) fun ensured =>
      ∃ home decision, self.Entered state arrival handle runtime home decision ensured := by
  have sampled_frame := self.sampleContinuity_frame { state with runtime := runtime }
    handle.program arrival.arrivedAt
  generalize self.sampleContinuity { state with runtime := runtime } handle.program
    arrival.arrivedAt = sampled at sampled_frame
  obtain ⟨sampling, sampled_targets, sampled_decisions, sampled_books⟩ := sampled_frame
  refine mono (self.ensureDecisionState_returns
    (by rw [sampling.bindings]; exact sound.built) (by rw [sampling.lineage]; exact sound.forest)
    arrival.identity handle.program arrival.estimatedContextTokens arrival.arrivedAt
    arrival.routingText) ?_
  rintro ensured ⟨home, bound, unbound, ensured_core, built, forest, ensured_targets,
    ensured_books, ensured_marks, registers⟩
  have retained_targets : SameTargets state { state with runtime := runtime } := ⟨rfl, rfl⟩
  have sampled_timer : sampled.timer = state.timer := by
    unfold timer
    rw [sampled_decisions]
  have retained_books : books { state with runtime := runtime } = state.books :=
    Books.ext ((congrArg seat (congrArg Prod.snd retaining)).symm.trans
      (seat_retainRequest sound.inv.stored)) rfl rfl rfl rfl
  rw [sampled_books, retained_books] at ensured_books
  have marks : ensured.Marked handle.program ↔ state.Marked handle.program := by
    rw [ensured_marks]
    unfold Marked
    rw [sampled_decisions]
  have listed : sampled.poolTargets arrival.identity.modelPool =
      state.core.targets arrival.identity.modelPool :=
    congrFun (congrArg Core.targets sampling.core) arrival.identity.modelPool
  rw [listed] at bound unbound
  generalize standing_is : state.core.arrivingStanding handle.program home arrival.arrivedAt =
    standing
  have kept_core : ensured.core =
      { state.core with runtime := runtime }.setStanding handle.program (some standing) := by
    rw [ensured_core, sampling.core, ← standing_is]
    rfl
  obtain ⟨decision, decided, rfl⟩ : ∃ decision,
      ensured.decisions.lookup handle.program = some decision ∧ decision.standing = standing := by
    have stored : ensured.core.standing handle.program = some standing := by
      rw [kept_core]
      exact update_self _ _ _
    exact Option.map_eq_some_iff.mp stored
  have account : Account.arriving (state.books.account handle.program) arrival.identity
      arrival.estimatedContextTokens = decision.account := by
    have entered := congrFun (congrArg Books.account ensured_books) handle.program
    simp only [Books.setAccount, update_self] at entered
    simp only [books, decided, Option.map_some, Option.some.injEq] at entered
    exact entered.symm
  exact ⟨home, decision, retaining, bound, unbound, standing_is, kept_core, decided, built, forest,
    (retained_targets.trans sampled_targets).trans ensured_targets, account,
    account ▸ ensured_books, marks,
    registers.congr sampled_timer sampling.bindings sampling.lineage rfl rfl rfl⟩

/-- The state in which `arrive` takes its decisions. -/
def arrivedState (state : ProgramSchedulerState F T) (arrival : Arrival) :
    Except Fault (ProgramSchedulerState F T) := do
  let (handle, runtime) := state.core.retained arrival
  let sampled := self.sampleContinuity { state with runtime := runtime } handle.program
    arrival.arrivedAt
  let ensured ← self.ensureDecisionState sampled arrival.identity handle.program
    arrival.estimatedContextTokens arrival.arrivedAt arrival.routingText
  let decision ← ensured.decisionAt handle.program
  match (ensured.runtime.view handle.program).bind (·.placement), decision.lastTarget with
  | some placement, _ =>
    return accountGrowth ensured handle.program placement
      (((sampled.decisions.lookup handle.program).map self.privateTokens).getD (F64.lit 0))
      (self.privateTokens decision)
  | none, none => return ensured
  | none, some targetId =>
    self.enqueueArrival ensured arrival.identity.modelPool handle.program targetId arrival.arrivedAt

/-- The section of an arrival up to the decisions it takes: the request is
retained, and unless the Program has no target the decisions follow. -/
theorem arrive_decides (sound : self.Sound state) (arrival : Arrival) (activatedAt : Instant) :
    Returns (self.arrive state arrival.identity arrival.estimatedContextTokens arrival.routingText
        arrival.arrivedAt activatedAt) fun result =>
      ∃ home deadline middle, self.Arrives state arrival home deadline middle ∧
        self.arrivedState state arrival = .ok middle ∧
        ((result.1 = .ok (state.core.retained arrival).1 ∧ ¬ state.core.Strands arrival home ∧
            self.decideArrival middle (state.core.retained arrival).1.program arrival.arrivedAt
              activatedAt = .ok result.2) ∨
          (result.1 = .error .noTargets ∧ state.core.Strands arrival home ∧
            result.2 = middle)) := by
  cases retaining : state.core.retained arrival with
  | mk handle runtime =>
  have retain_eq : state.runtime.retainRequest arrival.identity arrival.estimatedContextTokens
      arrival.routingText arrival.arrivedAt = (handle, runtime) := retaining
  have decides {middle : ProgramSchedulerState F T} (middleSound : self.Sound middle) :=
    (self.decideArrival_commits middleSound.inv handle.program arrival.arrivedAt
      activatedAt).exists_ok
  unfold arrive
  rw [retain_eq]
  obtain ⟨ensured, ensures, home, decision, entered⟩ :=
    (self.ensureDecisionState_enters sound retaining).exists_ok
  unfold arrivedState
  simp only [retaining, ensures, ok_bind, decisionAt_of entered.decided, view_placement,
    entered.runtime_eq, (self.sampleContinuity_frame { state with runtime := runtime }
      handle.program arrival.arrivedAt).2.2.1]
  cases placed : runtime.placement handle.program with
  | some =>
    have arrives := entered.placed sound placed
    obtain ⟨next, decided, _⟩ := decides arrives.sound
    simp only
    rw [decided]
    exact pure ⟨home, 0, _, arrives, by rw [retaining]; rfl, .inl ⟨rfl,
      entered.not_strands (.inl (by rw [placed]; exact Option.some_ne_none _)), decided⟩⟩
  | none =>
    cases bound : decision.lastTarget with
    | none =>
      obtain ⟨arrives, strands⟩ := entered.stranded sound placed bound
      exact pure ⟨home, 0, ensured, arrives, rfl, .inr ⟨rfl, strands, rfl⟩⟩
    | some =>
      obtain ⟨queued, queues, deadline, arrives⟩ := (entered.queued sound placed bound).exists_ok
      obtain ⟨_, decided, _⟩ := decides arrives.sound
      simp only [queues, ok_bind]
      rw [decided]
      exact pure ⟨home, deadline, queued, arrives, rfl, .inl ⟨rfl,
        entered.not_strands (.inr (by rw [bound]; exact Option.some_ne_none _)), decided⟩⟩

end Arrival

end ProgramScheduler

end SmetricRouter.ProgramScheduling
