import SmetricRouter.ProgramScheduling.ArrivalMoves

/-! Target synchronization as moves of the machine.

The pool first lists its old and its new targets together, then every Program
without a current target fails over, and last the pool gives up the targets it
lost together with their queues. The source drops the queues first; no failover
reads or fills them, so the order makes no difference.
-/

namespace SmetricRouter.ProgramScheduling

open ProgramSchedulerState ProgramRuntime Function Ensures

variable {F T : Type} {runtime : ProgramRuntime}

theorem ProgramRuntime.iterViews_distinct (keyed : runtime.Keyed) (order : IterationOrder) :
    (runtime.iterViews order).Pairwise fun left right => left.reference ≠ right.reference := by
  have distinct : (order.programs runtime.programs.keys).Nodup :=
    (order.programs_perm _).nodup_iff.mpr runtime.programs.keys_nodup
  refine List.Pairwise.filterMap _ ?_ distinct
  intro left right different _ leftSeen _ rightSeen same
  obtain ⟨leftRecord, leftStored, rfl⟩ := Option.map_eq_some_iff.mp leftSeen
  obtain ⟨rightRecord, rightStored, rfl⟩ := Option.map_eq_some_iff.mp rightSeen
  apply different
  rw [← keyed left leftRecord leftStored, ← keyed right rightRecord rightStored]
  exact congrArg ProgramRef.key same

theorem ProgramRuntime.exists_iterViews (order : IterationOrder)
    {reference : ProgramRef} {record : RuntimeProgram}
    (found : runtime.find reference = some record) :
    ∃ view ∈ runtime.iterViews order, view.reference = reference := by
  obtain ⟨stored, exact⟩ := find_eq_some.mp found
  have member : reference.key ∈ order.programs runtime.programs.keys := by
    rw [(order.programs_perm _).mem_iff]
    exact (Table.mem_keys_iff _ _).mpr ⟨record, stored⟩
  simp only [iterViews, List.mem_filterMap, Option.map_eq_some_iff]
  exact ⟨_, ⟨reference.key, member, record, stored, rfl⟩, exact⟩

namespace Core

variable (core : Core) (pool : String) (ids removed : List String)

theorem shrink_dequeue (program : ProgramRef) :
    (core.dequeue program).shrink pool ids removed =
      (core.shrink pool ids removed).dequeue program := by
  refine Core.ext rfl rfl ?_ rfl rfl
  funext target
  simp only [shrink, dequeue]
  split <;> rfl

theorem shrink_editQueue_rank {target : String} (kept : target ∉ removed) (name : String)
    (change : List ProgramRef → List ProgramRef) :
    (core.editQueue false name target change).shrink pool ids removed =
      (core.shrink pool ids removed).editQueue false name target change := by
  refine Core.ext rfl rfl ?_ rfl rfl
  funext other
  simp only [shrink, editQueue, Bool.false_eq_true, if_false]
  by_cases same : other = target
  · subst same
    rw [update_self, update_self, if_neg kept, if_neg kept]
  · rw [update_of_ne same, update_of_ne same]

end Core

theorem ProgramRuntime.requestPool_invalidatePlacement (runtime : ProgramRuntime)
    (program : ProgramRef) (removed : List String) :
    ((runtime.invalidatePlacement program removed).getD runtime).requestPool =
      runtime.requestPool := by
  cases invalidated : runtime.invalidatePlacement program removed with
  | none => rfl
  | some =>
    obtain ⟨_, _, _, _, _, rfl⟩ := invalidatePlacement_some invalidated
    rfl

namespace ProgramScheduler

variable {state : ProgramSchedulerState F T} {pool : String} {current removed : List String}
  {affected : AffectedProgram} {decision : ProgramDecisionState F}

section Affected

variable [F64 F] (self : ProgramScheduler F)

theorem mem_affectedPrograms (keyed : state.runtime.Keyed)
    (member : affected ∈ self.affectedPrograms state pool current removed) :
    affected.program.modelPool = pool ∧
      affected.waitingRequests = (state.runtime.requestPool.queue affected.program).length ∧
      ∃ decision, state.decisions.lookup affected.program = some decision ∧
        ∀ target, decision.lastTarget = some target → target ∉ current := by
  simp only [affectedPrograms, List.mem_filterMap, List.mem_filter, beq_iff_eq,
    Option.bind_eq_bind, Option.bind_eq_some_iff] at member
  obtain ⟨_, ⟨scanned, own⟩, decision, decided, kept⟩ := member
  obtain ⟨_, _, _, _, _, _, _, _, waiting⟩ := mem_iterViews keyed scanned
  split at kept
  · rename_i homeless
    cases kept
    refine ⟨own, waiting.symm, decision, decided, ?_⟩
    intro _ last
    simpa [last] using homeless
  · cases kept

theorem affectedPrograms_distinct (keyed : state.runtime.Keyed) :
    (self.affectedPrograms state pool current removed).Pairwise
      fun left right => left.program ≠ right.program := by
  have views := (iterViews_distinct keyed self.order).filter
    fun view => view.reference.modelPool == pool
  refine List.Pairwise.filterMap _ ?_ views
  intro left right different leftProgram leftKept rightProgram rightKept
  have named (view : RuntimeProgramViewRef) (affected : AffectedProgram) (kept : (do
        let decision ← state.decisions.lookup view.reference
        if decision.lastTarget.all fun target => target ∉ current then
          some
            { program := view.reference
              expectedResume := view.expectedResume
              waitingRequests := view.waitingRequests
              targetDisappeared := decision.lastTarget.any fun target => target ∈ removed
              placementKey := decision.placementKey
              placementHashKey := decision.placementHashKey }
        else none) = some affected) : affected.program = view.reference := by
    simp only [Option.bind_eq_bind, Option.bind_eq_some_iff] at kept
    obtain ⟨_, _, kept⟩ := kept
    split at kept
    · cases kept
      rfl
    · cases kept
  rw [named left leftProgram leftKept, named right rightProgram rightKept]
  exact different

theorem affected_or_current {program : ProgramRef} {record : RuntimeProgram}
    (found : state.runtime.find program = some record)
    (decided : state.decisions.lookup program = some decision) (own : program.modelPool = pool) :
    (∃ affected ∈ self.affectedPrograms state pool current removed,
      affected.program = program) ∨
      ∃ target, decision.lastTarget = some target ∧ target ∈ current := by
  obtain ⟨view, scanned, rfl⟩ := exists_iterViews self.order found
  by_cases homeless : decision.lastTarget.all fun target => decide (target ∉ current)
  · left
    simp only [affectedPrograms, List.mem_filterMap, List.mem_filter, beq_iff_eq,
      Option.bind_eq_bind, Option.bind_eq_some_iff]
    exact ⟨_, ⟨view, ⟨scanned, own⟩, decision, decided, if_pos homeless⟩, rfl⟩
  · right
    cases last : decision.lastTarget with
    | none => simp [last] at homeless
    | some target =>
      simpa [last] using homeless

end Affected

theorem getD_foldl_orDefault (names : List String) (queues : Table String (List ProgramRef))
    (name : String) :
    ((names.foldl (fun queues other => queues.orDefault other) queues).lookup name).getD [] =
      (queues.lookup name).getD [] := by
  induction names generalizing queues with
  | nil => rfl
  | cons other _ ih =>
    rw [List.foldl_cons, ih, Table.lookup_orDefault]
    by_cases same : name = other
    · subst same
      rw [if_pos rfl]
      cases queues.lookup name <;> rfl
    · rw [if_neg same]

theorem core_installTargets [F64 F] (pool : String) (targets : List ProgramTarget) :
    (installTargets state pool targets).core =
      { state.core with targets := update state.core.targets pool (incomingIds targets) } := by
  refine Core.ext rfl rfl ?_ ?_ ?_
  · funext target
    exact getD_foldl_orDefault (incomingIds _) state.rankQueues _
  · funext name
    exact getD_foldl_orDefault [pool] state.globalQueues _
  · funext name
    simp only [core, installTargets, poolTargets, Table.lookup_insert_eq]
    by_cases same : name = pool
    · subst same
      rw [if_pos rfl, update_self]
      rfl
    · rw [if_neg same, update_of_ne same]
      rfl

theorem core_removeTargets [AffinityTree T] (pool : String) (removed : List String) :
    (removed.foldl (removeTarget pool) state).core =
      { state.core with
        rankQueue := fun target => if target ∈ removed then [] else state.core.rankQueue target } := by
  induction removed generalizing state with
  | nil => simp
  | cons lost _ ih =>
    rw [List.foldl_cons, ih]
    refine Core.ext rfl rfl ?_ rfl rfl
    funext target
    simp only [core, removeTarget, rankQueue, Table.lookup_erase_eq, List.mem_cons]
    by_cases same : target = lost
    · simp [same]
    · simp [same]

theorem removeTargets_frame [AffinityTree T] {fbiHash : String → Nat} {balanced : Prop}
    (state : ProgramSchedulerState F T) (pool : String) (removed : List String)
    (built : state.bindings.policy.Built fbiHash balanced) :
    (removed.foldl (removeTarget pool) state).decisions = state.decisions ∧
      (removed.foldl (removeTarget pool) state).lineage = state.lineage ∧
      (removed.foldl (removeTarget pool) state).bindings.policy.Built fbiHash balanced := by
  induction removed generalizing state with
  | nil => exact ⟨rfl, rfl, built⟩
  | cons lost _ ih =>
    have removing : (removeTarget pool state lost).bindings.policy.Built fbiHash balanced :=
      built.removeTarget _ lost
    exact ih _ removing

theorem removeTargets_bindings [AffinityTree T] (state : ProgramSchedulerState F T) (pool : String)
    (removed : List String) (key : RuntimeKey) (home : String)
    (kept : (removed.foldl (removeTarget pool) state).bindings.bindings.lookup key = some home) :
    state.bindings.bindings.lookup key = some home := by
  induction removed generalizing state with
  | nil => exact kept
  | cons lost _ ih =>
    have before := ih (removeTarget _ _ lost) kept
    simp only [removeTarget, ProgramBindings.removeAffinityTarget, ProgramBindings.removeTarget,
      Table.lookup_retain] at before
    exact (Option.filter_eq_some_iff.mp before).1

section FailOver

/-- The state in which a failover binds the Program anew. -/
def released (state : ProgramSchedulerState F T) (program : ProgramRef) (removed : List String) :
    ProgramSchedulerState F T :=
  { state with
    runtime := (state.runtime.invalidatePlacement program removed).getD state.runtime
    bindings := state.bindings.releaseProgram program }.dequeue program

variable [F64 F] [AffinityTree T] (self : ProgramScheduler F) {base : Core}

omit [F64 F] [AffinityTree T] in
theorem standing_reboundDecision (replacement : Option String) (interrupted : Bool)
    (now : Instant) (decision : ProgramDecisionState F) :
    (reboundDecision replacement interrupted now decision).standing =
      { decision.standing with lastTarget := replacement } := by
  unfold reboundDecision
  split <;> rfl

variable {moved : Core} {program : ProgramRef}

omit [AffinityTree T] in
theorem core_requeue {replacement : Option String} (own : program.modelPool = pool)
    (kept : ∀ target, replacement = some target → target ∉ removed)
    (shrunk : state.core = moved.shrink pool current removed) :
    (self.requeue state pool program replacement).core =
      (if self.config.globalQueue then moved.editQueue true program.modelPool "" (· ++ [program])
        else
          match replacement with
          | some target => moved.editQueue false program.modelPool target (· ++ [program])
          | none => moved).shrink pool current removed := by
  unfold requeue
  split
  · rw [core_updateGlobalQueue state pool "", shrunk, own]
    rfl
  · cases replacement with
    | none => exact shrunk
    | some target =>
      rw [core_updateRankQueue state pool target, shrunk, own,
        Core.shrink_editQueue_rank moved pool current removed (kept target rfl)]

variable (clock : ProgramRef → FailoverClock)

omit [F64 F] [AffinityTree T] in
theorem core_released (shrunk : state.core = base.shrink pool current removed)
    (program : ProgramRef) :
    (released state program removed).core = ({ base with
      runtime := (base.runtime.invalidatePlacement program removed).getD
        base.runtime }.dequeue program).shrink pool current removed := by
  have runtime_eq : state.runtime = base.runtime := congrArg Core.runtime shrunk
  have unbound : core { state with
      runtime := (state.runtime.invalidatePlacement program removed).getD state.runtime
      bindings := state.bindings.releaseProgram program } =
    { state.core with
      runtime := (base.runtime.invalidatePlacement program removed).getD base.runtime } := by
    rw [← runtime_eq]
    rfl
  rw [released, core_dequeue, unbound, Core.shrink_dequeue, shrunk]
  rfl

omit [F64 F] [AffinityTree T] in
theorem core_rebound (stored : state.decisions.lookup program = some decision)
    (shrunk : state.core = (moved.dequeue program).shrink pool current removed)
    (bindings : ProgramBindings T) (replacement : Option String) (interrupted : Bool)
    (now : Instant) :
    ({ state with bindings := bindings }.modifyDecision program
      (reboundDecision replacement interrupted now)).core =
        ((moved.setStanding program (some { decision.standing with
          lastTarget := replacement })).dequeue program).shrink pool current removed := by
  have unbound : core { state with bindings := bindings } = state.core := rfl
  rw [core_modifyDecision { state with bindings := bindings } stored, standing_reboundDecision,
    unbound, shrunk]
  rfl

theorem failOver_returns (lost : ∀ target ∈ removed, target ∉ current)
    (own : affected.program.modelPool = pool)
    (waiting : affected.waitingRequests = (state.runtime.requestPool.queue affected.program).length)
    (decided : state.decisions.lookup affected.program = some decision)
    (shrunk : state.core = base.shrink pool current removed)
    (built : state.bindings.policy.Built self.fbiHash
      (self.config.progressTtl.tokenCapacity.isSome = true)) :
    Returns (self.failOver pool removed clock state affected) fun next =>
      ∃ replacement, (∀ target, replacement = some target → target ∈ current) ∧
        (replacement = none → current = []) ∧
        next.core = (base.failOver self.config.globalQueue affected.program removed
          decision.standing replacement).shrink pool current removed ∧
        next.bindings.policy.Built self.fbiHash
          (self.config.progressTtl.tokenCapacity.isSome = true) ∧
        next.lineage = state.lineage := by
  have queue_eq : state.runtime.requestPool.queue affected.program =
      base.runtime.requestPool.queue affected.program := by
    rw [show state.runtime = base.runtime from congrArg Core.runtime shrunk]
  have released_core := core_released shrunk affected.program
  have listed : (released state affected.program removed).poolTargets affected.program.modelPool =
      current := by
    have targets := congrFun (congrArg Core.targets released_core) affected.program.modelPool
    rw [own] at targets ⊢
    exact targets.trans (update_self _ _ _)
  unfold failOver
  apply bind (self.bind_listed (released state affected.program removed) built _ _ _)
  rintro ⟨replacement, bindings⟩ ⟨bound, unbound, rebuilt⟩
  have bound_current : ∀ target, replacement = some target → target ∈ current := by
    rw [← listed]
    exact bound
  have unbound_current : replacement = none → current = [] := by
    rw [← listed]
    exact unbound
  have stored : (released state affected.program removed).decisions.lookup affected.program =
    some decision := decided
  have rebound_core := core_rebound stored released_core bindings replacement
    ((state.runtime.invalidatePlacement affected.program removed).isSome ||
      affected.targetDisappeared) (clock affected.program).pausedAt
  simp only
  by_cases empty : base.runtime.requestPool.queue affected.program = []
  · have idle : ¬ 0 < affected.waitingRequests := by
      rw [waiting, queue_eq, empty]
      exact Nat.lt_irrefl 0
    rw [if_neg idle]
    refine pure ⟨replacement, bound_current, unbound_current, ?_, rebuilt, rfl⟩
    refine rebound_core.trans ?_
    unfold Core.failOver
    simp [empty]
  · have waits : 0 < affected.waitingRequests := by
      rw [waiting, queue_eq]
      exact List.length_pos_of_ne_nil empty
    rw [if_pos waits]
    obtain ⟨_, _, requeued⟩ := self.requeue_eq _ pool affected.program
    refine pure ⟨replacement, bound_current, unbound_current, ?_, ?_, ?_⟩
    · refine (self.core_requeue own
        (fun target named gone => lost target gone (bound_current target named))
        rebound_core).trans ?_
      unfold Core.failOver
      simp only [empty, if_false]
      cases replacement <;> rfl
    · rw [requeued]
      exact rebuilt
    · rw [requeued]
      rfl

/-- What one failover leaves, of what the machine does not see: the decision is
rebound, and no home but that of the Program moves. -/
structure FailedOver (state : ProgramSchedulerState F T) (removed : List String)
    (clock : ProgramRef → FailoverClock) (affected : AffectedProgram)
    (next : ProgramSchedulerState F T) : Prop where
  runtime : next.runtime =
    (state.runtime.invalidatePlacement affected.program removed).getD state.runtime
  decisions : ∃ replacement, next.decisions = state.decisions.modify affected.program
    (reboundDecision replacement
      ((state.runtime.invalidatePlacement affected.program removed).isSome ||
        affected.targetDisappeared) (clock affected.program).pausedAt)
  bindings : ∀ key, key ≠ affected.program.key →
    next.bindings.bindings.lookup key = state.bindings.bindings.lookup key
  lineage : next.lineage = state.lineage

variable {next : ProgramSchedulerState F T}

theorem failOver_failedOver {clock : ProgramRef → FailoverClock}
    (failed : self.failOver pool removed clock state affected = .ok next) :
    FailedOver state removed clock affected next := by
  unfold failOver at failed
  obtain ⟨⟨replacement, bindings⟩, binding, failed⟩ := bind_eq_ok failed
  have kept : ∀ key, key ≠ affected.program.key →
      bindings.bindings.lookup key = state.bindings.bindings.lookup key := by
    intro _ other
    rw [bind_other binding other]
    simp [dequeue, ProgramBindings.releaseProgram, Table.lookup_erase_eq, if_neg other]
  simp only at failed
  split at failed
  · cases failed
    obtain ⟨_, _, requeued⟩ := self.requeue_eq _ _ _
    rw [requeued]
    exact ⟨rfl, ⟨replacement, rfl⟩, kept, rfl⟩
  · cases failed
    exact ⟨rfl, ⟨replacement, rfl⟩, kept, rfl⟩

def Settled (current : List String) (standing : Standing) : Prop :=
  (∀ target, standing.lastTarget = some target → target ∈ current) ∧
    (standing.lastTarget = none → current = [])

/-- The loop over the affected Programs: those done are settled, those to come
are as they were found. -/
structure Failing (scheduler : ProgramScheduler F) (pool : String) (current removed : List String)
    (start : Core) (rest : List AffectedProgram) (state : ProgramSchedulerState F T) : Prop where
  reached : ∃ base, Evolves scheduler.config.globalQueue (Label.syncing pool removed) start base ∧
    state.core = base.shrink pool current removed ∧
    ∀ target ∈ current, target ∈ base.targets pool
  built : state.bindings.policy.Built scheduler.fbiHash
    (scheduler.config.progressTtl.tokenCapacity.isSome = true)
  forest : ParentForest.Forest state.lineage.parents
  distinct : rest.Pairwise fun left right => left.program ≠ right.program
  pending : ∀ affected ∈ rest, affected.program.modelPool = pool ∧
    affected.waitingRequests = (state.runtime.requestPool.queue affected.program).length ∧
    ∃ standing, state.core.standing affected.program = some standing ∧
      ∀ target, standing.lastTarget = some target → target ∈ removed
  settled : ∀ program standing, program.modelPool = pool →
    state.core.standing program = some standing →
    (∃ affected ∈ rest, affected.program = program) ∨ Settled current standing

theorem Failing.round {self : ProgramScheduler F} {start : Core}
    (lost : ∀ target ∈ removed, target ∉ current) {rest : List AffectedProgram}
    (failing : Failing self pool current removed start (affected :: rest) state) :
    Returns (self.failOver pool removed clock state affected)
      (Failing self pool current removed start rest) := by
  obtain ⟨base, evolved, shrunk, listed⟩ := failing.reached
  obtain ⟨own, waiting, standing, standing_eq, homeless⟩ :=
    failing.pending _ List.mem_cons_self
  obtain ⟨decision, decided, rfl⟩ := Option.map_eq_some_iff.mp standing_eq
  have base_standing : base.standing = state.core.standing :=
    (congrArg Core.standing shrunk).symm
  refine mono (self.failOver_returns _ lost own waiting decided shrunk failing.built) ?_
  rintro next ⟨replacement, bound, unbound, next_core, built, lineage⟩
  obtain ⟨standings, targets, runtime⟩ := Core.failOver_frame _ self.config.globalQueue _
    affected.program decision.standing _
  have next_standing : next.core.standing = update state.core.standing affected.program
      (some { decision.standing with lastTarget := replacement }) := by
    rw [next_core, ← base_standing]
    exact standings
  have next_requests : next.runtime.requestPool = state.runtime.requestPool := by
    have next_runtime : next.runtime =
        (base.runtime.invalidatePlacement affected.program removed).getD base.runtime :=
      (congrArg Core.runtime next_core).trans runtime
    have base_runtime : state.runtime = base.runtime := congrArg Core.runtime shrunk
    rw [next_runtime, requestPool_invalidatePlacement, base_runtime]
  obtain ⟨apart, distinct⟩ := List.pairwise_cons.mp failing.distinct
  refine ⟨⟨_, evolved.trans (.move (.failOver affected.program current _ decision.standing
    replacement ?_ homeless ?_ bound unbound) ⟨own, rfl⟩), next_core, ?_⟩, built, ?_, distinct,
    ?_, ?_⟩
  · rw [base_standing]
    exact standing_eq
  · rw [own]
    exact listed
  · rw [targets]
    exact listed
  · rw [lineage]
    exact failing.forest
  · intro other member
    obtain ⟨otherOwn, otherWaiting, otherStanding, otherEq, otherHomeless⟩ :=
      failing.pending _ (List.mem_cons_of_mem _ member)
    refine ⟨otherOwn, ?_, otherStanding, ?_, otherHomeless⟩
    · rw [next_requests]
      exact otherWaiting
    · rw [next_standing, update_of_ne (apart other member).symm]
      exact otherEq
  · intro program standing inPool found
    rw [next_standing] at found
    by_cases same : program = affected.program
    · rw [same, update_self] at found
      cases found
      exact .inr ⟨bound, unbound⟩
    · rw [update_of_ne same] at found
      rcases failing.settled program standing inPool found with ⟨other, member, named⟩ | done
      · rcases List.mem_cons.mp member with rfl | later
        · exact absurd named.symm same
        · exact .inl ⟨other, later, named⟩
      · exact .inr done

omit [AffinityTree T] in
theorem Failing.start {self : ProgramScheduler F} {cleaned : ProgramSchedulerState F T}
    (sound : self.Sound state) (removed_is : removed = (state.poolTargets pool).filter (· ∉ current))
    (cleaned_core : cleaned.core = state.core.shrink pool current removed)
    (cleaned_decisions : cleaned.decisions = state.decisions)
    (built : cleaned.bindings.policy.Built self.fbiHash
      (self.config.progressTtl.tokenCapacity.isSome = true))
    (lineage : cleaned.lineage = state.lineage) :
    Failing self pool current removed state.core
      (self.affectedPrograms cleaned pool current removed) cleaned := by
  have cleaned_runtime : cleaned.runtime = state.runtime := congrArg Core.runtime cleaned_core
  have keyed : cleaned.runtime.Keyed := by
    rw [cleaned_runtime]
    exact sound.inv.stored
  have extended : Move self.config.globalQueue state.core (.extend pool) { state.core with
        targets := update state.core.targets pool (state.core.targets pool ++ current) } :=
    .extend _ _ fun target listed => List.mem_append_left current listed
  refine ⟨⟨_, .move extended rfl, ?_, ?_⟩, built, ?_, self.affectedPrograms_distinct keyed, ?_, ?_⟩
  · rw [cleaned_core]
    refine Core.ext rfl rfl rfl rfl ?_
    exact (update_idem _ _ _).symm
  · intro target member
    simp only [update_self]
    exact List.mem_append_right _ member
  · rw [lineage]
    exact sound.forest
  · intro affected member
    obtain ⟨own, waiting, decision, decided, homeless⟩ := self.mem_affectedPrograms keyed member
    refine ⟨own, waiting, decision.standing, ?_, ?_⟩
    · simp [core, decided]
    · intro target last
      rw [cleaned_decisions] at decided
      obtain ⟨_, _, facts⟩ := sound.inv.record decided
      have listed := facts.lastListed target last
      rw [removed_is, List.mem_filter]
      refine ⟨?_, by simpa using homeless target last⟩
      rw [← own]
      exact listed
  · intro _ _ own found
    obtain ⟨_, decided, rfl⟩ := Option.map_eq_some_iff.mp found
    obtain ⟨record, live, _⟩ := sound.inv.record (cleaned_decisions ▸ decided)
    rw [← cleaned_runtime] at live
    rcases self.affected_or_current live decided own with affected | ⟨_, last, member⟩
    · exact .inl affected
    · refine .inr ⟨?_, ?_⟩
      · intro _ named
        cases last.symm.trans named
        exact member
      · intro nothing
        cases last.symm.trans nothing

def lostTargets (state : ProgramSchedulerState F T) (pool : String)
    (targets : List ProgramTarget) : List String :=
  (state.poolTargets pool).filter (· ∉ incomingIds targets)

/-- What a synchronization that replaces the target list does: the pool lists
more targets, Programs fail over, and the pool gives up the targets it lost. -/
def Replaced (globalMode : Bool) (state : ProgramSchedulerState F T) (pool : String)
    (targets : List ProgramTarget) (next : Core) : Prop :=
  ∃ base, Evolves globalMode (Label.syncing pool (lostTargets state pool targets)) state.core base ∧
    next = base.shrink pool (incomingIds targets) (lostTargets state pool targets) ∧
    Move globalMode base (.shrink pool (lostTargets state pool targets)) next

variable {self} (sound : self.Sound state)

include sound

variable (targets : List ProgramTarget)

theorem replaceTargets_keeps (clock : ProgramRef → FailoverClock)
    (holds : ProgramSchedulerState F T → Prop)
    (cleans : ∀ cleaned : ProgramSchedulerState F T, cleaned.runtime = state.runtime →
      cleaned.decisions = state.decisions → cleaned.lineage = state.lineage →
      (∀ key home, cleaned.bindings.bindings.lookup key = some home →
        state.bindings.bindings.lookup key = some home) → holds cleaned)
    (fails : ∀ affected rest before after, Failing self pool (incomingIds targets)
      (lostTargets state pool targets) state.core (affected :: rest) before →
      FailedOver before (lostTargets state pool targets) clock affected after →
      holds before → holds after) :
    Returns (self.replaceTargets state pool targets clock) fun next =>
      ∃ failed, next = forgetUnreferenced failed ∧ holds failed ∧
        Failing self pool (incomingIds targets) (lostTargets state pool targets) state.core []
          failed := by
  unfold lostTargets at fails ⊢
  unfold replaceTargets
  simp only
  generalize current_is : incomingIds targets = current at fails ⊢
  generalize removed_is : (state.poolTargets pool).filter (· ∉ current) = removed at fails ⊢
  have lost : ∀ target ∈ removed, target ∉ current := by
    intro _ gone
    rw [← removed_is] at gone
    simpa using (List.mem_filter.mp gone).2
  generalize cleaning : removed.foldl (removeTarget pool) (installTargets state pool targets) =
    cleaned
  have cleaned_core : cleaned.core = state.core.shrink pool current removed := by
    rw [← cleaning, core_removeTargets, core_installTargets, current_is]
    rfl
  obtain ⟨cleaned_decisions, cleaned_lineage, built⟩ :=
    removeTargets_frame (installTargets _ _ _) _ _ sound.built
  have cleaned_bindings := removeTargets_bindings (installTargets state pool targets) pool removed
  rw [cleaning] at cleaned_decisions cleaned_lineage built cleaned_bindings
  have failing : Returns ((self.affectedPrograms cleaned pool current removed).foldlM
        (self.failOver pool removed clock) cleaned)
      fun next => Failing self pool current removed state.core [] next ∧ holds next := by
    apply foldlM fun rest next =>
      Failing self pool _ removed state.core rest next ∧ holds next
    · exact ⟨.start sound removed_is.symm cleaned_core cleaned_decisions built cleaned_lineage,
        cleans _ (congrArg Core.runtime cleaned_core) cleaned_decisions cleaned_lineage
          cleaned_bindings⟩
    · rintro _ _ next ⟨failing, held⟩
      obtain ⟨after, failed, still⟩ := (failing.round _ lost).exists_ok
      rw [failed]
      exact ⟨still, fails _ _ next after failing (self.failOver_failedOver failed) held⟩
  apply bind failing
  rintro next ⟨failed, held⟩
  exact pure ⟨next, rfl, held, failed⟩

theorem replaceTargets_moves (clock : ProgramRef → FailoverClock) :
    Returns (self.replaceTargets state pool targets clock) fun next =>
      self.Sound next ∧ Replaced self.config.globalQueue state pool targets next.core := by
  refine mono (replaceTargets_keeps sound _ _ (fun _ => True)
    (fun _ _ _ _ _ => trivial) fun _ _ _ _ _ _ _ => trivial) ?_
  rintro _ ⟨next, rfl, _, failed⟩
  obtain ⟨base, evolved, shrunk, _⟩ := failed.reached
  have moved : Move self.config.globalQueue base (.shrink pool (lostTargets state pool targets))
      next.core := by
    rw [shrunk]
    refine .shrink _ (incomingIds _) (lostTargets _ _ _) ?_ ?_
    · intro program standing own found
      have kept : next.core.standing program = some standing := by
        rw [shrunk]
        exact found
      rcases failed.settled program standing own kept with ⟨_, impossible, _⟩ | settled
      · cases impossible
      · exact settled
    · intro _ gone
      simpa using (List.mem_filter.mp gone).2
  exact ⟨⟨moved.inv (evolved.inv sound.inv), failed.built, failed.forest⟩, base, evolved, shrunk,
    moved⟩

variable {pool : PoolSnapshot}

/-- What every state over the same runtime and decisions has that binds no more,
and every failover keeps, a synchronization keeps. -/
theorem syncTargetSnapshotLocked_keeps
    (synced : self.syncTargetSnapshotLocked state pool = .ok next)
    (holds : ProgramSchedulerState F T → Prop)
    (cleans : ∀ before after : ProgramSchedulerState F T, after.runtime = before.runtime →
      after.decisions = before.decisions → after.lineage = before.lineage →
      (∀ key home, after.bindings.bindings.lookup key = some home →
        before.bindings.bindings.lookup key = some home) → holds before → holds after)
    (fails : ∀ affected rest before after, Failing self pool.modelPool
      (incomingIds pool.snapshot.targets) (lostTargets state pool.modelPool pool.snapshot.targets)
      state.core (affected :: rest) before →
      FailedOver before (lostTargets state pool.modelPool pool.snapshot.targets) pool.clock affected
        after →
      holds before → holds after) (held : holds state) : holds next := by
  unfold syncTargetSnapshotLocked at synced
  split at synced
  · cases synced
    exact held
  · split at synced
    · cases synced
      exact cleans state _ rfl rfl rfl (fun _ _ => id) held
    · split at synced
      · cases synced
      · have remembered : self.Sound { state with
            modelTargetSnapshots := state.modelTargetSnapshots.insert pool.modelPool pool.snapshot
            targetSnapshotRevision := state.targetSnapshotRevision + 1 } :=
          ⟨sound.inv, sound.built, sound.forest⟩
        obtain ⟨failed, rfl, failed_held, _⟩ := (replaceTargets_keeps remembered
          pool.snapshot.targets pool.clock _
          (fun cleaned runtime decisions lineage bindings =>
            cleans state _ runtime decisions lineage bindings held) fails).ok_of synced
        exact cleans failed _ rfl rfl rfl (fun _ _ => id) failed_held

theorem syncTargetSnapshotLocked_replaces
    (fresh : ¬ (state.modelTargetSnapshots.lookup pool.modelPool).any fun current =>
      current.address == pool.snapshot.address)
    (changed : ¬ targetsUnchanged state pool.modelPool pool.snapshot.targets)
    (room : state.targetSnapshotRevision ≠ u64Max) :
    Returns (self.syncTargetSnapshotLocked state pool) fun next =>
      self.Sound next ∧
        Replaced self.config.globalQueue state pool.modelPool pool.snapshot.targets next.core := by
  unfold syncTargetSnapshotLocked
  rw [if_neg fresh, if_neg changed, if_neg room]
  have remembered : self.Sound { state with
      modelTargetSnapshots := state.modelTargetSnapshots.insert pool.modelPool pool.snapshot
      targetSnapshotRevision := state.targetSnapshotRevision + 1 } :=
    ⟨sound.inv, sound.built, sound.forest⟩
  exact replaceTargets_moves remembered pool.snapshot.targets pool.clock

theorem syncTargetSnapshotLocked_moves (pool : PoolSnapshot) :
    Ensures (· = Fault.revisionExhausted) (self.syncTargetSnapshotLocked state pool) fun next =>
      self.Sound next ∧ (next.core = state.core ∨
        Replaced self.config.globalQueue state pool.modelPool pool.snapshot.targets next.core) := by
  by_cases fresh : (state.modelTargetSnapshots.lookup pool.modelPool).any fun current =>
      current.address == pool.snapshot.address
  · unfold syncTargetSnapshotLocked
    rw [if_pos fresh]
    exact ⟨sound, .inl rfl⟩
  · by_cases changed : targetsUnchanged state pool.modelPool pool.snapshot.targets
    · unfold syncTargetSnapshotLocked
      rw [if_neg fresh, if_pos changed]
      exact ⟨⟨sound.inv, sound.built, sound.forest⟩, .inl rfl⟩
    · by_cases room : state.targetSnapshotRevision = u64Max
      · unfold syncTargetSnapshotLocked
        rw [if_neg fresh, if_neg changed, if_pos room]
        exact (rfl : Fault.revisionExhausted = .revisionExhausted)
      · apply Returns.ensures
        exact mono (syncTargetSnapshotLocked_replaces sound fresh changed room)
          fun _ replaced => ⟨replaced.1, .inr replaced.2⟩

end FailOver

end ProgramScheduler

end SmetricRouter.ProgramScheduling
