import SmetricRouter.Library.TextSearch
import SmetricRouter.ProgramScheduling.TargetSync
import SmetricRouter.Routing.Attempts
import SmetricRouter.Workers.Registry

/-! The target lists the router gives to the scheduler.

A list is taken from the registry at a revision and installed later, by the arrival
of a request or by the loop that observes the backends. The revision is compared
before the list is installed, not with it.
-/

namespace SmetricRouter.Routing

open ProgramScheduling Workers Ensures ProgramScheduler

section Lists

def programModelPoolAll : String := "program:all"

def programModelPoolFallback : String := "program:fallback:unlabeled"

def programModelPoolNamedPrefix : String := "program:model:"

def unlabeledWorkerModelId : String := "unknown"

structure ResolvedProgramModelPool where
  schedulerKey : String
  registryModel : Option String
  deriving DecidableEq, Repr

def resolvedProgramModelPool (registry : WorkerRegistry) :
    Option String → ResolvedProgramModelPool
  | some model =>
    if registry.hasModel model then ⟨programModelPoolNamedPrefix ++ model, some model⟩
    else ⟨programModelPoolFallback, some unlabeledWorkerModelId⟩
  | none => ⟨programModelPoolAll, none⟩

def workersForProgramModelPool (registry : WorkerRegistry) (modelPool : String) : List Worker :=
  if modelPool = programModelPoolAll then registry.getAll
  else if modelPool = programModelPoolFallback then registry.getByModelFast unlabeledWorkerModelId
  else match afterBeginning programModelPoolNamedPrefix modelPool with
    | some model => registry.getByModelFast model
    | none => []

def parseWorkerUrl (workerUrl : String) : String × Option Nat :=
  match extractDpRank workerUrl with
  | .ok (base, rank) => (String.ofList base, some rank)
  | .error _ => (workerUrl, none)

def programTargets (dpRank : Worker → Option Nat) (unavailable : List String)
    (workers : List Worker) : List ProgramTarget :=
  (workers.filter (·.url ∉ unavailable)).map fun worker =>
    let (baseUrl, parsedRank) := parseWorkerUrl worker.url
    ⟨worker.url, baseUrl, (dpRank worker).or parsedRank⟩

end Lists

/-- A list in the cache of the router. -/
structure ProgramTargetCacheEntry where
  registryRevision : Nat
  targets : TargetSnapshot
  deriving DecidableEq, Repr

/-- Where a request is between its arrival and the installation of its target list. -/
inductive LookupPhase where
  | start
  | read (revision : Nat)
  | missed (revision : Nat)
  | built (revision : Nat) (targets : TargetSnapshot)
  | checked (revision : Nat) (targets : TargetSnapshot)
  | ready (revision : Nat) (targets : TargetSnapshot)
  | done
  deriving DecidableEq, Repr

structure ListArrival where
  modelPool : ResolvedProgramModelPool
  phase : LookupPhase
  deriving DecidableEq, Repr

/-- Where the observation loop is in its synchronization of all known pools. -/
inductive SyncPhase where
  | idle
  | start (pools : List String)
  | collecting (pools : List String) (revision : Nat) (left : List String)
      (snapshots : List (String × TargetSnapshot))
  | checked (pools : List String) (revision : Nat) (snapshots : List (String × TargetSnapshot))
  | installed (pools : List String) (revision : Nat)
  deriving DecidableEq, Repr

/-- A list given to the scheduler, with the revision it was taken at. -/
structure Install where
  modelPool : String
  revision : Nat
  targets : TargetSnapshot
  deriving DecidableEq, Repr

/-- The registry, the workers out of service, the cached lists, the lists the scheduler
has, and the tasks under way. `installs` is the history of the installed lists, the
latest one first. -/
structure TargetState where
  registry : WorkerRegistry
  unavailable : List String
  cache : Table String ProgramTargetCacheEntry
  snapshots : Table String TargetSnapshot
  arrivals : Table Nat ListArrival
  sync : SyncPhase
  nextAddress : Nat
  installs : List Install

/-- A worker goes out of service or comes back in a step of its own, and the revision
follows it in another. -/
inductive TargetEvent where
  | registryCall (call : RegistryCall)
  | availability (url : String) (available : Bool)
  | notifyWorkerStateChange
  | arrive (arrival : Nat) (modelId : Option String)
  | lookUp (arrival : Nat)
  | synchronize
  deriving DecidableEq, Repr

/-- The scheduler keeps the list it has if it is given the same one again. -/
def rememberSnapshot (snapshots : Table String TargetSnapshot) (modelPool : String)
    (targets : TargetSnapshot) : Table String TargetSnapshot :=
  if (snapshots.lookup modelPool).any fun current => current.address == targets.address then
    snapshots
  else snapshots.insert modelPool targets

section Scheduler

variable {F T : Type} [F64 F] [AffinityTree T] {scheduler : ProgramScheduler F}
  {state next : ProgramSchedulerState F T}

variable (modelPool : String)

variable (removed : List String) {clock : ProgramRef → FailoverClock}

theorem failOver_snapshots {affected : AffectedProgram} :
    Ensures (fun _ => True) (scheduler.failOver modelPool removed clock state affected)
      fun next => next.modelTargetSnapshots = state.modelTargetSnapshots := by
  refine bind (unclaimed _) ?_
  rintro ⟨_, _⟩ -
  dsimp only
  split
  · obtain ⟨_, _, requeued⟩ := scheduler.requeue_eq _ _ _
    rw [requeued]
    exact pure rfl
  · exact pure rfl

omit [F64 F] in
theorem removeTargets_snapshots :
    (removed.foldl (removeTarget modelPool) state).modelTargetSnapshots =
      state.modelTargetSnapshots := by
  induction removed generalizing state with
  | nil => rfl
  | cons _ _ ih => exact ih

theorem replaceTargets_snapshots {targets : List ProgramTarget} :
    Ensures (fun _ => True) (scheduler.replaceTargets state modelPool targets clock)
      fun next => next.modelTargetSnapshots = state.modelTargetSnapshots := by
  refine bind (foldlM (fun _ rebound =>
    rebound.modelTargetSnapshots = state.modelTargetSnapshots) ?_ ?_) ?_
  · exact removeTargets_snapshots _ _
  · intro _ _ _ same
    refine mono (failOver_snapshots _ _) fun _ kept => ?_
    exact kept.trans same
  · intro _ same
    exact pure same

theorem syncTargetSnapshotLocked_snapshots {pool : PoolSnapshot}
    (synced : scheduler.syncTargetSnapshotLocked state pool = .ok next) :
    next.modelTargetSnapshots =
      rememberSnapshot state.modelTargetSnapshots pool.modelPool pool.snapshot := by
  unfold syncTargetSnapshotLocked at synced
  unfold rememberSnapshot
  split at synced
  · rename_i known
    cases synced
    rw [if_pos known]
  · rename_i unknown
    rw [if_neg unknown]
    split at synced
    · cases synced
      rfl
    · split at synced
      · cases synced
      · exact (replaceTargets_snapshots _).ok_of synced

end Scheduler

namespace TargetState

variable (dpRank : Worker → Option Nat)

def new : TargetState := ⟨.new, [], ∅, ∅, ∅, .idle, 0, []⟩

variable (state : TargetState)

def allocate (workers : List Worker) : TargetSnapshot :=
  ⟨state.nextAddress, programTargets dpRank state.unavailable workers⟩

def install (revision : Nat) (state : TargetState) (snapshot : String × TargetSnapshot) :
    TargetState :=
  { state with
    snapshots := rememberSnapshot state.snapshots snapshot.1 snapshot.2
    installs := ⟨snapshot.1, revision, snapshot.2⟩ :: state.installs }

def setPhase (arrival : Nat) (request : ListArrival) (phase : LookupPhase) : TargetState :=
  { state with arrivals := state.arrivals.insert arrival { request with phase := phase } }

def programTargetsForModel (arrival : Nat) (request : ListArrival) : Option TargetState :=
  let cacheKey := request.modelPool.schedulerKey
  match request.phase with
  | .start => some (state.setPhase arrival request (.read state.registry.revision))
  | .read revision =>
    match state.cache.lookup cacheKey with
    | some entry =>
      if entry.registryRevision = revision then
        some (state.setPhase arrival request (.ready revision entry.targets))
      else some (state.setPhase arrival request (.missed revision))
    | none => some (state.setPhase arrival request (.missed revision))
  | .missed revision =>
    let workers := match request.modelPool.registryModel with
      | some model => state.registry.getByModelFast model
      | none => state.registry.getAll
    let built := state.setPhase arrival request (.built revision (state.allocate dpRank workers))
    some { built with nextAddress := state.nextAddress + 1 }
  | .built revision targets =>
    if state.registry.revision ≠ revision then some (state.setPhase arrival request .start)
    else some (state.setPhase arrival request (.checked revision targets))
  | .checked revision targets =>
    some { state.setPhase arrival request (.ready revision targets) with
      cache := state.cache.insert cacheKey ⟨revision, targets⟩ }
  | .ready revision targets =>
    some ((state.setPhase arrival request .done).install revision (cacheKey, targets))
  | .done => none

def syncProgramTargetsFromRegistry : TargetState :=
  match state.sync with
  | .idle =>
    let pools := state.snapshots.keys.insertionSort (· ≤ ·)
    if pools.isEmpty then state else { state with sync := .start pools }
  | .start pools =>
    { state with sync := .collecting pools state.registry.revision pools [] }
  | .collecting pools revision (modelPool :: left) snapshots =>
    let targets := state.allocate dpRank (workersForProgramModelPool state.registry modelPool)
    { state with
      sync := .collecting pools revision left (snapshots ++ [(modelPool, targets)])
      nextAddress := state.nextAddress + 1 }
  | .collecting pools revision [] snapshots =>
    if state.registry.revision ≠ revision then { state with sync := .start pools }
    else { state with sync := .checked pools revision snapshots }
  | .checked pools revision snapshots =>
    snapshots.foldl (install revision) { state with sync := .installed pools revision }
  | .installed pools revision =>
    if state.registry.revision ≠ revision then { state with sync := .start pools }
    else { state with sync := .idle }

def step : TargetEvent → Option TargetState
  | .registryCall call => some { state with registry := state.registry.apply call }
  | .availability url available =>
    some { state with
      unavailable := if available then state.unavailable.filter (· ≠ url) else url :: state.unavailable }
  | .notifyWorkerStateChange =>
    some { state with registry := state.registry.notifyWorkerStateChange }
  | .arrive arrival modelId =>
    if (state.arrivals.lookup arrival).isSome then none
    else
      let modelPool := resolvedProgramModelPool state.registry modelId
      some { state with arrivals := state.arrivals.insert arrival ⟨modelPool, .start⟩ }
  | .lookUp arrival =>
    (state.arrivals.lookup arrival).bind (state.programTargetsForModel dpRank arrival)
  | .synchronize => some (state.syncProgramTargetsFromRegistry dpRank)

def installedRevisions (modelPool : String) : List Nat :=
  (state.installs.filter (·.modelPool = modelPool)).map (·.revision)

def InOrder : Prop :=
  ∀ modelPool, (state.installedRevisions modelPool).Pairwise (· ≥ ·)

def installing : TargetEvent → Option Nat
  | .lookUp arrival =>
    match (state.arrivals.lookup arrival).map ListArrival.phase with
    | some (.ready revision _) => some revision
    | _ => none
  | .synchronize =>
    match state.sync with
    | .checked _ revision _ => some revision
    | _ => none
  | _ => none

/-- A list is installed only while the registry is at the revision of the list. -/
def InstallsCurrent (event : TargetEvent) : Prop :=
  ∀ revision ∈ state.installing event, state.registry.revision = revision

instance (state : TargetState) (event : TargetEvent) : Decidable (state.InstallsCurrent event) :=
  inferInstanceAs (Decidable (∀ revision ∈ state.installing event,
    state.registry.revision = revision))

/-- The installed lists are in the order of their revisions, whatever their pool, and
none is ahead of the registry. -/
structure Ordered : Prop where
  descending : (state.installs.map (·.revision)).Pairwise (· ≥ ·)
  reached : ∀ earlier ∈ state.installs, earlier.revision ≤ state.registry.revision

variable {dpRank} {state next : TargetState} {event : TargetEvent}

variable (ordered : state.Ordered)

include ordered

theorem Ordered.of_eq (installs : next.installs = state.installs)
    (registry : state.registry.revision ≤ next.registry.revision) : next.Ordered := by
  constructor
  · rw [installs]
    exact ordered.descending
  · intro earlier listed
    rw [installs] at listed
    exact (ordered.reached _ listed).trans registry

theorem Ordered.install {revision : Nat}
    (current : state.registry.revision = revision) (snapshot : String × TargetSnapshot) :
    (state.install revision snapshot).Ordered := by
  constructor
  · refine List.pairwise_cons.mpr ⟨?_, ordered.descending⟩
    intro _ listed
    obtain ⟨earlier, member, rfl⟩ := List.mem_map.mp listed
    rw [← current]
    exact ordered.reached _ member
  · intro earlier listed
    rcases List.mem_cons.mp listed with rfl | before
    · exact current.ge
    · exact ordered.reached _ before

theorem Ordered.installAll {revision : Nat}
    (current : state.registry.revision = revision) {snapshots : List (String × TargetSnapshot)} :
    (snapshots.foldl (TargetState.install revision) state).Ordered := by
  induction snapshots generalizing state with
  | nil => exact ordered
  | cons snapshot _ ih => exact ih (ordered.install current _) current

omit ordered in
theorem revision_le_apply (registry : WorkerRegistry) {call : RegistryCall} :
    registry.revision ≤ (registry.apply call).revision := by
  have removes : ∀ (registry : WorkerRegistry) (workerId : WorkerId),
      registry.revision ≤ (registry.remove workerId).1.revision := by
    intro registry workerId
    unfold WorkerRegistry.remove
    split
    · exact Nat.le_refl _
    · exact Nat.le_succ _
  cases call with
  | register => exact Nat.le_succ _
  | remove _ => exact removes _ _
  | removeByUrl url =>
    unfold WorkerRegistry.apply WorkerRegistry.removeByUrl
    dsimp only
    split
    · exact Nat.le_refl _
    · exact removes { registry with urlToId := registry.urlToId.erase url } _

theorem Ordered.programTargetsForModel {arrival : Nat} {request : ListArrival}
    (current : ∀ revision targets, request.phase = .ready revision targets →
      state.registry.revision = revision)
    (moves : state.programTargetsForModel dpRank arrival request = some next) : next.Ordered := by
  revert moves
  fun_cases TargetState.programTargetsForModel dpRank state arrival request with
  | case9 _ revision targets phase =>
    rintro ⟨⟩
    have moved : (state.setPhase arrival request .done).Ordered :=
      ordered.of_eq rfl (Nat.le_refl _)
    exact moved.install (current _ _ phase) _
  | case10 => rintro ⟨⟩
  | _ =>
    rintro ⟨⟩
    exact ordered.of_eq rfl (Nat.le_refl _)

theorem Ordered.syncProgramTargetsFromRegistry
    (current : ∀ pools revision snapshots, state.sync = .checked pools revision snapshots →
      state.registry.revision = revision) :
    (state.syncProgramTargetsFromRegistry dpRank).Ordered := by
  fun_cases TargetState.syncProgramTargetsFromRegistry dpRank state with
  | case7 pools revision _ collected =>
    have moved : Ordered { state with sync := .installed pools revision } :=
      ordered.of_eq rfl (Nat.le_refl _)
    exact moved.installAll (current _ _ _ collected)
  | _ => exact ordered.of_eq rfl (Nat.le_refl _)

theorem Ordered.step (steps : state.step dpRank event = some next)
    (current : state.InstallsCurrent event) : next.Ordered := by
  revert steps current
  fun_cases TargetState.step dpRank state event with
  | case1 _ =>
    rintro ⟨⟩ _
    exact ordered.of_eq rfl (revision_le_apply state.registry)
  | case2 | case5 =>
    rintro ⟨⟩ _
    exact ordered.of_eq rfl (Nat.le_refl _)
  | case3 =>
    rintro ⟨⟩ _
    exact ordered.of_eq rfl (Nat.le_succ _)
  | case4 => rintro ⟨⟩
  | case6 =>
    intro steps current
    obtain ⟨_, found, moves⟩ := Option.bind_eq_some_iff.mp steps
    refine ordered.programTargetsForModel (fun revision _ phase => ?_) moves
    refine current _ ?_
    simp [installing, found, phase]
  | case7 =>
    rintro ⟨⟩ current
    refine ordered.syncProgramTargetsFromRegistry fun _ _ _ checked => ?_
    refine current _ ?_
    simp [installing, checked]

omit ordered

/-- In a run whose lists are installed at the revision they were taken at, no list of a
pool follows one of a later revision. -/
theorem installs_inOrder (dpRank : Worker → Option Nat) (events : List TargetEvent)
    (current : Throughout (TargetState.step dpRank) new InstallsCurrent events) :
    Along (TargetState.step dpRank) new InOrder events := by
  intro _ _ state split reaches
  have ordered : state.Ordered := by
    refine (current.take split).invariant ?_ Ordered.step reaches
    exact ⟨List.Pairwise.nil, fun _ listed => nomatch listed⟩
  exact fun _ => ordered.descending.sublist (List.filter_sublist.map _)

def heldEvents : List TargetEvent :=
  .registryCall (.register ⟨"w", "m", .regular, .http⟩) :: .arrive 0 none ::
    List.replicate 6 (.lookUp 0) ++ .arrive 1 none :: List.replicate 2 (.lookUp 1)

theorem installs_inOrder_held :
    Along (TargetState.step fun _ => none) new InOrder (heldEvents ++ [.lookUp 1]) :=
  installs_inOrder _ _ (by decide +kernel)

/-- A request that had its list before the worker was removed installs it after the
observation loop has installed the list without the worker. -/
theorem older_list_installed_last :
    (runFrom (TargetState.step fun _ => none) new
      (heldEvents ++ .registryCall (.removeByUrl "w") :: List.replicate 6 .synchronize ++
        [.lookUp 1])).map
      (fun state => (state.installedRevisions programModelPoolAll,
        (state.snapshots.lookup programModelPoolAll).map fun current =>
          current.targets.map (·.id), state.registry.revision)) =
        some ([1, 2, 1], some ["w"], 2) := by
  decide +kernel

end TargetState

end SmetricRouter.Routing
