import SmetricRouter.Library.StepRuns
import SmetricRouter.Library.Table

/-! The registry of workers and its indexes.

Beside the workers by identifier there is an index by model in two forms, one by
type and one by connection mode. The indexes agree with the workers as long as no
worker is registered under a URL that is in use.
-/

namespace SmetricRouter.Workers

open Table

inductive WorkerType where
  | regular
  | prefill (bootstrapPort : Option UInt16)
  | decode
  deriving DecidableEq, Repr

inductive ConnectionMode where
  | http
  | grpc
  deriving DecidableEq, Repr

structure Worker where
  url : String
  modelId : String
  workerType : WorkerType
  connectionMode : ConnectionMode
  deriving DecidableEq, Repr

/-- Identifiers are drawn at random in the source; here each one is new. -/
abbrev WorkerId : Type := Nat

structure WorkerRegistry where
  workers : Table WorkerId Worker
  modelWorkers : Table String (List WorkerId)
  modelIndex : Table String (List Worker)
  typeWorkers : Table WorkerType (List WorkerId)
  connectionWorkers : Table ConnectionMode (List WorkerId)
  urlToId : Table String WorkerId
  revision : Nat
  nextId : WorkerId

namespace WorkerRegistry

def new : WorkerRegistry := ⟨∅, ∅, ∅, ∅, ∅, ∅, 0, 0⟩

variable (registry : WorkerRegistry)

def notifyWorkerStateChange : WorkerRegistry :=
  { registry with revision := registry.revision + 1 }

def idFor (worker : Worker) : WorkerId :=
  (registry.urlToId.lookup worker.url).getD registry.nextId

def register (worker : Worker) : WorkerRegistry × WorkerId :=
  let workerId := registry.idFor worker
  let stored : WorkerRegistry :=
    { workers := registry.workers.insert workerId worker
      urlToId := registry.urlToId.insert worker.url workerId
      modelWorkers := registry.modelWorkers.update worker.modelId (· ++ [workerId])
      modelIndex := registry.modelIndex.update worker.modelId (· ++ [worker])
      typeWorkers := registry.typeWorkers.update worker.workerType (· ++ [workerId])
      connectionWorkers := registry.connectionWorkers.update worker.connectionMode (· ++ [workerId])
      revision := registry.revision
      nextId := max registry.nextId (workerId + 1) }
  (stored.notifyWorkerStateChange, workerId)

def remove (workerId : WorkerId) : WorkerRegistry × Option Worker :=
  match registry.workers.lookup workerId with
  | none => (registry, none)
  | some worker =>
    let removed : WorkerRegistry :=
      { registry with
        workers := registry.workers.erase workerId
        urlToId := registry.urlToId.erase worker.url
        modelWorkers := registry.modelWorkers.modify worker.modelId fun ids =>
          ids.filter (· ≠ workerId)
        modelIndex := registry.modelIndex.modify worker.modelId fun workers =>
          workers.filter (·.url ≠ worker.url)
        typeWorkers := registry.typeWorkers.modify worker.workerType fun ids =>
          ids.filter (· ≠ workerId)
        connectionWorkers := registry.connectionWorkers.modify worker.connectionMode fun ids =>
          ids.filter (· ≠ workerId) }
    (removed.notifyWorkerStateChange, some worker)

def removeByUrl (url : String) : WorkerRegistry × Option Worker :=
  match registry.urlToId.lookup url with
  | none => (registry, none)
  | some workerId => { registry with urlToId := registry.urlToId.erase url }.remove workerId

def get (workerId : WorkerId) : Option Worker :=
  registry.workers.lookup workerId

def getByModel (modelId : String) : List Worker :=
  ((registry.modelWorkers.lookup modelId).getD []).filterMap registry.get

def getByModelFast (modelId : String) : List Worker :=
  (registry.modelIndex.lookup modelId).getD []

def hasModel (modelId : String) : Bool :=
  !(registry.getByModelFast modelId).isEmpty

def getAll : List Worker := registry.workers.values

end WorkerRegistry

inductive RegistryCall where
  | register (worker : Worker)
  | remove (workerId : WorkerId)
  | removeByUrl (url : String)
  deriving DecidableEq, Repr

namespace WorkerRegistry

def apply (registry : WorkerRegistry) : RegistryCall → WorkerRegistry
  | .register worker => (registry.register worker).1
  | .remove workerId => (registry.remove workerId).1
  | .removeByUrl url => (registry.removeByUrl url).1

variable {registry : WorkerRegistry} {worker other : Worker} {workerId : WorkerId}
  {modelId url : String}

section Indexed

def registered (registry : WorkerRegistry) (modelId : String) : List Worker :=
  registry.getAll.filter (·.modelId = modelId)

/-- The indexes by model list the registered workers of each model, each one once. -/
structure Faithful (registry : WorkerRegistry) : Prop where
  fast : ∀ modelId, (registry.getByModelFast modelId).Perm (registry.registered modelId)
  agree : ∀ modelId worker, worker ∈ registry.getByModelFast modelId ↔
    worker ∈ registry.getByModel modelId

/-- The indexes agree with the workers, each of which has a URL of its own. -/
structure Indexed (registry : WorkerRegistry) : Prop where
  urls : ∀ {workerId worker}, registry.workers.lookup workerId = some worker →
    registry.urlToId.lookup worker.url = some workerId
  known : ∀ {url workerId}, registry.urlToId.lookup url = some workerId →
    ∃ worker, registry.workers.lookup workerId = some worker ∧ worker.url = url
  fresh : ∀ {workerId worker}, registry.workers.lookup workerId = some worker →
    workerId < registry.nextId
  models : ∀ modelId workerId, workerId ∈ (registry.modelWorkers.lookup modelId).getD [] ↔
    ∃ worker, registry.workers.lookup workerId = some worker ∧ worker.modelId = modelId
  fast : ∀ modelId, (registry.getByModelFast modelId).Perm (registry.registered modelId)

theorem indexed_new : new.Indexed where
  urls := nofun
  known := nofun
  fresh := nofun
  models _ _ := iff_of_false nofun nofun
  fast _ := .refl _

theorem Indexed.faithful (indexed : registry.Indexed) : registry.Faithful where
  fast := indexed.fast
  agree modelId worker := by
    rw [(indexed.fast modelId).mem_iff, registered, getAll, List.mem_filter, mem_values_iff,
      decide_eq_true_eq]
    unfold getByModel get
    rw [List.mem_filterMap]
    constructor
    · rintro ⟨⟨workerId, found⟩, same⟩
      exact ⟨workerId, (indexed.models _ _).mpr ⟨worker, found, same⟩, found⟩
    · rintro ⟨workerId, listed, found⟩
      obtain ⟨_, here, same⟩ := (indexed.models _ _).mp listed
      rw [here, Option.some.injEq] at found
      exact ⟨⟨workerId, found ▸ here⟩, found ▸ same⟩

end Indexed

section Register

theorem getByModelFast_register :
    (registry.register worker).1.getByModelFast modelId =
      registry.getByModelFast modelId ++ if worker.modelId = modelId then [worker] else [] := by
  have updated : (registry.register worker).1.modelIndex.lookup modelId = _ :=
    lookup_update registry.modelIndex worker.modelId _ (· ++ [worker])
  unfold getByModelFast
  rw [updated]
  by_cases same : worker.modelId = modelId
  · rw [if_pos same.symm, if_pos same, ← same]
    rfl
  · rw [if_neg (Ne.symm same), if_neg same, List.append_nil]

theorem registered_register :
    (registry.register worker).1.registered modelId =
      (if worker.modelId = modelId then [worker] else []) ++
        (values (registry.workers.erase (registry.idFor worker))).filter (·.modelId = modelId) := by
  have values : (registry.register worker).1.getAll =
      worker :: values (registry.workers.erase (registry.idFor worker)) := rfl
  unfold registered
  rw [values]
  by_cases same : worker.modelId = modelId
  · simp [same]
  · simp [same]

theorem registered_perm_erase (registry : WorkerRegistry) (modelId : String)
    (workerId : WorkerId) : (registry.registered modelId).Perm
    ((registry.workers.lookup workerId).toList.filter (·.modelId = modelId) ++
      (values (registry.workers.erase workerId)).filter (·.modelId = modelId)) := by
  rw [← List.filter_append]
  exact (values_perm_erase registry.workers _).filter _

theorem Indexed.register (indexed : registry.Indexed)
    (free : registry.urlToId.lookup worker.url = none) : (registry.register worker).1.Indexed := by
  have own : registry.idFor worker = registry.nextId := by rw [idFor, free, Option.getD_none]
  have vacant : registry.workers.lookup registry.nextId = none := by
    cases found : registry.workers.lookup registry.nextId with
    | none => rfl
    | some => exact absurd (indexed.fresh found) (Nat.lt_irrefl _)
  have workers id : (registry.register worker).1.workers.lookup id =
      if id = registry.nextId then some worker else registry.workers.lookup id := by
    rw [← own]
    exact lookup_insert_eq _ _ _ _
  have urls url : (registry.register worker).1.urlToId.lookup url =
      if url = worker.url then some registry.nextId else registry.urlToId.lookup url := by
    rw [← own]
    exact lookup_insert_eq _ _ _ _
  have next : (registry.register worker).1.nextId = registry.nextId + 1 := by
    change max registry.nextId (registry.idFor worker + 1) = _
    rw [own]
    exact Nat.max_eq_right (Nat.le_succ _)
  have models model :
      ((registry.register worker).1.modelWorkers.lookup model).getD [] =
        (registry.modelWorkers.lookup model).getD [] ++
          if model = worker.modelId then [registry.nextId] else [] := by
    have updated : (registry.register worker).1.modelWorkers.lookup model = _ :=
      lookup_update registry.modelWorkers worker.modelId _ (· ++ [registry.idFor worker])
    rw [updated, own]
    split
    · rename_i same
      rw [same]
      rfl
    · rw [List.append_nil]
  refine ⟨?_, ?_, ?_, ?_, ?_⟩
  · intro id listed found
    rw [workers] at found
    rw [urls]
    split at found
    · rename_i same
      cases found
      rw [if_pos rfl, same]
    · rw [if_neg, indexed.urls found]
      intro taken
      have taken_url := indexed.urls found
      rw [taken, free] at taken_url
      cases taken_url
  · intro _ id found
    rw [urls] at found
    simp only [workers]
    split at found
    · rename_i same
      cases found
      exact ⟨worker, if_pos rfl, same.symm⟩
    · obtain ⟨listed, here, same⟩ := indexed.known found
      refine ⟨listed, ?_, same⟩
      rw [if_neg (Nat.ne_of_lt (indexed.fresh here)), here]
  · intro id _ found
    rw [workers] at found
    rw [next]
    split at found
    · rename_i same
      rw [same]
      exact Nat.lt_succ_self _
    · exact Nat.lt_succ_of_lt (indexed.fresh found)
  · intro model id
    rw [models, List.mem_append, indexed.models]
    simp only [workers]
    by_cases new_id : id = registry.nextId
    · subst new_id
      rw [vacant]
      simp [eq_comm]
    · rw [if_neg new_id]
      refine or_iff_left ?_
      split
      · rw [List.mem_singleton]
        exact new_id
      · exact List.not_mem_nil
  · intro model
    have kept := registry.registered_perm_erase model registry.nextId
    rw [vacant] at kept
    rw [getByModelFast_register, registered_register, own]
    exact (((indexed.fast _).trans kept).append_right _).trans List.perm_append_comm

theorem Indexed.not_faithful_register (indexed : registry.Indexed)
    (used : registry.urlToId.lookup worker.url = some workerId) :
    ¬ (registry.register worker).1.Faithful := by
  intro faithful
  have own : registry.idFor worker = workerId := by rw [idFor, used, Option.getD_some]
  obtain ⟨replaced, found, _⟩ := indexed.known used
  -- The model of the replaced worker has one entry too many.
  have before := (indexed.fast replaced.modelId).length_eq
  have taken := (registry.registered_perm_erase replaced.modelId workerId).length_eq
  have after := (faithful.fast replaced.modelId).length_eq
  rw [getByModelFast_register, registered_register, own, List.length_append, List.length_append]
    at after
  rw [found, List.length_append] at taken
  simp only [Option.toList_some, List.filter_cons, decide_true, if_true, List.filter_nil,
    List.length_singleton] at taken
  omega

end Register

section Remove

section Erased

variable (indexed : registry.Indexed) (found : registry.workers.lookup workerId = some worker)

include indexed found

theorem Indexed.url_ne {id : WorkerId} (here : registry.workers.lookup id = some other)
    (apart : id ≠ workerId) : other.url ≠ worker.url := by
  intro shared
  have first := indexed.urls here
  rw [shared, indexed.urls found] at first
  exact apart (Option.some.inj first).symm

theorem Indexed.models_erase (modelId : String) (id : WorkerId) :
    id ∈ ((registry.modelWorkers.modify worker.modelId fun ids =>
      ids.filter (· ≠ workerId)).lookup modelId).getD [] ↔
        ∃ listed, (registry.workers.erase workerId).lookup id = some listed ∧
          listed.modelId = modelId := by
  rw [getD_lookup_modify_filter]
  simp only [lookup_erase_eq]
  by_cases own : id = workerId
  · subst own
    refine iff_of_false ?_ fun ⟨_, gone, _⟩ => by rw [if_pos rfl] at gone; cases gone
    split
    · simp
    · rename_i elsewhere
      rw [indexed.models]
      rintro ⟨_, here, shown⟩
      rw [here, Option.some.injEq] at found
      exact elsewhere (found ▸ shown.symm)
  · simp only [if_neg own]
    rw [← indexed.models]
    split
    · rename_i shown
      rw [List.mem_filter, decide_eq_true_eq, shown]
      exact and_iff_left own
    · rfl

theorem Indexed.fast_erase (modelId : String) :
    (((registry.modelIndex.modify worker.modelId fun workers =>
      workers.filter (·.url ≠ worker.url)).lookup modelId).getD []).Perm
        ((values (registry.workers.erase workerId)).filter (·.modelId = modelId)) := by
  have before := (indexed.fast modelId).trans (registry.registered_perm_erase _ workerId)
  rw [getD_lookup_modify_filter]
  rw [found] at before
  have others : ((values (registry.workers.erase workerId)).filter
      (·.modelId = modelId)).filter (·.url ≠ worker.url) =
        (values (registry.workers.erase workerId)).filter (·.modelId = modelId) := by
    rw [List.filter_eq_self]
    intro _ member
    obtain ⟨_, here⟩ := (mem_values_iff _ _).mp (List.mem_filter.mp member).1
    rw [lookup_erase_eq] at here
    split at here
    · cases here
    · rename_i apart
      exact decide_eq_true (indexed.url_ne found here apart)
  split
  · rename_i shown
    subst shown
    have thinned := before.filter (·.url ≠ worker.url)
    rw [List.filter_append, others] at thinned
    simpa [getByModelFast] using thinned
  · rename_i elsewhere
    simpa [getByModelFast, Ne.symm elsewhere] using before

end Erased

theorem Indexed.remove (indexed : registry.Indexed)
    (found : registry.workers.lookup workerId = some worker) {urls : Table String WorkerId}
    (same : ∀ url, url ≠ worker.url → urls.lookup url = registry.urlToId.lookup url) :
    ({ registry with urlToId := urls }.remove workerId).1.Indexed := by
  have removed : ({ registry with urlToId := urls }.remove workerId).1 = ({ registry with
        workers := registry.workers.erase workerId
        urlToId := urls.erase worker.url
        modelWorkers := registry.modelWorkers.modify worker.modelId fun ids =>
          ids.filter (· ≠ workerId)
        modelIndex := registry.modelIndex.modify worker.modelId fun workers =>
          workers.filter (·.url ≠ worker.url)
        typeWorkers := registry.typeWorkers.modify worker.workerType fun ids =>
          ids.filter (· ≠ workerId)
        connectionWorkers := registry.connectionWorkers.modify worker.connectionMode fun ids =>
          ids.filter (· ≠ workerId) } : WorkerRegistry).notifyWorkerStateChange := by
    simp [WorkerRegistry.remove, found]
  rw [removed]
  have kept {id : WorkerId} {listed : Worker}
      (here : (registry.workers.erase workerId).lookup id = some listed) :
      registry.workers.lookup id = some listed ∧ id ≠ workerId := by
    rw [lookup_erase_eq] at here
    split at here
    · cases here
    · rename_i apart
      exact ⟨here, apart⟩
  refine ⟨?_, ?_, ?_, indexed.models_erase found, indexed.fast_erase found⟩
  · intro id listed here
    obtain ⟨before, apart⟩ := kept here
    have different := indexed.url_ne found before apart
    change (urls.erase worker.url).lookup listed.url = _
    rw [lookup_erase_eq, if_neg different, same _ different]
    exact indexed.urls before
  · intro url id here
    change (urls.erase worker.url).lookup url = _ at here
    rw [lookup_erase_eq] at here
    split at here
    · cases here
    · rename_i different
      rw [same url different] at here
      obtain ⟨listed, before, shown⟩ := indexed.known here
      refine ⟨listed, ?_, shown⟩
      change (registry.workers.erase workerId).lookup id = _
      rw [lookup_erase_eq, if_neg, before]
      rintro rfl
      rw [before, Option.some.injEq] at found
      exact different (found ▸ shown.symm)
  · intro _ _ here
    exact indexed.fresh (kept here).1

end Remove

section Runs

/-- The call registers a worker under a URL that is in use. -/
def Replaces (registry : WorkerRegistry) (call : RegistryCall) : Prop :=
  ∃ worker, call = .register worker ∧ registry.urlToId.lookup worker.url ≠ none

theorem Indexed.apply (indexed : registry.Indexed) {call : RegistryCall}
    (proper : ¬ registry.Replaces call) : (registry.apply call).Indexed := by
  cases call with
  | register worker =>
    apply indexed.register
    by_contra used
    exact proper ⟨worker, rfl, used⟩
  | remove workerId =>
    cases found : registry.workers.lookup workerId with
    | none =>
      have unchanged : registry.apply (.remove workerId) = registry := by
        simp [WorkerRegistry.apply, WorkerRegistry.remove, found]
      rw [unchanged]
      exact indexed
    | some => exact indexed.remove found fun _ _ => rfl
  | removeByUrl url =>
    cases used : registry.urlToId.lookup url with
    | none =>
      have unchanged : registry.apply (.removeByUrl url) = registry := by
        simp [WorkerRegistry.apply, removeByUrl, used]
      rw [unchanged]
      exact indexed
    | some workerId =>
      obtain ⟨worker, found, rfl⟩ := indexed.known used
      have removed : registry.apply (.removeByUrl worker.url) =
          ({ registry with urlToId := registry.urlToId.erase worker.url }.remove workerId).1 := by
        simp [WorkerRegistry.apply, removeByUrl, used]
      rw [removed]
      refine indexed.remove found fun _ other => ?_
      rw [lookup_erase_eq, if_neg other]

/-- The indexes are faithful in every state of a run exactly if no call of it
registers a worker under a URL that is in use. -/
theorem faithful_iff (calls : List RegistryCall) :
    Along (fun registry call => some (registry.apply call)) new Faithful calls ↔
      Throughout (fun registry call => some (registry.apply call)) new
        (fun registry call => ¬ registry.Replaces call) calls := by
  refine along_iff_throughout indexed_new Indexed.faithful ?_ ?_
  · rintro _ _ _ indexed steps proper
    cases steps
    exact indexed.apply proper
  · rintro _ _ _ indexed steps replaces
    cases steps
    obtain ⟨_, rfl, used⟩ := not_not.mp replaces
    obtain ⟨_, found⟩ := Option.ne_none_iff_exists'.mp used
    exact indexed.not_faithful_register found

/-- A worker registered again under another model stays listed under the first. -/
theorem getByModelFast_stale :
    ((new.apply (.register ⟨"http://w", "a", .regular, .http⟩)).apply
      (.register ⟨"http://w", "b", .regular, .http⟩)).getByModelFast "a" =
        [⟨"http://w", "a", .regular, .http⟩] ∧
    ((new.apply (.register ⟨"http://w", "a", .regular, .http⟩)).apply
      (.register ⟨"http://w", "b", .regular, .http⟩)).getAll =
        [⟨"http://w", "b", .regular, .http⟩] := by
  decide +kernel

end Runs

end WorkerRegistry

end SmetricRouter.Workers
