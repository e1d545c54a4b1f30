import SmetricRouter.Library.StepRuns
import SmetricRouter.Library.Table

/-! Workers that follow the pods of a cluster.

Each event carries the pod as it is at that moment. A healthy pod is tracked and its
worker added; the deletion of a pod takes away the worker of the record that the
deletion event gives. What the address of a pod reads and prints as, and the router's
own kind, are parameters.
-/

namespace SmetricRouter.ServiceDiscovery

variable {Ip : Type} [DecidableEq Ip]

structure ServiceDiscoveryConfig where
  selector : Table String String
  port : Nat
  pdMode : Bool
  prefillSelector : Table String String
  decodeSelector : Table String String
  bootstrapPortAnnotation : String

structure PodCondition where
  type : String
  status : String
  deriving DecidableEq, Repr

structure PodStatus where
  podIp : Option String
  conditions : Option (List PodCondition)
  phase : Option String
  deriving DecidableEq, Repr

/-- A pod as an event reports it. The `uid` says which pod of the cluster it is; the
program does not read it. -/
structure Pod where
  uid : Nat
  name : Option String
  labels : Option (Table String String)
  annotations : Option (Table String String)
  deletionTimestamp : Option Nat
  status : Option PodStatus

/-- Pod type for PD mode service discovery. -/
inductive PodType where
  | prefill
  | decode
  | regular
  deriving DecidableEq, Repr

/-- A pod's information used for worker management. -/
structure PodInfo (Ip : Type) where
  name : String
  ip : Ip
  status : String
  isReady : Bool
  podType : Option PodType
  bootstrapPort : Option Nat
  deriving DecidableEq, Repr

/-- How addresses are read and printed, and whether the router is the one that knows
prefill and decode servers. -/
structure Setup (Ip : Type) where
  config : ServiceDiscoveryConfig
  parseIp : String → Option Ip
  socketAddr : Ip → Nat → String
  vllmPdRouter : Bool

def matchesSelector (pod : Pod) (selector : Table String String) : Bool :=
  if selector.keys = [] then false
  else pod.labels.any fun labels =>
    selector.keys.all fun key => labels.lookup key = selector.lookup key

def shouldInclude (pod : Pod) (config : ServiceDiscoveryConfig) : Bool :=
  if config.pdMode then
    if config.prefillSelector.keys = [] ∧ config.decodeSelector.keys = [] then false
    else matchesSelector pod config.prefillSelector || matchesSelector pod config.decodeSelector
  else if config.selector.keys = [] then false
  else matchesSelector pod config.selector

def digitsValue (digits : List Char) : Option Nat :=
  if digits ≠ [] ∧ digits.all Char.isDigit then
    some (digits.foldl (fun value digit => 10 * value + (digit.toNat - 48)) 0)
  else none

def parsePort (text : String) : Option Nat :=
  let value := match text.toList with
    | '+' :: digits => digitsValue digits
    | digits => digitsValue digits
  value.filter (· < 2 ^ 16)

def podTypeOf (pod : Pod) (config : ServiceDiscoveryConfig) : PodType :=
  if config.pdMode then
    if matchesSelector pod config.prefillSelector then .prefill
    else if matchesSelector pod config.decodeSelector then .decode
    else .regular
  else .regular

def fromPod (setup : Setup Ip) (pod : Pod) : Option (PodInfo Ip) := do
  let name ← pod.name
  let status ← pod.status
  let ip ← setup.parseIp (← status.podIp)
  let isReady := status.conditions.any fun conditions =>
    conditions.any fun condition => condition.type == "Ready" && condition.status == "True"
  let podType := podTypeOf pod setup.config
  let bootstrapPort :=
    if podType = .prefill then
      (pod.annotations.bind (·.lookup setup.config.bootstrapPortAnnotation)).bind parsePort
    else none
  return ⟨name, ip, status.phase.getD "Unknown", isReady, some podType, bootstrapPort⟩

namespace PodInfo

def isHealthy (info : PodInfo Ip) : Bool := info.isReady && info.status == "Running"

def workerUrl (setup : Setup Ip) (info : PodInfo Ip) : String :=
  "http://" ++ setup.socketAddr info.ip setup.config.port

end PodInfo

/-- The tracked records, each with the pod that it was added for, and the workers of
the router. -/
structure Tracking (Ip : Type) where
  tracked : Table (PodInfo Ip) Nat
  workers : List String

namespace Tracking

variable (setup : Setup Ip)

/-- The router takes a worker whose URL it does not have; prefill and decode servers
only if it knows such. -/
def addWorker (workers : List String) (info : PodInfo Ip) : Option (List String) :=
  if setup.config.pdMode && info.podType.isSome && !setup.vllmPdRouter then none
  else if info.workerUrl setup ∈ workers then none
  else some (workers ++ [info.workerUrl setup])

variable (tracking : Tracking Ip)

def handlePodEvent (pod : Nat) (info : PodInfo Ip) : Tracking Ip :=
  if info.isHealthy then
    match tracking.tracked.lookup info with
    | some _ => tracking
    | none =>
      -- The record is reserved first and given up again if the router refuses the worker.
      let reserved := tracking.tracked.insert info pod
      match addWorker setup tracking.workers info with
      | some workers => ⟨reserved, workers⟩
      | none => ⟨reserved.erase info, tracking.workers⟩
  else tracking

def handlePodDeletion (info : PodInfo Ip) : Tracking Ip :=
  match tracking.tracked.lookup info with
  | some _ =>
    ⟨tracking.tracked.erase info, tracking.workers.filter (· ≠ info.workerUrl setup)⟩
  | none => tracking

def handle (pod : Pod) : Tracking Ip :=
  if shouldInclude pod setup.config then
    match fromPod setup pod with
    | some info =>
      if pod.deletionTimestamp.isSome then tracking.handlePodDeletion setup info
      else tracking.handlePodEvent setup pod.uid info
    | none => tracking
  else tracking

/-- If the event is the deletion of a pod, then of the workers that had been added for
the pod none is left, neither tracked nor in the router. -/
def RemovesWorkers (pod : Pod) : Prop :=
  pod.deletionTimestamp.isSome → ∀ info, tracking.tracked.lookup info = some pod.uid →
    (∀ other, (tracking.handle setup pod).tracked.lookup other ≠ some pod.uid) ∧
      info.workerUrl setup ∉ (tracking.handle setup pod).workers

/-- If the event is the deletion of a pod, then it is let through and gives the very
record that is tracked for the pod. -/
def GivesTracked (pod : Pod) : Prop :=
  pod.deletionTimestamp.isSome → ∀ info, tracking.tracked.lookup info = some pod.uid →
    shouldInclude pod setup.config ∧ fromPod setup pod = some info

variable {setup} {tracking} {pod : Pod}

theorem handlePodDeletion_tracked (info other : PodInfo Ip) :
    (tracking.handlePodDeletion setup info).tracked.lookup other =
      if other = info then none else tracking.tracked.lookup other := by
  unfold handlePodDeletion
  cases found : tracking.tracked.lookup info with
  | some => exact Table.lookup_erase_eq tracking.tracked _ _
  | none =>
    by_cases same : other = info
    · rw [if_pos same, same]
      exact found
    · rw [if_neg same]

theorem removesWorkers_iff : tracking.RemovesWorkers setup pod ↔ tracking.GivesTracked setup pod := by
  constructor
  · intro removes deleted info tracked
    have gone := (removes deleted _ tracked).1 info
    unfold handle at gone
    split at gone
    · rename_i included
      refine ⟨included, ?_⟩
      split at gone
      · rename_i given given_is
        rw [handlePodDeletion_tracked] at gone
        split at gone
        · rename_i same
          rw [given_is, same]
        · exact absurd tracked gone
      · exact absurd tracked gone
    · exact absurd tracked gone
  · intro gives deleted info tracked
    obtain ⟨included, given⟩ := gives deleted _ tracked
    have handled : tracking.handle setup pod = tracking.handlePodDeletion setup info := by
      simp [handle, included, given, deleted]
    rw [handled]
    constructor
    · intro _ found
      rw [handlePodDeletion_tracked] at found
      split at found
      · cases found
      · rename_i apart
        have again := (gives deleted _ found).2
        rw [given] at again
        exact apart (Option.some.inj again).symm
    · simp [handlePodDeletion, tracked]

/-- For every sequence of events, over any workers that the router has from elsewhere,
every deletion removes the workers of its pod exactly if every deletion event gives
the record that is tracked for the pod. -/
theorem run_removesWorkers (setup : Setup Ip) (initial : List String) (pods : List Pod) :
    Throughout (fun tracking pod => some (tracking.handle setup pod)) ⟨∅, initial⟩
        (RemovesWorkers setup) pods ↔
      Throughout (fun tracking pod => some (tracking.handle setup pod)) ⟨∅, initial⟩
        (GivesTracked setup) pods :=
  ⟨fun removes done pod rest tracking next split reaches steps =>
      removesWorkers_iff.mp (removes done pod rest tracking next split reaches steps),
    fun gives done pod rest tracking next split reaches steps =>
      removesWorkers_iff.mpr (gives done pod rest tracking next split reaches steps)⟩

end Tracking

/-- Addresses are plain numbers here, and pods are selected by one label. -/
def Sample.setup : Setup Nat where
  config := ⟨(∅ : Table String String).insert "app" "vllm", 8000, false, ∅, ∅, "port"⟩
  parseIp := fun text => some text.length
  socketAddr := fun ip port => toString ip ++ ":" ++ toString port
  vllmPdRouter := false

def Sample.pod (ready : Bool) (deletionTimestamp : Option Nat) : Pod where
  uid := 7
  name := some "pod"
  labels := some ((∅ : Table String String).insert "app" "vllm")
  annotations := none
  deletionTimestamp := deletionTimestamp
  status := some ⟨some "1", some [⟨"Ready", if ready then "True" else "False"⟩], some "Running"⟩

namespace Tracking

/-- A pod becomes ready and its worker is added; it is not ready any more when it is
deleted, and its worker stays. -/
theorem run_removesWorkers_fails :
    let added := (⟨∅, []⟩ : Tracking Nat).handle Sample.setup (Sample.pod true none)
    let deleted := added.handle Sample.setup (Sample.pod false (some 1))
    added.workers = ["http://1:8000"] ∧ added.tracked.values = [7] ∧
      deleted.workers = ["http://1:8000"] ∧ deleted.tracked.values = [7] := by
  decide +kernel

end Tracking

end SmetricRouter.ServiceDiscovery
