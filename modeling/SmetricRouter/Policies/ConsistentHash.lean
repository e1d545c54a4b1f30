import SmetricRouter.Policies.HashKey
import SmetricRouter.ProgramScheduling.Binding
import SmetricRouter.Routing.Attempts

/-! The hash ring of the consistent hashing policy and its updates.

The ring and the list of workers it was built from are behind two locks. An update
compares the list in a first section, writes the ring in a second and the list in a
third, and other updates can come in between.
-/

namespace SmetricRouter.Policies

open ProgramScheduling
open Routing (extractDpRank)

def virtualNodesPerWorker : Nat := 160

/-- The section that an update enters next. -/
inductive UpdatePhase where
  | compare
  | writeRing
  | writeWorkers
  deriving DecidableEq, Repr

structure RingUpdate where
  workerUrls : List String
  phase : UpdatePhase
  deriving DecidableEq, Repr

structure ConsistentHashPolicy where
  hashRing : Table Nat String
  currentWorkers : List String
  /-- The updates in progress. -/
  updates : Table Nat RingUpdate

inductive RingEvent where
  | updateHashRing (update : Nat) (workerUrls : List String)
  | proceed (update : Nat)
  deriving DecidableEq, Repr

namespace ConsistentHashPolicy

def new : ConsistentHashPolicy := ⟨∅, [], ∅⟩

variable (fbiHash : String → Nat)

def ringOf (workerUrls : List String) : Table Nat String :=
  buildRing fbiHash virtualNodesPerWorker workerUrls

variable (policy : ConsistentHashPolicy)

/-- One section of an update; `none` if there is no such section to enter. -/
def step : RingEvent → Option ConsistentHashPolicy
  | .updateHashRing update workerUrls =>
    match policy.updates.lookup update with
    | some _ => none
    | none => some { policy with updates := policy.updates.insert update ⟨workerUrls, .compare⟩ }
  | .proceed update =>
    match policy.updates.lookup update with
    | none => none
    | some ⟨workerUrls, .compare⟩ =>
      if policy.currentWorkers = workerUrls then
        some { policy with updates := policy.updates.erase update }
      else
        some { policy with updates := policy.updates.insert update ⟨workerUrls, .writeRing⟩ }
    | some ⟨workerUrls, .writeRing⟩ =>
      some { policy with
        hashRing := ringOf fbiHash workerUrls
        updates := policy.updates.insert update ⟨workerUrls, .writeWorkers⟩ }
    | some ⟨workerUrls, .writeWorkers⟩ =>
      some { policy with
        currentWorkers := workerUrls
        updates := policy.updates.erase update }

def findWorkerByHash (hashKey : String) : Option String :=
  ringSuccessor policy.hashRing (fbiHash hashKey)

/-- With no update in progress the ring is that of the stored list. -/
def Consistent : Prop :=
  policy.updates = ∅ → policy.hashRing = ringOf fbiHash policy.currentWorkers

/-- No update writes the ring while another one, of another list, has written its
ring and not yet its list. -/
def Separates : RingEvent → Prop
  | .updateHashRing _ _ => True
  | .proceed update =>
    ∀ own ∈ policy.updates.lookup update, own.phase = .writeRing →
      ∀ other ∈ policy.updates.values, other.phase = .writeWorkers →
        other.workerUrls = own.workerUrls

instance (policy : ConsistentHashPolicy) (event : RingEvent) : Decidable (policy.Separates event) :=
  match event with
  | .updateHashRing _ _ => inferInstanceAs (Decidable True)
  | .proceed update =>
    inferInstanceAs (Decidable (∀ own ∈ policy.updates.lookup update, own.phase = .writeRing →
      ∀ other ∈ policy.updates.values, other.phase = .writeWorkers →
        other.workerUrls = own.workerUrls))

/-- The ring is that of every update which has still to write its list, and without
any it is that of the stored list. -/
structure Inv : Prop where
  written : ∀ update workerUrls, policy.updates.lookup update = some ⟨workerUrls, .writeWorkers⟩ →
    policy.hashRing = ringOf fbiHash workerUrls
  settled : (∀ update workerUrls,
      policy.updates.lookup update ≠ some ⟨workerUrls, .writeWorkers⟩) →
    policy.hashRing = ringOf fbiHash policy.currentWorkers

variable {fbiHash} {policy next : ConsistentHashPolicy} {event : RingEvent}

theorem inv_new : new.Inv fbiHash := ⟨nofun, fun _ => rfl⟩

variable (inv : policy.Inv fbiHash)

include inv

theorem Inv.consistent : policy.Consistent fbiHash := by
  intro quiet
  refine inv.settled fun _ _ writing => ?_
  rw [quiet] at writing
  cases writing

theorem Inv.of_updates (ring : next.hashRing = policy.hashRing)
    (workers : next.currentWorkers = policy.currentWorkers)
    (updates : ∀ update workerUrls, next.updates.lookup update = some ⟨workerUrls, .writeWorkers⟩ ↔
      policy.updates.lookup update = some ⟨workerUrls, .writeWorkers⟩) : next.Inv fbiHash := by
  refine ⟨fun update workerUrls writing => ?_, fun settled => ?_⟩
  · rw [ring]
    exact inv.written _ _ ((updates _ _).mp writing)
  · rw [ring, workers]
    exact inv.settled fun _ _ writing =>
      settled _ _ ((updates _ _).mpr writing)

theorem Inv.step (steps : policy.step fbiHash event = some next)
    (separates : policy.Separates event) : next.Inv fbiHash := by
  revert steps separates
  fun_cases ConsistentHashPolicy.step fbiHash policy event with
  | case1 | case3 => rintro ⟨⟩
  | case2 _ _ found | case4 _ found | case5 _ _ found =>
    rintro ⟨⟩ _
    refine inv.of_updates rfl rfl fun other otherUrls => ?_
    simp only [Table.lookup_insert_eq, Table.lookup_erase_eq]
    split
    case isTrue same =>
      subst same
      simp [found]
    case isFalse => rfl
  | case6 update workerUrls found =>
    rintro ⟨⟩ separates
    refine ⟨fun other otherUrls writing => ?_, fun settled => ?_⟩
    · simp only [Table.lookup_insert_eq] at writing
      split at writing
      · cases writing
        rfl
      · have listed := (Table.mem_values_iff _ _).mpr ⟨other, writing⟩
        exact congrArg (ringOf _) (separates _ found rfl _ listed rfl).symm
    · exact absurd (AList.lookup_insert _) (settled _ _)
  | case7 _ _ found =>
    have ring := inv.written _ _ found
    rintro ⟨⟩ _
    refine ⟨fun _ otherUrls writing => ?_, fun _ => ring⟩
    simp only [Table.lookup_erase_eq] at writing
    split at writing
    · cases writing
    · exact inv.written _ _ writing

omit inv

/-- In every run whose ring writes are separated, the ring is that of the stored list
whenever no update is in progress, so that a key is served by the worker that the
ring of this list gives. -/
theorem run_ringConsistent (fbiHash : String → Nat) (events : List RingEvent)
    (policy : ConsistentHashPolicy) (runs : runFrom (step fbiHash) new events = some policy)
    (separates : Throughout (step fbiHash) new Separates events) :
    Along (step fbiHash) new (Consistent fbiHash) events ∧
      (policy.updates = ∅ → ∀ hashKey, policy.findWorkerByHash fbiHash hashKey =
        ringSuccessor (ringOf fbiHash policy.currentWorkers) (fbiHash hashKey)) := by
  have inv {done : List RingEvent} {state : ConsistentHashPolicy}
      (fine : Throughout (step fbiHash) new Separates done)
      (reaches : runFrom (step fbiHash) new done = some state) : state.Inv fbiHash :=
    fine.invariant inv_new (fun before steps fine => before.step steps fine) reaches
  refine ⟨fun _ _ _ split reaches => (inv (separates.take split) reaches).consistent, ?_⟩
  intro quiet _
  rw [findWorkerByHash, (inv separates runs).consistent quiet]

variable (fbiHash : String → Nat)

theorem ringOf_ne : ringOf fbiHash ["b"] ≠ ringOf fbiHash ["a"] := by
  intro same
  have points : (ringOf fbiHash ["b"]).keys ≠ [] :=
    buildRing_keys_ne_nil (by decide) (List.cons_ne_nil "b" [])
  obtain ⟨_, listed⟩ := List.exists_mem_of_ne_nil _ points
  obtain ⟨_, found⟩ := (Table.mem_keys_iff _ _).mp listed
  have first := mem_of_lookup_buildRing ["b"] found
  rw [same] at found
  have second := mem_of_lookup_buildRing ["a"] found
  rw [List.mem_singleton] at first second
  subst first
  revert second
  decide

theorem run_ringConsistent_fails :
    ∃ policy, runFrom (step fun _ => 0) new
        [.updateHashRing 0 ["a"], .updateHashRing 1 ["b"], .proceed 0, .proceed 1, .proceed 0,
          .proceed 1, .proceed 1, .proceed 0] = some policy ∧
      policy.updates = ∅ ∧ policy.currentWorkers = ["a"] ∧
      policy.hashRing = ringOf (fun _ => 0) ["b"] ∧
      policy.hashRing ≠ ringOf (fun _ => 0) policy.currentWorkers :=
  ⟨⟨ringOf _ ["b"], ["a"], ∅⟩, rfl, rfl, rfl, rfl, ringOf_ne _⟩

/-- The same two updates one after the other. -/
theorem run_ringConsistent_separate :
    ∃ events policy, runFrom (step fun _ => 0) new events = some policy ∧
      Throughout (step fun _ => 0) new Separates events ∧ policy.updates = ∅ ∧
      policy.currentWorkers = ["b"] ∧ policy.findWorkerByHash (fun _ => 0) "key" =
        ringSuccessor (ringOf (fun _ => 0) policy.currentWorkers) 0 := by
  have separates : Throughout (step fun _ => 0) new Separates
      [.updateHashRing 0 ["a"], .proceed 0, .proceed 0, .proceed 0, .updateHashRing 1 ["b"],
        .proceed 1, .proceed 1, .proceed 1] := by
    decide +kernel
  have law := run_ringConsistent (fun _ => 0) _ ⟨ringOf (fun _ => 0) ["b"], ["b"], ∅⟩ rfl separates
  exact ⟨_, _, rfl, separates, rfl, rfl, law.2 rfl "key"⟩

end ConsistentHashPolicy

end SmetricRouter.Policies
