import SmetricRouter.Library.StepRuns
import SmetricRouter.Library.Table

/-! The registry of the policies that models use.

Worker counts and policies are behind two locks. The first worker of a model
determines its policy, the last one takes it away; each call does so in several lock
sections, and other calls can come in between.
-/

namespace SmetricRouter.Policies

open Table

/-- A shared policy object; two references to it have the same address. -/
structure PolicyObject where
  address : Nat
  name : String
  deriving DecidableEq, Repr

/-- The section that an addition enters next. -/
inductive AddPhase where
  | count
  | find
  | store (policy : PolicyObject)
  deriving DecidableEq, Repr

inductive RemovePhase where
  | count
  | cleanUp
  deriving DecidableEq, Repr

inductive PolicyCall where
  | added (modelId : String) (policyHint : Option String) (phase : AddPhase)
  | removed (modelId : String) (phase : RemovePhase)
  deriving DecidableEq, Repr

/-- The two maps, the calls in progress, and the workers that are present with their
models and the policies they were handed. -/
structure PolicyRegistry where
  modelPolicies : Table String PolicyObject
  modelWorkerCounts : Table String Nat
  defaultPolicy : PolicyObject
  nextAddress : Nat
  calls : Table Nat PolicyCall
  handed : Table Nat (String × PolicyObject)

/-- A call to add a worker carries the number of the worker, and a worker is removed
at most once. -/
inductive PolicyEvent where
  | onWorkerAdded (worker : Nat) (modelId : String) (policyHint : Option String)
  | onWorkerRemoved (worker : Nat)
  | proceed (worker : Nat)
  deriving DecidableEq, Repr

namespace PolicyRegistry

def new (defaultName : String) : PolicyRegistry := ⟨∅, ∅, ⟨0, defaultName⟩, 1, ∅, ∅⟩

variable (registry : PolicyRegistry)

def createPolicyFromType (policyType : String) : PolicyObject × PolicyRegistry :=
  if policyType ∈ ["round_robin", "random", "cache_aware", "power_of_two", "rendezvous_hash"] then
    (⟨registry.nextAddress, policyType⟩, { registry with nextAddress := registry.nextAddress + 1 })
  else (registry.defaultPolicy, registry)

def determinePolicyForModel (policyHint : Option String) : PolicyObject × PolicyRegistry :=
  match policyHint with
  | some policyType => registry.createPolicyFromType policyType
  | none => (registry.defaultPolicy, registry)

def hand (worker : Nat) (modelId : String) (policy : PolicyObject) : PolicyRegistry :=
  { registry with
    calls := registry.calls.erase worker
    handed := registry.handed.insert worker (modelId, policy) }

/-- One section of a call; `none` if there is no such section to enter. -/
def step : PolicyEvent → Option PolicyRegistry
  | .onWorkerAdded worker modelId policyHint =>
    if (registry.calls.lookup worker).isSome ∨ (registry.handed.lookup worker).isSome then none
    else
      some { registry with
        calls := registry.calls.insert worker (.added modelId policyHint .count) }
  | .onWorkerRemoved worker =>
    match registry.handed.lookup worker with
    | none => none
    | some (modelId, _) =>
      some { registry with
        calls := registry.calls.insert worker (.removed modelId .count)
        handed := registry.handed.erase worker }
  | .proceed worker =>
    match registry.calls.lookup worker with
    | none => none
    | some (.added modelId policyHint .count) =>
      some { registry with
        modelWorkerCounts := registry.modelWorkerCounts.update modelId (· + 1)
        calls := registry.calls.insert worker (.added modelId policyHint .find) }
    | some (.added modelId policyHint .find) =>
      match registry.modelPolicies.lookup modelId with
      | some policy => some (registry.hand worker modelId policy)
      | none =>
        let (policy, created) := registry.determinePolicyForModel policyHint
        some { created with
          calls := registry.calls.insert worker (.added modelId policyHint (.store policy)) }
    | some (.added modelId _ (.store policy)) =>
      some { registry.hand worker modelId policy with
        modelPolicies := registry.modelPolicies.insert modelId policy }
    | some (.removed modelId .count) =>
      match registry.modelWorkerCounts.lookup modelId with
      | none => some { registry with calls := registry.calls.erase worker }
      | some count =>
        if count - 1 = 0 then
          some { registry with
            modelWorkerCounts := registry.modelWorkerCounts.erase modelId
            calls := registry.calls.insert worker (.removed modelId .cleanUp) }
        else
          some { registry with
            modelWorkerCounts := registry.modelWorkerCounts.insert modelId (count - 1)
            calls := registry.calls.erase worker }
    | some (.removed modelId .cleanUp) =>
      some { registry with
        modelPolicies := registry.modelPolicies.erase modelId
        calls := registry.calls.erase worker }

def workerCount (modelId : String) : Nat :=
  (registry.modelWorkerCounts.lookup modelId).getD 0

/-- With no call in progress exactly the models with workers have a policy, and the
workers of a model were handed the same one. -/
structure Consistent : Prop where
  policies : registry.calls = ∅ → ∀ modelId,
    (registry.modelPolicies.lookup modelId).isSome ↔ 0 < registry.workerCount modelId
  handed : registry.calls = ∅ → ∀ worker other modelId policy otherPolicy,
    registry.handed.lookup worker = some (modelId, policy) →
    registry.handed.lookup other = some (modelId, otherPolicy) → policy = otherPolicy

end PolicyRegistry

def PolicyCall.Engages (modelId : String) : PolicyCall → Prop
  | .added other _ phase => other = modelId ∧ phase ≠ .count
  | .removed other _ => other = modelId

instance (modelId : String) (call : PolicyCall) : Decidable (call.Engages modelId) :=
  match call with
  | .added other _ phase => inferInstanceAs (Decidable (other = modelId ∧ phase ≠ .count))
  | .removed other _ => inferInstanceAs (Decidable (other = modelId))

def PolicyCall.modelId : PolicyCall → String
  | .added modelId _ _ => modelId
  | .removed modelId _ => modelId

variable {modelId : String} {call : PolicyCall}

theorem PolicyCall.Engages.modelId_eq
    (engages : call.Engages modelId) : call.modelId = modelId := by
  cases call with
  | added => exact engages.1
  | removed => exact engages

def PolicyCall.counting : PolicyCall → Option String
  | .added modelId _ .count => some modelId
  | _ => none

def PolicyCall.weight (modelId : String) : PolicyCall → Nat
  | .added other _ phase => if other = modelId ∧ phase ≠ .count then 1 else 0
  | .removed other phase => if other = modelId ∧ phase = .count then 1 else 0

def handedWeight (modelId : String) (handed : String × PolicyObject) : Nat :=
  if handed.1 = modelId then 1 else 0

namespace PolicyRegistry

/-- A worker is counted only if no other call of its model that is under way is about
to store or to take away the policy of the model: the model has its policy, and no
removal cleans it up. -/
def Separates (registry : PolicyRegistry) : PolicyEvent → Prop
  | .proceed worker =>
    ∀ own ∈ registry.calls.lookup worker, ∀ modelId ∈ own.counting,
      ∀ other ∈ registry.calls.values, other.Engages modelId →
        (registry.modelPolicies.lookup modelId).isSome ∧ other ≠ .removed modelId .cleanUp
  | _ => True

instance (registry : PolicyRegistry) (event : PolicyEvent) : Decidable (registry.Separates event) :=
  match event with
  | .proceed worker => inferInstanceAs (Decidable (∀ own ∈ registry.calls.lookup worker,
      ∀ modelId ∈ own.counting, ∀ other ∈ registry.calls.values, other.Engages modelId →
        (registry.modelPolicies.lookup modelId).isSome ∧ other ≠ .removed modelId .cleanUp))
  | .onWorkerAdded _ _ _ => inferInstanceAs (Decidable True)
  | .onWorkerRemoved _ => inferInstanceAs (Decidable True)

/-- What a model and the calls under way for it look like. A model without policy is
opened by at most one addition; a model with policy is served, or closed by one
removal. -/
inductive Staged (registry : PolicyRegistry) (modelId : String) : Prop where
  | vacant (opener) (absent : registry.modelPolicies.lookup modelId = none)
      (engaged : ∀ worker call, registry.calls.lookup worker = some call → call.Engages modelId →
        worker = opener ∧ ∃ hint phase, call = .added modelId hint phase)
      (handed : ∀ worker entry, registry.handed.lookup worker = some entry → entry.1 ≠ modelId)
  | serving (policy) (stored : registry.modelPolicies.lookup modelId = some policy)
      (counted : 0 < registry.workerCount modelId)
      (engaged : ∀ worker call, registry.calls.lookup worker = some call → call.Engages modelId →
        (∃ hint, call = .added modelId hint .find) ∨ call = .removed modelId .count)
      (handed : ∀ worker entry, registry.handed.lookup worker = some entry → entry.1 = modelId →
        entry.2 = policy)
  | closing (closer) (calling : registry.calls.lookup closer = some (.removed modelId .cleanUp))
      (engaged : ∀ worker call, registry.calls.lookup worker = some call → call.Engages modelId →
        worker = closer)
      (handed : ∀ worker entry, registry.handed.lookup worker = some entry → entry.1 ≠ modelId)

structure Inv (registry : PolicyRegistry) : Prop where
  counted : ∀ modelId, registry.workerCount modelId =
    registry.calls.total (PolicyCall.weight modelId) + registry.handed.total (handedWeight modelId)
  positive : ∀ modelId, registry.modelWorkerCounts.lookup modelId ≠ some 0
  apart : ∀ worker entry, registry.handed.lookup worker = some entry →
    registry.calls.lookup worker = none
  staged : ∀ modelId, registry.Staged modelId

variable {registry next : PolicyRegistry}

theorem inv_new (defaultName : String) : (new defaultName).Inv :=
  ⟨fun _ => rfl, nofun, nofun, fun _ => .vacant 0 rfl nofun nofun⟩

theorem Staged.congr (staged : registry.Staged modelId)
    (policies : next.modelPolicies.lookup modelId = registry.modelPolicies.lookup modelId)
    (count : next.workerCount modelId = registry.workerCount modelId)
    (calls : ∀ worker call, call.Engages modelId →
      (next.calls.lookup worker = some call ↔ registry.calls.lookup worker = some call))
    (present : ∀ worker entry, entry.1 = modelId →
      (next.handed.lookup worker = some entry ↔ registry.handed.lookup worker = some entry)) :
    next.Staged modelId := by
  cases staged with
  | vacant opener absent engaged handed =>
    refine .vacant opener (policies.trans absent) (fun worker call found engages => ?_)
      fun worker entry found own => ?_
    · exact engaged _ _ ((calls _ _ engages).mp found) engages
    · exact handed _ _ ((present _ _ own).mp found) own
  | serving _ stored counted engaged handed =>
    refine .serving _ (policies.trans stored) (count ▸ counted)
      (fun worker call found engages => ?_) fun worker entry found own => ?_
    · exact engaged _ _ ((calls _ _ engages).mp found) engages
    · exact handed _ _ ((present _ _ own).mp found) own
  | closing _ calling engaged handed =>
    refine .closing _ ((calls _ (.removed _ .cleanUp) rfl).mpr calling) (fun worker _ found engages => ?_)
      fun _ _ found own => ?_
    · exact engaged _ _ ((calls _ _ engages).mp found) engages
    · exact handed _ _ ((present _ _ own).mp found) own

theorem Inv.consistent (inv : registry.Inv) : registry.Consistent := by
  have uncalled (quiet : registry.calls = ∅) worker :
      registry.calls.lookup worker = none := by
    rw [quiet]
    rfl
  refine ⟨fun quiet modelId => ?_, fun quiet worker _ modelId _ _ found => ?_⟩
  · cases inv.staged modelId with
    | vacant _ absent _ handed =>
      have uncounted : registry.workerCount modelId = 0 := by
        rw [inv.counted modelId, quiet, total_eq_zero registry.handed]
        · rfl
        · exact fun _ _ found => if_neg (handed _ _ found)
      simp [absent, uncounted]
    | serving _ stored counted => simp [stored, counted]
    | closing closer calling => cases (uncalled quiet closer).symm.trans calling
  · intro otherFound
    cases inv.staged modelId with
    | vacant _ _ _ handed | closing _ _ _ handed => exact absurd rfl (handed _ _ found)
    | serving _ _ _ _ handed =>
      exact (handed _ _ found rfl).trans (handed _ _ otherFound rfl).symm

section Sections

variable {worker : Nat} {old new : Option PolicyCall} {left taken : Option (String × PolicyObject)}

/-- A section of a call for a model: the call goes on or ends, its worker is taken back
or handed a policy, and the other models are not concerned. -/
structure Turn (registry next : PolicyRegistry) (modelId : String) (worker : Nat)
    (old new : Option PolicyCall) (left taken : Option (String × PolicyObject)) : Prop where
  calls : Swaps registry.calls next.calls worker old new
  handed : Swaps registry.handed next.handed worker left taken
  before : ∀ call ∈ old, call.modelId = modelId
  after : ∀ call ∈ new, call.modelId = modelId
  giver : ∀ entry ∈ left, entry.1 = modelId
  taker : ∀ entry ∈ taken, entry.1 = modelId
  alone : taken = none ∨ new = none
  counts : ∀ other, other ≠ modelId →
    next.modelWorkerCounts.lookup other = registry.modelWorkerCounts.lookup other
  policies : ∀ other, other ≠ modelId →
    next.modelPolicies.lookup other = registry.modelPolicies.lookup other

theorem modelId_of_mem {own : PolicyCall} : ∀ call ∈ some own, call.modelId = own.modelId := by
  rintro _ ⟨⟩
  rfl

theorem lookup_engaging (calls : Swaps registry.calls next.calls worker old new)
    (before : ∀ call ∈ old, ¬ call.Engages modelId) (after : ∀ call ∈ new, ¬ call.Engages modelId)
    (other : Nat) (call : PolicyCall) (engages : call.Engages modelId) :
    next.calls.lookup other = some call ↔ registry.calls.lookup other = some call := by
  rw [calls.lookup]
  split
  · rename_i same
    rw [same, calls.found]
    exact ⟨fun stored => absurd engages (after _ stored),
      fun stored => absurd engages (before _ stored)⟩
  · rfl

variable {other : String}

theorem Turn.staged_other (turn : Turn registry next modelId worker old new left taken)
    (apart : other ≠ modelId) (staged : registry.Staged other) : next.Staged other := by
  refine staged.congr (turn.policies _ apart) ?_ ?_ fun _ _ own => ?_
  · rw [workerCount, turn.counts other apart]
    rfl
  · exact lookup_engaging turn.calls
      (fun call old engages => apart (engages.modelId_eq.symm.trans (turn.before _ old)))
      fun _ new engages => apart (engages.modelId_eq.symm.trans (turn.after _ new))
  · rw [turn.handed.lookup]
    split
    · rename_i same
      rw [same, turn.handed.found]
      exact ⟨fun stored => absurd (own.symm.trans (turn.taker _ stored)) apart,
        fun stored => absurd (own.symm.trans (turn.giver _ stored)) apart⟩
    · rfl

theorem weight_foreign (apart : other ≠ modelId) (own : ∀ call ∈ old, call.modelId = modelId) :
    (old.map (PolicyCall.weight other)).getD 0 = 0 := by
  cases old with
  | none => rfl
  | some call =>
    have foreign := own _ rfl
    cases call <;> exact if_neg fun same => apart (same.1.symm.trans foreign)

theorem handedWeight_foreign (apart : other ≠ modelId)
    (own : ∀ entry ∈ left, entry.1 = modelId) : (left.map (handedWeight other)).getD 0 = 0 := by
  cases left with
  | none => rfl
  | some _ => exact if_neg fun same => apart (same.symm.trans (own _ rfl))

theorem Staged.serving_of_removed (staged : registry.Staged modelId)
    (found : registry.calls.lookup worker = some (.removed modelId .count)) :
    ∃ policy, registry.modelPolicies.lookup modelId = some policy ∧
      (∀ worker call, registry.calls.lookup worker = some call → call.Engages modelId →
        (∃ hint, call = .added modelId hint .find) ∨ call = .removed modelId .count) ∧
      ∀ worker entry, registry.handed.lookup worker = some entry → entry.1 = modelId →
        entry.2 = policy := by
  cases staged with
  | vacant _ _ engaged =>
    obtain ⟨_, _, _, other⟩ := engaged _ _ found rfl
    cases other
  | closing _ calling engaged =>
    cases engaged worker _ found rfl
    cases found.symm.trans calling
  | serving policy stored _ engaged handed => exact ⟨policy, stored, engaged, handed⟩

variable (inv : registry.Inv)

include inv

/-- Only the model of the call has to be looked at. -/
theorem Inv.turn (modelId : String) (turn : Turn registry next modelId worker old new left taken)
    (balance : next.workerCount modelId + (old.map (PolicyCall.weight modelId)).getD 0 +
        (left.map (handedWeight modelId)).getD 0 =
      registry.workerCount modelId + (new.map (PolicyCall.weight modelId)).getD 0 +
        (taken.map (handedWeight modelId)).getD 0)
    (positive : next.modelWorkerCounts.lookup modelId ≠ some 0) (staged : next.Staged modelId) :
    next.Inv := by
  refine ⟨fun other => ?_, fun other => ?_, fun present entry found => ?_, fun other => ?_⟩
  · have calls := turn.calls.total (PolicyCall.weight other)
    have handed := turn.handed.total (handedWeight other)
    have counted := inv.counted other
    by_cases same : other = modelId
    · subst same
      omega
    · rw [weight_foreign same turn.before, weight_foreign same turn.after] at calls
      rw [handedWeight_foreign same turn.giver, handedWeight_foreign same turn.taker] at handed
      rw [workerCount] at counted ⊢
      rw [turn.counts other same]
      omega
  · by_cases same : other = modelId
    · exact same ▸ positive
    · exact turn.counts _ same ▸ inv.positive _
  · rw [turn.calls.lookup]
    rcases turn.handed.of_lookup found with ⟨here, handed⟩ | ⟨apart, handed⟩
    · rw [if_pos here]
      exact turn.alone.resolve_left (by rw [handed]; exact Option.some_ne_none entry)
    · rw [if_neg apart]
      exact inv.apart present _ handed
  · by_cases same : other = modelId
    · exact same ▸ staged
    · exact turn.staged_other same (inv.staged _)

theorem Inv.unhanded (found : registry.calls.lookup worker = some call) :
    registry.handed.lookup worker = none := by
  cases present : registry.handed.lookup worker with
  | none => rfl
  | some entry => cases found.symm.trans (inv.apart worker entry present)

variable {policyHint : Option String} {policy : PolicyObject}

theorem Inv.begin_added (uncalled : registry.calls.lookup worker = none)
    (unhanded : registry.handed.lookup worker = none) :
    Inv { registry with calls := registry.calls.insert worker (.added modelId policyHint .count) } := by
  have calls := Swaps.insert uncalled (PolicyCall.added modelId policyHint .count)
  refine inv.turn modelId ⟨calls, .none unhanded, nofun, modelId_of_mem, nofun, nofun,
    .inl rfl, fun _ _ => rfl, fun _ _ => rfl⟩ ?_ (inv.positive _) ?_
  · simp [PolicyCall.weight, workerCount]
  · refine (inv.staged _).congr rfl rfl (lookup_engaging calls nofun ?_) fun _ _ _ => Iff.rfl
    rintro _ ⟨⟩ engages
    exact engages.2 rfl

theorem Inv.begin_removed (present : registry.handed.lookup worker = some (modelId, policy)) :
    Inv { registry with
      calls := registry.calls.insert worker (.removed modelId .count)
      handed := registry.handed.erase worker } := by
  have calls := Swaps.insert (inv.apart worker _ present) (PolicyCall.removed modelId .count)
  have handed := Swaps.erase present
  refine inv.turn _ ⟨calls, handed, nofun, modelId_of_mem, ?_, nofun, .inl rfl,
    fun _ _ => rfl, fun _ _ => rfl⟩ ?_ (inv.positive _) ?_
  · rintro _ ⟨⟩
    rfl
  · simp [PolicyCall.weight, handedWeight, workerCount]
  · cases inv.staged modelId with
    | vacant _ _ _ unhanded | closing _ _ _ unhanded => exact absurd rfl (unhanded _ _ present)
    | serving current stored counted engaged same =>
      refine .serving current stored counted (fun caller _ calling engages => ?_)
        fun _ _ found own => ?_
      · rcases calls.of_lookup calling with ⟨_, ⟨⟩⟩ | ⟨_, calling⟩
        · exact .inr rfl
        · exact engaged _ _ calling engages
      · rcases handed.of_lookup found with ⟨_, ⟨⟩⟩ | ⟨_, found⟩
        exact same _ _ found own

theorem Inv.count_added
    (found : registry.calls.lookup worker = some (.added modelId policyHint .count))
    (separates : ∀ other ∈ registry.calls.values, other.Engages modelId →
      (registry.modelPolicies.lookup modelId).isSome ∧ other ≠ .removed modelId .cleanUp) :
    Inv { registry with
      modelWorkerCounts := registry.modelWorkerCounts.update modelId (· + 1)
      calls := registry.calls.insert worker (.added modelId policyHint .find) } := by
  have calls := Swaps.insert found (PolicyCall.added modelId policyHint .find)
  have listed {caller : Nat} {call : PolicyCall}
      (calling : registry.calls.lookup caller = some call) : call ∈ registry.calls.values :=
    (mem_values_iff _ _).mpr ⟨caller, calling⟩
  refine inv.turn modelId ⟨calls, .none (inv.unhanded found), modelId_of_mem,
    modelId_of_mem, nofun, nofun, .inl rfl, fun _ apart => ?_, fun _ _ => rfl⟩ ?_ ?_ ?_
  · rw [lookup_update, if_neg apart]
  · simp [PolicyCall.weight, workerCount, lookup_update]
  · simp [lookup_update]
  · cases inv.staged modelId with
    | vacant _ absent _ handed =>
      refine .vacant worker absent (fun caller call calling engages => ?_) handed
      rcases calls.of_lookup calling with ⟨here, ⟨⟩⟩ | ⟨_, calling⟩
      · exact ⟨here, policyHint, .find, rfl⟩
      · have stored := (separates call (listed calling) engages).1
        rw [absent] at stored
        cases stored
    | serving policy stored _ engaged handed =>
      refine .serving policy stored (by simp [workerCount, lookup_update])
        (fun caller call calling engages => ?_) handed
      rcases calls.of_lookup calling with ⟨_, ⟨⟩⟩ | ⟨_, calling⟩
      · exact .inl ⟨policyHint, rfl⟩
      · exact engaged caller _ calling engages
    | closing _ calling =>
      exact absurd rfl (separates _ (listed calling) rfl).2

theorem Inv.hand {phase : AddPhase} {policies : Table String PolicyObject}
    (found : registry.calls.lookup worker = some (.added modelId policyHint phase))
    (counted : phase ≠ .count) (stored : policies.lookup modelId = some policy)
    (others : ∀ other, other ≠ modelId →
      policies.lookup other = registry.modelPolicies.lookup other)
    (engaged : ∀ caller call, caller ≠ worker → registry.calls.lookup caller = some call →
      call.Engages modelId →
        (∃ hint, call = .added modelId hint .find) ∨ call = .removed modelId .count)
    (same : ∀ caller entry, registry.handed.lookup caller = some entry → entry.1 = modelId →
      entry.2 = policy) :
    Inv { registry.hand worker modelId policy with modelPolicies := policies } := by
  have calls := Swaps.erase found
  have handed := Swaps.insert (inv.unhanded found) (modelId, policy)
  refine inv.turn _ ⟨calls, handed, modelId_of_mem, nofun, nofun, ?_, .inr rfl,
    fun _ _ => rfl, others⟩ ?_ (inv.positive _) ?_
  · rintro _ ⟨⟩
    rfl
  · simp [PolicyCall.weight, handedWeight, counted, workerCount, PolicyRegistry.hand]
  · refine .serving _ stored ?_ (fun caller call calling engages => ?_)
      fun caller entry present owner => ?_
    · -- The call itself counts for a worker of the model.
      have weighed := registry.calls.measure_le_total (PolicyCall.weight modelId) found
      have before := inv.counted modelId
      rw [PolicyCall.weight, if_pos ⟨rfl, counted⟩] at weighed
      change 0 < registry.workerCount modelId
      omega
    · rcases calls.of_lookup calling with ⟨_, ⟨⟩⟩ | ⟨apart, calling⟩
      exact engaged _ _ apart calling engages
    · rcases handed.of_lookup present with ⟨_, ⟨⟩⟩ | ⟨_, present⟩
      · rfl
      · exact same caller _ present owner

variable (found : registry.calls.lookup worker = some (.added modelId policyHint .find))

include found

theorem Inv.find_stored (stored : registry.modelPolicies.lookup modelId = some policy) :
    (registry.hand worker modelId policy).Inv := by
  have engages : PolicyCall.Engages modelId (.added modelId policyHint .find) := ⟨rfl, nofun⟩
  cases inv.staged modelId with
  | vacant _ absent => cases absent.symm.trans stored
  | closing _ calling engaged =>
    cases engaged worker _ found engages
    cases found.symm.trans calling
  | serving _ current_is _ engaged handed =>
    cases current_is.symm.trans stored
    exact inv.hand found nofun stored (fun _ _ => rfl) (fun _ _ _ => engaged _ _) handed

theorem Inv.find_absent {nextAddress : Nat}
    (absent : registry.modelPolicies.lookup modelId = none) :
    Inv { registry with
      nextAddress := nextAddress
      calls := registry.calls.insert worker (.added modelId policyHint (.store policy)) } := by
  have calls := Swaps.insert found (PolicyCall.added modelId policyHint (.store policy))
  have engages : PolicyCall.Engages modelId (.added modelId policyHint .find) := ⟨rfl, nofun⟩
  refine inv.turn _ ⟨calls, .none (inv.unhanded found), modelId_of_mem,
    modelId_of_mem, nofun, nofun, .inl rfl, fun _ _ => rfl, fun _ _ => rfl⟩ ?_
    (inv.positive _) ?_
  · simp [PolicyCall.weight, workerCount]
  · cases inv.staged modelId with
    | vacant opener _ engaged handed =>
      refine .vacant opener absent (fun _ _ calling engages' => ?_) handed
      rcases calls.of_lookup calling with ⟨here, ⟨⟩⟩ | ⟨_, calling⟩
      · exact ⟨here.trans (engaged _ _ found engages).1, policyHint, .store _, rfl⟩
      · exact engaged _ _ calling engages'
    | serving _ stored => cases absent.symm.trans stored
    | closing _ calling engaged =>
      cases engaged worker _ found engages
      cases found.symm.trans calling

omit found

theorem Inv.store
    (found : registry.calls.lookup worker = some (.added modelId policyHint (.store policy))) :
    Inv { registry.hand worker modelId policy with
      modelPolicies := registry.modelPolicies.insert modelId policy } := by
  have engages : PolicyCall.Engages modelId (.added modelId policyHint (.store policy)) :=
    ⟨rfl, nofun⟩
  cases inv.staged modelId with
  | serving _ _ _ engaged =>
    rcases engaged worker _ found engages with ⟨hint, other⟩ | other <;> cases other
  | closing _ calling engaged =>
    cases engaged worker _ found engages
    cases found.symm.trans calling
  | vacant _ _ engaged handed =>
    refine inv.hand found nofun (AList.lookup_insert _) (fun _ apart => ?_)
      (fun _ _ apart calling engages' => ?_) fun _ _ present own => ?_
    · rw [lookup_insert_eq, if_neg apart]
    · have opener_is := (engaged _ _ found engages).1
      exact absurd ((engaged _ _ calling engages').1.trans opener_is.symm) apart
    · exact absurd own (handed _ _ present)

theorem Inv.count_removed {count : Nat}
    (found : registry.calls.lookup worker = some (.removed modelId .count))
    (counts : registry.modelWorkerCounts.lookup modelId = some count) (several : count - 1 ≠ 0) :
    Inv { registry with
      modelWorkerCounts := registry.modelWorkerCounts.insert modelId (count - 1)
      calls := registry.calls.erase worker } := by
  have calls := Swaps.erase found
  refine inv.turn modelId ⟨calls, .none (inv.unhanded found), modelId_of_mem, nofun, nofun,
    nofun, .inl rfl, fun _ apart => ?_, fun _ _ => rfl⟩ ?_ ?_ ?_
  · rw [lookup_insert_eq, if_neg apart]
  · simp only [workerCount, counts, AList.lookup_insert, PolicyCall.weight, and_self, if_true,
      Option.map_some, Option.getD_some, Option.map_none, Option.getD_none]
    omega
  · simpa using several
  · obtain ⟨policy, stored, engaged, handed⟩ := (inv.staged modelId).serving_of_removed found
    refine .serving policy stored ?_ (fun caller call calling => ?_) handed
    · simp only [workerCount, AList.lookup_insert, Option.getD_some]
      omega
    · rcases calls.of_lookup calling with ⟨_, ⟨⟩⟩ | ⟨_, calling⟩
      exact engaged caller _ calling

theorem Inv.count_removed_last {count : Nat}
    (found : registry.calls.lookup worker = some (.removed modelId .count))
    (counts : registry.modelWorkerCounts.lookup modelId = some count) (last : count - 1 = 0) :
    Inv { registry with
      modelWorkerCounts := registry.modelWorkerCounts.erase modelId
      calls := registry.calls.insert worker (.removed modelId .cleanUp) } := by
  have one : registry.workerCount modelId = 1 := by
    have some_left : count ≠ 0 := fun zero => inv.positive modelId (zero ▸ counts)
    rw [workerCount, counts, Option.getD_some]
    omega
  have calls := Swaps.insert found (PolicyCall.removed modelId .cleanUp)
  refine inv.turn modelId ⟨calls, .none (inv.unhanded found), modelId_of_mem,
    modelId_of_mem, nofun, nofun, .inl rfl, fun _ apart => ?_, fun _ _ => rfl⟩ ?_ ?_ ?_
  · rw [lookup_erase_eq, if_neg apart]
  · rw [one]
    simp [workerCount, PolicyCall.weight]
  · simp
  · have before := inv.counted modelId
    have own := registry.calls.measure_le_total (PolicyCall.weight modelId) found
    simp only [PolicyCall.weight, and_self, if_true] at own
    obtain ⟨_, _, engaged, _⟩ := (inv.staged modelId).serving_of_removed found
    refine .closing worker (AList.lookup_insert _) (fun caller call calling engages => ?_)
      fun caller _ present owner => ?_
    · rcases calls.of_lookup calling with ⟨here, _⟩ | ⟨apart, calling⟩
      · exact here
      · -- Another call under way would count for a second worker.
        have both := registry.calls.measure_add_le_total (PolicyCall.weight modelId) apart found
          calling
        rcases engaged caller call calling engages with ⟨hint, rfl⟩ | rfl <;>
          simp [PolicyCall.weight] at both <;> omega
    · have weighed := registry.handed.measure_le_total (handedWeight modelId) present
      rw [handedWeight, if_pos owner] at weighed
      omega

theorem Inv.cleanUp (found : registry.calls.lookup worker = some (.removed modelId .cleanUp)) :
    Inv { registry with
      modelPolicies := registry.modelPolicies.erase modelId
      calls := registry.calls.erase worker } := by
  have calls := Swaps.erase found
  refine inv.turn modelId ⟨calls, .none (inv.unhanded found), modelId_of_mem, nofun, nofun,
    nofun, .inl rfl, fun _ _ => rfl, fun other apart => ?_⟩ ?_ (inv.positive modelId) ?_
  · rw [lookup_erase_eq, if_neg apart]
  · simp [workerCount, PolicyCall.weight]
  · cases inv.staged modelId with
    | vacant _ _ engaged =>
      obtain ⟨_, _, _, other⟩ := engaged _ _ found rfl
      cases other
    | serving _ _ _ engaged =>
      rcases engaged worker _ found rfl with ⟨hint, other⟩ | other <;> cases other
    | closing _ calling engaged handed =>
      refine .vacant worker (AList.lookup_erase _ _) (fun _ _ calling engages => ?_) handed
      rcases calls.of_lookup calling with ⟨_, ⟨⟩⟩ | ⟨apart, calling⟩
      exact absurd ((engaged _ _ calling engages).trans (engaged _ _ found rfl).symm) apart

theorem Inv.step {event : PolicyEvent} (steps : registry.step event = some next)
    (separates : registry.Separates event) : next.Inv := by
  revert steps separates
  fun_cases PolicyRegistry.step registry event with
  | case2 _ _ _ fresh =>
    simp only [not_or, Option.not_isSome_iff_eq_none] at fresh
    rintro ⟨⟩ _
    exact inv.begin_added fresh.1 fresh.2
  | case4 _ _ _ present =>
    rintro ⟨⟩ _
    exact inv.begin_removed present
  | case6 _ modelId _ found =>
    rintro ⟨⟩ separates
    exact inv.count_added found (separates _ found modelId rfl)
  | case7 _ _ _ found _ stored =>
    rintro ⟨⟩ _
    exact inv.find_stored found stored
  | case8 _ _ _ found absent _ _ determined =>
    rintro ⟨⟩ _
    unfold determinePolicyForModel createPolicyFromType at determined
    split at determined
    · split at determined
      all_goals
        cases determined
        exact inv.find_absent found absent
    · cases determined
      exact inv.find_absent found absent
  | case9 _ _ _ _ found =>
    rintro ⟨⟩ _
    exact inv.store found
  | case10 _ modelId found uncounted =>
    -- A removal of an added worker finds a count.
    have own := registry.calls.measure_le_total (PolicyCall.weight modelId) found
    have counted := inv.counted modelId
    rw [workerCount, uncounted, Option.getD_none] at counted
    simp only [PolicyCall.weight, and_self, if_true] at own
    omega
  | case11 _ _ found _ counts last =>
    rintro ⟨⟩ _
    exact inv.count_removed_last found counts last
  | case12 _ _ found _ counts several =>
    rintro ⟨⟩ _
    exact inv.count_removed found counts several
  | case13 _ _ found =>
    rintro ⟨⟩ _
    exact inv.cleanUp found
  | case1 | case3 | case5 => rintro ⟨⟩

end Sections

/-- In every run in which no worker is counted while another call is about to store
or to take away the policy of its model, models and policies agree whenever no call
is in progress. -/
theorem run_policiesConsistent (defaultName : String) (events : List PolicyEvent)
    (separates : Throughout step (new defaultName) Separates events) :
    Along step (new defaultName) Consistent events := by
  intro _ _ _ split reaches
  exact ((separates.take split).invariant (inv_new _)
    (fun inv steps fine => inv.step steps fine) reaches).consistent

/-- An addition comes between the two sections of a removal, and its model is left
without a policy; two additions overlap, and their workers are handed two policies. -/
theorem run_policiesConsistent_fails :
    (∃ registry, runFrom step (new "round_robin")
        [.onWorkerAdded 0 "model" none, .proceed 0, .proceed 0, .proceed 0, .onWorkerRemoved 0,
          .proceed 0, .onWorkerAdded 1 "model" none, .proceed 1, .proceed 1, .proceed 0] =
          some registry ∧
      registry.calls = ∅ ∧ registry.workerCount "model" = 1 ∧
      registry.modelPolicies.lookup "model" = none) ∧
    ∃ registry, runFrom step (new "round_robin")
        [.onWorkerAdded 0 "model" (some "random"), .onWorkerAdded 1 "model" (some "random"),
          .proceed 0, .proceed 0, .proceed 1, .proceed 1, .proceed 0, .proceed 1] =
          some registry ∧
      registry.calls = ∅ ∧ registry.handed.lookup 0 = some ("model", ⟨1, "random"⟩) ∧
      registry.handed.lookup 1 = some ("model", ⟨2, "random"⟩) :=
  ⟨⟨_, rfl, rfl, rfl, rfl⟩, ⟨_, rfl, rfl, rfl, rfl⟩⟩

/-- Additions overlap once the model has its policy. -/
theorem run_policiesConsistent_overlapping :
    ∃ events registry, runFrom step (new "round_robin") events = some registry ∧
      Throughout step (new "round_robin") Separates events ∧ registry.Consistent ∧
      registry.calls = ∅ ∧ registry.workerCount "model" = 2 := by
  have separates : Throughout step (new "round_robin") Separates
      [.onWorkerAdded 0 "model" (some "random"), .proceed 0, .proceed 0, .proceed 0,
        .onWorkerAdded 1 "model" none, .onWorkerAdded 2 "model" none, .proceed 1, .proceed 2,
        .proceed 2, .onWorkerRemoved 0, .proceed 0, .proceed 1] := by
    decide +kernel
  have law := run_policiesConsistent "round_robin" _ separates
  exact ⟨_, _, rfl, separates, law _ [] _ (List.append_nil _).symm rfl, rfl, rfl⟩

end PolicyRegistry

end SmetricRouter.Policies
