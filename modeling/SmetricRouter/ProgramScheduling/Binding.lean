import SmetricRouter.ProgramScheduling.Domain
import SmetricRouter.Library.Ordering

/-! Initial Program-to-backend binding policies.

Binding is evaluated for a new Program generation and after a failover. The
table records home affinity only, not runtime placement. The prefix tree of
cache-aware binding and the hash of consistent hashing are parameters.
-/

namespace SmetricRouter.ProgramScheduling

open Table

inductive ProgramBindingStrategy where
  | consistentHash
  | programRoundRobin
  | leastProgramCount
  | reasoningTokenBalance
  | cacheAware
  deriving DecidableEq, Repr

structure ProgramBindingCandidate (F : Type) where
  targetId : String
  accountedPrograms : Nat
  accountedTokens : F
  capacityTokens : Option Nat
  kvPressure : F
  immediatelyAdmissible : Bool

/-- The prefix tree behind cache-aware binding: which tenants own which text. -/
class AffinityTree (T : Type) where
  empty : T
  insert : T → String → String → T
  removeTenant : T → String → T
  prefixMatchTenantCharCount : T → String → String → Nat
  evictTenantBySize : T → Nat → T

/-- The state of the selected policy. A consistent-hash ring is kept per pool
together with the target list it was built from. -/
inductive ProgramBindingPolicy (T : Type) where
  | consistentHash (virtualNodes : Nat) (rings : Table String (List String × Table Nat String))
  | roundRobin (nextByModel : Table String Nat)
  | leastProgramCount
  | reasoningTokenBalance
  | cacheAware (trees : Table String T)

/-- Stable Program binding table plus one selected initial-binding policy. -/
structure ProgramBindings (T : Type) where
  policy : ProgramBindingPolicy T
  bindings : Table RuntimeKey String

/-- Models without a usable name share one affinity tree. -/
def normalizeModelKey (modelId : String) : String :=
  if modelId = "" ∨ modelId = "unknown" then "default" else modelId

/-- Place the virtual nodes of every target; a later node takes over a point
that an earlier one already holds. -/
def buildRing (fbiHash : String → Nat) (virtualNodes : Nat) (targets : List String) :
    Table Nat String :=
  targets.foldl
    (fun ring target =>
      (List.range virtualNodes).foldl
        (fun ring node => ring.insert (fbiHash (target ++ ":" ++ toString node)) target) ring)
    ∅

/-- The first point at or after `hash`, or the first point of the ring. -/
def ringSuccessor (ring : Table Nat String) (hash : Nat) : Option String :=
  let points := ring.keys.insertionSort (· ≤ ·)
  ((points.find? fun point => decide (hash ≤ point)).or points.head?).bind ring.lookup

section Selection

variable {F T : Type} [F64 F] [AffinityTree T] (candidates : List (ProgramBindingCandidate F))

def selectLeastProgramCount : Option String :=
  (minBy (fun left right : ProgramBindingCandidate F =>
      (compare left.accountedPrograms right.accountedPrograms).then
        (compare left.targetId right.targetId))
    candidates).map (·.targetId)

def selectReasoningTokenBalance : Except Fault (Option String) := do
  let remaining ← candidates.mapM fun candidate =>
    match candidate.capacityTokens with
    | some capacity => .ok (candidate.targetId, F64.ofNat capacity - candidate.accountedTokens)
    | none => .error .capacityMissing
  return (maxBy (fun left right : String × F =>
      (F64.totalCmp left.2 right.2).then (compare right.1 left.1))
    remaining).map (·.1)

def evaluateInitialPlacement (trees : Table String T) (modelPool requestText : String)
    (candidates : List (ProgramBindingCandidate F)) : Option String :=
  let tree := trees.lookup (normalizeModelKey modelPool)
  let inputChars := requestText.length
  let scored := candidates.map fun candidate =>
    let matchedChars := (tree.map fun tree =>
      AffinityTree.prefixMatchTenantCharCount tree requestText candidate.targetId).getD 0
    let affinity : F :=
      if inputChars = 0 then F64.lit 0 else F64.ofNat matchedChars / F64.ofNat inputChars
    let headroom := F64.lit 1 - F64.clamp candidate.kvPressure (F64.lit 0) (F64.lit 1)
    (candidate.targetId, affinity, headroom, (F64.lit 1 + affinity) * headroom)
  (maxBy (fun left right : String × F × F × F =>
      (((F64.totalCmp left.2.2.2 right.2.2.2).then
        (F64.totalCmp left.2.2.1 right.2.2.1)).then
        (F64.totalCmp left.2.1 right.2.1)).then
        (compare right.1 left.1))
    scored).map (·.1)

def selectCacheAware (trees : Table String T) (modelPool : String)
    (candidates : List (ProgramBindingCandidate F)) (routingText : Option String) :
    Option String :=
  let eligible := candidates.filter (·.immediatelyAdmissible)
  evaluateInitialPlacement trees modelPool (routingText.getD "")
    (if eligible = [] then candidates else eligible)

namespace ProgramBindingPolicy

variable (policy : ProgramBindingPolicy T)

/-- Select the home backend for one previously unbound Program generation. The
candidates are sorted by target. -/
def select (fbiHash : String → Nat) (identity : ProgramIdentity)
    (candidates : List (ProgramBindingCandidate F)) (routingText : Option String) :
    Except Fault (Option String × ProgramBindingPolicy T) :=
  match policy with
  | .consistentHash virtualNodes rings =>
    let targets := candidates.map (·.targetId)
    let kept := (rings.lookup identity.modelPool).filter fun built => built.1 == targets
    let ring := (kept.map (·.2)).getD (buildRing fbiHash virtualNodes targets)
    .ok (ringSuccessor ring (fbiHash identity.placementHashKey),
      .consistentHash virtualNodes
        (if kept.isSome then rings else rings.insert identity.modelPool (targets, ring)))
  | .roundRobin nextByModel =>
    if candidates = [] then .ok (none, policy)
    else
      let next := (nextByModel.lookup identity.modelPool).getD 0
      .ok ((candidates[next % candidates.length]?).map (·.targetId),
        .roundRobin (nextByModel.insert identity.modelPool (wrappingSucc next)))
  | .leastProgramCount => .ok (selectLeastProgramCount candidates, policy)
  | .reasoningTokenBalance => do
    let target ← selectReasoningTokenBalance candidates
    return (target, policy)
  | .cacheAware trees =>
    .ok (selectCacheAware trees identity.modelPool candidates routingText, policy)

/-- Only cache-aware binding learns from committed placements. -/
def commitPlacement (modelPool text targetId : String) : ProgramBindingPolicy T :=
  match policy with
  | .cacheAware trees =>
    if text = "" then policy
    else
      let key := normalizeModelKey modelPool
      .cacheAware (trees.insert key
        (AffinityTree.insert ((trees.lookup key).getD AffinityTree.empty) text targetId))
  | _ => policy

def removeTarget (modelPool targetId : String) : ProgramBindingPolicy T :=
  match policy with
  | .cacheAware trees =>
    .cacheAware (trees.modify (normalizeModelKey modelPool) fun tree =>
      AffinityTree.removeTenant tree targetId)
  | _ => policy

def evict (maxSize : Nat) : ProgramBindingPolicy T :=
  match policy with
  | .cacheAware trees =>
    .cacheAware (trees.mapValues fun tree => AffinityTree.evictTenantBySize tree maxSize)
  | _ => policy

end ProgramBindingPolicy

namespace ProgramBindings

def new (strategy : ProgramBindingStrategy) (hashVirtualNodes : Nat) : ProgramBindings T where
  policy :=
    match strategy with
    | .consistentHash => .consistentHash hashVirtualNodes ∅
    | .programRoundRobin => .roundRobin ∅
    | .leastProgramCount => .leastProgramCount
    | .reasoningTokenBalance => .reasoningTokenBalance
    | .cacheAware => .cacheAware ∅
  bindings := ∅

variable (bindings : ProgramBindings T)

def bind (fbiHash : String → Nat) (identity : ProgramIdentity)
    (candidates : List (ProgramBindingCandidate F)) (routingText : Option String) :
    Except Fault (Option String × ProgramBindings T) :=
  match (bindings.bindings.lookup identity.key).filter fun target =>
      candidates.any fun candidate => candidate.targetId == target with
  | some target => .ok (some target, bindings)
  | none => do
    let ordered := sortBy (fun left right : ProgramBindingCandidate F =>
      compare left.targetId right.targetId) candidates
    let (selected, policy) ← bindings.policy.select fbiHash identity ordered routingText
    match selected with
    | none => return (none, { bindings with policy := policy })
    | some target =>
      return (some target, ⟨policy, bindings.bindings.insert identity.key target⟩)

def releaseProgram (program : ProgramRef) : ProgramBindings T :=
  { bindings with bindings := bindings.bindings.erase program.key }

def removeTarget (targetId : String) : ProgramBindings T :=
  { bindings with bindings := bindings.bindings.retain fun _ bound => bound ≠ targetId }

def commitPlacement (bindings : ProgramBindings T) (program : ProgramRef)
    (text targetId : String) : ProgramBindings T :=
  { bindings with policy := bindings.policy.commitPlacement program.modelPool text targetId }

def removeAffinityTarget (modelPool targetId : String) : ProgramBindings T :=
  { bindings with policy := bindings.policy.removeTarget modelPool targetId }

end ProgramBindings

end Selection

section Ring

variable (fbiHash : String → Nat) (virtualNodes : Nat)

/-- A target has a virtual node at a point. -/
def hasNode (point : Nat) (target : String) : Bool :=
  (List.range virtualNodes).any fun node => fbiHash (target ++ ":" ++ toString node) = point

/-- Where the target of a hash is looked up: the first point at or after the hash, or
the first of all. -/
def IsSuccessor (ring : Table Nat String) (hash point : Nat) : Prop :=
  point ∈ ring.keys ∧ ∀ other ∈ ring.keys,
    (hash ≤ other → hash ≤ point ∧ point ≤ other) ∧ (hash ≤ point ∨ point ≤ other)

variable {fbiHash virtualNodes} {ring : Table Nat String} {hash point : Nat}

theorem lookup_virtualNodes (target : String) :
    ((List.range virtualNodes).foldl (fun ring node =>
        AList.insert (fbiHash (target ++ ":" ++ toString node)) target ring) ring).lookup point =
      if hasNode fbiHash virtualNodes point target then some target else ring.lookup point := by
  unfold hasNode
  induction List.range virtualNodes generalizing ring with
  | nil => rfl
  | cons node _ ih =>
    rw [List.foldl_cons, ih, lookup_insert_eq, List.any_cons]
    by_cases placed : fbiHash (target ++ ":" ++ toString node) = point
    · simp only [placed, if_true, ite_self, decide_true, Bool.true_or]
    · simp only [placed, Ne.symm placed, if_false, decide_false, Bool.false_or]

variable (targets : List String)

/-- A point belongs to the last target that has a node there. -/
theorem lookup_buildRing :
    (buildRing fbiHash virtualNodes targets).lookup point =
      targets.reverse.find? (hasNode fbiHash virtualNodes point) := by
  have loop (ring : Table Nat String) : (targets.foldl (fun ring target =>
      (List.range virtualNodes).foldl (fun ring node =>
        AList.insert (fbiHash (target ++ ":" ++ toString node)) target ring) ring) ring).lookup point =
      (targets.reverse.find? (hasNode fbiHash virtualNodes point)).or (ring.lookup point) := by
    induction targets generalizing ring with
    | nil => rfl
    | cons _ _ ih =>
      rw [List.foldl_cons, ih, List.reverse_cons, List.find?_append, Option.or_assoc,
        lookup_virtualNodes, List.find?_singleton]
      split <;> rfl
  exact (loop ∅).trans Option.or_none

theorem mem_of_lookup_buildRing {owner : String}
    (found : (buildRing fbiHash virtualNodes targets).lookup point = some owner) :
    owner ∈ targets := by
  rw [lookup_buildRing] at found
  exact List.mem_reverse.mp (List.mem_of_find?_eq_some found)

theorem mem_keys_buildRing {targets : List String} :
    point ∈ (buildRing fbiHash virtualNodes targets).keys ↔
      ∃ target ∈ targets, hasNode fbiHash virtualNodes point target := by
  simp [mem_keys_iff, lookup_buildRing, ← Option.isSome_iff_exists]

theorem buildRing_keys_ne_nil (nodes : 0 < virtualNodes) {targets : List String}
    (listed : targets ≠ []) : (buildRing fbiHash virtualNodes targets).keys ≠ [] := by
  obtain ⟨target, member⟩ := List.exists_mem_of_ne_nil _ listed
  have placed : hasNode fbiHash virtualNodes (fbiHash (target ++ ":" ++ toString 0)) target :=
    List.any_eq_true.mpr ⟨0, List.mem_range.mpr nodes, decide_eq_true rfl⟩
  exact List.ne_nil_of_mem (mem_keys_buildRing.mpr ⟨target, member, placed⟩)

theorem exists_isSuccessor (points : ring.keys ≠ []) :
    ∃ point, IsSuccessor ring hash point ∧ ringSuccessor ring hash = ring.lookup point := by
  have sorted : (ring.keys.insertionSort (· ≤ ·)).Pairwise (· ≤ ·) := List.pairwise_insertionSort _ _
  have member point : point ∈ ring.keys ↔ point ∈ ring.keys.insertionSort (· ≤ ·) :=
    (List.mem_insertionSort _).symm
  have some_point : ring.keys.insertionSort (· ≤ ·) ≠ [] := by
    obtain ⟨point, listed⟩ := List.exists_mem_of_ne_nil _ points
    exact List.ne_nil_of_mem ((member _).mp listed)
  unfold ringSuccessor IsSuccessor
  simp only [member]
  generalize ring.keys.insertionSort (· ≤ ·) = ordered at sorted some_point
  cases found : ordered.find? fun point => decide (hash ≤ point) with
  | some point =>
    obtain ⟨reached, _, after, rfl, earlier⟩ := List.find?_eq_some_iff_append.mp found
    have later := (List.pairwise_cons.mp (List.pairwise_append.mp sorted).2.1).1
    simp only [decide_eq_true_eq] at reached
    simp only [Bool.not_eq_true', decide_eq_false_iff_not] at earlier
    refine ⟨point, ⟨by simp, fun other listed => ⟨fun behind => ⟨reached, ?_⟩, .inl reached⟩⟩, rfl⟩
    rcases List.mem_append.mp listed with skipped | kept
    · exact absurd behind (earlier _ skipped)
    · rcases List.mem_cons.mp kept with rfl | after
      · exact le_rfl
      · exact later other after
  | none =>
    obtain ⟨first, _, rfl⟩ := List.exists_cons_of_ne_nil some_point
    simp only [List.find?_eq_none, decide_eq_true_eq] at found
    refine ⟨first, ⟨List.mem_cons_self, fun _ listed => ⟨fun behind => ?_, .inr ?_⟩⟩, rfl⟩
    · exact absurd behind (found _ listed)
    · rcases List.mem_cons.mp listed with rfl | later
      · exact le_rfl
      · exact (List.pairwise_cons.mp sorted).1 _ later

theorem IsSuccessor.unique {other : Nat} (next : IsSuccessor ring hash point)
    (same : IsSuccessor ring hash other) : point = other := by
  have left := next.2 _ same.1
  have right := same.2 _ next.1
  omega

theorem IsSuccessor.ringSuccessor (next : IsSuccessor ring hash point) :
    ringSuccessor ring hash = ring.lookup point := by
  obtain ⟨_, same, found⟩ := exists_isSuccessor (List.ne_nil_of_mem next.1)
  rw [found, same.unique next]

theorem lookup_of_ringSuccessor {owner : String} (selected : ringSuccessor ring hash = some owner) :
    ∃ point, ring.lookup point = some owner := by
  obtain ⟨point, _, found⟩ := Option.bind_eq_some_iff.mp selected
  exact ⟨point, found⟩

theorem keys_of_ringSuccessor_none (nothing : ringSuccessor ring hash = none) : ring.keys = [] := by
  by_contra points
  obtain ⟨_, next, found⟩ := exists_isSuccessor points
  obtain ⟨_, known⟩ := (mem_keys_iff _ _).mp next.1
  rw [found, known] at nothing
  cases nothing

end Ring

variable {targets : List String} {fbiHash : String → Nat} {virtualNodes : Nat}

section Chosen

variable {F T : Type}

/-- A selection names one of the candidates, and fails only without any. -/
def Chosen (candidates : List (ProgramBindingCandidate F)) (selected : Option String) : Prop :=
  (∀ target, selected = some target → ∃ candidate ∈ candidates, candidate.targetId = target) ∧
    (selected = none → candidates = [])

/-- The policy's cached rings are the rings of their targets, and a policy that
needs capacities has them. -/
def ProgramBindingPolicy.Built (fbiHash : String → Nat) (balanced : Prop) :
    ProgramBindingPolicy T → Prop
  | .consistentHash virtualNodes rings => 0 < virtualNodes ∧
      ∀ pool built, rings.lookup pool = some built →
        built.2 = buildRing fbiHash virtualNodes built.1
  | .reasoningTokenBalance => balanced
  | .roundRobin _ | .leastProgramCount | .cacheAware _ => True

variable {candidates : List (ProgramBindingCandidate F)}

theorem chosen_of_map {α : Type} (name : α → String) (scored : List α) {selected : Option α}
    (names : ∀ score ∈ scored, ∃ candidate ∈ candidates, candidate.targetId = name score)
    (member : ∀ score, selected = some score → score ∈ scored)
    (some_candidate : candidates ≠ [] → selected.isSome) :
    Chosen candidates (selected.map name) := by
  constructor
  · intro _ named
    obtain ⟨score, chosen, rfl⟩ := Option.map_eq_some_iff.mp named
    exact names score (member _ chosen)
  · intro nothing
    by_contra present
    have found := some_candidate present
    rw [Option.map_eq_none_iff.mp nothing] at found
    cases found

theorem selectLeastProgramCount_chosen : Chosen candidates (selectLeastProgramCount candidates) :=
  chosen_of_map _ candidates (fun candidate member => ⟨candidate, member, rfl⟩)
    (fun _ found => minBy_mem found) fun present => minBy_isSome present

variable [F64 F]

theorem selectReasoningTokenBalance_chosen
    (capacities : ∀ candidate ∈ candidates, candidate.capacityTokens.isSome) :
    Returns (selectReasoningTokenBalance candidates) (Chosen candidates) := by
  have measuring : Returns (candidates.mapM fun candidate =>
      match candidate.capacityTokens with
      | some capacity =>
        (.ok (candidate.targetId, F64.ofNat capacity - candidate.accountedTokens) :
          Except Fault (String × F))
      | none => .error .capacityMissing)
      (List.Forall₂ (fun candidate remaining => candidate.targetId = remaining.1) candidates) := by
    apply Ensures.mapM
    intro _ member
    obtain ⟨_, known⟩ := Option.isSome_iff_exists.mp (capacities _ member)
    simp only [known]
    exact Ensures.pure rfl
  apply Ensures.bind measuring
  intro remaining paired
  apply chosen_of_map (·.1) remaining (fun _ => exists_left_of_mem paired)
    (fun _ found => maxBy_mem found)
  intro present
  apply maxBy_isSome
  rintro rfl
  exact present (List.forall₂_nil_right_iff.mp paired)

variable [AffinityTree T]

variable (trees : Table String T) {modelPool : String}

theorem evaluateInitialPlacement_chosen (requestText : String)
    (candidates : List (ProgramBindingCandidate F)) :
    Chosen candidates (evaluateInitialPlacement trees modelPool requestText candidates) := by
  refine chosen_of_map (fun score : String × F × F × F => score.1) _ ?_
    (fun _ found => maxBy_mem found) ?_
  · intro _ scored
    obtain ⟨candidate, member, rfl⟩ := List.mem_map.mp scored
    exact ⟨candidate, member, rfl⟩
  · intro present
    apply maxBy_isSome
    simpa using present

variable {routingText : Option String}

theorem selectCacheAware_chosen
    : Chosen candidates (selectCacheAware trees modelPool candidates routingText) := by
  unfold selectCacheAware
  simp only
  split
  · exact evaluateInitialPlacement_chosen _ _ _
  · rename_i eligible
    obtain ⟨names, nothing⟩ := evaluateInitialPlacement_chosen trees
      (routingText.getD "") (candidates.filter (·.immediatelyAdmissible))
    constructor
    · intro _ selected
      obtain ⟨candidate, member, named⟩ := names _ selected
      exact ⟨candidate, (List.mem_filter.mp member).1, named⟩
    · intro selected
      exact absurd (nothing selected) eligible

variable {balanced : Prop} {policy : ProgramBindingPolicy T}
  {rings : Table String (List String × Table Nat String)}

section

variable
  (cached : ∀ pool built, rings.lookup pool = some built → built.2 = buildRing fbiHash virtualNodes built.1)

include cached

/-- A cached ring is used only for the target list it was built from. -/
theorem cachedRing_eq :
    (((rings.lookup modelPool).filter fun built => built.1 == targets).map (·.2)).getD
        (buildRing fbiHash virtualNodes targets) = buildRing fbiHash virtualNodes targets := by
  cases kept : (rings.lookup modelPool).filter fun built => built.1 == targets with
  | none => rfl
  | some cache =>
    obtain ⟨stored, current⟩ := Option.filter_eq_some_iff.mp kept
    rw [Option.map_some, Option.getD_some, cached _ cache stored, beq_iff_eq.mp current]

theorem cachedRings_insert {kept : Bool} (pool : String) (built : List String × Table Nat String)
    (stored : (if kept then rings
      else rings.insert modelPool (targets, buildRing fbiHash virtualNodes targets)).lookup pool =
        some built) : built.2 = buildRing fbiHash virtualNodes built.1 := by
  split at stored
  · exact cached _ built stored
  · rw [lookup_insert_eq] at stored
    split at stored
    · cases stored
      rfl
    · exact cached _ built stored

end

variable (built : policy.Built fbiHash balanced)

include built

variable {identity : ProgramIdentity}

theorem select_returns
    (capacities : balanced → ∀ candidate ∈ candidates, candidate.capacityTokens.isSome) :
    Returns (policy.select fbiHash identity candidates routingText) fun selected =>
      Chosen candidates selected.1 ∧ selected.2.Built fbiHash balanced := by
  cases policy with
  | leastProgramCount => exact ⟨selectLeastProgramCount_chosen, built⟩
  | cacheAware _ => exact ⟨selectCacheAware_chosen _, built⟩
  | reasoningTokenBalance =>
    exact Ensures.bind (selectReasoningTokenBalance_chosen (capacities built))
      fun _ chosen => Ensures.pure ⟨chosen, built⟩
  | roundRobin nextByModel =>
    unfold ProgramBindingPolicy.select
    simp only
    split
    · rename_i empty
      exact ⟨⟨nofun, fun _ => empty⟩, trivial⟩
    · rename_i present
      refine ⟨chosen_of_map (·.targetId) _ (fun candidate member =>
        ⟨candidate, member, rfl⟩) (fun _ found => List.mem_of_getElem? found) ?_, trivial⟩
      intro _
      have bound : (nextByModel.lookup identity.modelPool).getD 0 % candidates.length <
          candidates.length := Nat.mod_lt _ (List.length_pos_of_ne_nil present)
      rw [List.getElem?_eq_getElem bound]
      rfl
  | consistentHash =>
    obtain ⟨nodes, cached⟩ := built
    unfold ProgramBindingPolicy.select
    simp only
    rw [cachedRing_eq cached]
    refine ⟨⟨?_, ?_⟩, nodes, cachedRings_insert cached⟩
    · intro _ selected
      obtain ⟨_, found⟩ := lookup_of_ringSuccessor selected
      exact List.mem_map.mp (mem_of_lookup_buildRing _ found)
    · intro nothing
      by_contra present
      exact buildRing_keys_ne_nil nodes
        (fun empty => present (List.map_eq_nil_iff.mp empty)) (keys_of_ringSuccessor_none nothing)

variable {bindings : ProgramBindings T}

omit built in
theorem bind_other {rebound : ProgramBindings T} {home : Option String}
    (bound : bindings.bind fbiHash identity candidates routingText = .ok (home, rebound))
    {key : RuntimeKey} (other : key ≠ identity.key) :
    rebound.bindings.lookup key = bindings.bindings.lookup key := by
  unfold ProgramBindings.bind at bound
  split at bound
  · cases bound
    rfl
  · obtain ⟨⟨selected, _⟩, _, bound⟩ := bind_eq_ok bound
    cases selected with
    | none =>
      cases bound
      rfl
    | some =>
      cases bound
      simp [lookup_insert_eq, if_neg other]

omit built in
theorem bind_returns (built : bindings.policy.Built fbiHash balanced)
    (capacities : balanced → ∀ candidate ∈ candidates, candidate.capacityTokens.isSome) :
    Returns (bindings.bind fbiHash identity candidates routingText) fun bound =>
      Chosen candidates bound.1 ∧ bound.2.policy.Built fbiHash balanced := by
  unfold ProgramBindings.bind
  split
  · rename_i target kept
    obtain ⟨_, offered⟩ := Option.filter_eq_some_iff.mp kept
    obtain ⟨candidate, member, named⟩ := List.any_eq_true.mp offered
    refine ⟨⟨?_, nofun⟩, built⟩
    intro _ same
    cases same
    exact ⟨candidate, member, beq_iff_eq.mp named⟩
  · apply Ensures.bind (select_returns built ?_)
    · rintro ⟨selected, _⟩ ⟨⟨names, nothing⟩, rebuilt⟩
      cases selected with
      | none =>
        refine ⟨⟨nofun, fun _ => ?_⟩, rebuilt⟩
        have permuted := sortBy_perm (fun left right : ProgramBindingCandidate F =>
          compare left.targetId right.targetId) candidates
        rw [nothing rfl] at permuted
        exact permuted.symm.eq_nil
      | some _ =>
        refine ⟨⟨?_, nofun⟩, rebuilt⟩
        intro _ same
        cases same
        obtain ⟨candidate, member, named⟩ := names _ rfl
        exact ⟨candidate, mem_sortBy.mp member, named⟩
    · intro present _ member
      exact capacities present _ (mem_sortBy.mp member)

theorem ProgramBindingPolicy.Built.commitPlacement (modelPool text targetId : String) :
    (policy.commitPlacement modelPool text targetId).Built fbiHash balanced := by
  cases policy with
  | cacheAware =>
    unfold ProgramBindingPolicy.commitPlacement
    simp only
    split <;> trivial
  | _ => exact built

theorem ProgramBindingPolicy.Built.removeTarget (modelPool targetId : String) :
    (policy.removeTarget modelPool targetId).Built fbiHash balanced := by
  cases policy with
  | cacheAware => trivial
  | _ => exact built

theorem ProgramBindingPolicy.Built.evict (maxSize : Nat) :
    (policy.evict maxSize).Built fbiHash balanced := by
  cases policy with
  | cacheAware => trivial
  | _ => exact built

end Chosen

section Disruption

variable {F T : Type} [F64 F] [AffinityTree T]

/-- The target of a key on the ring of a set of targets. -/
def ringTarget (fbiHash : String → Nat) (virtualNodes : Nat) (targets : List String)
    (key : String) : Option String :=
  ringSuccessor (buildRing fbiHash virtualNodes (sortBy compare targets)) (fbiHash key)

theorem ringTarget_perm {others : List String} (same : targets.Perm others) (key : String) :
    ringTarget fbiHash virtualNodes targets key = ringTarget fbiHash virtualNodes others key := by
  have sorted : sortBy compare targets = sortBy compare others :=
    sortBy_eq_of_perm same fun _ _ _ _ => Std.LawfulEqCmp.eq_of_compare
  rw [ringTarget, sorted, ringTarget]

theorem find?_filter_ne (holds : String → Bool) (target : String) (items : List String) :
    items.find? holds = some target ∨
      (items.filter (· ≠ target)).find? holds = items.find? holds := by
  induction items with
  | nil => exact .inr rfl
  | cons item _ ih =>
    by_cases found : holds item
    · by_cases own : item = target
      · simp [own ▸ found, own]
      · simp [found, own]
    · by_cases own : item = target
      · simpa [own ▸ found, own] using ih
      · simpa [found] using ih

theorem ringSuccessor_of_lookup {ring rest : Table Nat String} {target : String} (hash : Nat)
    (points : ∀ point, ring.lookup point = some target ∨ rest.lookup point = ring.lookup point) :
    ringSuccessor ring hash = some target ∨ ringSuccessor rest hash = ringSuccessor ring hash := by
  have kept {point : Nat} (listed : point ∈ rest.keys) : point ∈ ring.keys := by
    obtain ⟨owner, found⟩ := (mem_keys_iff _ _).mp listed
    rcases points point with taken | same
    · exact (mem_keys_iff _ _).mpr ⟨target, taken⟩
    · exact (mem_keys_iff _ _).mpr ⟨owner, same ▸ found⟩
  by_cases empty : ring.keys = []
  · have none_left : rest.keys = [] := List.eq_nil_iff_forall_not_mem.mpr fun point listed => by
      have present := kept listed
      simp [empty] at present
    simp [ringSuccessor, empty, none_left]
  · obtain ⟨point, next, served⟩ := exists_isSuccessor empty
    rw [served]
    rcases points point with taken | same
    · exact .inl taken
    · obtain ⟨owner, found⟩ := (mem_keys_iff _ _).mp next.1
      have still : IsSuccessor rest hash point :=
        ⟨(mem_keys_iff _ _).mpr ⟨owner, same.trans found⟩, fun _ listed => next.2 _ (kept listed)⟩
      exact .inr (still.ringSuccessor.trans same)

theorem ringTarget_filter_ne (targets : List String) (target key : String) :
    ringTarget fbiHash virtualNodes targets key = some target ∨
      ringTarget fbiHash virtualNodes (targets.filter (· ≠ target)) key =
        ringTarget fbiHash virtualNodes targets key := by
  have sorted : sortBy compare (targets.filter (· ≠ target)) =
      (sortBy compare targets).filter (· ≠ target) :=
    sortBy_filter fun _ _ _ _ => Std.LawfulEqCmp.eq_of_compare
  rw [ringTarget, ringTarget, sorted]
  apply ringSuccessor_of_lookup
  intro _
  rw [lookup_buildRing, lookup_buildRing, ← List.filter_reverse]
  exact find?_filter_ne _ _ _

/-- The bindings use consistent hashing, and every cached ring is that of its targets. -/
def ProgramBindings.OnRings (fbiHash : String → Nat) (virtualNodes : Nat)
    (bindings : ProgramBindings T) : Prop :=
  ∃ rings, bindings.policy = .consistentHash virtualNodes rings ∧
    ∀ pool built, rings.lookup pool = some built → built.2 = buildRing fbiHash virtualNodes built.1

omit [AffinityTree T] in
theorem ProgramBindings.onRings_new :
    (new .consistentHash virtualNodes : ProgramBindings T).OnRings fbiHash virtualNodes :=
  ⟨∅, rfl, fun _ _ stored => by cases stored⟩

variable {bindings : ProgramBindings T}

theorem ProgramBindings.OnRings.bind (onRings : bindings.OnRings fbiHash virtualNodes)
    (identity : ProgramIdentity) (candidates : List (ProgramBindingCandidate F))
    (routingText : Option String) :
    ∃ next, bindings.bind fbiHash identity candidates routingText =
        .ok (((bindings.bindings.lookup identity.key).filter fun target =>
            candidates.any fun candidate => candidate.targetId == target).or
          (ringTarget fbiHash virtualNodes (candidates.map (·.targetId)) identity.placementHashKey),
          next) ∧ next.OnRings fbiHash virtualNodes := by
  obtain ⟨rings, policy, cached⟩ := onRings
  have ids : (sortBy (fun left right : ProgramBindingCandidate F =>
      compare left.targetId right.targetId) candidates).map (·.targetId) =
      sortBy compare (candidates.map (·.targetId)) :=
    List.map_insertionSort _ _ _ _ fun _ _ _ _ => Iff.rfl
  unfold ProgramBindings.bind
  cases kept : (bindings.bindings.lookup identity.key).filter fun target =>
      candidates.any fun candidate => candidate.targetId == target with
  | some => exact ⟨bindings, rfl, rings, policy, cached⟩
  | none =>
    simp only [policy, ProgramBindingPolicy.select, ids, cachedRing_eq cached, ok_bind,
      Option.none_or, ringTarget]
    split
    · rename_i nothing
      exact ⟨_, by rw [nothing]; rfl, _, rfl, cachedRings_insert cached⟩
    · rename_i target found
      exact ⟨_, by rw [found]; rfl, _, rfl, cachedRings_insert cached⟩

/-- Binding on a ring does not depend on the order of the candidates, keeps a binding
whose target is live, and disturbs as little as possible: of the keys of a set of
targets only those on a removed target move, and those that move when a target is
added move to it. -/
theorem ringBinding_disruption (fbiHash : String → Nat) (virtualNodes : Nat) :
    (∀ (bindings : ProgramBindings T) (identity : ProgramIdentity)
        (candidates : List (ProgramBindingCandidate F)) (routingText : Option String),
      bindings.OnRings fbiHash virtualNodes →
        ∃ bound next, bindings.bind fbiHash identity candidates routingText = .ok (bound, next) ∧
          next.OnRings fbiHash virtualNodes ∧
          (∀ others : List (ProgramBindingCandidate F), others.Perm candidates →
            ∃ next, bindings.bind fbiHash identity others routingText = .ok (bound, next)) ∧
          (∀ target ∈ bindings.bindings.lookup identity.key,
            target ∈ candidates.map (·.targetId) → bound = some target) ∧
          (bindings.bindings.lookup identity.key = none → bound = ringTarget fbiHash virtualNodes
            (candidates.map (·.targetId)) identity.placementHashKey)) ∧
      (∀ targets added key, added ∉ targets →
        ringTarget fbiHash virtualNodes (added :: targets) key =
            ringTarget fbiHash virtualNodes targets key ∨
          ringTarget fbiHash virtualNodes (added :: targets) key = some added) ∧
      ∀ targets removed key, ringTarget fbiHash virtualNodes targets key ≠ some removed →
        ringTarget fbiHash virtualNodes (targets.filter (· ≠ removed)) key =
          ringTarget fbiHash virtualNodes targets key := by
  refine ⟨fun _ identity candidates routingText onRings => ?_, ?_, ?_⟩
  · obtain ⟨next, binds, kept⟩ := onRings.bind identity candidates _
    refine ⟨_, next, binds, kept, fun others same => ?_, fun target home live => ?_, fun unbound => ?_⟩
    · obtain ⟨other, rebinds, _⟩ := onRings.bind _ others _
      refine ⟨other, ?_⟩
      rw [rebinds, ringTarget_perm (same.map _)]
      simp [same.any_eq]
    · obtain ⟨candidate, member, named⟩ := List.mem_map.mp live
      have offered : candidates.any fun candidate => candidate.targetId == target :=
        List.any_eq_true.mpr ⟨candidate, member, beq_iff_eq.mpr named⟩
      rw [home, Option.filter_some, if_pos offered, Option.some_or]
    · rw [unbound]
      rfl
  · intro targets added key fresh
    have rest : (added :: targets).filter (· ≠ added) = targets := by
      rw [List.filter_cons_of_neg (by simp), List.filter_eq_self]
      intro _ member
      exact decide_eq_true fun same => fresh (same ▸ member)
    rcases ringTarget_filter_ne (added :: targets) added key with taken | same
    · exact .inr taken
    · exact .inl (rest ▸ same).symm
  · intro _ _ key elsewhere
    exact (ringTarget_filter_ne _ _ key).resolve_left elsewhere

/-- Two targets whose virtual nodes fall on the same points, and a third one. -/
theorem ringBinding_disruption_shared :
    (∃ (_ : AffinityTree Unit) (identity : ProgramIdentity)
        (candidates : List (ProgramBindingCandidate Exact)) (bound : Option String)
        (next : ProgramBindings Unit),
      (ProgramBindings.new .consistentHash 2 : ProgramBindings Unit).bind String.length identity
          candidates none = .ok (bound, next) ∧
        bound = ringTarget String.length 2 ["b", "a"] "key") ∧
      (ringTarget String.length 2 ["ccc", "b", "a"] "key" =
          ringTarget String.length 2 ["b", "a"] "key" ∨
        ringTarget String.length 2 ["ccc", "b", "a"] "key" = some "ccc") ∧
      ringTarget String.length 2 ["b"] "key" = ringTarget String.length 2 ["b", "a"] "key" := by
  let inst : AffinityTree Unit :=
    ⟨(), fun tree _ _ => tree, fun tree _ => tree, fun _ _ _ => 0, fun tree _ => tree⟩
  let identity : ProgramIdentity := ⟨"m", "p", "key", "key", false, none, none, none, none, none,
    false, none, none, none, {}⟩
  let candidate (target : String) : ProgramBindingCandidate Exact :=
    ⟨target, 0, F64.lit 0, none, F64.lit 0, true⟩
  have law := @ringBinding_disruption Exact Unit _ inst String.length 2
  obtain ⟨bound, next, result, _, _, _, fresh⟩ :=
    law.1 _ _ [candidate "b", candidate "a"] none ProgramBindings.onRings_new
  exact ⟨⟨inst, identity, _, bound, next, result, fresh rfl⟩, law.2.1 _ "ccc" "key" (by decide),
    law.2.2 ["b", "a"] "a" "key" (by decide)⟩

end Disruption

end SmetricRouter.ProgramScheduling
