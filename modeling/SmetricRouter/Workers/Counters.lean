import SmetricRouter.Library.Machine64
import SmetricRouter.Library.StepRuns
import SmetricRouter.Library.Table
import Mathlib.Data.List.Count
import Mathlib.Logic.Function.Basic

/-! The counters of a worker: its load and its pending prefill work.

Guards add to the load of a worker and take it back when they are dropped; beside
them the health checker of the registry sets the loads of all workers to zero in
every tenth cycle. Charges add to the pending prefill work and take it back at the
first token or when the request goes away, whichever comes first.
-/

namespace SmetricRouter.Workers

open Function

variable {W : Type} [DecidableEq W]

section Load

/-- Where the health checker is in its loop. -/
inductive CheckerPhase (W : Type) where
  | idle
  | checking (workers : List W)
  | resetting (workers : List W)
  deriving DecidableEq, Repr

def loadResetInterval : Nat := 10

/-- The load counters, the guards that are alive, the registered workers and the
health checker. A guard over a list of workers is one guard for each entry of it. -/
structure LoadState (W : Type) where
  load : W → Nat
  guards : List W
  registered : List W
  checkCount : Nat
  phase : CheckerPhase W

inductive LoadEvent (W : Type) where
  | guardNew (worker : W)
  | guardDrop (worker : W)
  | registryChange (workers : List W)
  | tick
  | checksDone
  | reset
  deriving DecidableEq, Repr

namespace LoadState

def new : LoadState W := ⟨fun _ => 0, [], [], 0, .idle⟩

variable (state : LoadState W)

def incrementLoad (worker : W) : LoadState W :=
  { state with load := Function.update state.load worker (state.load worker + 1) }

def decrementLoad (worker : W) : LoadState W :=
  { state with load := Function.update state.load worker (state.load worker - 1) }

def resetLoad (worker : W) : LoadState W :=
  { state with load := Function.update state.load worker 0 }

/-- One atomic step; `none` if it cannot take place. -/
def step : LoadEvent W → Option (LoadState W)
  | .guardNew worker => some { state.incrementLoad worker with guards := worker :: state.guards }
  | .guardDrop worker =>
    if worker ∈ state.guards then
      some { state.decrementLoad worker with guards := state.guards.erase worker }
    else none
  | .registryChange workers => some { state with registered := workers }
  | .tick =>
    match state.phase with
    | .idle => some { state with phase := .checking state.registered }
    | _ => none
  | .checksDone =>
    match state.phase with
    | .checking workers =>
      let checkCount := state.checkCount + 1
      let phase := if checkCount % loadResetInterval = 0 then .resetting workers else .idle
      some { state with checkCount := checkCount, phase := phase }
    | _ => none
  | .reset =>
    match state.phase with
    | .resetting [] => some { state with phase := .idle }
    | .resetting (worker :: rest) => some { state.resetLoad worker with phase := .resetting rest }
    | _ => none

def Balanced : Prop :=
  ∀ worker, state.load worker = state.guards.count worker

/-- The step does not set the load of a worker to zero while one of its guards is
alive. -/
def SparesGuards (event : LoadEvent W) : Prop :=
  event = .reset → ∀ worker rest, state.phase = .resetting (worker :: rest) → worker ∉ state.guards

variable {state next : LoadState W} {event : LoadEvent W}

theorem Balanced.step (balanced : state.Balanced) (steps : state.step event = some next)
    (spares : state.SparesGuards event) : next.Balanced := by
  intro other
  have before := balanced other
  revert steps spares
  fun_cases LoadState.step state event with
  | case1 worker =>
    rintro ⟨⟩ _
    change update state.load worker _ other = (worker :: state.guards).count other
    by_cases same : other = worker
    · subst same
      simp [before]
    · simp [same, before, Ne.symm same]
  | case2 worker =>
    rintro ⟨⟩ _
    change update state.load worker _ other = (state.guards.erase worker).count other
    by_cases same : other = worker
    · subst same
      simp [before]
    · simp [same, before]
  | case4 | case5 | case7 | case9 =>
    rintro ⟨⟩ _
    exact before
  | case10 worker _ resetting =>
    rintro ⟨⟩ spares
    have unguarded := spares rfl worker _ resetting
    change update state.load worker 0 other = state.guards.count other
    rw [update_apply]
    split
    case isTrue same => rw [same, List.count_eq_zero_of_not_mem unguarded]
    case isFalse => exact before
  | _ => rintro ⟨⟩

theorem not_balanced_of_reset (steps : state.step event = some next)
    (unspared : ¬ state.SparesGuards event) : ¬ next.Balanced := by
  unfold SparesGuards at unspared
  push Not at unspared
  obtain ⟨rfl, worker, _, resetting, guarded⟩ := unspared
  simp only [LoadState.step, resetting] at steps
  cases steps
  intro balanced
  have lost : state.guards.count worker = 0 :=
    (balanced worker).symm.trans (update_self _ 0 state.load)
  exact List.count_eq_zero.mp lost guarded

/-- The loads are the numbers of guards in every state of a run exactly if no reset
of it finds a guard of its worker alive. -/
theorem balanced_iff (events : List (LoadEvent W)) :
    Along LoadState.step new Balanced events ↔
      Throughout LoadState.step new SparesGuards events :=
  along_iff_throughout (fun _ => rfl) id Balanced.step fun _ => not_balanced_of_reset

/-- A request that outlives ten cycles is not counted any more. -/
theorem load_reset_under_guard :
    (runFrom LoadState.step (new : LoadState Nat)
      ([.registryChange [0], .guardNew 0] ++
        (List.replicate 10 [LoadEvent.tick, .checksDone]).flatten ++ [.reset])).map
      (fun state => (state.load 0, state.guards)) = some (0, [0]) := by
  decide +kernel

end LoadState

end Load

section PendingPrefillWork

/-- Work added to a worker and to be taken back once. -/
structure PrefillCharge (W : Type) where
  worker : W
  work : Nat
  deriving DecidableEq, Repr

/-- What a request keeps of the selection of its prefill worker. -/
structure SMetricPrefill (W : Type) where
  charge : Option (PrefillCharge W)
  deriving DecidableEq, Repr

/-- The counters and the requests under way, by number. `taken` and `released` are
the history of the charges: every charge with the number of its request, and the
number of a request for each time its charge went. -/
structure PrefillState (W : Type) where
  pending : W → Nat
  requests : Table Nat (SMetricPrefill W)
  taken : List (Nat × PrefillCharge W)
  released : List Nat

inductive PrefillEvent (W : Type) where
  | selectPrefill (request : Nat) (worker : W) (cost : Nat)
  | onFirstToken (request : Nat)
  | dropRequest (request : Nat)
  deriving DecidableEq, Repr

namespace PrefillState

def new : PrefillState W := ⟨fun _ => 0, ∅, [], []⟩

variable (state : PrefillState W)

def addPrefillWork (worker : W) (work : Nat) : PrefillState W :=
  { state with
    pending := Function.update state.pending worker (saturatingAdd (state.pending worker) work) }

def subtractPrefillWork (worker : W) (work : Nat) : PrefillState W :=
  { state with pending := Function.update state.pending worker (state.pending worker - work) }

/-- The charge of a request is dropped, if it still has one. -/
def dropCharge (request : Nat) (tracker : SMetricPrefill W) : PrefillState W :=
  match tracker.charge with
  | none => state
  | some charge =>
    { state.subtractPrefillWork charge.worker charge.work with
      released := request :: state.released }

/-- One atomic step; `none` if it cannot take place. Which worker a selection takes
and at which cost is left open. -/
def step : PrefillEvent W → Option (PrefillState W)
  | .selectPrefill request worker cost =>
    if request ∈ state.taken.map Prod.fst then none
    else
      let charge : PrefillCharge W := ⟨worker, cost⟩
      some { state.addPrefillWork worker cost with
        requests := state.requests.insert request ⟨some charge⟩
        taken := (request, charge) :: state.taken }
  | .onFirstToken request =>
    (state.requests.lookup request).map fun tracker =>
      { state.dropCharge request tracker with
        requests := state.requests.insert request { tracker with charge := none } }
  | .dropRequest request =>
    (state.requests.lookup request).map fun tracker =>
      { state.dropCharge request tracker with requests := state.requests.erase request }

def share (worker : W) (released : List Nat) (entry : Nat × PrefillCharge W) : Nat :=
  if entry.2.worker = worker ∧ entry.1 ∉ released then entry.2.work else 0

def outstanding (worker : W) : Nat :=
  (state.taken.map (share worker state.released)).sum

/-- What holds along every run. -/
structure Accounted : Prop where
  distinct : (state.taken.map Prod.fst).Nodup
  known : ∀ request ∈ state.released, request ∈ state.taken.map Prod.fst
  once : state.released.Nodup
  held : ∀ request charge, (request, charge) ∈ state.taken ∧ request ∉ state.released ↔
    ∃ tracker, state.requests.lookup request = some tracker ∧ tracker.charge = some charge

def Exact : Prop :=
  ∀ worker, state.pending worker = state.outstanding worker

variable {request : Nat} {charge : PrefillCharge W}

theorem sum_share_release {taken : List (Nat × PrefillCharge W)} {released : List Nat}
    (distinct : (taken.map Prod.fst).Nodup)
    (held : (request, charge) ∈ taken) (unreleased : request ∉ released) (worker : W) :
    (taken.map (share worker (request :: released))).sum +
      (if charge.worker = worker then charge.work else 0) =
        (taken.map (share worker released)).sum := by
  induction taken with
  | nil => exact absurd held List.not_mem_nil
  | cons entry taken ih =>
    rw [List.map_cons, List.nodup_cons] at distinct
    rw [List.map_cons, List.map_cons, List.sum_cons, List.sum_cons]
    rcases List.mem_cons.mp held with here | later
    · subst here
      -- No other entry has the number, so the others count as before.
      have others : taken.map (share worker (request :: released)) =
          taken.map (share worker released) := by
        refine List.map_congr_left fun other listed => ?_
        have apart : other.1 ≠ request := fun same =>
          distinct.1 (List.mem_map.mpr ⟨other, listed, same⟩)
        simp [share, apart]
      rw [others]
      simp only [share, List.mem_cons, true_or, not_true_eq_false, and_false, if_false,
        unreleased, not_false_eq_true, and_true]
      omega
    · have apart : entry.1 ≠ request := fun same =>
        distinct.1 (same ▸ List.mem_map_of_mem later)
      have same : share worker (request :: released) entry = share worker released entry := by
        simp [share, apart]
      rw [← ih distinct.2 later]
      omega

variable {state next : PrefillState W} {event : PrefillEvent W} {tracker : SMetricPrefill W}

variable (accounted : state.Accounted)

include accounted

omit [DecidableEq W] in
theorem Accounted.mem_taken (found : state.requests.lookup request = some tracker)
    (charged : tracker.charge = some charge) :
    (request, charge) ∈ state.taken ∧ request ∉ state.released :=
  (accounted.held request charge).mpr ⟨tracker, found, charged⟩

theorem Exact.dropCharge (exactly : state.Exact)
    (found : state.requests.lookup request = some tracker) :
    (state.dropCharge request tracker).Exact := by
  intro worker
  cases charged : tracker.charge with
  | none =>
    rw [PrefillState.dropCharge, charged]
    exact exactly _
  | some charge =>
    obtain ⟨held, unreleased⟩ := accounted.mem_taken found charged
    have split := sum_share_release accounted.distinct held unreleased worker
    have before := exactly worker
    unfold outstanding at before
    rw [PrefillState.dropCharge, charged]
    change update state.pending charge.worker _ worker =
      (state.taken.map (share worker (request :: state.released))).sum
    rw [update_apply]
    by_cases same : worker = charge.worker
    · subst same
      rw [if_pos rfl] at split
      rw [if_pos rfl]
      omega
    · rw [if_neg (Ne.symm same)] at split
      rw [if_neg same]
      omega

variable {requests : Table Nat (SMetricPrefill W)}

theorem Accounted.dropCharge (found : state.requests.lookup request = some tracker)
    (emptied : ∀ left, requests.lookup request = some left → left.charge = none)
    (others : ∀ other, other ≠ request → requests.lookup other = state.requests.lookup other) :
    Accounted { state.dropCharge request tracker with requests := requests } := by
  have bare : ∀ charge, ¬ ∃ left, requests.lookup request = some left ∧
      left.charge = some charge := by
    rintro charge ⟨left, kept, charged⟩
    rw [emptied left kept] at charged
    cases charged
  cases charged : tracker.charge with
  | none =>
    rw [PrefillState.dropCharge, charged]
    refine ⟨accounted.distinct, accounted.known, accounted.once, fun other charge => ?_⟩
    by_cases same : other = request
    · subst same
      refine iff_of_false ?_ (bare _)
      rw [accounted.held other charge, found]
      rintro ⟨_, ⟨⟩, carries⟩
      rw [charged] at carries
      cases carries
    · rw [others other same]
      exact accounted.held _ _
  | some =>
    obtain ⟨held, unreleased⟩ := accounted.mem_taken found charged
    rw [PrefillState.dropCharge, charged]
    refine ⟨accounted.distinct, ?_, List.nodup_cons.mpr ⟨unreleased, accounted.once⟩,
      fun other charge => ?_⟩
    · intro other gone
      rcases List.mem_cons.mp gone with rfl | earlier
      · exact List.mem_map_of_mem held
      · exact accounted.known other earlier
    · change (other, charge) ∈ state.taken ∧ other ∉ request :: state.released ↔ _
      by_cases same : other = request
      · subst same
        exact iff_of_false (fun kept => kept.2 List.mem_cons_self) (bare _)
      · rw [others other same, ← accounted.held other charge, List.mem_cons]
        simp [same]

theorem Accounted.select {worker : W} {cost : Nat} (fresh : request ∉ state.taken.map Prod.fst) :
    Accounted { state.addPrefillWork worker cost with
      requests := state.requests.insert request ⟨some ⟨worker, cost⟩⟩
      taken := (request, ⟨worker, cost⟩) :: state.taken } := by
  have unreleased : request ∉ state.released := fun gone => fresh (accounted.known _ gone)
  refine ⟨List.nodup_cons.mpr ⟨fresh, accounted.distinct⟩,
    fun other gone => List.mem_cons_of_mem _ (accounted.known _ gone), accounted.once,
    fun other charge => ?_⟩
  change (other, charge) ∈ (request, _) :: state.taken ∧ other ∉ state.released ↔ _
  rw [Table.lookup_insert_eq, List.mem_cons, Prod.mk.injEq]
  by_cases same : other = request
  · subst same
    have unlisted : (other, charge) ∉ state.taken := fun listed =>
      fresh (List.mem_map_of_mem listed)
    simp [unlisted, unreleased, eq_comm]
  · simpa [same] using accounted.held other charge

theorem Exact.select (exactly : state.Exact) {worker : W} {cost : Nat}
    (fresh : request ∉ state.taken.map Prod.fst)
    (bounded : outstanding { state.addPrefillWork worker cost with
      requests := requests, taken := (request, ⟨worker, cost⟩) :: state.taken } worker ≤ u64Max) :
    Exact { state.addPrefillWork worker cost with
      requests := requests, taken := (request, ⟨worker, cost⟩) :: state.taken } := by
  have unreleased : request ∉ state.released := fun gone => fresh (accounted.known request gone)
  intro other
  have before := exactly other
  unfold outstanding at before
  change update state.pending worker _ other =
    (((request, (⟨worker, cost⟩ : PrefillCharge W)) :: state.taken).map
      (share other state.released)).sum
  rw [update_apply, List.map_cons, List.sum_cons, ← before]
  by_cases same : other = worker
  · subst same
    have room : share other state.released (request, ⟨other, cost⟩) + state.pending other ≤
        u64Max := by
      rw [before]
      exact bounded
    have added : share other state.released (request, ⟨other, cost⟩) = cost :=
      if_pos ⟨rfl, unreleased⟩
    rw [if_pos rfl]
    unfold saturatingAdd
    omega
  · have foreign : share other state.released (request, ⟨worker, cost⟩) = 0 :=
      if_neg fun own => same own.1.symm
    rw [if_neg same, foreign, Nat.zero_add]

theorem Accounted.step (steps : state.step event = some next) : next.Accounted := by
  cases event with
  | selectPrefill =>
    simp only [PrefillState.step] at steps
    split at steps
    · cases steps
    · rename_i fresh
      cases steps
      exact accounted.select fresh
  | onFirstToken =>
    obtain ⟨_, found, rfl⟩ := Option.map_eq_some_iff.mp steps
    refine accounted.dropCharge found ?_ fun _ apart => ?_
    · rw [AList.lookup_insert]
      rintro _ ⟨⟩
      rfl
    · rw [Table.lookup_insert_eq, if_neg apart]
  | dropRequest =>
    obtain ⟨_, found, rfl⟩ := Option.map_eq_some_iff.mp steps
    refine accounted.dropCharge found ?_ fun _ apart => ?_
    · rw [AList.lookup_erase]
      rintro _ ⟨⟩
    · rw [Table.lookup_erase_eq, if_neg apart]

theorem Exact.step (exactly : state.Exact) (steps : state.step event = some next)
    (bounded : ∀ worker, next.outstanding worker ≤ u64Max) : next.Exact := by
  cases event with
  | selectPrefill _ worker =>
    simp only [PrefillState.step] at steps
    split at steps
    · cases steps
    · rename_i fresh
      cases steps
      exact exactly.select accounted fresh (bounded _)
  | onFirstToken =>
    obtain ⟨_, found, rfl⟩ := Option.map_eq_some_iff.mp steps
    exact exactly.dropCharge accounted found
  | dropRequest =>
    obtain ⟨_, found, rfl⟩ := Option.map_eq_some_iff.mp steps
    exact exactly.dropCharge accounted found

omit [DecidableEq W] in
omit accounted in
theorem accounted_new : (new : PrefillState W).Accounted := by
  refine ⟨List.nodup_nil, fun _ gone => absurd gone List.not_mem_nil, List.nodup_nil,
    fun _ _ => iff_of_false (fun held => List.not_mem_nil held.1) ?_⟩
  rintro ⟨_, found, -⟩
  cases found

omit [DecidableEq W] in
theorem Accounted.count_released (taken : request ∈ state.taken.map Prod.fst)
    (free : ∀ tracker, state.requests.lookup request = some tracker → tracker.charge = none) :
    state.released.count request = 1 := by
  refine List.count_eq_one_of_mem accounted.once ?_
  by_contra unreleased
  obtain ⟨⟨_, _⟩, listed, rfl⟩ := List.mem_map.mp taken
  obtain ⟨tracker, found, charged⟩ := (accounted.held _ _).mp ⟨listed, unreleased⟩
  rw [free tracker found] at charged
  cases charged

def Settled (state : PrefillState W) : Prop := state.Accounted ∧ state.Exact

omit accounted

theorem settled_of_bounded {events : List (PrefillEvent W)}
    (bounded : Along PrefillState.step new
      (fun state => ∀ worker, state.outstanding worker ≤ u64Max) events)
    (ends : runFrom PrefillState.step new events = some state) : state.Settled := by
  refine Along.invariant bounded ⟨accounted_new, fun _ => rfl⟩ ?_ ends
  rintro _ _ _ ⟨accounted, exactly⟩ steps fits
  exact ⟨accounted.step steps, exactly.step accounted steps fits⟩

/-- In every run in which the charges outstanding on a worker fit a `u64`, the
pending work of every worker is the sum of its outstanding charges. No charge is
released twice, one whose request holds it no longer has been released once, and
without requests no work is pending. -/
theorem pendingPrefillWork_conserved (events : List (PrefillEvent W)) (state : PrefillState W)
    (bounded : Along PrefillState.step new
      (fun state => ∀ worker, state.outstanding worker ≤ u64Max) events)
    (ends : runFrom PrefillState.step new events = some state) :
    (∀ worker, state.pending worker = state.outstanding worker) ∧
      (∀ request, state.released.count request ≤ 1) ∧
      (∀ request ∈ state.taken.map Prod.fst,
        (∀ tracker, state.requests.lookup request = some tracker → tracker.charge = none) →
          state.released.count request = 1) ∧
      (state.requests = ∅ → ∀ worker, state.pending worker = 0) := by
  obtain ⟨accounted, exactly⟩ := settled_of_bounded bounded ends
  refine ⟨exactly, fun request => List.nodup_iff_count_le_one.mp accounted.once _,
    fun request taken free => accounted.count_released taken free, fun ended worker => ?_⟩
  rw [exactly worker]
  refine List.sum_eq_zero fun _ listed => ?_
  obtain ⟨⟨_, _⟩, taken, rfl⟩ := List.mem_map.mp listed
  refine if_neg fun counted => ?_
  obtain ⟨_, found, -⟩ := (accounted.held _ _).mp ⟨taken, counted.2⟩
  rw [ended] at found
  cases found

theorem pendingPrefillWork_conserved_two :
    (runFrom PrefillState.step (new : PrefillState Bool)
      [.selectPrefill 0 true 5, .selectPrefill 1 true 7, .onFirstToken 0, .onFirstToken 0,
        .dropRequest 0]).map (fun state => (state.pending true, state.outstanding true)) =
        some (7, 7) ∧
      ∀ state, runFrom PrefillState.step (new : PrefillState Bool)
        [.selectPrefill 0 true 5, .selectPrefill 1 true 7, .onFirstToken 0, .onFirstToken 0,
          .dropRequest 0] = some state → state.released.count 0 = 1 := by
  refine ⟨by decide +kernel, fun _ ends => ?_⟩
  have conserved := pendingPrefillWork_conserved _ _ (by decide +kernel) ends
  refine conserved.2.2.1 0 ?_ ?_
  all_goals
    cases ends
    decide +kernel

end PrefillState

end PendingPrefillWork

end SmetricRouter.Workers
