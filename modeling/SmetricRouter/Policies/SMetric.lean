import SmetricRouter.KvIndex.EventCache
import SmetricRouter.Library.Outcome
import SmetricRouter.PrefixTree.Histories

/-! SMetric: session cache affinity with a prefill-work fallback.

One loop over the workers, from a rotating start, looks for the worker with the
longest cached prefix and for the one with the least score. The first is the home of
the session; it is kept if the turn gate is passed, enough of the prompt is cached
there and it answers in time, or none does.
-/

namespace SmetricRouter.Policies

open KvIndex (EventCache CachePrefixScores ScorePanic)
open PrefixTree (Tree)

abbrev SoundTree : Type := {tree : Tree // tree.Sound}

namespace SoundTree

def new : SoundTree := ⟨Tree.new, Tree.sound_new⟩

variable (tree : SoundTree) (text : List Char) (tenant : String)

theorem isSome_charCount : (tree.1.prefixMatchTenantCharCount text tenant).isSome := by
  obtain ⟨_, counts, _⟩ := tree.2.shaped.charCount _ _
  rw [counts]
  rfl

def prefixMatchTenantCharCount (tree : SoundTree) (text : List Char) (tenant : String) : Nat :=
  (tree.1.prefixMatchTenantCharCount text tenant).get (tree.isSome_charCount text tenant)

theorem isSome_insert (epoch : Nat) : (tree.1.insert text tenant epoch).isSome := by
  obtain ⟨_, inserts, _⟩ := tree.2.insert _ _ epoch
  rw [Tree.apply] at inserts
  rw [inserts]
  rfl

theorem sound_insert (epoch : Nat) :
    ((tree.1.insert text tenant epoch).get (tree.isSome_insert text tenant epoch)).Sound := by
  obtain ⟨_, inserts, applies, _⟩ := tree.2.insert text tenant epoch
  rw [Tree.apply] at inserts
  simp only [inserts, Option.get_some]
  exact applies.sound

def insert (tree : SoundTree) (text : List Char) (tenant : String) (epoch : Nat) : SoundTree :=
  ⟨(tree.1.insert text tenant epoch).get (tree.isSome_insert text tenant epoch),
    tree.sound_insert text tenant epoch⟩

end SoundTree

variable (F : Type)

structure SMetricConfig where
  cLin : F
  cAtt : F
  prefillRate : Option F
  slack : F
  hitRatio : F
  ttftSloBase : F
  ttftSloPerChar : F

structure SMetricPrompt where
  text : List Char
  tokenIds : Option (List UInt32)
  estHitChars : Nat
  deriving DecidableEq, Repr

/-- What the policy reads of a worker in its round of the loop. -/
structure PrefillWorker where
  url : String
  modelId : String
  isAvailable : Bool
  pendingPrefillWork : Nat
  load : Nat
  deriving DecidableEq, Repr

def PrefillWorker.addPrefillWork (worker : PrefillWorker) (work : Nat) : PrefillWorker :=
  { worker with pendingPrefillWork := saturatingAdd worker.pendingPrefillWork work }

def rateWindow : Nat := 64

def rateMinSamples : Nat := 8

structure RateHistory where
  samples : List F
  rate : Option F

namespace RateHistory

variable {F} [F64 F]

def empty : RateHistory F := ⟨[], none⟩

/-- Keeps the last samples and, once there are enough, their ninth decile. -/
def record (history : RateHistory F) (rate : F) : RateHistory F :=
  let samples :=
    (if history.samples.length = rateWindow then history.samples.drop 1 else history.samples)
      ++ [rate]
  if rateMinSamples ≤ samples.length then
    let position : F := F64.ofNat (samples.length - 1) * F64.lit (9 / 10)
    ⟨samples, (sortBy F64.totalCmp samples)[F64.toUsize (F64.round position)]?⟩
  else ⟨samples, history.rate⟩

end RateHistory

structure SMetricPolicy where
  config : SMetricConfig F
  trees : Table String SoundTree
  roundRobin : Nat
  rates : Table String (RateHistory F)
  decisionLog : Bool
  exactCache : Option EventCache

/-- The lengths of a prompt and of its cached prefixes, in the same units. -/
structure PrefixView where
  length : Nat
  hit : PrefillWorker → Nat
  /-- The lengths come from the event cache. -/
  exactScores : Bool

/-- One worker in the loop, as it is logged. -/
structure Candidate where
  worker : String
  hit : Nat
  ownWork : Nat
  pendingWork : Nat
  load : Nat
  rate : Option F
  meets : Bool
  score : Nat

structure Scan where
  /-- Index, score and own cost. -/
  min : Option (Nat × Nat × Nat)
  /-- Index, hit, own cost and whether the first token is in time. -/
  prev : Option (Nat × Nat × Nat × Bool)
  anyMeetsTtft : Bool
  candidates : List (Candidate F)

inductive Reason where
  | firstTurn
  | lowHit
  | homeMeets
  | noneMeetsStick
  | homeRejected
  deriving DecidableEq, Repr

/-- The logged decision; the home and the fallback by their places in the list. -/
structure Decision where
  home : Nat
  fallback : Nat
  reason : Reason
  anyMeets : Bool
  homeMeets : Bool
  chars : Nat
  estHitChars : Nat
  gateBudget : F
  colocated : Bool
  candidates : List (Candidate F)

structure Selection where
  idx : Nat
  cost : Nat
  decision : Decision F

structure SMetricPrefill where
  /-- The worker that is charged and the work it is charged with. -/
  charge : Option (String × Nat)
  work : Nat
  started : Instant
  /-- The worker whose rates the first token is recorded for. -/
  rates : Option String
  decision : Option (Decision F)

namespace SMetricPolicy

variable {F} [F64 F] (policy : SMetricPolicy F)

def prefixView (prompt : SMetricPrompt) : Except ScorePanic (Option PrefixView) :=
  match policy.exactCache with
  | some cache => do
    let scores ← match prompt.tokenIds with
      | some ids => pure (some (cache.scoreTokens ids))
      | none => cache.scoreText prompt.text
    return scores.map fun scores =>
      ⟨scores.length, fun worker => (scores.hits.lookup worker.url).getD 0, true⟩
  | none =>
    return if prompt.tokenIds.isSome then none
      else some ⟨prompt.text.length, fun worker =>
        (policy.trees.lookup worker.modelId).elim 0 fun tree =>
          tree.prefixMatchTenantCharCount prompt.text worker.url, false⟩

def gateBudget (length : Nat) : F :=
  policy.config.slack *
    (policy.config.ttftSloBase + policy.config.ttftSloPerChar * F64.ofNat length)

def ownCost (length hit : Nat) : Nat :=
  let n : F := F64.ofNat (wrappingSub length hit)
  F64.toU64 (F64.ceil (policy.config.cLin * n +
    policy.config.cAtt * n * (F64.ofNat length - n / F64.lit 2)))

def rateOf (worker : PrefillWorker) : Option F :=
  policy.config.prefillRate.orElse fun _ =>
    (policy.rates.lookup worker.url).bind RateHistory.rate

def meetsTtft (rate : Option F) (queued length : Nat) : Bool :=
  match rate with
  | none => true
  | some rate => F64.ofNat queued / rate ≤ policy.gateBudget length

def candidate (view : PrefixView) (colocated : Bool) (worker : PrefillWorker) : Candidate F :=
  let hit := view.hit worker
  let cost := policy.ownCost view.length hit
  let pending := worker.pendingPrefillWork
  let queued := saturatingAdd pending cost
  let rate := policy.rateOf worker
  let load := if colocated then worker.load else 0
  { worker := worker.url
    hit := hit
    ownWork := cost
    pendingWork := pending
    load := load
    rate := rate
    meets := policy.meetsTtft rate queued view.length
    score := if colocated then saturatingMul queued load else queued }

end SMetricPolicy

namespace Scan

variable {F}

def empty : Scan F := ⟨none, none, false, []⟩

def round (scan : Scan F) (idx : Nat) (candidate : Candidate F) : Scan F where
  min :=
    if scan.min.all fun best => candidate.score < best.2.1 then
      some (idx, candidate.score, candidate.ownWork)
    else scan.min
  prev :=
    if scan.prev.all fun best => best.2.1 < candidate.hit then
      some (idx, candidate.hit, candidate.ownWork, candidate.meets)
    else scan.prev
  anyMeetsTtft := scan.anyMeetsTtft || candidate.meets
  candidates := scan.candidates ++ [candidate]

end Scan

namespace SMetricPolicy

variable {F} [F64 F] (policy : SMetricPolicy F)

def rotation (workers : List PrefillWorker) (start : Nat) : List Nat :=
  (List.range workers.length).map fun offset => (start + offset) % workers.length

variable (view : PrefixView)

def visit (colocated : Bool) (workers : List PrefillWorker) (scan : Scan F) (idx : Nat) : Scan F :=
  match workers[idx]? with
  | some worker =>
    if worker.isAvailable then scan.round idx (policy.candidate view colocated worker) else scan
  | none => scan

def scan (colocated : Bool) (workers : List PrefillWorker) (start : Nat) : Scan F :=
  (rotation workers start).foldl (policy.visit view colocated workers) .empty

def enoughHit (estHitChars hit : Nat) : Bool :=
  policy.config.hitRatio * F64.ofNat estHitChars < F64.ofNat hit

def choose (estHitChars : Nat) (passesTurnGate colocated : Bool) (scan : Scan F) :
    Option (Selection F) :=
  match scan.prev, scan.min with
  | some (prevIdx, hit, prevCost, prevMeets), some (minIdx, _, minCost) =>
    let chosen :=
      if passesTurnGate && policy.enoughHit estHitChars hit &&
          (prevMeets || !scan.anyMeetsTtft) then
        (prevIdx, prevCost)
      else (minIdx, minCost)
    let reason :=
      if !passesTurnGate then .firstTurn
      else if F64.ofNat hit ≤ policy.config.hitRatio * F64.ofNat estHitChars then .lowHit
      else if prevMeets then .homeMeets
      else if !scan.anyMeetsTtft then .noneMeetsStick
      else .homeRejected
    some ⟨chosen.1, chosen.2, prevIdx, minIdx, reason, scan.anyMeetsTtft, prevMeets, view.length,
      estHitChars, policy.gateBudget view.length, colocated, scan.candidates⟩
  | _, _ => none

def selectWith (workers : List PrefillWorker) (estHitChars : Nat)
    (passesTurnGate colocated : Bool) : Option (Selection F) :=
  policy.choose view estHitChars passesTurnGate colocated
    (policy.scan view colocated workers (policy.roundRobin % max workers.length 1))

/-- What a selection writes: the tree of the model, and a place for the rates. -/
def commit (prompt : SMetricPrompt) (worker : PrefillWorker) (epoch : Nat) : SMetricPolicy F :=
  { policy with
    trees :=
      if view.exactScores || prompt.text.isEmpty then policy.trees
      else
        let tree := (policy.trees.lookup worker.modelId).getD .new
        policy.trees.insert worker.modelId (tree.insert prompt.text worker.url epoch)
    rates :=
      if policy.config.prefillRate.isNone && (policy.rates.lookup worker.url).isNone then
        policy.rates.insert worker.url .empty
      else policy.rates }

/-- The policy and the workers afterwards, and the place of the chosen worker with
what is kept until its first token. -/
def selectPrefill (workers : List PrefillWorker) (prompt : SMetricPrompt)
    (passesTurnGate colocated : Bool) (epoch : Nat) (now : Instant) :
    Except ScorePanic (SMetricPolicy F × List PrefillWorker × Option (Nat × SMetricPrefill F)) := do
  match ← policy.prefixView prompt with
  | none => return (policy, workers, none)
  | some view =>
    let turned := { policy with roundRobin := wrappingSucc policy.roundRobin }
    match policy.selectWith view workers prompt.estHitChars passesTurnGate colocated with
    | none => return (turned, workers, none)
    | some selection =>
      match workers[selection.idx]? with
      -- The loop only finds places in the list.
      | none => return (turned, workers, none)
      | some worker =>
        return (turned.commit view prompt worker epoch,
          workers.modify selection.idx fun worker => worker.addPrefillWork selection.cost,
          some (selection.idx,
            { charge := some (worker.url, selection.cost)
              work := selection.cost
              started := now
              rates := if policy.config.prefillRate.isNone then some worker.url else none
              decision := if policy.decisionLog then some selection.decision else none }))

end SMetricPolicy

section Loop

variable {F} {scan : Scan F} {turns : List (Nat × Candidate F)}

/-- What the loop knows after the workers it has seen, with their places. -/
structure Scan.Seen (scan : Scan F) (turns : List (Nat × Candidate F)) : Prop where
  min : HoldsLeast (fun turn => turn.2.score)
    (fun turn => (turn.1, turn.2.score, turn.2.ownWork)) turns scan.min
  prev : HoldsLeast (fun turn => OrderDual.toDual turn.2.hit)
    (fun turn => (turn.1, turn.2.hit, turn.2.ownWork, turn.2.meets)) turns scan.prev
  anyMeets : scan.anyMeetsTtft = true ↔ ∃ turn ∈ turns, turn.2.meets = true

theorem Scan.seen_empty : (Scan.empty : Scan F).Seen [] where
  min := .nil _ _
  prev := .nil _ _
  anyMeets := by simp [Scan.empty]

theorem Scan.Seen.round (seen : scan.Seen turns) (idx : Nat) (candidate : Candidate F) :
    (scan.round idx candidate).Seen (turns ++ [(idx, candidate)]) where
  min := by
    apply seen.min.snoc
    · intro vacant
      rw [vacant]
      rfl
    · intro turn known _
      rw [known, Option.all_some, decide_eq_true_eq]
  prev := by
    apply seen.prev.snoc
    · intro vacant
      rw [vacant]
      rfl
    · intro turn known _
      rw [known, Option.all_some, decide_eq_true_eq, OrderDual.toDual_lt_toDual]
  anyMeets := by
    simp only [Scan.round, Bool.or_eq_true, seen.anyMeets, List.mem_append, List.mem_singleton]
    constructor
    · rintro (⟨turn, member, meets⟩ | meets)
      · exact ⟨turn, .inl member, meets⟩
      · exact ⟨(idx, candidate), .inr rfl, meets⟩
    · rintro ⟨turn, member | rfl, meets⟩
      · exact .inl ⟨turn, member, meets⟩
      · exact .inr meets

end Loop

variable {idx : Nat}

namespace SMetricPolicy

variable {F} [F64 F] {policy : SMetricPolicy F} {view : PrefixView} {colocated : Bool}
  {workers : List PrefillWorker} {start : Nat}

/-- The available workers in the order of the loop, with their places. -/
def turns (policy : SMetricPolicy F) (view : PrefixView) (colocated : Bool)
    (workers : List PrefillWorker) (places : List Nat) : List (Nat × Candidate F) :=
  places.filterMap fun idx =>
    (workers[idx]?.filter PrefillWorker.isAvailable).map fun worker =>
      (idx, policy.candidate view colocated worker)

theorem mem_turns {places : List Nat} {candidate : Candidate F} :
    (idx, candidate) ∈ policy.turns view colocated workers places ↔ idx ∈ places ∧
      ∃ worker, workers[idx]? = some worker ∧ worker.isAvailable = true ∧
        candidate = policy.candidate view colocated worker := by
  simp only [turns, List.mem_filterMap, Option.map_eq_some_iff, Option.filter_eq_some_iff,
    Prod.mk.injEq]
  constructor
  · rintro ⟨_, member, worker, ⟨found, available⟩, rfl, rfl⟩
    exact ⟨member, worker, found, available, rfl⟩
  · rintro ⟨member, worker, found, available, rfl⟩
    exact ⟨idx, member, worker, ⟨found, available⟩, rfl, rfl⟩

theorem mem_rotation (inside : idx < workers.length) : idx ∈ rotation workers start := by
  have positive : 0 < workers.length := Nat.zero_lt_of_lt inside
  have start_lt := Nat.mod_lt start positive
  rw [rotation, List.mem_map]
  -- The offset is the way from the start to the place, around the end if need be.
  refine ⟨(idx + workers.length - start % workers.length) % workers.length,
    List.mem_range.mpr (Nat.mod_lt _ positive), ?_⟩
  rw [Nat.add_mod, Nat.mod_mod, ← Nat.add_mod, ← Nat.mod_add_mod]
  have way : start % workers.length + (idx + workers.length - start % workers.length) =
      idx + workers.length := by omega
  rw [way, Nat.add_mod_right, Nat.mod_eq_of_lt inside]

theorem foldl_visit_seen (places : List Nat) :
    Scan.Seen (places.foldl (policy.visit view colocated workers) .empty)
      (policy.turns view colocated workers places) := by
  induction places using List.reverseRecOn with
  | nil => exact Scan.seen_empty
  | append_singleton _ idx ih =>
    rw [List.foldl_append, List.foldl_cons, visit]
    cases found : workers[idx]? with
    | none => simpa [found, turns] using ih
    | some worker =>
      by_cases available : worker.isAvailable = true
      · simpa [found, available, turns] using ih.round idx (policy.candidate view colocated worker)
      · simpa [found, available, turns] using ih

end SMetricPolicy

namespace SMetricSample

def policy : SMetricPolicy Exact where
  config := ⟨(1 : ℚ), (0 : ℚ), none, (1 : ℚ), (1 / 2 : ℚ), (20 : ℚ), (0 : ℚ)⟩
  trees := ∅
  roundRobin := 0
  rates := ∅
  decisionLog := false
  exactCache := none

def worker (url : String) (load : Nat) : PrefillWorker := ⟨url, "model", true, 0, load⟩

def view : PrefixView := ⟨5, fun worker => if worker.url = "two" then 4 else 0, true⟩

def workers : List PrefillWorker := [worker "one" 0, worker "two" 0]

end SMetricSample

section Law

variable {F} [F64 F] {policy : SMetricPolicy F} {view : PrefixView} {workers : List PrefillWorker}
  {estHitChars : Nat} {passesTurnGate colocated : Bool} {selection : Selection F}

def Available (workers : List PrefillWorker) (idx : Nat) (worker : PrefillWorker) : Prop :=
  workers[idx]? = some worker ∧ worker.isAvailable = true

namespace SMetricPolicy

def places (policy : SMetricPolicy F) (workers : List PrefillWorker) : List Nat :=
  rotation workers (policy.roundRobin % max workers.length 1)

/-- The available worker with the longest cached prefix, the first of them from the
rotating start. -/
def IsHome (policy : SMetricPolicy F) (view : PrefixView) (colocated : Bool)
    (workers : List PrefillWorker) (home : Nat) (worker : PrefillWorker) : Prop :=
  Available workers home worker ∧
    FirstLeast (fun turn => OrderDual.toDual turn.2.hit)
      (policy.turns view colocated workers (policy.places workers))
      (home, policy.candidate view colocated worker)

def Meets (policy : SMetricPolicy F) (view : PrefixView) (worker : PrefillWorker) : Prop :=
  ∀ rate, policy.rateOf worker = some rate →
    F64.ofNat (saturatingAdd worker.pendingPrefillWork
      (policy.ownCost view.length (view.hit worker))) / rate ≤ policy.gateBudget view.length

def Sticks (policy : SMetricPolicy F) (view : PrefixView) (workers : List PrefillWorker)
    (estHitChars : Nat) (passesTurnGate : Bool) (home : PrefillWorker) : Prop :=
  passesTurnGate = true ∧
    policy.config.hitRatio * F64.ofNat estHitChars < F64.ofNat (view.hit home) ∧
    (policy.Meets view home ∨
      ∀ idx worker, Available workers idx worker → ¬ policy.Meets view worker)

theorem mem_turns_places {candidate : Candidate F} :
    (idx, candidate) ∈ policy.turns view colocated workers (policy.places workers) ↔
      ∃ worker, Available workers idx worker ∧
        candidate = policy.candidate view colocated worker := by
  rw [mem_turns]
  constructor
  · rintro ⟨_, worker, found, available, rfl⟩
    exact ⟨worker, ⟨found, available⟩, rfl⟩
  · rintro ⟨worker, ⟨found, available⟩, rfl⟩
    obtain ⟨inside, _⟩ := List.getElem?_eq_some_iff.mp found
    exact ⟨mem_rotation inside, worker, found, available, rfl⟩

variable {worker : PrefillWorker}

theorem candidate_meets :
    (policy.candidate view colocated worker).meets = true ↔ policy.Meets view worker := by
  unfold Meets candidate meetsTtft
  cases policy.rateOf worker with
  | none => simp
  | some => simp

theorem exists_available_iff :
    policy.turns view colocated workers (policy.places workers) ≠ [] ↔
      ∃ idx worker, Available workers idx worker := by
  constructor
  · intro some_turn
    obtain ⟨⟨idx, _⟩, member⟩ := List.exists_mem_of_ne_nil _ some_turn
    obtain ⟨worker, available, _⟩ := mem_turns_places.mp member
    exact ⟨idx, worker, available⟩
  · rintro ⟨_, worker, available⟩
    exact List.ne_nil_of_mem (mem_turns_places.mpr ⟨worker, available, rfl⟩)

theorem scan_seen : (policy.scan view colocated workers
    (policy.roundRobin % max workers.length 1)).Seen
    (policy.turns view colocated workers (policy.places workers)) :=
  foldl_visit_seen (policy.places workers)

theorem anyMeets_iff {scan : Scan F}
    (seen : scan.Seen (policy.turns view colocated workers (policy.places workers))) :
    scan.anyMeetsTtft = true ↔
      ∃ idx worker, Available workers idx worker ∧ policy.Meets view worker := by
  rw [seen.anyMeets]
  constructor
  · rintro ⟨⟨idx, _⟩, member, meets⟩
    obtain ⟨worker, available, rfl⟩ := mem_turns_places.mp member
    exact ⟨idx, worker, available, candidate_meets.mp meets⟩
  · rintro ⟨idx, worker, available, meets⟩
    exact ⟨(idx, policy.candidate _ _ _),
      mem_turns_places.mpr ⟨worker, available, rfl⟩, candidate_meets.mpr meets⟩

theorem sticks_iff {scan : Scan F} {home : PrefillWorker}
    (seen : scan.Seen (policy.turns view colocated workers (policy.places workers))) :
    (passesTurnGate && policy.enoughHit estHitChars (view.hit home) &&
        ((policy.candidate view colocated home).meets || !scan.anyMeetsTtft)) = true ↔
      policy.Sticks view workers estHitChars passesTurnGate home := by
  have none_meets : (!scan.anyMeetsTtft) = true ↔
      ∀ idx worker, Available workers idx worker → ¬ policy.Meets view worker := by
    rw [Bool.not_eq_true', ← Bool.not_eq_true, anyMeets_iff seen]
    simp
  simp [candidate_meets, none_meets, Sticks, enoughHit, and_assoc]

variable (selected : policy.selectWith view workers estHitChars passesTurnGate colocated = some selection)

include selected

theorem selectWith_cases :
    ∃ home worker least fallback, policy.IsHome view colocated workers home worker ∧
      Available workers least fallback ∧
      FirstLeast (fun turn => turn.2.score)
        (policy.turns view colocated workers (policy.places workers))
        (least, policy.candidate view colocated fallback) ∧
      ((policy.Sticks view workers estHitChars passesTurnGate worker ∧ selection.idx = home ∧
          selection.cost = policy.ownCost view.length (view.hit worker)) ∨
        (¬ policy.Sticks view workers estHitChars passesTurnGate worker ∧
          selection.idx = least ∧
          selection.cost = policy.ownCost view.length (view.hit fallback))) := by
  have seen := @scan_seen F _ policy view workers colocated
  unfold selectWith at selected
  generalize policy.scan view colocated workers _ = scan at seen selected
  unfold choose at selected
  cases knownPrev : scan.prev with
  | none => simp [knownPrev] at selected
  | some prev =>
    cases knownMin : scan.min with
    | none => simp [knownPrev, knownMin] at selected
    | some min =>
      obtain ⟨⟨home, _⟩, longest, rfl⟩ := seen.prev.holds prev knownPrev
      obtain ⟨⟨least, _⟩, lowest, rfl⟩ := seen.min.holds min knownMin
      obtain ⟨worker, available, rfl⟩ := mem_turns_places.mp longest.mem
      obtain ⟨fallback, serves, rfl⟩ := mem_turns_places.mp lowest.mem
      refine ⟨home, worker, least, fallback, ⟨available, longest⟩, serves, lowest, ?_⟩
      rw [knownPrev, knownMin] at selected
      cases selected
      have test := @sticks_iff F _ policy view _ estHitChars passesTurnGate _ _ worker seen
      by_cases sticks : policy.Sticks view workers estHitChars passesTurnGate worker
      · refine .inl ⟨sticks, ?_⟩
        have taken := test.mpr sticks
        exact ⟨congrArg Prod.fst (if_pos taken), congrArg Prod.snd (if_pos taken)⟩
      · refine .inr ⟨sticks, ?_⟩
        have refused := fun taken => sticks (test.mp taken)
        exact ⟨congrArg Prod.fst (if_neg refused), congrArg Prod.snd (if_neg refused)⟩

omit selected in
theorem isSome_selectWith :
    (policy.selectWith view workers estHitChars passesTurnGate colocated).isSome ↔
      ∃ idx worker, Available workers idx worker := by
  have seen := @scan_seen F _ policy view workers colocated
  rw [← @exists_available_iff F _ policy view workers colocated]
  unfold selectWith
  generalize policy.scan view colocated workers _ = scan at seen
  unfold choose
  cases knownPrev : scan.prev with
  | none => simp [seen.prev.vacant.mp knownPrev]
  | some prev =>
    have some_turn : policy.turns view colocated workers (policy.places workers) ≠ [] := by
      intro none_seen
      rw [seen.prev.vacant.mpr none_seen] at knownPrev
      cases knownPrev
    cases knownMin : scan.min with
    | none => exact absurd (seen.min.vacant.mp knownMin) some_turn
    | some => simp [some_turn]

/-- The worker and its cost that a selection is for, the home of the session, and
which of the two laws applies. -/
def Lawful (policy : SMetricPolicy F) (view : PrefixView) (workers : List PrefillWorker)
    (estHitChars : Nat) (passesTurnGate colocated : Bool) (selection : Selection F) : Prop :=
  ∃ chosen home worker, Available workers selection.idx chosen ∧
    selection.cost = policy.ownCost view.length (view.hit chosen) ∧
    policy.IsHome view colocated workers home worker ∧
    (∀ idx rival, Available workers idx rival → view.hit rival ≤ view.hit worker) ∧
    (policy.Sticks view workers estHitChars passesTurnGate worker → selection.idx = home) ∧
    (¬ policy.Sticks view workers estHitChars passesTurnGate worker →
      ∀ idx rival, Available workers idx rival →
        (policy.candidate view colocated chosen).score ≤
          (policy.candidate view colocated rival).score)

omit selected in
theorem IsHome.longest {home : Nat} {rival : PrefillWorker}
    (isHome : policy.IsHome view colocated workers home worker)
    (available : Available workers idx rival) : view.hit rival ≤ view.hit worker :=
  OrderDual.toDual_le_toDual.mp (isHome.2.least _ (mem_turns_places.mpr ⟨rival, available, rfl⟩))

theorem lawful_of_selectWith :
    policy.Lawful view workers estHitChars passesTurnGate colocated selection := by
  obtain ⟨home, worker, least, fallback, isHome, serves, lowest, taken⟩ := selectWith_cases selected
  rcases taken with ⟨sticks, rfl, cost⟩ | ⟨leaves, rfl, cost⟩
  · exact ⟨worker, _, worker, isHome.1, cost, isHome, fun _ _ => isHome.longest, fun _ => rfl,
      fun leaves => absurd sticks leaves⟩
  · refine ⟨fallback, home, worker, serves, cost, isHome, fun _ _ => isHome.longest,
      fun sticks => absurd sticks leaves, fun _ _ rival available => ?_⟩
    exact lowest.least _ (mem_turns_places.mpr ⟨rival, available, rfl⟩)

omit selected

theorem selectWith_of_selectPrefill {prompt : SMetricPrompt} {epoch : Nat} {now : Instant}
    {next : SMetricPolicy F} {charged : List PrefillWorker} {prefill : SMetricPrefill F}
    (selected : policy.selectPrefill workers prompt passesTurnGate colocated epoch now =
      .ok (next, charged, some (idx, prefill))) :
    ∃ view selection, policy.prefixView prompt = .ok (some view) ∧
      policy.selectWith view workers prompt.estHitChars passesTurnGate colocated =
        some selection ∧ selection.idx = idx ∧ selection.cost = prefill.work := by
  unfold selectPrefill at selected
  cases scored : policy.prefixView prompt with
  | error => simp [scored, bind, Except.bind] at selected
  | ok scores =>
    rw [scored, ok_bind] at selected
    cases scores with
    | none => simp [pure, Except.pure] at selected
    | some view =>
      cases chosen : policy.selectWith view workers prompt.estHitChars passesTurnGate colocated with
      | none => simp [chosen, pure, Except.pure] at selected
      | some selection =>
        cases found : workers[selection.idx]? with
        | none => simp [chosen, found, pure, Except.pure] at selected
        | some =>
          simp only [chosen, found] at selected
          cases selected
          exact ⟨view, selection, rfl, chosen, rfl, rfl⟩

/-- The law of the selection, for every table of hits and for the hits that the policy
finds itself. -/
theorem selectPrefill_law (policy : SMetricPolicy F) (workers : List PrefillWorker)
    (passesTurnGate colocated : Bool) :
    (∀ view estHitChars,
      ((policy.selectWith view workers estHitChars passesTurnGate colocated).isSome ↔
        ∃ idx worker, Available workers idx worker) ∧
      ∀ selection,
        policy.selectWith view workers estHitChars passesTurnGate colocated = some selection →
          policy.Lawful view workers estHitChars passesTurnGate colocated selection) ∧
    ∀ prompt epoch now next charged idx prefill,
      policy.selectPrefill workers prompt passesTurnGate colocated epoch now =
        .ok (next, charged, some (idx, prefill)) →
      ∃ view selection, policy.prefixView prompt = .ok (some view) ∧
        selection.idx = idx ∧ selection.cost = prefill.work ∧
        policy.Lawful view workers prompt.estHitChars passesTurnGate colocated selection := by
  constructor
  · intro view _
    exact ⟨isSome_selectWith, fun selection selected => lawful_of_selectWith selected⟩
  · intro _ _ _ _ _ _ _ selected
    obtain ⟨view, selection, scored, chosen, same, work⟩ := selectWith_of_selectPrefill selected
    exact ⟨view, selection, scored, same, work, lawful_of_selectWith chosen⟩

/-- An idle worker that has most of the prompt keeps the session. -/
theorem selectPrefill_law_home : ∃ selection,
    SMetricSample.policy.selectWith SMetricSample.view SMetricSample.workers 6 true true =
      some selection ∧ selection.idx = 1 ∧
    SMetricSample.policy.Lawful SMetricSample.view SMetricSample.workers 6 true true selection := by
  have found : (SMetricSample.policy.selectWith SMetricSample.view SMetricSample.workers 6 true
      true).map Selection.idx = some 1 := by decide +kernel
  obtain ⟨selection, selected, place⟩ := Option.map_eq_some_iff.mp found
  exact ⟨selection, selected, place,
    ((selectPrefill_law SMetricSample.policy SMetricSample.workers true true).1
      SMetricSample.view 6).2 _ selected⟩

def queuedWork (policy : SMetricPolicy F) (view : PrefixView) (worker : PrefillWorker) : Nat :=
  worker.pendingPrefillWork + policy.ownCost view.length (view.hit worker)

theorem score_eq (loaded : worker.load ≠ 0)
    (room : policy.queuedWork view worker * worker.load < 2 ^ 64) :
    (policy.candidate view true worker).score = policy.queuedWork view worker * worker.load := by
  have within : policy.queuedWork view worker ≤ u64Max := by
    have grows := Nat.le_mul_of_pos_right (policy.queuedWork view worker)
      (Nat.pos_of_ne_zero loaded)
    unfold u64Max
    omega
  have queued : saturatingAdd worker.pendingPrefillWork
      (policy.ownCost view.length (view.hit worker)) = policy.queuedWork view worker :=
    Nat.min_eq_left within
  change saturatingMul (saturatingAdd worker.pendingPrefillWork
    (policy.ownCost view.length (view.hit worker))) worker.load = _
  rw [queued]
  exact Nat.min_eq_left (by unfold u64Max; omega)

theorem score_le (worker : PrefillWorker) : (policy.candidate view true worker).score ≤
    policy.queuedWork view worker * worker.load := by
  exact le_trans (Nat.min_le_left _ _) (Nat.mul_le_mul_right _ (Nat.min_le_left _ _))

/-- The fallback is dominated by a rival only if both are idle: idle workers all have
score zero, and the rotation decides between them. -/
theorem fallback_dominated_idle (policy : SMetricPolicy F) (view : PrefixView)
    (workers : List PrefillWorker) (estHitChars : Nat) (passesTurnGate : Bool)
    (available : ∀ worker ∈ workers, worker.isAvailable = true)
    (room : ∀ worker ∈ workers, policy.queuedWork view worker * worker.load < 2 ^ 64)
    (selection : Selection F)
    (selected : policy.selectWith view workers estHitChars passesTurnGate true = some selection)
    (fallback : ∀ home worker, policy.IsHome view true workers home worker →
      ¬ policy.Sticks view workers estHitChars passesTurnGate worker)
    (chosen rival : PrefillWorker) (place : workers[selection.idx]? = some chosen)
    (member : rival ∈ workers) (load : rival.load ≤ chosen.load)
    (less : policy.queuedWork view rival < policy.queuedWork view chosen) :
    chosen.load = 0 ∧ rival.load = 0 := by
  obtain ⟨home, _, least, taken, isHome, serves, lowest, branch⟩ := selectWith_cases selected
  rcases branch with ⟨sticks, _⟩ | ⟨_, rfl, _⟩
  · exact absurd sticks (fallback home _ isHome)
  · obtain rfl : taken = _ := Option.some.inj (serves.1.symm.trans place)
    obtain ⟨_, found⟩ := List.mem_iff_getElem?.mp member
    have best : (policy.candidate view true taken).score ≤
        (policy.candidate view true rival).score :=
      lowest.least _ (mem_turns_places.mpr ⟨rival, ⟨found, available _ member⟩, rfl⟩)
    by_cases idle : taken.load = 0
    · exact ⟨idle, by omega⟩
    · have chosenMember := List.mem_of_getElem? serves.1
      rw [score_eq idle (room taken chosenMember)] at best
      have worse : policy.queuedWork view rival * rival.load <
          policy.queuedWork view taken * taken.load :=
        calc policy.queuedWork view rival * rival.load
            ≤ policy.queuedWork view rival * taken.load := Nat.mul_le_mul_left _ load
          _ < policy.queuedWork view taken * taken.load :=
            Nat.mul_lt_mul_of_pos_right less (Nat.pos_of_ne_zero idle)
      have bound := @score_le F _ policy view rival
      omega

theorem selects_first : ∃ selection,
    SMetricSample.policy.selectWith SMetricSample.view SMetricSample.workers 0 false true =
      some selection ∧ selection.idx = 0 :=
  Option.map_eq_some_iff.mp (by decide +kernel)

/-- Of two idle workers the first in the rotation is taken, with five times the work
of the second. -/
theorem fallback_dominated : ∃ selection chosen rival,
    SMetricSample.policy.selectWith SMetricSample.view SMetricSample.workers 0 false true =
      some selection ∧
    SMetricSample.workers[selection.idx]? = some chosen ∧ rival ∈ SMetricSample.workers ∧
    rival.load ≤ chosen.load ∧
    SMetricSample.policy.queuedWork SMetricSample.view rival <
      SMetricSample.policy.queuedWork SMetricSample.view chosen ∧
    ∀ worker ∈ SMetricSample.workers, worker.isAvailable = true ∧
      SMetricSample.policy.queuedWork SMetricSample.view worker * worker.load < 2 ^ 64 := by
  obtain ⟨selection, selected, place⟩ := selects_first
  refine ⟨selection, SMetricSample.worker "one" 0, SMetricSample.worker "two" 0, selected, ?_, ?_,
    Nat.le_refl _, ?_, ?_⟩
  · rw [place]
    rfl
  · exact List.mem_cons_of_mem _ List.mem_cons_self
  · decide +kernel
  · decide +kernel

/-- In that choice both workers are idle. -/
theorem fallback_dominated_idle_pair : ∃ selection,
    SMetricSample.policy.selectWith SMetricSample.view SMetricSample.workers 0 false true =
      some selection ∧
    (SMetricSample.worker "one" 0).load = 0 ∧ (SMetricSample.worker "two" 0).load = 0 := by
  obtain ⟨selection, selected, place⟩ := selects_first
  refine ⟨selection, selected, fallback_dominated_idle SMetricSample.policy SMetricSample.view
    SMetricSample.workers 0 false (by decide) (by decide +kernel) _ selected ?_ _ _ ?_ ?_
    (Nat.le_refl _) (by decide +kernel)⟩
  · intro _ _ _ sticks
    exact Bool.false_ne_true sticks.1
  · rw [place]
    rfl
  · exact List.mem_cons_of_mem _ List.mem_cons_self

end SMetricPolicy

end Law

end SmetricRouter.Policies
