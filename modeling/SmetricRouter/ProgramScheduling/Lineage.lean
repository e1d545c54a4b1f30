import SmetricRouter.ProgramScheduling.Domain
import SmetricRouter.Library.ParentForest

/-! Program parent and root tracking for multi-level agent trees.

The index is a directed union-find: each Program points toward a declared
parent or root, and path compression shortens repeated root lookups. The loop
that climbs to a root has no bound of its own; it ends because no declaration
may close a cycle.
-/

namespace SmetricRouter.ProgramScheduling

structure ProgramLineage where
  parents : Table RuntimeKey RuntimeKey

namespace ProgramLineage

def empty : ProgramLineage := ⟨∅⟩

variable (lineage : ProgramLineage) (program : RuntimeKey)

def register : ProgramLineage :=
  match lineage.parents.lookup program with
  | some _ => lineage
  | none => ⟨lineage.parents.insert program program⟩

/-- The remaining rounds of the cycle test; running out of rounds is a cycle. -/
def wouldCycleFrom (lineage : ProgramLineage) (child : RuntimeKey) : Nat → RuntimeKey → Bool
  | 0, _ => true
  | rounds + 1, current =>
    if current = child then true
    else
      match lineage.parents.lookup current with
      | none => false
      | some parent =>
        if parent = current then false else lineage.wouldCycleFrom child rounds parent

def wouldCycle (child proposedParent : RuntimeKey) : Bool :=
  lineage.wouldCycleFrom child (lineage.parents.entries.length + 1) proposedParent

/-- Climb to the root and collect the path; the bound only makes it a function. -/
def climb (lineage : ProgramLineage) :
    Nat → List RuntimeKey → RuntimeKey → Except Fault (RuntimeKey × List RuntimeKey)
  | 0, _, _ => .error .loopRunning
  | rounds + 1, path, current =>
    match lineage.parents.lookup current with
    | none => .ok (current, path)
    | some parent =>
      if parent = current then .ok (current, path)
      else lineage.climb rounds (path ++ [current]) parent

def root : Except Fault (String × ProgramLineage) := do
  let known := lineage.register program
  let (current, path) ← known.climb (known.parents.entries.length + 1) [] program
  let compressed := path.foldl (fun parents node => parents.insert node current) known.parents
  return (current.programId, ⟨compressed⟩)

/-- The remaining rounds of the climb without compression. -/
def rootReadonlyFrom (lineage : ProgramLineage) : Nat → RuntimeKey → RuntimeKey
  | 0, current => current
  | rounds + 1, current =>
    match lineage.parents.lookup current with
    | none => current
    | some parent =>
      if parent = current then current else lineage.rootReadonlyFrom rounds parent

def rootReadonly : String :=
  (lineage.rootReadonlyFrom (lineage.parents.entries.length + 1) program).programId

def declareAncestor (ancestorId : Option String) : ProgramLineage :=
  match ancestorId.filter (· ≠ program.programId) with
  | none => lineage
  | some ancestorId =>
    let ancestor : RuntimeKey := ⟨program.modelPool, ancestorId⟩
    let known := lineage.register ancestor
    if known.wouldCycle program ancestor then known
    else ⟨known.parents.insert program ancestor⟩

def observe (modelPool programId : String) (parentProgramId rootProgramId : Option String) :
    Except Fault (String × ProgramLineage) :=
  let program : RuntimeKey := ⟨modelPool, programId⟩
  (((lineage.register program).declareAncestor program parentProgramId).declareAncestor program
    rootProgramId).root program

open ParentForest

variable {lineage}

theorem edge_register : Edge (lineage.register program).parents = Edge lineage.parents := by
  unfold register
  split
  · rfl
  · rename_i unknown
    funext child parent
    unfold Edge
    rw [Table.lookup_insert_eq]
    by_cases own : child = program
    · subst own
      simp only [if_true, unknown, Option.some.injEq, reduceCtorEq, false_and, iff_false, eq_iff_iff]
      exact fun edge => edge.2 edge.1.symm
    · simp [own]

theorem Forest.register (forest : Forest lineage.parents) (program : RuntimeKey) :
    Forest (lineage.register program).parents := by
  obtain ⟨height, graded⟩ := forest
  refine ⟨height, ?_⟩
  unfold Graded
  rw [edge_register]
  exact graded

theorem unreached_of_wouldCycleFrom {child : RuntimeKey} {rounds : Nat} {current : RuntimeKey}
    (clear : lineage.wouldCycleFrom child rounds current = false) :
    ¬ Reaches lineage.parents current child := by
  induction rounds generalizing current with
  | zero => cases clear
  | succ _ ih =>
    intro reaches
    unfold wouldCycleFrom at clear
    by_cases met : current = child
    · rw [if_pos met] at clear
      cases clear
    · rw [if_neg met] at clear
      obtain same | ⟨_, edge, rest⟩ := reaches.cases_head
      · exact met same
      · obtain ⟨found, proper⟩ := edge
        simp only [found, proper, if_false] at clear
        exact ih clear rest

theorem Forest.declareAncestor (forest : Forest lineage.parents) (program : RuntimeKey)
    (ancestorId : Option String) : Forest (lineage.declareAncestor program ancestorId).parents := by
  unfold ProgramLineage.declareAncestor
  split
  · exact forest
  · simp only
    split
    · exact Forest.register forest _
    · rename_i clear
      rw [Bool.not_eq_true] at clear
      exact (Forest.register forest _).link (unreached_of_wouldCycleFrom clear)

section Climbs

variable {height : RuntimeKey → Nat} (graded : Graded lineage.parents height) (rounds : Nat)

include graded

theorem wouldCycleFrom_eq_false {child current : RuntimeKey}
    (bound : below lineage.parents height current < rounds)
    (unreached : ¬ Reaches lineage.parents current child) :
    lineage.wouldCycleFrom child rounds current = false := by
  induction rounds generalizing current with
  | zero => omega
  | succ _ ih =>
    have apart : current ≠ child := by
      rintro rfl
      exact unreached .refl
    unfold wouldCycleFrom
    rw [if_neg apart]
    split
    · rfl
    · rename_i parent found
      by_cases root : parent = current
      · rw [if_pos root]
      · have edge : Edge lineage.parents current parent := ⟨found, root⟩
        have closer := below_lt graded edge
        rw [if_neg root]
        exact ih (by omega) fun reaches => unreached (.head edge reaches)

theorem rootReadonlyFrom_isEnd (current : RuntimeKey)
    (bound : below lineage.parents height current < rounds) :
    IsEnd (Edge lineage.parents) current (lineage.rootReadonlyFrom rounds current) := by
  induction rounds generalizing current with
  | zero => omega
  | succ _ ih =>
    unfold rootReadonlyFrom
    split
    · rename_i unknown
      exact ⟨.refl, fun _ edge => by simp [edge.1] at unknown⟩
    · rename_i parent found
      by_cases root : parent = current
      · rw [if_pos root]
        exact ⟨.refl, fun _ edge => edge.2 (by simpa [edge.1, root] using found)⟩
      · have edge : Edge lineage.parents current parent := ⟨found, root⟩
        have closer := below_lt graded edge
        rw [if_neg root]
        obtain ⟨chain, top⟩ := ih parent (by omega)
        exact ⟨.head edge chain, top⟩

theorem climb_eq (path : List RuntimeKey) (current : RuntimeKey)
    (bound : below lineage.parents height current < rounds)
    (passed : ∀ node ∈ path, Relation.TransGen (Edge lineage.parents) node current) :
    ∃ visited, lineage.climb rounds path current =
        .ok (lineage.rootReadonlyFrom rounds current, visited) ∧
      ∀ node ∈ visited, Relation.TransGen (Edge lineage.parents) node
        (lineage.rootReadonlyFrom rounds current) := by
  induction rounds generalizing path current with
  | zero => omega
  | succ _ ih =>
    unfold climb rootReadonlyFrom
    split
    · exact ⟨path, rfl, passed⟩
    · rename_i parent found
      by_cases root : parent = current
      · simp only [if_pos root]
        exact ⟨path, rfl, passed⟩
      · have edge : Edge lineage.parents current parent := ⟨found, root⟩
        have closer := below_lt graded edge
        simp only [if_neg root]
        refine ih _ _ (by omega) fun node member => ?_
        rcases List.mem_append.mp member with before | last
        · exact (passed node before).tail edge
        · rw [List.mem_singleton.mp last]
          exact .single edge

end Climbs

section Roots

variable (forest : Forest lineage.parents)

include forest

variable (program : RuntimeKey)

theorem exists_isEnd : ∃ last, IsEnd (Edge lineage.parents) program last := by
  obtain ⟨_, graded⟩ := forest
  exact ⟨_, rootReadonlyFrom_isEnd graded _ _ (Nat.lt_succ_of_le (below_le _ _ _))⟩

theorem rootReadonly_eq {program last : RuntimeKey}
    (ends : IsEnd (Edge lineage.parents) program last) :
    lineage.rootReadonly program = last.programId := by
  obtain ⟨height, graded⟩ := forest
  have top := rootReadonlyFrom_isEnd graded (lineage.parents.entries.length + 1) program
    (Nat.lt_succ_of_le (below_le _ height _))
  rw [rootReadonly, top.unique (edge_rightUnique _) ends]

theorem root_eq :
    ∃ next, lineage.root program = .ok (lineage.rootReadonly program, next) ∧
      Forest next.parents ∧ Shortcuts (Edge lineage.parents) next.parents := by
  obtain ⟨height, graded⟩ := Forest.register forest program
  have bound := Nat.lt_succ_of_le (below_le (lineage.register program).parents height program)
  have top := rootReadonlyFrom_isEnd graded _ _ bound
  obtain ⟨_, climbed, passed⟩ := climb_eq graded _ [] _ bound (by simp)
  have shorter := graded.compress passed
  have kept := shorter.graded graded
  rw [edge_register] at top shorter
  refine ⟨_, ?_, ⟨height, kept⟩, shorter⟩
  unfold root
  simp only [climbed, ok_bind, rootReadonly_eq forest top]
  rfl

theorem root_returns :
    Returns (lineage.root program) fun resolved => Forest resolved.2.parents := by
  obtain ⟨_, resolves, kept, _⟩ := root_eq forest _
  rw [resolves]
  exact kept

theorem observe_returns (modelPool programId : String)
    (parentProgramId rootProgramId : Option String) :
    Returns (lineage.observe modelPool programId parentProgramId rootProgramId)
      fun resolved => Forest resolved.2.parents := by
  apply root_returns
  apply Forest.declareAncestor
  apply Forest.declareAncestor
  exact Forest.register forest _

end Roots

theorem isSome_register (lineage : ProgramLineage) (program key : RuntimeKey)
    (known : key = program ∨ (lineage.parents.lookup key).isSome) :
    ((lineage.register program).parents.lookup key).isSome := by
  unfold register
  split
  · rename_i parent found
    rcases known with rfl | known
    · rw [found]
      rfl
    · exact known
  · rw [Table.lookup_insert_eq]
    split
    · rfl
    · rename_i apart
      exact known.resolve_left apart

theorem isSome_declareAncestor (lineage : ProgramLineage) (program : RuntimeKey)
    (ancestorId : Option String) (key : RuntimeKey) (known : (lineage.parents.lookup key).isSome) :
    ((lineage.declareAncestor program ancestorId).parents.lookup key).isSome := by
  unfold declareAncestor
  split
  · exact known
  · rename_i ancestor _
    have registered := lineage.isSome_register ⟨program.modelPool, ancestor⟩ key (.inr known)
    simp only
    split
    · exact registered
    · rw [Table.lookup_insert_eq]
      split
      · rfl
      · exact registered

variable {modelPool programId : String} {parentProgramId : Option String}

theorem isSome_observe {next : ProgramLineage} {root : String} {rootProgramId : Option String}
    (observed : lineage.observe modelPool programId parentProgramId rootProgramId =
      .ok (root, next)) {key : RuntimeKey}
    (known : key = ⟨modelPool, programId⟩ ∨ (lineage.parents.lookup key).isSome) :
    (next.parents.lookup key).isSome := by
  unfold observe ProgramLineage.root at observed
  simp only at observed
  generalize declared_is : ((lineage.register ⟨modelPool, programId⟩).declareAncestor
    ⟨modelPool, programId⟩ parentProgramId).declareAncestor ⟨modelPool, programId⟩ rootProgramId =
      declared at observed
  have present : ((declared.register ⟨modelPool, programId⟩).parents.lookup key).isSome := by
    apply isSome_register
    refine .inr ?_
    rw [← declared_is]
    apply isSome_declareAncestor
    apply isSome_declareAncestor
    exact lineage.isSome_register _ key known
  cases climbed : (declared.register ⟨modelPool, programId⟩).climb
      ((declared.register ⟨modelPool, programId⟩).parents.entries.length + 1) []
      ⟨modelPool, programId⟩ with
  | error _ =>
    rw [climbed] at observed
    cases observed
  | ok _ =>
    rw [climbed] at observed
    cases observed
    rw [Table.lookup_foldl_insert]
    split
    · rfl
    · exact present

theorem forest_empty : Forest ProgramLineage.empty.parents :=
  ⟨fun _ => 0, fun _ _ edge => by cases edge.1⟩

inductive LineageCall where
  | observe (modelPool programId : String) (parentProgramId rootProgramId : Option String)
  | root (modelPool programId : String)
  deriving DecidableEq, Repr

def call (lineage : ProgramLineage) : LineageCall → Except Fault ProgramLineage
  | .observe modelPool programId parentProgramId rootProgramId =>
    (lineage.observe modelPool programId parentProgramId rootProgramId).map Prod.snd
  | .root modelPool programId => (lineage.root ⟨modelPool, programId⟩).map Prod.snd

/-- The child and the parent that a call declares. -/
def LineageCall.declares : LineageCall → Option (RuntimeKey × RuntimeKey)
  | .observe modelPool programId parentProgramId _ =>
    (parentProgramId.filter (· ≠ programId)).map fun parentId =>
      (⟨modelPool, programId⟩, ⟨modelPool, parentId⟩)
  | .root _ _ => none

variable (calls : List LineageCall)

def Declared (child parent : RuntimeKey) : Prop :=
  ∃ call ∈ calls, call.declares = some (child, parent)

/-- The calls declare no roots, and as parents one for each Program without a cycle. -/
structure ParentsOnly : Prop where
  rootless : ∀ modelPool programId parent root,
    .observe modelPool programId parent root ∈ calls → root = none
  oneParent : Relator.RightUnique (Declared calls)
  acyclic : ∀ key, ¬ Relation.TransGen (Declared calls) key key

variable {done rest : List LineageCall} {item : LineageCall}

theorem declared_snoc (child parent : RuntimeKey) :
    Declared (done ++ [item]) child parent ↔
      Declared done child parent ∨ item.declares = some (child, parent) := by
  simp [Declared, or_and_right, exists_or]

theorem Shortcuts.register {next : RuntimeKey → RuntimeKey → Prop}
    (shortcuts : Shortcuts next lineage.parents) (program : RuntimeKey) :
    Shortcuts next (lineage.register program).parents := by
  constructor
  all_goals rw [edge_register]
  · exact shortcuts.leads
  · exact shortcuts.proper

theorem declared_snoc_none (undeclared : item.declares = none) :
    Declared (done ++ [item]) = Declared done := by
  funext child parent
  simp [declared_snoc, undeclared]

theorem Shortcuts.declareParent (forest : Forest lineage.parents)
    (shortcuts : Shortcuts (Declared done) lineage.parents)
    (acyclic : ∀ key, ¬ Relation.TransGen
      (Declared (done ++ [.observe modelPool programId parentProgramId none])) key key) :
    Shortcuts (Declared (done ++ [.observe modelPool programId parentProgramId none]))
      (lineage.declareAncestor ⟨modelPool, programId⟩ parentProgramId).parents := by
  cases declared : parentProgramId.filter (· ≠ programId) with
  | none =>
    rw [declared_snoc_none (by rw [LineageCall.declares, declared]; rfl)]
    simpa only [declareAncestor, declared] using shortcuts
  | some parentId =>
    have declares : (LineageCall.observe modelPool programId parentProgramId none).declares =
        some (⟨modelPool, programId⟩, ⟨modelPool, parentId⟩) := by
      rw [LineageCall.declares, declared]
      rfl
    have known := Shortcuts.register shortcuts ⟨modelPool, parentId⟩
    have unreached : ¬ Reaches (lineage.register ⟨modelPool, parentId⟩).parents
        ⟨modelPool, parentId⟩ ⟨modelPool, programId⟩ := by
      intro reaches
      refine acyclic ⟨modelPool, programId⟩ (Relation.TransGen.head'
        ((declared_snoc _ _).mpr (.inr declares)) (reaches.lift' id fun _ _ edge => ?_))
      exact Relation.ReflTransGen.mono (fun _ _ moves =>
        (declared_snoc _ _).mpr (.inl moves)) _ _
        (known.leads _ _ edge).to_reflTransGen
    obtain ⟨_, graded⟩ := Forest.register forest ⟨modelPool, parentId⟩
    have clear := wouldCycleFrom_eq_false graded _ (Nat.lt_succ_of_le (below_le _ _ _)) unreached
    simp only [declareAncestor, declared, wouldCycle, clear]
    refine known.insert (fun _ _ => ?_) ?_
    · rw [declared_snoc, declares]
      simp [eq_comm]
    · have apart := (Option.filter_eq_some_iff.mp declared).2
      simp only [decide_eq_true_eq] at apart
      exact fun same => apart (congrArg RuntimeKey.programId same)

theorem ParentsOnly.take (orderly : ParentsOnly (done ++ rest)) : ParentsOnly done := by
  have earlier child parent (declared : Declared done child parent) :
      Declared (done ++ rest) child parent := by
    obtain ⟨item, member, declares⟩ := declared
    exact ⟨item, List.mem_append_left _ member, declares⟩
  exact {
    rootless := fun _ _ _ root member =>
      orderly.rootless _ _ _ root (List.mem_append_left _ member)
    oneParent := fun _ _ _ first second =>
      orderly.oneParent (earlier _ _ first) (earlier _ _ second)
    acyclic := fun key cycle =>
      orderly.acyclic key (Relation.TransGen.mono earlier _ _ cycle) }

theorem call_returns (forest : Forest lineage.parents) (item : LineageCall) :
    Returns (lineage.call item) fun next => Forest next.parents ∧
      ∀ done, ParentsOnly (done ++ [item]) → Shortcuts (Declared done) lineage.parents →
        Shortcuts (Declared (done ++ [item])) next.parents := by
  cases item with
  | root modelPool programId =>
    obtain ⟨_, resolves, kept, shorter⟩ := root_eq forest ⟨modelPool, programId⟩
    simp only [call, resolves]
    refine ⟨kept, fun _ _ shortcuts => ?_⟩
    rw [declared_snoc_none rfl]
    exact shortcuts.trans shorter
  | observe modelPool programId parentProgramId rootProgramId =>
    have known := Forest.register forest ⟨modelPool, programId⟩
    have declared := Forest.declareAncestor (Forest.declareAncestor known
      ⟨modelPool, programId⟩ parentProgramId) ⟨modelPool, programId⟩ rootProgramId
    obtain ⟨_, resolves, kept, shorter⟩ := root_eq declared ⟨modelPool, programId⟩
    simp only [call, observe, resolves]
    refine ⟨kept, fun _ orderly shortcuts => ?_⟩
    have rootless := orderly.rootless modelPool programId parentProgramId rootProgramId (by simp)
    subst rootless
    exact (Shortcuts.declareParent known (Shortcuts.register shortcuts _)
      orderly.acyclic).trans shorter

/-- The lineage when the calls `rest` are still to come. -/
def Tracks (calls rest : List LineageCall) (lineage : ProgramLineage) : Prop :=
  Forest lineage.parents ∧ ∃ done, calls = done ++ rest ∧
    (ParentsOnly calls → Shortcuts (Declared done) lineage.parents)

theorem run_tracks : Returns (calls.foldlM call empty) (Tracks calls []) := by
  refine Ensures.foldlM (Tracks calls) ?_ ?_
  · refine ⟨forest_empty, [], rfl, fun _ => ⟨fun _ _ edge => ?_, by simp [Declared]⟩⟩
    cases edge.1
  · rintro item _ _ ⟨forest, done, split, shortcuts⟩
    rw [← List.singleton_append, ← List.append_assoc] at split
    refine (call_returns forest item).mono fun _ kept => ⟨kept.1, _, split, fun orderly => ?_⟩
    exact kept.2 done (split ▸ orderly).take (shortcuts orderly)

/-- After any calls the parents form a forest, in which a root is found with and
without compression alike and compression changes no root. If the calls declare no
roots, and one parent for each Program without a cycle, the root of a Program is the
end of its declared chain. -/
theorem run_forest :
    ∃ lineage, calls.foldlM call empty = .ok lineage ∧
      (∀ key, ¬ Relation.TransGen (Edge lineage.parents) key key) ∧
      (∀ program, ∃ next, lineage.root program = .ok (lineage.rootReadonly program, next) ∧
        ∀ other, next.rootReadonly other = lineage.rootReadonly other) ∧
      (ParentsOnly calls → ∀ program last, IsEnd (Declared calls) program last →
        lineage.rootReadonly program = last.programId) := by
  obtain ⟨lineage, ran, forest, _, split, shortcuts⟩ := (run_tracks calls).exists_ok
  refine ⟨lineage, ran, fun _ cycle => ?_, fun program => ?_, fun orderly program _ ends => ?_⟩
  · obtain ⟨_, graded⟩ := forest
    exact absurd (graded.lt_of_transGen cycle) (lt_irrefl _)
  · obtain ⟨next, resolves, kept, shorter⟩ := root_eq forest program
    refine ⟨next, resolves, fun other => ?_⟩
    obtain ⟨_, ends⟩ := exists_isEnd kept other
    rw [rootReadonly_eq kept ends, rootReadonly_eq forest (shorter.isEnd ends)]
  · obtain ⟨_, found⟩ := exists_isEnd forest program
    rw [List.append_nil] at split
    subst split
    rw [rootReadonly_eq forest found,
      ((shortcuts orderly).isEnd found).unique orderly.oneParent ends]

/-- A Program is declared, and its root looked up, before its parent is a child; another
child follows. -/
theorem run_forest_child :
    let calls : List LineageCall := [.observe "m" "a/b/c" (some "a/b") none, .root "m" "a/b/c",
      .observe "m" "a/b" (some "a") none, .observe "m" "a/b/d" (some "a/b") none]
    ∃ lineage, calls.foldlM call empty = .ok lineage ∧
      lineage.rootReadonly ⟨"m", "a/b/c"⟩ = "a" ∧ lineage.rootReadonly ⟨"m", "a/b/d"⟩ = "a" := by
  intro calls
  have declared {child parent : RuntimeKey} : Declared calls child parent ↔
      child = ⟨"m", "a/b/c"⟩ ∧ parent = ⟨"m", "a/b"⟩ ∨ child = ⟨"m", "a/b"⟩ ∧ parent = ⟨"m", "a"⟩ ∨
        child = ⟨"m", "a/b/d"⟩ ∧ parent = ⟨"m", "a/b"⟩ := by
    simp [Declared, calls, LineageCall.declares, Option.filter_some, eq_comm]
  have shorter {child last : RuntimeKey} (leads : Relation.TransGen (Declared calls) child last) :
      last.programId.length < child.programId.length := by
    have step {child parent : RuntimeKey} (first : Declared calls child parent) :
        parent.programId.length < child.programId.length := by
      obtain ⟨rfl, rfl⟩ | ⟨rfl, rfl⟩ | ⟨rfl, rfl⟩ := declared.mp first <;> decide
    induction leads with
    | single first => exact step first
    | tail _ next ih => exact (step next).trans ih
  have orderly : ParentsOnly calls := by
    refine ⟨?_, ?_, fun _ cycle => lt_irrefl _ (shorter cycle)⟩
    · intro _ _ _ _ listed
      simp only [calls, List.mem_cons, LineageCall.observe.injEq] at listed
      grind
    · intro _ _ _ first second
      rw [declared] at first second
      grind
  have link : Declared calls ⟨"m", "a/b"⟩ ⟨"m", "a"⟩ := declared.mpr (by simp)
  have last : ∀ next, ¬ Declared calls ⟨"m", "a"⟩ next := by simp [declared]
  obtain ⟨lineage, ran, _, _, ends⟩ := run_forest calls
  refine ⟨lineage, ran, ends orderly _ ⟨"m", "a"⟩ ⟨.head ?_ (.single link), last⟩,
    ends orderly _ ⟨"m", "a"⟩ ⟨.head ?_ (.single link), last⟩⟩
  all_goals simp [declared]

end ProgramLineage

end SmetricRouter.ProgramScheduling
