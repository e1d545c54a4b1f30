import Mathlib.Logic.Function.Basic
import Mathlib.Data.List.Basic

/-! Compressed tries as graphs of nodes that are shared by reference.

A node has a label, an edge for each first letter of a child's label, and a
pointer back to its parent. Nodes are known by the word that leads to them from
the root. Attaching a leaf, splitting an edge and detaching a leaf each change
the set of words by one, whatever else hangs below.
-/

namespace SmetricRouter

open Function

structure RadixGraph (N C : Type) where
  child : N → C → Option N
  label : N → List C
  parent : N → Option N

namespace RadixGraph

variable {N C : Type}

/-- A word leads from a node down to another one: the labels on the way, joined. -/
inductive Leads (graph : RadixGraph N C) : N → List C → N → Prop where
  | stay (node : N) : Leads graph node [] node
  | down {node next last : N} {key : C} {word} (edge : graph.child node key = some next)
      (rest : Leads graph next word last) : Leads graph node (graph.label next ++ word) last

/-- An edge is keyed by the first letter of the label it leads to, and the node
at its end points back. Nothing is above the root. -/
structure Rooted (graph : RadixGraph N C) (root : N) : Prop where
  top : graph.parent root = none
  keyed : ∀ {node key next}, graph.child node key = some next →
    ∃ rest, graph.label next = key :: rest
  back : ∀ {node key next}, graph.child node key = some next → graph.parent next = some node

variable {graph : RadixGraph N C} {root node next last other : N} {word front tail : List C} {key : C}

theorem Leads.edge (edge : graph.child node key = some next) :
    graph.Leads node (graph.label next) next := by
  have step := Leads.down edge (.stay next)
  rwa [List.append_nil] at step

theorem Leads.trans (first : graph.Leads node front next) (second : graph.Leads next tail last) :
    graph.Leads node (front ++ tail) last := by
  induction first with
  | stay => exact second
  | down edge _ ih =>
    rw [List.append_assoc]
    exact .down edge (ih second)

theorem Leads.end_cases (leads : graph.Leads node word last) :
    (word = [] ∧ last = node) ∨ ∃ front before key, graph.Leads node front before ∧
      graph.child before key = some last ∧ word = front ++ graph.label last := by
  induction leads with
  | stay => exact .inl ⟨rfl, rfl⟩
  | @down node next last key word edge _ ih =>
    rcases ih with ⟨rfl, rfl⟩ | ⟨_, before, letter, leads, final, rfl⟩
    · exact .inr ⟨[], node, key, .stay _, edge, by rw [List.append_nil, List.nil_append]⟩
    · exact .inr ⟨_, before, letter, .down edge leads, final, (List.append_assoc _ _ _).symm⟩

variable {before : N} {letter : C}

namespace Rooted

variable (rooted : graph.Rooted root)

include rooted

theorem edge_unique (first : graph.child node key = some next)
    (second : graph.child before letter = some next) : before = node ∧ letter = key := by
  have above := (rooted.back first).symm.trans (rooted.back second)
  obtain ⟨_, shown⟩ := rooted.keyed first
  obtain ⟨_, seen⟩ := rooted.keyed second
  rw [shown] at seen
  exact ⟨(Option.some.inj above).symm, (List.cons.inj seen).1.symm⟩

theorem not_child (edge : graph.child node key = some next) : next ≠ root := by
  rintro rfl
  have above := rooted.back edge
  rw [rooted.top] at above
  cases above

theorem leads_rest {middle : N} (first : graph.Leads node front middle)
    (second : graph.Leads node (front ++ tail) last) : graph.Leads middle tail last := by
  induction first with
  | stay => exact second
  | @down node next middle key word edge _ ih =>
    obtain ⟨_, shown⟩ := rooted.keyed edge
    generalize whole : graph.label next ++ word ++ tail = longer at second
    cases second with
    | stay =>
      rw [shown] at whole
      cases whole
    | @down _ branch _ letter later turn leads =>
      -- The first letter tells which edge is taken.
      obtain ⟨_, seen⟩ := rooted.keyed turn
      have same : letter = key := by
        rw [shown, seen] at whole
        exact (List.cons.inj whole).1.symm
      rw [same, edge] at turn
      cases turn
      rw [List.append_assoc] at whole
      exact ih (List.append_cancel_left whole ▸ leads)

theorem leads_turn {middle : N} (first : graph.Leads node front middle)
    (second : graph.Leads node (front ++ key :: tail) last) :
    ∃ next rest, graph.child middle key = some next ∧ key :: tail = graph.label next ++ rest ∧
      graph.Leads next rest last := by
  have onward := rooted.leads_rest first second
  generalize whole : key :: tail = longer at onward
  cases onward with
  | stay => cases whole
  | @down _ next _ letter rest edge leads =>
    obtain ⟨_, seen⟩ := rooted.keyed edge
    rw [seen] at whole
    obtain ⟨rfl, _⟩ := List.cons.inj whole
    exact ⟨next, rest, edge, rfl, leads⟩

theorem word_unique (first : graph.Leads root front node) (second : graph.Leads root tail node) :
    front = tail := by
  generalize long : front.length = size
  induction size using Nat.strongRecOn generalizing front tail node with
  | ind size ih =>
    rcases first.end_cases with ⟨rfl, rfl⟩ | ⟨above, _, _, leads, edge, rfl⟩
    · rcases second.end_cases with ⟨rfl, _⟩ | ⟨_, _, _, _, upper, _⟩
      · rfl
      · exact (rooted.not_child upper rfl).elim
    · rcases second.end_cases with ⟨_, rfl⟩ | ⟨_, _, _, climbs, link, rfl⟩
      · exact (rooted.not_child edge rfl).elim
      · obtain ⟨rfl, rfl⟩ := rooted.edge_unique edge link
        obtain ⟨_, shown⟩ := rooted.keyed edge
        have shorter : above.length < size := by
          rw [← long, shown, List.length_append, List.length_cons]
          omega
        rw [ih above.length shorter leads climbs rfl]

theorem no_loop (leads : graph.Leads root front node) (edge : graph.child node key = some next) :
    next ≠ node := by
  rintro rfl
  obtain ⟨_, shown⟩ := rooted.keyed edge
  have longer := rooted.word_unique leads (leads.trans (.edge edge))
  rw [shown] at longer
  have lengths := congrArg List.length longer
  rw [List.length_append, List.length_cons] at lengths
  omega

end Rooted

/-- Nothing leads to the node and nothing leads on from it. -/
structure Unused (graph : RadixGraph N C) (fresh : N) : Prop where
  unreached : ∀ node key, graph.child node key ≠ some fresh
  bare : ∀ key, graph.child fresh key = none

variable {fresh start : N}

section Attach

variable [DecidableEq N] [DecidableEq C]

def attach (graph : RadixGraph N C) (node : N) (key : C) (fresh : N) (word : List C) :
    RadixGraph N C where
  child := Function.update graph.child node (Function.update (graph.child node) key (some fresh))
  label := Function.update graph.label fresh word
  parent := Function.update graph.parent fresh (some node)

theorem child_attach (before : N) (letter : C) :
    (graph.attach node key fresh word).child before letter =
      if before = node ∧ letter = key then some fresh else graph.child before letter := by
  unfold attach
  by_cases same : before = node
  · subst same
    by_cases own : letter = key
    · subst own
      simp
    · simp [own]
  · simp [same]

theorem label_attach_self : (graph.attach node key fresh word).label fresh = word :=
  update_self _ _ _

variable (unused : graph.Unused fresh) (different : fresh ≠ node)

include unused different

theorem label_attach_of_child (edge : graph.child before letter = some next) :
    (graph.attach node key fresh word).label next = graph.label next := by
  refine update_of_ne ?_ _ _
  rintro rfl
  exact unused.unreached _ _ edge

theorem attach_leads_of_leads (vacant : graph.child node key = none)
    (leads : graph.Leads start front last) :
    (graph.attach node key fresh word).Leads start front last := by
  induction leads with
  | stay => exact .stay _
  | @down start next last letter tail edge _ ih =>
    have kept : (graph.attach node key fresh word).child start letter = some next := by
      rw [child_attach, if_neg, edge]
      rintro ⟨rfl, rfl⟩
      rw [vacant] at edge
      cases edge
    rw [← label_attach_of_child unused different edge]
    exact .down kept ih

theorem leads_of_attach_leads (old : start ≠ fresh)
    (leads : (graph.attach node key fresh word).Leads start front last) :
    graph.Leads start front last ∨
      ∃ above, graph.Leads start above node ∧ last = fresh ∧ front = above ++ word := by
  induction leads with
  | stay => exact .inl (.stay _)
  | @down start next last letter tail edge rest ih =>
    rw [child_attach] at edge
    split at edge
    · -- The new edge leads to the new leaf, and no further.
      rename_i new
      obtain ⟨rfl, rfl⟩ := new
      cases edge
      cases rest with
      | stay =>
        rw [label_attach_self]
        exact .inr ⟨[], .stay _, rfl, by rw [List.append_nil, List.nil_append]⟩
      | down further =>
        rw [child_attach, if_neg fun own => different own.1, unused.bare] at further
        cases further
    · have kept : next ≠ fresh := by
        rintro rfl
        exact unused.unreached _ _ edge
      rw [label_attach_of_child unused different edge]
      rcases ih kept with leads | ⟨_, leads, rfl, rfl⟩
      · exact .inl (.down edge leads)
      · exact .inr ⟨_, .down edge leads, rfl, (List.append_assoc _ _ _).symm⟩

variable (rooted : graph.Rooted root) (proper : root ≠ fresh)

include rooted proper

theorem leads_attach (vacant : graph.child node key = none) (at_node : graph.Leads root front node)
    (reached : N) (path : List C) :
    (graph.attach node key fresh word).Leads root path reached ↔
      graph.Leads root path reached ∨ reached = fresh ∧ path = front ++ word := by
  constructor
  · intro leads
    rcases leads_of_attach_leads unused different proper leads with old | ⟨_, climbs, rfl, rfl⟩
    · exact .inl old
    · exact .inr ⟨rfl, by rw [rooted.word_unique climbs at_node]⟩
  · rintro (old | ⟨rfl, rfl⟩)
    · exact attach_leads_of_leads unused different vacant old
    · have edge : (graph.attach node key reached word).child node key = some reached := by
        rw [child_attach, if_pos ⟨rfl, rfl⟩]
      have final := Leads.edge edge
      rw [label_attach_self] at final
      exact (attach_leads_of_leads unused different vacant at_node).trans final

theorem Rooted.attach
    (starts : ∃ rest, word = key :: rest) : (graph.attach node key fresh word).Rooted root where
  top := (update_of_ne proper _ _).trans rooted.top
  keyed {before letter next} edge := by
    rw [child_attach] at edge
    split at edge
    · rename_i new
      cases edge
      rw [new.2, label_attach_self]
      exact starts
    · rw [label_attach_of_child unused different edge]
      exact rooted.keyed edge
  back {before _ next} edge := by
    rw [child_attach] at edge
    split at edge
    · rename_i new
      cases edge
      rw [new.1]
      exact update_self _ _ _
    · refine (update_of_ne ?_ _ _).trans (rooted.back edge)
      rintro rfl
      exact unused.unreached _ _ edge

end Attach

section Split

variable [DecidableEq N] [DecidableEq C]

/-- Put a fresh node into the edge to a child, which keeps the back of its label. -/
def split (graph : RadixGraph N C) (node : N) (key : C) (fresh lower : N) (upper : List C)
    (letter : C) (back : List C) : RadixGraph N C where
  child := Function.update
    (Function.update graph.child node (Function.update (graph.child node) key (some fresh)))
    fresh (Function.update (fun _ => none) letter (some lower))
  label := Function.update (Function.update graph.label fresh upper) lower (letter :: back)
  parent := Function.update (Function.update graph.parent fresh (some node)) lower (some fresh)

/-- The edge that is split, and what it is split into. -/
structure Splits (graph : RadixGraph N C) (node : N) (key : C) (fresh lower : N) (upper : List C)
    (letter : C) (back : List C) : Prop where
  edge : graph.child node key = some lower
  text : graph.label lower = upper ++ letter :: back
  starts : ∃ rest, upper = key :: rest
  unused : graph.Unused fresh
  apart : fresh ≠ node

variable {lower : N} {upper back : List C}

theorem child_split (before : N) (turn : C) :
    (graph.split node key fresh lower upper letter back).child before turn =
      if before = fresh then if turn = letter then some lower else none
      else if before = node ∧ turn = key then some fresh else graph.child before turn := by
  unfold split
  by_cases new : before = fresh
  · subst new
    by_cases own : turn = letter
    · subst own
      simp
    · simp [own]
  · by_cases same : before = node
    · subst same
      by_cases own : turn = key
      · subst own
        simp [new]
      · simp [new, own]
    · simp [new, same]

theorem label_split (node next : N) :
    (graph.split node key fresh lower upper letter back).label next =
      if next = lower then letter :: back else if next = fresh then upper
      else graph.label next := by
  simp [split, update_apply]

theorem parent_split (node next : N) :
    (graph.split node key fresh lower upper letter back).parent next =
      if next = lower then some fresh else if next = fresh then some node
      else graph.parent next := by
  simp [split, update_apply]

theorem label_split_lower :
    (graph.split node key fresh lower upper letter back).label lower = letter :: back := by
  rw [label_split, if_pos rfl]

namespace Splits

variable (splits : graph.Splits node key fresh lower upper letter back)

include splits

omit [DecidableEq N] [DecidableEq C] in
theorem lower_ne_fresh : lower ≠ fresh := by
  rintro rfl
  exact splits.unused.unreached _ _ splits.edge

theorem label_fresh : (graph.split node key fresh lower upper letter back).label fresh = upper := by
  rw [label_split, if_neg splits.lower_ne_fresh.symm, if_pos rfl]

variable (rooted : graph.Rooted root)

include rooted

theorem label_other {turn : C}
    (edge : graph.child before turn = some next) (untouched : ¬ (before = node ∧ turn = key)) :
    (graph.split node key fresh lower upper letter back).label next = graph.label next := by
  have not_lower : next ≠ lower := by
    rintro rfl
    exact untouched (rooted.edge_unique splits.edge edge)
  have not_fresh : next ≠ fresh := by
    rintro rfl
    exact splits.unused.unreached _ _ edge
  rw [label_split, if_neg not_lower, if_neg not_fresh]

theorem split_leads_of_leads (leads : graph.Leads start front last) :
    (graph.split node key fresh lower upper letter back).Leads start front last := by
  induction leads with
  | stay => exact .stay _
  | @down start next last turn tail edge _ ih =>
    have old : start ≠ fresh := by
      rintro rfl
      rw [splits.unused.bare] at edge
      cases edge
    by_cases touched : start = node ∧ turn = key
    · -- The edge is taken in two steps.
      obtain ⟨rfl, rfl⟩ := touched
      obtain rfl : next = lower := Option.some.inj (edge.symm.trans splits.edge)
      have upper_edge : (graph.split start turn fresh next upper letter back).child start turn =
          some fresh := by rw [child_split, if_neg old, if_pos ⟨rfl, rfl⟩]
      have lower_edge : (graph.split start turn fresh next upper letter back).child fresh letter =
          some next := by rw [child_split, if_pos rfl, if_pos rfl]
      have steps := Leads.down upper_edge (Leads.down lower_edge ih)
      rw [splits.label_fresh, label_split_lower, ← List.append_assoc, ← splits.text] at steps
      exact steps
    · have kept : (graph.split node key fresh lower upper letter back).child start turn =
          some next := by rw [child_split, if_neg old, if_neg touched, edge]
      rw [← splits.label_other rooted edge touched]
      exact .down kept ih

theorem leads_of_split_leads
    (leads : (graph.split node key fresh lower upper letter back).Leads start front last) :
    (start ≠ fresh → graph.Leads start front last ∨
      ∃ above, graph.Leads start above node ∧ last = fresh ∧ front = above ++ upper) ∧
    (start = fresh → front = [] ∧ last = fresh ∨ ∃ tail, front = letter :: back ++ tail ∧
      (graph.Leads lower tail last ∨
        ∃ above, graph.Leads lower above node ∧ last = fresh ∧ tail = above ++ upper)) := by
  induction leads with
  | stay => exact ⟨fun _ => .inl (.stay _), fun new => .inl ⟨rfl, new⟩⟩
  | @down start next last turn tail edge rest ih =>
    rw [child_split] at edge
    refine ⟨fun old => ?_, fun new => ?_⟩
    · rw [if_neg old] at edge
      by_cases touched : start = node ∧ turn = key
      · rw [if_pos touched] at edge
        obtain ⟨rfl, rfl⟩ := touched
        cases edge
        rw [splits.label_fresh]
        rcases ih.2 rfl with ⟨rfl, rfl⟩ | ⟨_, rfl, leads | ⟨above, leads, rfl, rfl⟩⟩
        · exact .inr ⟨[], .stay _, rfl, by rw [List.append_nil, List.nil_append]⟩
        · rw [← List.append_assoc, ← splits.text]
          exact .inl (.down splits.edge leads)
        · rw [← List.append_assoc, ← List.append_assoc, ← splits.text]
          exact .inr ⟨_, .down splits.edge leads, rfl, rfl⟩
      · rw [if_neg touched] at edge
        have kept : next ≠ fresh := by
          rintro rfl
          exact splits.unused.unreached _ _ edge
        rw [splits.label_other rooted edge touched]
        rcases ih.1 kept with leads | ⟨_, leads, rfl, rfl⟩
        · exact .inl (.down edge leads)
        · exact .inr ⟨_, .down edge leads, rfl, (List.append_assoc _ _ _).symm⟩
    · rw [if_pos new] at edge
      split at edge
      · cases edge
        rw [label_split_lower]
        exact .inr ⟨tail, rfl, ih.1 splits.lower_ne_fresh⟩
      · cases edge

theorem leads_split (proper : root ≠ fresh)
    (at_node : graph.Leads root front node) {reached : N} {path : List C} :
    (graph.split node key fresh lower upper letter back).Leads root path reached ↔
      graph.Leads root path reached ∨ reached = fresh ∧ path = front ++ upper := by
  constructor
  · intro leads
    rcases (splits.leads_of_split_leads rooted leads).1 proper with old | ⟨_, climbs, rfl, rfl⟩
    · exact .inl old
    · exact .inr ⟨rfl, by rw [rooted.word_unique climbs at_node]⟩
  · rintro (old | ⟨rfl, rfl⟩)
    · exact splits.split_leads_of_leads rooted old
    · have edge : (graph.split node key reached lower upper letter back).child node key =
          some reached := by
        rw [child_split, if_neg splits.apart.symm, if_pos ⟨rfl, rfl⟩]
      have final := Leads.edge edge
      rw [splits.label_fresh] at final
      exact (splits.split_leads_of_leads rooted at_node).trans final

theorem rooted_split (proper : root ≠ fresh) :
    (graph.split node key fresh lower upper letter back).Rooted root where
  top := by
    have not_lower : root ≠ lower := (rooted.not_child splits.edge).symm
    rw [parent_split, if_neg not_lower, if_neg proper]
    exact rooted.top
  keyed {before turn next} edge := by
    rw [child_split] at edge
    split at edge
    · split at edge
      · rename_i own
        cases edge
        rw [label_split_lower, own]
        exact ⟨back, rfl⟩
      · cases edge
    · split at edge
      · rename_i new
        cases edge
        rw [splits.label_fresh, new.2]
        exact splits.starts
      · rename_i untouched
        rw [splits.label_other rooted edge untouched]
        exact rooted.keyed edge
  back {before turn next} edge := by
    rw [parent_split]
    rw [child_split] at edge
    split at edge
    · rename_i new
      split at edge
      · cases edge
        rw [if_pos rfl, new]
      · cases edge
    · split at edge
      · rename_i touched
        cases edge
        rw [if_neg splits.lower_ne_fresh.symm, if_pos rfl, touched.1]
      · rename_i untouched
        have not_lower : next ≠ lower := by
          rintro rfl
          exact untouched (rooted.edge_unique splits.edge edge)
        have not_fresh : next ≠ fresh := by
          rintro rfl
          exact splits.unused.unreached _ _ edge
        rw [if_neg not_lower, if_neg not_fresh]
        exact rooted.back edge

end Splits

end Split

section Detach

variable [DecidableEq N] [DecidableEq C]

def detach (graph : RadixGraph N C) (node : N) (key : C) : RadixGraph N C :=
  { graph with
    child := Function.update graph.child node (Function.update (graph.child node) key none) }

theorem child_detach (before : N) (turn : C) :
    (graph.detach node key).child before turn =
      if before = node ∧ turn = key then none else graph.child before turn := by
  unfold detach
  by_cases same : before = node
  · subst same
    by_cases own : turn = key
    · subst own
      simp
    · simp [own]
  · simp [same]

theorem child_of_detach {turn : C} (edge : (graph.detach node key).child before turn = some next) :
    graph.child before turn = some next ∧ ¬ (before = node ∧ turn = key) := by
  rw [child_detach] at edge
  split at edge
  · cases edge
  · exact ⟨edge, ‹_›⟩

theorem Rooted.detach (rooted : graph.Rooted root) (node : N) (key : C) :
    (graph.detach node key).Rooted root where
  top := rooted.top
  keyed edge := rooted.keyed (child_of_detach edge).1
  back edge := rooted.back (child_of_detach edge).1

theorem leads_detach (rooted : graph.Rooted root) {leaf : N} (edge : graph.child node key = some leaf)
    (bare : ∀ key, graph.child leaf key = none) (reached : N) (path : List C) :
    (graph.detach node key).Leads root path reached ↔
      graph.Leads root path reached ∧ reached ≠ leaf := by
  constructor
  · intro leads
    have proper : root ≠ leaf := (rooted.not_child edge).symm
    generalize root = start at leads proper
    induction leads with
    | stay => exact ⟨.stay _, proper⟩
    | @down start next last turn tail taken _ ih =>
      obtain ⟨old, kept⟩ := child_of_detach taken
      have other : next ≠ leaf := by
        rintro rfl
        exact kept (rooted.edge_unique edge old)
      obtain ⟨leads, apart⟩ := ih other
      exact ⟨.down old leads, apart⟩
  · rintro ⟨leads, apart⟩
    generalize root = start at leads
    induction leads with
    | stay => exact .stay _
    | @down start next last turn tail old rest ih =>
      have kept : (graph.detach node key).child start turn = some next := by
        rw [child_detach, if_neg, old]
        rintro ⟨rfl, rfl⟩
        rw [edge] at old
        cases old
        cases rest with
        | stay => exact apart rfl
        | down further =>
          rw [bare] at further
          cases further
      exact .down kept (ih apart)

end Detach

end RadixGraph

end SmetricRouter
