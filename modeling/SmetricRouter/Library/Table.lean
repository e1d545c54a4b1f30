import Mathlib.Algebra.GroupWithZero.Nat
import Mathlib.Data.List.AList

/-! Finite tables with the operations of a keyed map.

A table is an association list without repeated keys. Lookups determine what a
table means; the order of its entries is only the order in which it was filled,
so a client that iterates must say separately which order it observes.
-/

namespace SmetricRouter

abbrev Table (K V : Type) : Type := AList fun _ : K => V

namespace Table

variable {K V : Type} [DecidableEq K]

/-- Change the value under a present key; an absent key is left absent. -/
def modify (table : Table K V) (key : K) (change : V → V) : Table K V :=
  match table.lookup key with
  | some value => table.insert key (change value)
  | none => table

/-- Change the value under a key, starting from the default when it is absent. -/
def update [Inhabited V] (table : Table K V) (key : K) (change : V → V) : Table K V :=
  table.insert key (change ((table.lookup key).getD default))

def orDefault [Inhabited V] (table : Table K V) (key : K) : Table K V :=
  match table.lookup key with
  | some _ => table
  | none => table.insert key default

def retain (table : Table K V) (keep : K → V → Bool) : Table K V :=
  ⟨table.entries.filter fun entry => keep entry.1 entry.2,
    table.nodupKeys.sublist List.filter_sublist⟩

def mapValues (table : Table K V) (change : V → V) : Table K V :=
  ⟨table.entries.map fun entry => ⟨entry.1, change entry.2⟩,
    List.NodupKeys.map₂ (fun _ => change) _ table.nodupKeys⟩

def eraseAll (table : Table K V) (keys : List K) : Table K V :=
  keys.foldl (fun rest key => rest.erase key) table

def values (table : Table K V) : List V :=
  table.entries.map fun entry => entry.2

variable (table : Table K V) (key other : K)

theorem lookup_insert_eq (value : V) :
    AList.lookup other (AList.insert key value table) =
      if other = key then some value else table.lookup other := by
  by_cases same : other = key
  · subst other
    simp
  · simp [same]

theorem lookup_erase_eq :
    AList.lookup other (AList.erase key table) =
      if other = key then none else table.lookup other := by
  by_cases same : other = key
  · subst other
    simp
  · simp [same]

variable (change : V → V)

theorem lookup_modify :
    AList.lookup other (table.modify key change) =
      if other = key then (table.lookup key).map change else table.lookup other := by
  unfold modify
  cases found : table.lookup key with
  | none =>
    by_cases same : other = key
    · subst other
      simp [found]
    · simp [same]
  | some => simp [lookup_insert_eq]

theorem isSome_lookup_insert {key : K} {old : V}
    (stored : table.lookup key = some old) (value : V) (other : K) :
    (AList.lookup other (table.insert key value)).isSome = (table.lookup other).isSome := by
  rw [lookup_insert_eq]
  by_cases same : other = key
  · rw [if_pos same, same, stored]
    rfl
  · rw [if_neg same]

theorem isSome_lookup_modify :
    (AList.lookup other (table.modify key change)).isSome = (table.lookup other).isSome := by
  rw [lookup_modify]
  by_cases same : other = key
  · rw [if_pos same, Option.isSome_map, same]
  · rw [if_neg same]

theorem getD_lookup_modify_filter {W : Type} (table : Table K (List W)) (key other : K)
    (keep : W → Bool) : ((table.modify key fun items => items.filter keep).lookup other).getD [] =
      if other = key then ((table.lookup key).getD []).filter keep
      else (table.lookup other).getD [] := by
  rw [lookup_modify]
  split
  · cases table.lookup key <;> rfl
  · rfl

theorem lookup_update [Inhabited V] :
    AList.lookup other (table.update key change) =
      if other = key then some (change ((table.lookup key).getD default))
      else table.lookup other :=
  lookup_insert_eq table key other _

variable {value : V}

section Views

variable {W : Type} (read : V → W) (table : Table K V) (key : K)

theorem view_insert (value : V) :
    (fun other => (AList.lookup other (table.insert key value)).map read) =
      Function.update (fun other => (table.lookup other).map read) key (some (read value)) := by
  funext other
  rw [lookup_insert_eq, Function.update_apply]
  split <;> rfl

theorem view_erase :
    (fun other => (AList.lookup other (table.erase key)).map read) =
      Function.update (fun other => (table.lookup other).map read) key none := by
  funext other
  rw [lookup_erase_eq, Function.update_apply]
  split <;> rfl

variable {table} {key} in
theorem view_modify (found : table.lookup key = some value) (change : V → V) :
    (fun other => (AList.lookup other (table.modify key change)).map read) =
      Function.update (fun other => (table.lookup other).map read) key
        (some (read (change value))) := by
  simp only [modify, found]
  exact view_insert _ _ key (change value)

variable {read} in
theorem view_modify_same {change : V → V} (kept : ∀ value, read (change value) = read value) :
    (fun other => (AList.lookup other (table.modify key change)).map read) =
      fun other => (table.lookup other).map read := by
  cases found : table.lookup key with
  | none => simp [modify, found]
  | some =>
    rw [view_modify read found, kept]
    exact Function.update_eq_self_iff.mpr (congrArg (Option.map _) found).symm

theorem view_update [Inhabited V] (change : V → V) :
    (fun other => read ((AList.lookup other (table.update key change)).getD default)) =
      Function.update (fun other => read ((table.lookup other).getD default)) key
        (read (change ((table.lookup key).getD default))) := by
  funext other
  rw [lookup_update, Function.update_apply]
  split <;> rfl

end Views

theorem lookup_orDefault [Inhabited V] :
    AList.lookup other (table.orDefault key) =
      if other = key then some ((table.lookup key).getD default) else table.lookup other := by
  unfold orDefault
  cases found : table.lookup key with
  | none => simp [lookup_insert_eq]
  | some _ =>
    by_cases same : other = key
    · subst other
      simp [found]
    · simp [same]

theorem lookup_foldl_orDefault [Inhabited V] (keys : List K) (table : Table K V) (key : K) :
    (keys.foldl (fun table other => table.orDefault other) table).lookup key =
      if key ∈ keys then some ((table.lookup key).getD default) else table.lookup key := by
  induction keys generalizing table with
  | nil => simp
  | cons first _ ih =>
    rw [List.foldl_cons, ih, lookup_orDefault]
    by_cases same : key = first
    · subst same
      simp
    · simp [same]

theorem lookup_foldl_insert (value : V) (keys : List K) (table : Table K V) (key : K) :
    (keys.foldl (fun table other => AList.insert other value table) table).lookup key =
      if key ∈ keys then some value else table.lookup key := by
  induction keys generalizing table with
  | nil => simp
  | cons first _ ih =>
    rw [List.foldl_cons, ih, lookup_insert_eq]
    by_cases same : key = first <;> simp [same]

/-- No key has an empty list. -/
def Filled (table : Table K (List V)) : Prop :=
  ∀ key items, table.lookup key = some items → items ≠ []

theorem Filled.update_insert [DecidableEq V] {table : Table K (List V)} (filled : table.Filled)
    (key : K) (item : V) : (table.update key fun items => items.insert item).Filled := by
  intro _ _ found
  rw [lookup_update] at found
  split at found
  · cases found
    exact List.ne_nil_of_mem List.mem_insert_self
  · exact filled _ _ found

theorem Filled.lookup_rel {table other : Table K (List V)} (filled : table.Filled)
    (others : other.Filled) (same : ∀ key item, item ∈ (table.lookup key).getD [] ↔
      item ∈ (other.lookup key).getD []) (key : K) :
    Option.Rel (fun left right => ∀ item, item ∈ left ↔ item ∈ right) (table.lookup key)
      (other.lookup key) := by
  have members := same key
  cases found : table.lookup key with
  | none =>
    cases held : other.lookup key with
    | none => exact .none
    | some _ =>
      rw [found, held] at members
      obtain ⟨item, member⟩ := List.exists_mem_of_ne_nil _ (others key _ held)
      cases (members item).mpr member
  | some _ =>
    cases held : other.lookup key with
    | none =>
      rw [found, held] at members
      obtain ⟨item, member⟩ := List.exists_mem_of_ne_nil _ (filled key _ found)
      cases (members item).mp member
    | some =>
      rw [found, held] at members
      exact .some members

theorem lookup_retain (keep : K → V → Bool) (key : K) :
    AList.lookup key (table.retain keep) = (table.lookup key).filter (keep key) := by
  apply Option.ext
  intro _
  simp [← Option.mem_def, AList.mem_lookup_iff, Option.mem_filter_iff, retain]

theorem lookup_mapValues (key : K) :
    AList.lookup key (table.mapValues change) = (table.lookup key).map change :=
  List.dlookup_map₂ (f := fun _ => change) key

theorem lookup_eraseAll (keys : List K) (key : K) :
    AList.lookup key (table.eraseAll keys) =
      if key ∈ keys then none else table.lookup key := by
  induction keys generalizing table with
  | nil => simp [eraseAll]
  | cons head rest ih =>
    have step : table.eraseAll (head :: rest) = eraseAll (AList.erase head table) rest := rfl
    rw [step, ih, lookup_erase_eq]
    by_cases member : key ∈ rest
    · simp [member]
    · simp [member]

theorem perm_kerase (entries : List (Σ _ : K, V)) (key : K) :
    (entries.map fun entry => entry.2).Perm
      ((List.dlookup key entries).toList ++ (List.kerase key entries).map fun entry => entry.2) := by
  induction entries with
  | nil => exact .refl _
  | cons head rest ih =>
    obtain ⟨first, value⟩ := head
    by_cases same : key = first
    · subst same
      have erased : List.kerase key (⟨key, value⟩ :: rest) = rest := List.kerase_cons_eq rfl
      rw [erased, List.dlookup_cons_eq]
      exact .refl _
    · have kept : List.kerase key (⟨first, value⟩ :: rest) =
          ⟨first, value⟩ :: List.kerase key rest := List.kerase_cons_ne same
      rw [kept, List.dlookup_cons_ne _ _ same]
      exact (ih.cons _).trans List.perm_middle.symm

theorem values_perm_erase (key : K) :
    table.values.Perm ((table.lookup key).toList ++ values (AList.erase key table)) :=
  perm_kerase table.entries key

def total (table : Table K V) (measure : V → Nat) : Nat := (table.values.map measure).sum

variable (measure : V → Nat)

theorem total_erase (key : K) :
    total (AList.erase key table) measure + ((table.lookup key).map measure).getD 0 =
      table.total measure := by
  have counted := ((values_perm_erase table key).map measure).sum_nat
  rw [List.map_append, List.sum_append_nat, Nat.add_comm] at counted
  refine Eq.trans ?_ counted.symm
  cases table.lookup key <;> rfl

theorem total_insert (key : K) (value : V) :
    total (AList.insert key value table) measure + ((table.lookup key).map measure).getD 0 =
      table.total measure + measure value := by
  rw [← total_erase table measure key]
  change measure value + total (AList.erase key table) measure + _ = _
  omega

/-- One entry of a table replaced; `none` is an absent value. -/
structure Swaps (table next : Table K V) (key : K) (old new : Option V) : Prop where
  found : table.lookup key = old
  lookup : ∀ other, AList.lookup other next = if other = key then new else table.lookup other
  total : ∀ measure, next.total measure + (old.map measure).getD 0 =
    table.total measure + (new.map measure).getD 0

section Swaps

variable {table next : Table K V} {key} {old new : Option V}

variable (found : table.lookup key = old)

include found

theorem Swaps.insert (value : V) : Swaps table (table.insert key value) key old (some value) :=
  ⟨found, fun other => lookup_insert_eq table key other value,
    fun measure => found ▸ total_insert table measure key value⟩

theorem Swaps.erase : Swaps table (table.erase key) key old none :=
  ⟨found, fun other => lookup_erase_eq table key other,
    fun measure => found ▸ total_erase table measure key⟩

theorem Swaps.none : Swaps table table key old old := by
  refine ⟨found, fun _ => ?_, fun _ => rfl⟩
  split
  · rename_i same
    rw [same, found]
  · rfl

omit found

theorem Swaps.of_lookup (swaps : Swaps table next key old new) {other : K}
    (stored : AList.lookup other next = some value) :
    other = key ∧ new = some value ∨ other ≠ key ∧ table.lookup other = some value := by
  rw [swaps.lookup] at stored
  split at stored
  · rename_i same
    exact .inl ⟨same, stored⟩
  · rename_i apart
    exact .inr ⟨apart, stored⟩

end Swaps

theorem measure_le_total {key : K}
    (found : table.lookup key = some value) : measure value ≤ table.total measure := by
  rw [← total_erase table measure key, found]
  exact Nat.le_add_left _ _

theorem total_eq_zero
    (unmeasured : ∀ key value, table.lookup key = some value → measure value = 0) :
    table.total measure = 0 := by
  refine List.sum_eq_zero_iff_forall_eq_nat.mpr fun _ member => ?_
  obtain ⟨_, listed, rfl⟩ := List.mem_map.mp member
  obtain ⟨⟨key, _⟩, entry, rfl⟩ := List.mem_map.mp listed
  exact unmeasured key _ (AList.mem_lookup_iff.mpr entry)

theorem measure_add_le_total {key other : K}
    {otherValue : V} (apart : other ≠ key) (found : table.lookup key = some value)
    (otherFound : table.lookup other = some otherValue) :
    measure value + measure otherValue ≤ table.total measure := by
  have left : AList.lookup other (AList.erase key table) = some otherValue := by
    rw [lookup_erase_eq, if_neg apart, otherFound]
  have bounded := measure_le_total (AList.erase key table) measure left
  have split := total_erase table measure key
  rw [found, Option.map_some, Option.getD_some] at split
  omega

theorem mem_values_iff (value : V) :
    value ∈ table.values ↔ ∃ key, table.lookup key = some value := by
  unfold values
  rw [List.mem_map]
  constructor
  · rintro ⟨⟨key, _⟩, member, rfl⟩
    exact ⟨key, AList.mem_lookup_iff.mpr member⟩
  · rintro ⟨key, found⟩
    exact ⟨⟨key, value⟩, AList.mem_lookup_iff.mp found, rfl⟩

theorem mem_keys_iff (key : K) : key ∈ table.keys ↔ ∃ value, table.lookup key = some value := by
  rw [← AList.mem_keys, ← AList.lookup_isSome, Option.isSome_iff_exists]

end Table

end SmetricRouter
