import Mathlib.Logic.Relation
import Mathlib.Data.List.Basic

/-! Total-correctness rules for computations that may fault.

A computation is an `Except` value and its fault stands for a panic or for a
loop that has not ended. `Ensures allowed run post` says that the computation
returns a value in `post`, or stops with one of the `allowed` faults. With no
fault allowed it is a termination and safety statement at once.
-/

namespace SmetricRouter

variable {ε α β σ : Type}

def Ensures (allowed : ε → Prop) (run : Except ε α) (post : α → Prop) : Prop :=
  match run with
  | .ok value => post value
  | .error fault => allowed fault

def Returns (run : Except ε α) (post : α → Prop) : Prop :=
  Ensures (fun _ => False) run post

theorem ok_bind (value : α) (next : α → Except ε β) :
    ((Except.ok value : Except ε α) >>= next) = next value := rfl

variable {run : Except ε α} {value : α}

theorem ok_of_toOption (known : run.toOption = some value) : run = .ok value := by
  cases run with
  | error => cases known
  | ok =>
    cases known
    rfl

variable {next : α → Except ε β} {fault : ε}

theorem bind_eq_error_iff :
    (run >>= next) = .error fault ↔
      run = .error fault ∨ ∃ value, run = .ok value ∧ next value = .error fault := by
  cases run with
  | ok value =>
    constructor
    · exact fun faults => .inr ⟨value, rfl, faults⟩
    · rintro (⟨⟨⟩⟩ | ⟨_, ⟨⟩, faults⟩)
      exact faults
  | error =>
    constructor
    · rintro ⟨⟩
      exact .inl rfl
    · rintro (⟨⟨⟩⟩ | ⟨_, ⟨⟩, _⟩)
      rfl

theorem bind_eq_ok {value : β} (returned : (run >>= next) = .ok value) :
    ∃ middle, run = .ok middle ∧ next middle = .ok value := by
  cases run with
  | ok middle => exact ⟨middle, rfl, returned⟩
  | error => cases returned

theorem exists_left_of_mem {related : α → β → Prop} {left : List α} {right : List β}
    (paired : List.Forall₂ related left right) {value : β} (member : value ∈ right) :
    ∃ item ∈ left, related item value := by
  induction paired with
  | nil => cases member
  | cons holds _ ih =>
    rcases List.mem_cons.mp member with rfl | later
    · exact ⟨_, List.mem_cons_self, holds⟩
    · obtain ⟨item, known, partner⟩ := ih later
      exact ⟨item, List.mem_cons_of_mem _ known, partner⟩

variable {allowed : ε → Prop} {post : α → Prop} {items : List α} {start : σ}

namespace Ensures

theorem pure (holds : post value) : Ensures allowed (Pure.pure value) post := holds

theorem mono {weaker : α → Prop} (ensured : Ensures allowed run post)
    (weaken : ∀ value, post value → weaker value) : Ensures allowed run weaker := by
  cases run with
  | ok value => exact weaken _ ensured
  | error => exact ensured

theorem allow {more : ε → Prop} (ensured : Ensures allowed run post)
    (grow : ∀ fault, allowed fault → more fault) : Ensures more run post := by
  cases run with
  | ok => exact ensured
  | error fault => exact grow _ ensured

theorem bind {middle : α → Prop} {post : β → Prop} (first : Ensures allowed run middle)
    (second : ∀ value, middle value → Ensures allowed (next value) post) :
    Ensures allowed (run >>= next) post := by
  cases run with
  | ok _ => exact second _ first
  | error => exact first

theorem foldlM {body : σ → α → Except ε σ}
    (invariant : List α → σ → Prop) (initially : invariant items start)
    (round : ∀ item rest state, invariant (item :: rest) state →
      Ensures allowed (body state item) (invariant rest)) :
    Ensures allowed (items.foldlM body start) (invariant []) := by
  induction items generalizing start with
  | nil => exact initially
  | cons item rest ih =>
    exact bind (round item _ _ initially) fun _ holds => ih holds

theorem mapM {body : α → Except ε β} {post : α → β → Prop}
    (each : ∀ item ∈ items, Ensures allowed (body item) (post item)) :
    Ensures allowed (items.mapM body) (List.Forall₂ post items) := by
  induction items with
  | nil => exact List.Forall₂.nil
  | cons item _ ih =>
    rw [List.mapM_cons]
    apply bind (each item List.mem_cons_self)
    intro _ holds
    apply bind (ih fun _ member => each _ (List.mem_cons_of_mem item member))
    intro _ paired
    exact List.Forall₂.cons holds paired

theorem unclaimed (run : Except ε α) : Ensures (fun _ => True) run fun _ => True := by
  cases run <;> exact True.intro

variable (ensured : Ensures allowed run post)

include ensured

theorem ok_of (returned : run = .ok value) : post value := by
  rw [returned] at ensured
  exact ensured

theorem ne_error (refused : ¬ allowed fault) : run ≠ .error fault := by
  rintro rfl
  exact refused ensured

/-- A fault that the first part does not allow comes from what follows it. -/
theorem bind_eq_error (refused : ¬ allowed fault) :
    (run >>= next) = .error fault ↔ ∃ value, run = .ok value ∧ next value = .error fault := by
  rw [bind_eq_error_iff]
  exact or_iff_right (ensured.ne_error refused)

theorem returned : Ensures allowed run fun value => run = .ok value ∧ post value := by
  cases run with
  | ok => exact ⟨rfl, ensured⟩
  | error => exact ensured

end Ensures

namespace Returns

theorem exists_ok (returned : Returns run post) : ∃ value, run = .ok value ∧ post value := by
  cases run with
  | ok value => exact ⟨value, rfl, returned⟩
  | error => exact returned.elim

theorem ensures (returned : Returns run post) : Ensures allowed run post :=
  Ensures.allow returned fun _ impossible => impossible.elim

end Returns

theorem foldl_invariant {body : σ → α → σ}
    (invariant : List α → σ → Prop) (initially : invariant items start)
    (round : ∀ item rest state, invariant (item :: rest) state →
      invariant rest (body state item)) : invariant [] (items.foldl body start) := by
  induction items generalizing start with
  | nil => exact initially
  | cons item _ ih => exact ih (round item _ _ initially)

end SmetricRouter
