import Mathlib.Data.List.Induction
import Mathlib.Data.List.Infix

/-! Runs of a partial step function over a list of events.

Besides the invariant rule, a run is compared with a condition on its steps: where
a step that meets the condition keeps an invariant and one that does not leads out
of the good states, all states along a run are good exactly if all its steps meet
the condition.
-/

namespace SmetricRouter

variable {S E : Type} {step : S → E → Option S} {start state next : S} {events : List E} {event : E}

def runFrom (step : S → E → Option S) (start : S) (events : List E) : Option S :=
  events.foldlM step start

theorem runFrom_snoc (step : S → E → Option S) (start : S) (events : List E) (event : E) :
    runFrom step start (events ++ [event]) = (runFrom step start events).bind (step · event) := by
  unfold runFrom
  rw [List.foldlM_append]
  congr 1
  funext state
  exact Option.bind_fun_some _

def Throughout (step : S → E → Option S) (start : S) (Fine : S → E → Prop) (events : List E) :
    Prop :=
  ∀ done event rest state next, events = done ++ event :: rest →
    runFrom step start done = some state → step state event = some next → Fine state event

def Along (step : S → E → Option S) (start : S) (Good : S → Prop) (events : List E) : Prop :=
  ∀ done rest state, events = done ++ rest → runFrom step start done = some state → Good state

variable {Inv Good : S → Prop} {Fine : S → E → Prop}

variable (fine : Throughout step start Fine events)

include fine

theorem Throughout.take {done rest : List E}
    (split : events = done ++ rest) : Throughout step start Fine done := by
  intro _ _ later _ next cut
  refine fine _ _ (later ++ rest) _ next ?_
  rw [split, cut, List.append_assoc, List.cons_append]

theorem Throughout.and {Other : S → E → Prop} (other : Throughout step start Other events) :
    Throughout step start (fun state event => Fine state event ∧ Other state event) events :=
  fun done event rest state next split reaches steps =>
    ⟨fine done event rest state next split reaches steps,
      other done event rest state next split reaches steps⟩

theorem Throughout.invariant (initial : Inv start)
    (keeps : ∀ {state event next}, Inv state → step state event = some next → Fine state event →
      Inv next) (ends : runFrom step start events = some state) : Inv state := by
  induction events using List.reverseRecOn generalizing state with
  | nil =>
    cases ends
    exact initial
  | append_singleton _ _ ih =>
    rw [runFrom_snoc, Option.bind_eq_some_iff] at ends
    obtain ⟨_, reaches, steps⟩ := ends
    exact keeps (ih (fine.take rfl) reaches) steps (fine _ _ [] _ _ rfl reaches steps)

omit fine

theorem runFrom_invariant (initial : Inv start)
    (keeps : ∀ {state event next}, Inv state → step state event = some next → Inv next)
    (ends : runFrom step start events = some state) : Inv state := by
  have free : Throughout step start (fun _ _ => True) events := fun _ _ _ _ _ _ _ _ => trivial
  exact free.invariant initial (fun held steps _ => keeps held steps) ends

theorem Along.throughout (along : Along step start Good events) :
    Throughout step start (fun state _ => Good state) events := by
  intro done event rest _ _ split reaches _
  exact along _ (event :: rest) _ split reaches

theorem Along.invariant (along : Along step start Good events) (initial : Inv start)
    (keeps : ∀ {state event next}, Inv state → step state event = some next → Good next →
      Inv next) (ends : runFrom step start events = some state) : Inv state := by
  have leads : Throughout step start
      (fun state event => ∀ next, step state event = some next → Good next) events := by
    intro done event rest _ _ split reaches _ next steps
    refine along (done ++ [event]) rest next ?_ ?_
    · rw [split, List.append_assoc, List.singleton_append]
    · rw [runFrom_snoc, reaches, Option.bind_some, steps]
  exact leads.invariant initial (fun held steps good => keeps held steps (good _ steps)) ends

/-- The states along a run can be computed and looked at. -/
instance [DecidablePred Good] : Decidable (Along step start Good events) :=
  decidable_of_iff
    (∀ done ∈ events.inits, ∀ state ∈ (runFrom step start done).toList, Good state) <| by
      constructor
      · intro computed done rest state split reaches
        refine computed done (List.mem_inits done events |>.mpr ⟨rest, split.symm⟩) state ?_
        rw [reaches]
        exact List.mem_singleton_self state
      · intro along done shorter state reached
        obtain ⟨rest, split⟩ := (List.mem_inits done events).mp shorter
        exact along done rest state split.symm (Option.mem_toList.mp reached)

instance [∀ state event, Decidable (Fine state event)] :
    Decidable (Throughout step start Fine events) :=
  decidable_of_iff
    (∀ done ∈ events.inits, ∀ event ∈ (events.drop done.length).head?,
      ∀ state ∈ (runFrom step start done).toList, (step state event).isSome → Fine state event) <| by
      constructor
      · intro computed done event rest state next split reaches steps
        refine computed done ((List.mem_inits done events).mpr ⟨event :: rest, split.symm⟩) event
          ?_ state ?_ ?_
        · rw [split, List.drop_left]
          rfl
        · rw [reaches]
          exact List.mem_singleton_self state
        · rw [steps]
          rfl
      · intro fine done shorter event first state reached possible
        obtain ⟨rest, split⟩ := (List.mem_inits done events).mp shorter
        rw [← split, List.drop_left] at first
        obtain ⟨later, rfl⟩ := List.head?_eq_some_iff.mp first
        obtain ⟨next, steps⟩ := Option.isSome_iff_exists.mp possible
        exact fine done event later state next split.symm (Option.mem_toList.mp reached) steps

theorem along_iff_throughout (initial : Inv start) (good : ∀ {state}, Inv state → Good state)
    (keeps : ∀ {state event next}, Inv state → step state event = some next → Fine state event →
      Inv next)
    (breaks : ∀ {state event next}, Inv state → step state event = some next →
      ¬ Fine state event → ¬ Good next) :
    Along step start Good events ↔ Throughout step start Fine events := by
  constructor
  · intro along done
    -- Up to the first step that does not meet the condition the invariant holds.
    induction size : done.length using Nat.strongRecOn generalizing done with
    | ind size ih =>
      intro event rest _ next split reaches steps
      by_contra unmet
      have before : Throughout step start Fine done := by
        intro earlier first later _ _ cut
        refine ih earlier.length ?_ _ rfl first (later ++ event :: rest) _ _ ?_
        · rw [← size, cut, List.length_append, List.length_cons]
          omega
        · rw [split, cut, List.append_assoc, List.cons_append]
      refine breaks (before.invariant initial keeps reaches) steps unmet ?_
      refine along (done ++ [event]) rest next ?_ ?_
      · rw [split, List.append_assoc, List.singleton_append]
      · rw [runFrom_snoc, reaches, Option.bind_some, steps]
  · intro fine _ _ _ split reaches
    exact good ((fine.take split).invariant initial keeps reaches)

end SmetricRouter
