import SmetricRouter.ProgramScheduling.Fence
import Mathlib.Data.List.Induction
import Mathlib.Data.Multiset.AddSub
import Mathlib.Data.Multiset.Count

/-! In-flight counters against the dispatches handed out.

A dispatch is outstanding from the claim that returned it to its completion.
The counter of a Program counts those of its current placement; the others were
superseded when their target disappeared.
-/

namespace SmetricRouter.ProgramScheduling

open ProgramRuntime Function

variable {F : Type}

section Trace

def Event.issues : Event F × Output F → Option ProgramDispatch
  | (.claim _ _, .claimed dispatch) => dispatch
  | _ => none

def Event.completes : Event F → Option ProgramDispatch
  | .complete dispatch _ _ _ _ _ => some dispatch
  | _ => none

def track (flights : Multiset ProgramDispatch) (entry : Event F × Output F) :
    Multiset ProgramDispatch :=
  match Event.issues entry, entry.1.completes with
  | some dispatch, _ => dispatch ::ₘ flights
  | none, some dispatch => flights.erase dispatch
  | none, none => flights

def outstanding (trace : List (Event F × Output F)) : Multiset ProgramDispatch :=
  trace.foldl track 0

def CompletedOnce (trace : List (Event F × Output F)) : Prop :=
  ∀ before entry after dispatch, trace = before ++ entry :: after →
    entry.1.completes = some dispatch → dispatch ∈ outstanding before

variable (trace : List (Event F × Output F))

theorem outstanding_append (entry : Event F × Output F) :
    outstanding (trace ++ [entry]) = track (outstanding trace) entry := by
  simp [outstanding]

theorem CompletedOnce.init {trace : List (Event F × Output F)} {entry : Event F × Output F}
    (once : CompletedOnce (trace ++ [entry])) :
    CompletedOnce trace ∧ ∀ dispatch, entry.1.completes = some dispatch →
      dispatch ∈ outstanding trace := by
  constructor
  · intro _ _ after dispatch split
    exact once _ _ (after ++ [entry]) _ (by rw [split, List.append_assoc]; rfl)
  · intro _
    exact once _ _ [] _ rfl

theorem completedOnce_iff {sections : List (Event F × Output F)} :
    CompletedOnce sections ↔ ∀ position < sections.length,
      ∀ dispatch ∈ sections[position]?.bind fun entry => entry.1.completes,
        dispatch ∈ outstanding (sections.take position) := by
  constructor
  · intro once position inside dispatch completes
    rw [List.getElem?_eq_getElem inside] at completes
    refine once _ sections[position] (sections.drop (position + 1)) _ ?_ completes
    rw [List.getElem_cons_drop, List.take_append_drop]
  · rintro prefixes before _ _ dispatch rfl completes
    have here := prefixes before.length (by simp) dispatch
    rw [List.getElem?_append_right (Nat.le_refl _), Nat.sub_self, List.take_left] at here
    exact here completes

theorem CompletedOnce.of_uncompleted {trace : List (Event F × Output F)}
    (uncompleted : ∀ entry ∈ trace, entry.1.completes = none) : CompletedOnce trace := by
  rintro _ entry _ _ rfl completes
  rw [uncompleted entry (List.mem_append_right _ List.mem_cons_self)] at completes
  cases completes

instance (trace : List (Event F × Output F)) : Decidable (CompletedOnce trace) :=
  decidable_of_iff _ completedOnce_iff.symm

theorem card_outstanding_le : (outstanding trace).card ≤ (trace.filterMap Event.issues).length := by
  induction trace using List.reverseRecOn with
  | nil => exact Nat.le_refl 0
  | append_singleton _ entry ih =>
    rw [outstanding_append, List.filterMap_append, List.length_append, List.filterMap_cons]
    unfold track
    cases Event.issues entry with
    | some =>
      rw [Multiset.card_cons]
      exact Nat.succ_le_succ ih
    | none =>
      cases entry.1.completes with
      | some => exact (Multiset.card_le_card (Multiset.erase_le _ _)).trans ih
      | none => exact ih

end Trace

def IssuedUnder (program : ProgramRef) (epoch : Nat) (dispatch : ProgramDispatch) : Prop :=
  dispatch.program = program ∧ dispatch.placementEpoch = epoch

instance (program : ProgramRef) (epoch : Nat) : DecidablePred (IssuedUnder program epoch) :=
  fun _ => inferInstanceAs (Decidable (_ ∧ _))

def Current (runtime : ProgramRuntime) (dispatch : ProgramDispatch) : Prop :=
  ∃ record, runtime.find dispatch.program = some record ∧
    record.placementEpoch = dispatch.placementEpoch ∧ record.state = .active ∧
    record.placement = some dispatch.targetId

/-- The placement of the dispatch was invalidated, and no other has its number. -/
structure Superseded (runtime : ProgramRuntime) (dispatch : ProgramDispatch) : Prop where
  stale : Stale runtime dispatch
  invalidated : ∃ epoch, .invalidated dispatch.program epoch ∈ runtime.journal ∧
    dispatch.placementEpoch < epoch

/-- The records agree with the outstanding dispatches. -/
structure Flights (flights : Multiset ProgramDispatch) (runtime : ProgramRuntime) : Prop where
  counted : ∀ program record, runtime.find program = some record →
    record.inFlightRequests = flights.countP (IssuedUnder program record.placementEpoch)
  tracked : ∀ dispatch ∈ flights, Current runtime dispatch ∨ Superseded runtime dispatch
  dated : ∀ dispatch ∈ flights, 1 ≤ dispatch.placementEpoch ∧
    dispatch.placementEpoch ≤ runtime.nextPlacementEpoch
  recorded : ∀ program record, runtime.find program = some record →
    record.placementEpoch ≤ runtime.nextPlacementEpoch ∧
      (record.state = .active → 1 ≤ record.placementEpoch)

variable {flights : Multiset ProgramDispatch} {runtime : ProgramRuntime} {globalMode : Bool}
  {core : Core} {label : Label}

namespace Flights

variable {next : ProgramRuntime}

variable {dispatch : ProgramDispatch} {program : ProgramRef} {before : RuntimeProgram}

variable (agree : Flights flights runtime)

include agree

theorem idle {record : RuntimeProgram}
    (found : runtime.find program = some record) (idle : record.inFlightRequests = 0)
    (member : dispatch ∈ flights) (own : dispatch.program = program) :
    Superseded runtime dispatch := by
  have none_current := agree.counted _ _ found
  rw [idle] at none_current
  have apart := Multiset.countP_eq_zero.mp none_current.symm _ member
  rcases agree.tracked dispatch member with ⟨_, stored, current, _⟩ | superseded
  · rw [own, found] at stored
    cases stored
    exact absurd ⟨own, current.symm⟩ apart
  · exact superseded

theorem unissued (program : ProgramRef) {epoch : Nat}
    (future : epoch = 0 ∨ runtime.nextPlacementEpoch < epoch) :
    flights.countP (IssuedUnder program epoch) = 0 := by
  rw [Multiset.countP_eq_zero]
  rintro _ member ⟨_, _⟩
  have dated := agree.dated _ member
  omega

omit agree in
theorem superseded_mono (kept : ∃ more, next.journal = runtime.journal ++ more)
    (superseded : Superseded runtime dispatch) (stale : Stale next dispatch) :
    Superseded next dispatch := by
  obtain ⟨epoch, recorded, later⟩ := superseded.invalidated
  obtain ⟨_, journal⟩ := kept
  exact ⟨stale, epoch, by rw [journal]; exact List.mem_append_left _ recorded, later⟩

theorem forget (stale : Stale runtime dispatch) :
    Flights (flights.erase dispatch) runtime where
  counted := by
    intro program record found
    rw [agree.counted program record found]
    by_cases member : dispatch ∈ flights
    · have apart : ¬ IssuedUnder program record.placementEpoch dispatch := by
        rintro ⟨rfl, same⟩
        exact stale _ found same.symm
      conv_lhs => rw [← Multiset.cons_erase member]
      exact Multiset.countP_cons_of_neg _ apart
    · rw [Multiset.erase_of_notMem member]
  tracked := fun other kept => agree.tracked other (Multiset.mem_of_mem_erase kept)
  dated := fun other kept => agree.dated other (Multiset.mem_of_mem_erase kept)
  recorded := agree.recorded

theorem stale_of_refused {usage : ProgramUsageObservation} (member : dispatch ∈ flights)
    (refused : runtime.placement dispatch.program ≠ some dispatch.targetId ∨
      runtime.completeRequest dispatch usage = none) : Stale runtime dispatch := by
  intro record found same
  rcases agree.tracked dispatch member with ⟨_, live, _, _, placed⟩ | superseded
  · rw [found] at live
    cases live
    have busy : record.inFlightRequests ≠ 0 := by
      rw [agree.counted _ record found]
      exact Nat.pos_iff_ne_zero.mp (Multiset.countP_pos.mpr ⟨dispatch, member, rfl, same.symm⟩)
    rcases refused with elsewhere | refused
    · apply elsewhere
      rw [placement, found, Option.bind_some, placed]
    · obtain ⟨stored, exact⟩ := find_eq_some.mp found
      simp [completeRequest, stored, exact, same, busy] at refused
  · exact superseded.stale _ found same

variable (kept : ∃ more, next.journal = runtime.journal ++ more)
  (later : runtime.nextPlacementEpoch ≤ next.nextPlacementEpoch)

include kept later

theorem unchanged (finds : next.find = runtime.find) : Flights flights next where
  counted := by
    rw [finds]
    exact agree.counted
  tracked := by
    intro dispatch member
    unfold Current
    rw [finds]
    refine (agree.tracked _ member).imp_right fun superseded =>
      superseded_mono kept superseded ?_
    unfold Stale
    rw [finds]
    exact superseded.stale
  dated := fun _ member => (agree.dated _ member).imp_right (·.trans later)
  recorded := by
    rw [finds]
    exact fun _ _ found => (agree.recorded _ _ found).imp_left (·.trans later)

variable {flying : Multiset ProgramDispatch}

theorem update (program : ProgramRef) (record : Option RuntimeProgram)
    (finds : next.find = update runtime.find program record)
    (elsewhere : ∀ other epoch, other ≠ program →
      flying.countP (IssuedUnder other epoch) = flights.countP (IssuedUnder other epoch))
    (members : ∀ dispatch ∈ flying, dispatch ∈ flights ∨ dispatch.program = program ∧
      1 ≤ dispatch.placementEpoch ∧ dispatch.placementEpoch ≤ runtime.nextPlacementEpoch)
    (counted : ∀ after, record = some after →
      after.inFlightRequests = flying.countP (IssuedUnder program after.placementEpoch) ∧
      after.placementEpoch ≤ next.nextPlacementEpoch ∧
      (after.state = .active → 1 ≤ after.placementEpoch))
    (tracked : ∀ dispatch ∈ flying, dispatch.program = program →
      Current next dispatch ∨ Superseded next dispatch) : Flights flying next := by
  have others {other : ProgramRef} (apart : other ≠ program) :
      next.find other = runtime.find other := by
    rw [finds, update_of_ne apart]
  have own : next.find program = record := by rw [finds, update_self]
  refine ⟨?_, ?_, ?_, ?_⟩
  · intro other after found
    by_cases same : other = program
    · subst same
      rw [own] at found
      exact (counted _ found).1
    · rw [others same] at found
      rw [elsewhere other _ same]
      exact agree.counted _ _ found
  · intro dispatch member
    by_cases same : dispatch.program = program
    · exact tracked _ member same
    · have old := (members _ member).resolve_right fun new => same new.1
      rcases agree.tracked dispatch old with ⟨before, found, current⟩ | superseded
      · exact .inl ⟨before, by rw [others same, found], current⟩
      · refine .inr (superseded_mono kept superseded ?_)
        intro after found
        rw [others same] at found
        exact superseded.stale _ found
  · intro _ member
    have dated := (members _ member).elim (agree.dated _) And.right
    exact ⟨dated.1, dated.2.trans later⟩
  · intro other _ found
    by_cases same : other = program
    · subst same
      rw [own] at found
      exact (counted _ found).2
    · rw [others same] at found
      obtain ⟨known, active⟩ := agree.recorded _ _ found
      exact ⟨known.trans later, active⟩

variable (after : RuntimeProgram)

section

variable (found : runtime.find program = some before)
  (same : after.state = before.state ∧ after.placement = before.placement ∧
    after.placementEpoch = before.placementEpoch)

include found same

theorem amend (finds : next.find = Function.update runtime.find program (some after))
    (counted : after.inFlightRequests = flying.countP (IssuedUnder program before.placementEpoch))
    (elsewhere : ∀ other epoch, other ≠ program →
      flying.countP (IssuedUnder other epoch) = flights.countP (IssuedUnder other epoch))
    (members : ∀ dispatch ∈ flying, dispatch ∈ flights ∨
      IssuedUnder program before.placementEpoch dispatch ∧ before.state = .active ∧
        before.placement = some dispatch.targetId) : Flights flying next := by
  obtain ⟨state, placement, number⟩ := same
  obtain ⟨known, running⟩ := agree.recorded _ _ found
  have own : next.find program = some after := by rw [finds, update_self]
  refine agree.update kept later _ (some _) finds elsewhere ?_ ?_ ?_
  · intro dispatch member
    refine (members _ member).imp_right ?_
    rintro ⟨⟨here, current⟩, active, _⟩
    rw [current]
    exact ⟨here, running active, known⟩
  · rintro _ ⟨⟩
    rw [number, state]
    exact ⟨counted, known.trans later, running⟩
  · intro dispatch member here
    rcases members dispatch member with old | ⟨⟨_, current⟩, active, placed⟩
    · rcases agree.tracked dispatch old with ⟨record, live, current, active, placed⟩ | superseded
      · rw [here, found] at live
        cases live
        exact .inl ⟨after, by rw [here, own], number.trans current, state.trans active,
          placement.trans placed⟩
      · refine .inr (superseded_mono kept superseded ?_)
        intro _ stored
        rw [here, own] at stored
        cases stored
        rw [number]
        exact superseded.stale _ (by rw [here, found])
    · exact .inl ⟨after, by rw [here, own], number.trans current.symm, state.trans active,
        placement.trans placed⟩

theorem keep (inFlight : after.inFlightRequests = before.inFlightRequests)
    (finds : next.find = Function.update runtime.find program (some after)) : Flights flights next :=
  agree.amend kept later after found same finds
    (inFlight.trans (agree.counted program before found)) (fun _ _ _ => rfl)
    (fun _ member => .inl member)

end

theorem issue (found : runtime.find dispatch.program = some before)
    (active : before.state = .active) (placed : before.placement = some dispatch.targetId)
    (current : dispatch.placementEpoch = before.placementEpoch)
    (same : after.state = before.state ∧ after.placement = before.placement ∧
      after.placementEpoch = before.placementEpoch)
    (inFlight : after.inFlightRequests = before.inFlightRequests + 1)
    (finds : next.find = Function.update runtime.find dispatch.program (some after)) :
    Flights (dispatch ::ₘ flights) next := by
  have under : IssuedUnder dispatch.program before.placementEpoch dispatch := ⟨rfl, current⟩
  refine agree.amend kept later _ found same finds ?_ ?_ ?_
  · rw [Multiset.countP_cons_of_pos _ under, inFlight, agree.counted _ before found]
  · intro _ _ apart
    exact Multiset.countP_cons_of_neg _ fun theirs => apart theirs.1.symm
  · intro _ member
    rcases Multiset.mem_cons.mp member with rfl | old
    · exact .inr ⟨under, active, placed⟩
    · exact .inl old

theorem finish (member : dispatch ∈ flights) (found : runtime.find dispatch.program = some before)
    (current : before.placementEpoch = dispatch.placementEpoch)
    (same : after.state = before.state ∧ after.placement = before.placement ∧
      after.placementEpoch = before.placementEpoch)
    (inFlight : after.inFlightRequests = before.inFlightRequests - 1)
    (finds : next.find = Function.update runtime.find dispatch.program (some after)) :
    Flights (flights.erase dispatch) next := by
  have split := Multiset.cons_erase member
  refine agree.amend kept later _ found same finds ?_ ?_ ?_
  · have counted := agree.counted _ _ found
    rw [← split, Multiset.countP_cons_of_pos _
      (show IssuedUnder dispatch.program before.placementEpoch dispatch from
        ⟨rfl, current.symm⟩)] at counted
    omega
  · intro _ _ apart
    rw [← split, Multiset.erase_cons_head,
      Multiset.countP_cons_of_neg _ fun theirs => apart theirs.1.symm]
  · exact fun _ kept => .inl (Multiset.mem_of_mem_erase kept)

theorem stand_down {record : Option RuntimeProgram} (found : runtime.find program = some before)
    (idle : before.inFlightRequests = 0)
    (same : ∀ after, record = some after → after.state = .paused ∧
      after.placementEpoch = before.placementEpoch ∧ after.inFlightRequests = 0)
    (finds : next.find = Function.update runtime.find program record) : Flights flights next := by
  refine agree.update kept later _ _ finds (fun _ _ _ => rfl) (fun _ => .inl) ?_ ?_
  · intro after stored
    obtain ⟨paused, number, quiet⟩ := same _ stored
    have counted := agree.counted _ _ found
    rw [idle] at counted
    rw [quiet, number, ← counted]
    refine ⟨rfl, (agree.recorded _ _ found).1.trans later, ?_⟩
    intro active
    rw [paused] at active
    cases active
  · intro _ member own
    have superseded := agree.idle found idle member own
    refine .inr (superseded_mono kept superseded ?_)
    intro after stored
    rw [own, finds, update_self] at stored
    rw [(same after stored).2.1]
    exact superseded.stale _ (by rw [own, found])

theorem create (unknown : runtime.find program = none)
    (fresh : after.state = .paused ∧ after.placementEpoch = 0 ∧ after.inFlightRequests = 0)
    (finds : next.find = Function.update runtime.find program (some after)) :
    Flights flights next := by
  obtain ⟨paused, number, quiet⟩ := fresh
  refine agree.update kept later _ (some _) finds (fun _ _ _ => rfl) (fun _ => .inl) ?_ ?_
  · rintro _ ⟨⟩
    rw [quiet, number]
    refine ⟨(agree.unissued _ (.inl rfl)).symm, Nat.zero_le _, ?_⟩
    intro active
    rw [paused] at active
    cases active
  · intro dispatch member own
    rcases agree.tracked dispatch member with ⟨_, found, _⟩ | superseded
    · rw [own, unknown] at found
      cases found
    · refine .inr (superseded_mono kept superseded ?_)
      intro _ stored
      rw [own, finds, update_self] at stored
      cases stored
      have dated := (agree.dated _ member).1
      omega

omit later

theorem renumber (room : runtime.nextPlacementEpoch < u64Max)
    (number : after.placementEpoch = saturatingAdd runtime.nextPlacementEpoch 1)
    (quiet : after.inFlightRequests = 0) (found : runtime.find program = some before)
    (settled : before.inFlightRequests = 0 ∨
      .invalidated program (saturatingAdd runtime.nextPlacementEpoch 1) ∈ next.journal)
    (finds : next.find = Function.update runtime.find program (some after))
    (epoch : next.nextPlacementEpoch = saturatingAdd runtime.nextPlacementEpoch 1) :
    Flights flights next := by
  have exact := saturatingAdd_of_lt room
  refine agree.update kept (by omega) program (some after) finds
    (fun _ _ _ => rfl) (fun _ => .inl) ?_ ?_
  · rintro _ ⟨⟩
    rw [quiet, number, epoch, exact]
    exact ⟨(agree.unissued _ (.inr (Nat.lt_succ_self _))).symm, Nat.le_refl _,
      fun _ => Nat.succ_pos _⟩
  · intro dispatch member own
    have dated := (agree.dated _ member).2
    have stale : Stale next dispatch := by
      intro _ stored
      rw [own, finds, update_self] at stored
      cases stored
      omega
    right
    rcases settled with idle | invalidated
    · exact superseded_mono kept (agree.idle found idle member own) stale
    · exact ⟨stale, _, own ▸ invalidated, by omega⟩

omit agree kept

variable {after : Core}

theorem move (agree : Flights flights core.runtime) (inv : core.Inv globalMode)
    (dated : Dated core.runtime) (taken : Move globalMode core label after)
    (grounded : ¬ label.flies) (room : after.runtime.epochs.length < 2 ^ 64) :
    Flights flights after.runtime := by
  have stepped := taken.runtimeStep inv.keyed
  have kept := stepped.journal_extends
  cases stepped with
  | quiet _ _ finds silent => exact agree.unchanged kept silent.epoch.ge finds
  | retained _ record _ continues finds _ _ _ _ epoch =>
    cases found : core.runtime.find record.reference with
    | none =>
      obtain ⟨paused, _, number, quiet⟩ := continues.fresh found
      exact agree.create kept epoch.ge _ found ⟨paused, number, quiet⟩ finds
    | some before =>
      obtain ⟨state, placement, number, inFlight⟩ := continues.live _ found
      exact agree.keep kept epoch.ge _ found ⟨state, placement, number⟩ inFlight finds
  | admitted program _ _ found paused finds _ epoch journal =>
    obtain ⟨_, _, facts⟩ := (inv.cards _).of_program found
    have idle := facts.pausedIdle paused
    exact agree.renumber kept _ (dated.room journal rfl room) (by rfl) (by exact idle) found
      (.inl idle) finds epoch
  | paused _ _ found idle finds silent =>
    refine agree.stand_down kept silent.epoch.ge found idle ?_ finds
    rintro _ ⟨⟩
    exact ⟨rfl, rfl, idle⟩
  | unmarked | dispatched | completed => exact absurd trivial grounded
  | cancelled handle waiting position _ _ finds _ epoch =>
    cases found : core.runtime.find handle.program with
    | none =>
      refine agree.unchanged kept epoch.ge ?_
      rw [finds, found, Option.map_none, ← found, Function.update_eq_self]
    | some before =>
      rw [found, Option.map_some] at finds
      -- Only a Program with nothing in flight loses its placement here.
      by_cases quiet : before.inFlightRequests = 0 ∧ waiting.eraseIdx position = []
      · by_cases active : before.state = .active
        · rw [Card.quiesce, if_pos quiet, if_pos active] at finds
          refine agree.stand_down kept epoch.ge found quiet.1 ?_ finds
          rintro _ ⟨⟩
          exact ⟨rfl, rfl, quiet.1⟩
        · rw [Card.quiesce, if_pos quiet, if_neg active] at finds
          refine agree.keep kept epoch.ge _ found ?_ ?_ finds
          · exact ⟨rfl, rfl, rfl⟩
          · rfl
      · rw [Card.quiesce, if_neg quiet] at finds
        exact agree.keep kept epoch.ge _ found ⟨rfl, rfl, rfl⟩ rfl finds
  | released _ _ found idle finds silent =>
    exact agree.stand_down kept silent.epoch.ge found idle (by simp) finds
  | invalidated _ _ _ _ found _ _ finds _ epoch journal =>
    exact agree.renumber kept _ (dated.room journal rfl room) rfl rfl found
      (.inr (by simp [journal])) finds epoch

theorem claim (agree : Flights flights core.runtime) (inv : core.Inv globalMode)
    {handle : ProgramRequestHandle} {target : String} (now : Instant)
    (placed : core.runtime.placement handle.program = some target)
    (room : (core.runtime.admitFront handle target now).1.isSome → flights.card < u64Max) :
    Flights ((core.runtime.admitFront handle target now).1.elim flights (· ::ₘ flights))
      (core.runtime.admitFront handle target now).2 := by
  obtain ⟨record, found, placement⟩ := Option.bind_eq_some_iff.mp placed
  have active := inv.placement_active placed _ found
  have recorded := admitFront_journal now found active placement
  have stepped := admitFront_step now found active placement
  have kept := stepped.journal_extends
  generalize (core.runtime.admitFront handle target now).1 = handed at recorded room ⊢
  cases stepped with
  | quiet _ grounded => exact absurd trivial grounded
  | unmarked _ _ _ live finds silent =>
    have out : handed = none := by
      rw [silent.journal] at recorded
      cases handed with
      | none => rfl
      | some => simp at recorded
    rw [out]
    refine agree.keep kept silent.epoch.ge _ live ?_ ?_ finds
    · exact ⟨rfl, rfl, rfl⟩
    · rfl
  | dispatched _ _ _ _ _ dispatch live _ _ own current placed finds _ epoch journal =>
    rw [found] at live
    cases live
    have out : handed = some dispatch := by
      rw [journal] at recorded
      cases handed with
      | none => simp at recorded
      | some =>
        simp only [Option.map_some, Option.toList_some, List.append_cancel_left_eq,
          List.cons.injEq, LifecycleEvent.dispatched.injEq] at recorded
        rw [recorded.1.2]
    rw [← own] at found finds
    have small : record.inFlightRequests < u64Max := by
      rw [agree.counted _ record found]
      exact (Multiset.countP_le_card _ _).trans_lt (room (by rw [out]; rfl))
    rw [out]
    refine agree.issue kept epoch.ge _ found active placed current ?_ ?_ finds
    · exact ⟨rfl, rfl, rfl⟩
    · exact saturatingAdd_of_lt small

end Flights

def Aloft (flights : Multiset ProgramDispatch) (runtime : ProgramRuntime) : Prop :=
  runtime.epochs.length < 2 ^ 64 → Dated runtime ∧ Flights flights runtime

variable {trace : List (Event F × Output F)} {T : Type}

section Sections

variable {next : Core}

theorem RuntimeStep.epochs_le {next : ProgramRuntime}
    (stepped : RuntimeStep runtime next label) : runtime.epochs.length ≤ next.epochs.length := by
  obtain ⟨_, journal⟩ := stepped.journal_extends
  rw [epochs, epochs, journal, List.filterMap_append, List.length_append]
  exact Nat.le_add_right _ _

section

variable (aloft : Aloft flights core.runtime) (inv : core.Inv globalMode)

include aloft inv

theorem Aloft.move (taken : Move globalMode core label next)
    (grounded : ¬ label.flies) : Aloft flights next.runtime := by
  intro few
  have stepped := taken.runtimeStep inv.keyed
  obtain ⟨dated, agree⟩ := aloft (stepped.epochs_le.trans_lt few)
  exact ⟨dated.step stepped few, agree.move inv dated taken grounded few⟩

theorem Aloft.evolves {kind : Label → Prop} (evolved : Evolves globalMode kind core next)
    (grounded : ∀ label, kind label → ¬ label.flies) : Aloft flights next.runtime := by
  have kept := @Evolves.invariant globalMode _ _ next
    (fun core => core.Inv globalMode ∧ Aloft flights core.runtime) evolved (by
      rintro _ label _ allowed taken ⟨sound, held⟩
      exact ⟨taken.inv sound, held.move sound taken (grounded _ allowed)⟩)
  exact (kept ⟨inv, aloft⟩).2

end

variable {event : Event F} {output : Output F}

theorem Transition.aloft (transition : Transition globalMode core event output next)
    (inv : core.Inv globalMode) (aloft : Aloft (outstanding trace) core.runtime)
    (once : ∀ dispatch, event.completes = some dispatch → dispatch ∈ outstanding trace)
    (room : (Event.issues (event, output)).isSome → (outstanding trace).card < u64Max) :
    Aloft (outstanding (trace ++ [(event, output)])) next.runtime := by
  rw [outstanding_append]
  cases transition with
  | synced | unclaimed | uncancelled | observed | applied | evicted => exact aloft
  | replaced _ _ evolved moved =>
    exact (aloft.evolves inv evolved fun _ => Label.syncing_grounded).move (evolved.inv inv) moved id
  | arrived _ _ _ _ _ moved _ evolved | cancelled _ _ _ _ _ _ moved evolved =>
    exact (aloft.move inv moved id).evolves (moved.inv inv) evolved fun _ => Label.scheduling_grounded
  | stranded _ _ _ _ moved =>
    exact aloft.move inv moved id
  | claimed handle now target placed moved =>
    intro few
    have stepped := moved.runtimeStep inv.keyed
    obtain ⟨dated, agree⟩ := aloft (stepped.epochs_le.trans_lt few)
    refine ⟨dated.step stepped few, ?_⟩
    have claimed := agree.claim inv now placed room
    cases handed : (core.runtime.admitFront handle target now).1 with
    | none | some => rwa [handed] at claimed
  | expired _ _ evolved | ticked _ _ evolved =>
    exact aloft.evolves inv evolved fun _ => Label.scheduling_grounded
  | stale dispatch _ _ _ _ _ refused =>
    intro few
    obtain ⟨dated, agree⟩ := aloft few
    exact ⟨dated, agree.forget (agree.stale_of_refused (once _ rfl) refused)⟩
  | completed dispatch _ _ _ _ _ _ _ moved evolved =>
    refine Aloft.evolves ?_ (moved.inv inv) evolved fun _ => Label.scheduling_grounded
    intro few
    have stepped := moved.runtimeStep inv.keyed
    obtain ⟨dated, agree⟩ := aloft (stepped.epochs_le.trans_lt few)
    refine ⟨dated.step stepped few, ?_⟩
    have recorded := stepped.journal_extends
    cases stepped with
    | quiet _ grounded => exact absurd trivial grounded
    | completed _ _ _ _ found current _ kept counted finds silent =>
      exact agree.finish recorded silent.epoch.ge _ (once _ rfl) found current kept counted finds

variable [F64 F] [AffinityTree T] {setup : Setup F} {state : ProgramSchedulerState F T}

theorem Run.aloft (run : Run setup trace state) (once : CompletedOnce trace)
    (few : (trace.filterMap Event.issues).length < 2 ^ 64) :
    Aloft (outstanding trace) state.runtime := by
  induction run with
  | start =>
    have none dispatch (member : dispatch ∈ (0 : Multiset ProgramDispatch)) :
        False := Multiset.notMem_zero _ member
    exact fun _ => ⟨rfl, fun _ _ found => absurd found.symm (Option.some_ne_none _),
      fun dispatch member => (none _ member).elim,
      fun _ member => (none _ member).elim,
      fun _ _ found => absurd found.symm (Option.some_ne_none _)⟩
  | @next trace state next event output order run stepped ih =>
    obtain ⟨before, last⟩ := once.init
    rw [List.filterMap_append, List.length_append] at few
    have prior := ih before (by omega)
    refine (run.transition stepped).aloft (run.sound order).inv prior last ?_
    intro issuing
    obtain ⟨_, issued⟩ := Option.isSome_iff_exists.mp issuing
    rw [List.filterMap_cons, issued, List.filterMap_nil, List.length_singleton] at few
    have counted := card_outstanding_le trace
    unfold u64Max
    omega

end Sections

/-- What the in-flight counters say about the outstanding dispatches. -/
structure InFlightLaw {F : Type} (trace : List (Event F × Output F)) (runtime : ProgramRuntime) :
    Prop where
  /-- The counter is the number of outstanding dispatches of the current placement. -/
  counted : ∀ program record, runtime.find program = some record →
    record.inFlightRequests = (outstanding trace).countP (IssuedUnder program record.placementEpoch)
  /-- A Program with an outstanding dispatch of its current placement is active
  and its counter can take the completion. -/
  airborne : ∀ dispatch ∈ outstanding trace, ∀ record, runtime.find dispatch.program = some record →
    record.placementEpoch = dispatch.placementEpoch →
      record.state = .active ∧ record.inFlightRequests ≠ 0
  /-- No pause and no release ends the placement of an outstanding dispatch; the
  loss of its target does. -/
  held : ∀ dispatch ∈ outstanding trace, Current runtime dispatch ∨ Superseded runtime dispatch

theorem Flights.law (agree : Flights (outstanding trace) runtime) : InFlightLaw trace runtime where
  counted := agree.counted
  airborne := by
    intro dispatch member record found same
    constructor
    · rcases agree.tracked dispatch member with ⟨_, live, _, active, _⟩ | superseded
      · cases found.symm.trans live
        exact active
      · exact absurd same (superseded.stale _ found)
    · rw [agree.counted _ record found]
      exact Nat.pos_iff_ne_zero.mp (Multiset.countP_pos.mpr ⟨dispatch, member, rfl, same.symm⟩)
  held := agree.tracked

section Runs

variable [F64 F] [AffinityTree T] {setup : Setup F} {trace : List (Event F × Output F)}
  {state : ProgramSchedulerState F T}

/-- As long as neither the dispatches nor the placements outnumber their
counters, and no dispatch is completed twice, every in-flight counter is exact. -/
theorem run_inFlight (run : Run setup trace state) (once : CompletedOnce trace)
    (dispatches : (trace.filterMap Event.issues).length < 2 ^ 64)
    (placements : state.runtime.epochs.length < 2 ^ 64) : InFlightLaw trace state.runtime :=
  (run.aloft once dispatches placements).2.law

/-- Two requests of a Program are claimed and one of them is completed. -/
theorem run_inFlight_sample :
    ∃ trace state, Run (Sample.router false false) trace state ∧
      (outstanding trace).card = 1 ∧ (∃ record, (state : Sample.State).runtime.find ⟨"a", "p", 0⟩ =
        some record ∧ record.inFlightRequests = 1) ∧ InFlightLaw trace state.runtime := by
  obtain ⟨trace, state, run, once, card, _, counter, placements⟩ :=
    Sample.run_of_play (Sample.router false false)
    [.sync (Sample.snapshot 0 "a" ["t"]), .arrive (Sample.arrival "a" "p" 1) 1,
      .arrive (Sample.arrival "a" "p" 2) 2, .claim ⟨⟨"a", "p", 0⟩, 1, 0⟩ 3,
      .claim ⟨⟨"a", "p", 0⟩, 2, 1⟩ 3,
      .complete ⟨⟨"a", "p", 0⟩, "t", 1, 1, 3, 1, true, none, {}⟩ true false {} none 4]
    (fun trace state => CompletedOnce trace ∧ (outstanding trace).card = 1 ∧
      (trace.filterMap Event.issues).length = 2 ∧
      (state.runtime.find ⟨"a", "p", 0⟩).map (·.inFlightRequests) = some 1 ∧
      state.runtime.epochs = [1]) (by decide +kernel)
  exact ⟨trace, state, run, card, Option.map_eq_some_iff.mp counter,
    run_inFlight run once (by omega) (by rw [placements]; decide)⟩

end Runs

end SmetricRouter.ProgramScheduling
