import SmetricRouter.ProgramScheduling.Sections
import SmetricRouter.Library.Seating

/-! The ledger delta of a target against the tokens held there.

In exact arithmetic every posting keeps the difference between the delta of a
target and the private tokens of the Programs active on it. An arrival charges
growth alone, so one that makes a placed Program smaller is the single entry
that is not a posting.
-/

namespace SmetricRouter.ProgramScheduling

open ProgramSchedulerState ProgramRuntime Function Sample ProgramScheduler Books

variable {sqrt ln exp : ℚ → ℚ} {program : ProgramRef} {before : Account}

namespace Books

variable (weigh : Account → Rationals sqrt ln exp) (books : Books (Rationals sqrt ln exp))

def weight (program : ProgramRef) : Rationals sqrt ln exp :=
  ((books.account program).map weigh).getD 0

noncomputable def load (target : String) : Rationals sqrt ln exp :=
  Seating.load books.seat (books.weight weigh) target

noncomputable def drift (target : String) : Rationals sqrt ln exp :=
  (books.meter target).delta - books.load weigh target

variable {weigh books} {target : String}

theorem share_of_seated {other : String} {account : Account}
    (seated : books.seat program = some target) (known : books.account program = some account) :
    Seating.share books.seat (books.weight weigh) other program =
      if target = other then weigh account else 0 := by
  unfold Seating.share weight
  rw [seated, known]
  simp

theorem share_of_unseated (unseated : books.seat program = none) :
    Seating.share books.seat (books.weight weigh) target program = 0 := by
  unfold Seating.share
  rw [unseated]
  exact if_neg nofun

theorem drift_change {next : Books (Rationals sqrt ln exp)} (settled : Seating.Settled books.seat)
    (program : ProgramRef) (seats : ∀ other, other ≠ program → next.seat other = books.seat other)
    (accounts : ∀ other, other ≠ program → next.account other = books.account other)
    (target : String) :
    next.drift weigh target = books.drift weigh target +
      ((next.meter target).delta - (books.meter target).delta) -
      (Seating.share next.seat (next.weight weigh) target program -
        Seating.share books.seat (books.weight weigh) target program) := by
  have changed : next.load weigh target = books.load weigh target + _ :=
    Seating.load_change settled fun other different => by
      unfold Seating.share weight
      rw [seats other different, accounts other different]
  unfold drift
  rw [changed]
  ring

theorem drift_same {next : Books (Rationals sqrt ln exp)} (settled : Seating.Settled books.seat)
    {program : ProgramRef} {held holds : Rationals sqrt ln exp}
    (seats : ∀ other, other ≠ program → next.seat other = books.seat other)
    (accounts : ∀ other, other ≠ program → next.account other = books.account other)
    (before : Seating.share books.seat (books.weight weigh) target program = held)
    (after : Seating.share next.seat (next.weight weigh) target program = holds)
    (balanced : (next.meter target).delta = (books.meter target).delta + (holds - held)) :
    next.drift weigh target = books.drift weigh target := by
  rw [drift_change settled program seats accounts target, before, after, balanced]
  ring

theorem delta_charge (books : Books (Rationals sqrt ln exp)) (target other : String)
    (tokens : Rationals sqrt ln exp) :
    ((books.charge target tokens).meter other).delta =
      (books.meter other).delta + if target = other then tokens else 0 := by
  unfold charge
  simp only
  by_cases same : other = target
  · subst same
    rw [update_self, if_pos rfl]
    rfl
  · rw [update_of_ne same, if_neg fun equal => same equal.symm, add_zero]

theorem drift_setAccount (settled : Seating.Settled books.seat)
    (seated : books.seat program = some target)
    (known : books.account program = some before) (after : Account) (other : String) :
    (books.setAccount program (some after)).drift weigh other = books.drift weigh other -
      if target = other then weigh after - weigh before else 0 := by
  have changed := @drift_change _ _ _ weigh _ (books.setAccount _ (some after)) settled
    program (fun _ _ => rfl) (fun _ differs => update_of_ne differs _ _) other
  have after_share : Seating.share (books.setAccount program (some after)).seat
      ((books.setAccount program (some after)).weight weigh) other program = _ :=
    share_of_seated seated (update_self _ _ _)
  rw [changed, share_of_seated seated known, after_share]
  simp only [setAccount]
  split <;> ring

end Books

variable {weigh : Account → Rationals sqrt ln exp}

theorem Posting.keeps_drift
    {books next : Books (Rationals sqrt ln exp)} (posted : Posting weigh books next)
    (settled : Seating.Settled books.seat) :
    Seating.Settled next.seat ∧ ∀ target, next.drift weigh target = books.drift weigh target := by
  -- In each case the charge is the difference of the shares of one Program.
  cases posted with
  | seat program _ account _ unseated known =>
    refine ⟨settled.update _ _, fun other => ?_⟩
    refine drift_same settled (fun _ differs => update_of_ne differs _ _)
      (fun _ _ => rfl) (share_of_unseated unseated)
      (share_of_seated (update_self _ _ _) known) ?_
    refine (delta_charge _ _ _ (weigh _)).trans ?_
    rw [sub_zero]
    rfl
  | vacate program _ _ seated known =>
    refine ⟨settled.update _ _, fun other => ?_⟩
    refine drift_same settled (fun _ differs => update_of_ne differs _ _)
      (fun _ _ => rfl) (share_of_seated seated known)
      (share_of_unseated (update_self _ _ _)) ?_
    rw [delta_charge]
    simp only [place]
    split <;> ring
  | enroll program _ unseated =>
    refine ⟨settled, fun _ => ?_⟩
    refine drift_same settled (fun _ _ => rfl)
      (fun _ differs => update_of_ne differs _ _) (share_of_unseated unseated)
      (share_of_unseated unseated) ?_
    rw [sub_zero, add_zero]
    rfl
  | regrade _ _ _ _ seated known =>
    refine ⟨settled, fun _ => ?_⟩
    refine drift_same settled (fun _ _ => rfl)
      (fun _ differs => update_of_ne differs _ _) (share_of_seated seated known)
      (share_of_seated seated (update_self _ _ _)) ?_
    rw [delta_charge]
    simp only [setAccount]
    split <;> ring

theorem Posts.keeps_drift
    {books next : Books (Rationals sqrt ln exp)} (posted : Posts weigh books next)
    (settled : Seating.Settled books.seat) :
    Seating.Settled next.seat ∧ ∀ target, next.drift weigh target = books.drift weigh target := by
  induction posted with
  | refl => exact ⟨settled, fun _ => rfl⟩
  | tail _ posted ih =>
    obtain ⟨still, same⟩ := posted.keeps_drift ih.1
    exact ⟨still, fun _ => (same _).trans (ih.2 _)⟩

section Active

variable {F T : Type} [F64 F]

theorem ProgramScheduler.activeOn_references (self : ProgramScheduler F)
    {state : ProgramSchedulerState F T} (keyed : state.runtime.Keyed) (target : String) :
    ((self.activeOn state target).map (·.reference)).Nodup ∧
      ∀ program, program ∈ (self.activeOn state target).map (·.reference) ↔
        state.books.seat program = some target := by
  constructor
  · rw [List.Nodup, List.pairwise_map]
    exact (iterViews_distinct keyed self.order).filter _
  · intro _
    simp only [activeOn, List.mem_map, List.mem_filter, Bool.and_eq_true, beq_iff_eq]
    constructor
    · rintro ⟨view, ⟨scanned, active, placed⟩, rfl⟩
      obtain ⟨_, found, _, state_eq, _, _, placement, _⟩ :=
        mem_iterViews keyed scanned
      refine (seat_of_find found).trans ?_
      rw [RuntimeProgram.seat, state_eq, placement, if_pos active, placed]
    · intro seated
      obtain ⟨_, found, seat⟩ := Option.bind_eq_some_iff.mp seated
      obtain ⟨view, scanned, rfl⟩ := exists_iterViews self.order found
      obtain ⟨_, stored, _, state_eq, _, _, placement, _⟩ :=
        mem_iterViews keyed scanned
      rw [found] at stored
      cases stored
      unfold RuntimeProgram.seat at seat
      split at seat
      · rename_i active
        exact ⟨view, ⟨scanned, state_eq ▸ active, placement ▸ seat⟩, rfl⟩
      · cases seat

def ProgramScheduler.activeTokens (self : ProgramScheduler F) (state : ProgramSchedulerState F T)
    (target : String) : F :=
  F64.sum (((self.activeOn state target).filterMap fun program =>
    state.decisions.lookup program.reference).map self.privateTokens)

def ProgramSchedulerState.tokenDelta (state : ProgramSchedulerState F T) (target : String) : F :=
  ((state.observations.lookup target).map (·.activeProgramTokenDelta)).getD (F64.lit 0)

theorem ProgramSchedulerState.tokenDelta_eq (state : ProgramSchedulerState F T) (target : String) :
    state.tokenDelta target = (state.books.meter target).delta := by
  simp only [tokenDelta, books]
  cases state.observations.lookup target <;> rfl

omit [F64 F] in
theorem ProgramRuntime.seat_settled (runtime : ProgramRuntime) : Seating.Settled runtime.seat := by
  refine (runtime.programs.keys.filterMap fun key =>
    (runtime.programs.lookup key).map (·.reference)).finite_toSet.subset ?_
  intro program sits
  obtain ⟨_, seated⟩ := Option.ne_none_iff_exists'.mp sits
  obtain ⟨record, found, _⟩ := Option.bind_eq_some_iff.mp seated
  obtain ⟨stored, exact⟩ := find_eq_some.mp found
  refine List.mem_filterMap.mpr ⟨program.key, (Table.mem_keys_iff _ _).mpr ⟨record, stored⟩, ?_⟩
  rw [stored]
  exact congrArg some exact

end Active

variable {T : Type} {self : ProgramScheduler (Rationals sqrt ln exp)} {globalMode : Bool}
  {state next : ProgramSchedulerState (Rationals sqrt ln exp) T}

theorem sum_filterMap {P A M : Type} [AddCommMonoid M] (items : List P) (pick : P → Option A)
    (weight : A → M) :
    ((items.filterMap pick).map weight).sum =
      (items.map fun item => ((pick item).map weight).getD 0).sum := by
  induction items with
  | nil => rfl
  | cons item _ ih =>
    cases picked : pick item with
    | none | some => simp [picked, ih]

theorem ProgramScheduler.activeTokens_eq_load (keyed : state.runtime.Keyed) (target : String) :
    self.activeTokens state target = state.books.load self.weigh target := by
  obtain ⟨nodup, members⟩ := self.activeOn_references keyed _
  unfold activeTokens load
  rw [Seating.load_eq_sum nodup members, F64.sum_eq_sum, sum_filterMap, List.map_map]
  refine congrArg List.sum (List.map_congr_left fun _ _ => ?_)
  simp only [comp, weight, books, Option.map_map]
  rfl

variable {arrival : Arrival} {activatedAt : Instant}

section Steps

def KeepsTargets (state next : ProgramSchedulerState (Rationals sqrt ln exp) T) : Prop :=
  ∀ pool target, target ∈ state.poolTargets pool → target ∈ next.poolTargets pool

def Event.rebases : Event (Rationals sqrt ln exp) → Prop
  | .applyObservations _ _ => True
  | _ => False

def ArrivesMarked (state : ProgramSchedulerState (Rationals sqrt ln exp) T) :
    Event (Rationals sqrt ln exp) → Prop
  | .arrive arrival _ => ∃ record,
      state.runtime.programs.lookup arrival.identity.key = some record ∧
        state.Marked record.reference
  | _ => False

def ProgramScheduler.Shrinks (self : ProgramScheduler (Rationals sqrt ln exp))
    (state : ProgramSchedulerState (Rationals sqrt ln exp) T) : Event (Rationals sqrt ln exp) → Prop
  | .arrive arrival _ => ∃ record decision,
      state.runtime.programs.lookup arrival.identity.key = some record ∧ record.state = .active ∧
        state.decisions.lookup record.reference = some decision ∧
        self.privateTokens (refreshDecision arrival.identity arrival.estimatedContextTokens decision)
          < self.privateTokens decision
  | _ => False

/-- The delta of every target changes by what the tokens held there change by. -/
def ProgramScheduler.Tallies (self : ProgramScheduler (Rationals sqrt ln exp))
    (state next : ProgramSchedulerState (Rationals sqrt ln exp) T) : Prop :=
  ∀ target, next.tokenDelta target - state.tokenDelta target =
    self.activeTokens next target - self.activeTokens state target

theorem tallies_iff_drift (before : state.runtime.Keyed) (after : next.runtime.Keyed) :
    self.Tallies state next ↔
      ∀ target, next.books.drift self.weigh target = state.books.drift self.weigh target := by
  unfold ProgramScheduler.Tallies drift
  refine forall_congr' fun _ => ?_
  rw [tokenDelta_eq, tokenDelta_eq, activeTokens_eq_load before, activeTokens_eq_load after]
  constructor <;> intro balanced <;> linarith

theorem Core.retained_program {core : Core} {record : RuntimeProgram}
    (stored : core.runtime.programs.lookup arrival.identity.key = some record) :
    (core.retained arrival).1.program = record.reference := by
  rcases materialize_cases arrival.identity arrival.estimatedContextTokens with
    ⟨_, found, materialized⟩ | ⟨absent, _⟩
  · rw [stored] at found
    cases found
    have same := congrArg RuntimeProgram.reference materialized
    exact same
  · rw [stored] at absent
    cases absent

namespace ProgramScheduler

theorem drift_arrivedBooks_of_unseated
    (unseated : state.books.seat program = none) (account : Account) (target : String) :
    (self.arrivedBooks state program account).drift self.weigh target =
      state.books.drift self.weigh target := by
  have entered : self.arrivedBooks state program account =
      state.books.setAccount program (some account) := by
    unfold arrivedBooks
    rw [unseated]
    split
    · contradiction
    · rfl
  rw [entered]
  exact ((Posting.enroll _ _ unseated).keeps_drift state.runtime.seat_settled).2 _

theorem drift_arrivedBooks_of_seated {seat : String} (seated : state.books.seat program = some seat)
    (known : state.books.account program = some before) (unmarked : ¬ state.Marked program)
    (account : Account) :
    (∀ target, (self.arrivedBooks state program account).drift self.weigh target =
      state.books.drift self.weigh target) ↔ self.weigh before ≤ self.weigh account := by
  have settled : Seating.Settled state.books.seat := state.runtime.seat_settled
  unfold arrivedBooks
  simp only [known, seated, unmarked, not_false_eq_true, true_and]
  split
  · rename_i grows
    exact iff_of_true ((Posting.regrade _ seat _ _ seated known).keeps_drift settled).2 grows.le
  · rename_i stays
    constructor
    · intro same
      have moved := same seat
      rw [drift_setAccount settled seated known account seat, if_pos rfl] at moved
      linarith
    · intro grows target
      rw [drift_setAccount settled seated known account target,
        le_antisymm grows (not_lt.mp stays), sub_self, ite_self, sub_zero]

theorem shrinks_iff_of_stored {record : RuntimeProgram}
    {decision : ProgramDecisionState (Rationals sqrt ln exp)}
    (stored : state.runtime.programs.lookup arrival.identity.key = some record)
    (active : record.state = .active)
    (decided : state.decisions.lookup record.reference = some decision) :
    self.Shrinks state (.arrive arrival activatedAt) ↔
      self.weigh (Account.arriving (some decision.account) arrival.identity
        arrival.estimatedContextTokens) < self.weigh decision.account := by
  rw [← account_refreshDecision]
  constructor
  · rintro ⟨_, _, found, _, looked, smaller⟩
    rw [stored] at found
    cases found
    rw [decided] at looked
    cases looked
    exact smaller
  · exact fun smaller => ⟨record, decision, stored, active, decided, smaller⟩

end ProgramScheduler

/-- The section of an arrival keeps every drift up to its decisions, unless the
arriving Program is active and becomes smaller. -/
theorem Enters.keeps_drift {middle : ProgramSchedulerState (Rationals sqrt ln exp) T}
    (enters : Enters self state arrival middle) (inv : state.Inv globalMode)
    (unmarked : ¬ ArrivesMarked state (.arrive arrival activatedAt)) :
    (∀ target, middle.books.drift self.weigh target = state.books.drift self.weigh target) ↔
      ¬ self.Shrinks state (.arrive arrival activatedAt) := by
  rw [enters.books]
  cases seat : state.books.seat (state.core.retained arrival).1.program with
  | none =>
    refine iff_of_true (drift_arrivedBooks_of_unseated seat _) ?_
    rintro ⟨record, decision, stored, active, _⟩
    have found : state.runtime.find record.reference = some record :=
      find_eq_some.mpr ⟨(inv.stored _ _ stored).symm ▸ stored, rfl⟩
    obtain ⟨_, _, facts⟩ := inv.decision found
    obtain ⟨target, placed⟩ := Option.isSome_iff_exists.mp (facts.activePlaced.mp active)
    have seated : state.books.seat record.reference = some target := by
      refine (seat_of_find found).trans ?_
      rw [RuntimeProgram.seat, if_pos active, placed]
    rw [Core.retained_program stored, seated] at seat
    cases seat
  | some =>
    obtain ⟨record, found, sits⟩ := Option.bind_eq_some_iff.mp seat
    have active : record.state = .active := by
      by_contra paused
      rw [RuntimeProgram.seat, if_neg paused] at sits
      cases sits
    have stored : state.runtime.programs.lookup arrival.identity.key = some record := by
      have key : (state.core.retained arrival).1.program.key = arrival.identity.key :=
        materialize_key inv.stored arrival.identity arrival.estimatedContextTokens
      rw [← key]
      exact (find_eq_some.mp found).1
    obtain ⟨decision, decided, _⟩ := inv.decision found
    rw [Core.retained_program stored] at seat decided ⊢
    have known : state.books.account record.reference = some decision.account := by
      simp [ProgramSchedulerState.books, decided]
    rw [known, shrinks_iff_of_stored stored active decided, not_lt]
    exact drift_arrivedBooks_of_seated seat known
      (fun marked => unmarked ⟨record, stored, marked⟩) _

end Steps

section Runs

variable [AffinityTree T] {setup : Setup (Rationals sqrt ln exp)}
  {trace : List (Event (Rationals sqrt ln exp) × Output (Rationals sqrt ln exp))}
  {event : Event (Rationals sqrt ln exp)} {output : Output (Rationals sqrt ln exp)}

theorem Section.posts (taken : Section self state event next) (inv : state.Inv self.config.globalQueue)
    (intact : next.targetSnapshotRevision = state.targetSnapshotRevision ∨ KeepsTargets state next)
    (steady : ¬ event.rebases) (settled : ¬ event.arrives) :
    Posts self.weigh state.books next.books := by
  cases taken with
  | synced _ _ _ books => rw [books]
  | replaced pool next replaced books =>
    have kept := intact.resolve_left (by omega)
    obtain ⟨_, _, shrunk, _⟩ := replaced
    have unlost : state.core.lost pool = [] := by
      refine List.filter_eq_nil_iff.mpr fun target listed => ?_
      have still : target ∈ next.core.targets pool.modelPool := kept pool.modelPool _ listed
      rw [shrunk] at still
      simp only [Core.shrink, update_self] at still
      simpa using still
    rw [books.nothing unlost]
  | arrived => exact absurd trivial settled
  | claimed => rw [claimDispatch_books inv]
  | expired _ _ decides | ticked _ _ decides => exact decides.posts inv
  | uncancelled | stale | observed | evicted => exact .refl
  | cancelled _ _ _ _ _ _ cancels decides =>
    exact (cancelledState_posts inv cancels _).trans
      (decides.posts (self.cancelledState_inv inv cancels _))
  | completed _ _ _ _ _ _ _ _ _ _ _ _ completes =>
    obtain ⟨settledInv, _, posted, _⟩ := completes.settled_posts inv
    exact posted.trans (completes.decides.posts settledInv)
  | applied => exact absurd trivial steady

/-- In a run, a section that gives up no target, rebases nothing and is no
arrival of a marked Program changes every delta by what the tokens of the active
Programs change by, exactly if it is no arrival that makes an active Program
smaller. -/
theorem run_tallies {order : IterationOrder} (run : Run setup trace state)
    (stepped : (setup.scheduler order).step state event = .ok (output, next))
    (kept : KeepsTargets state next) (steady : ¬ event.rebases)
    (unmarked : ¬ ArrivesMarked state event) :
    (setup.scheduler order).Tallies state next ↔ ¬ (setup.scheduler order).Shrinks state event := by
  have sound := run.sound order
  have after := (run.next order stepped).sound order
  rw [tallies_iff_drift sound.inv.stored after.inv.stored]
  have taken := step_section sound stepped
  by_cases arrives : event.arrives
  · cases taken with
    | arrived _ _ middle _ enters decides =>
      have settled : Seating.Settled middle.books.seat := middle.runtime.seat_settled
      have same := ((decides.posts enters.inv).keeps_drift settled).2
      simp only [same]
      exact enters.keeps_drift sound.inv unmarked
    | _ => exact absurd arrives id
  · refine iff_of_true ((taken.posts sound.inv (.inr kept) steady arrives).keeps_drift
      state.runtime.seat_settled).2 ?_
    cases event with
    | arrive => exact absurd trivial arrives
    | _ => exact id

end Runs

namespace Sample

theorem keepsTargets_of_entries {state next : State}
    (same : state.modelTargets.entries = next.modelTargets.entries) : KeepsTargets state next := by
  intro _ _ listed
  unfold poolTargets at listed ⊢
  rw [← AList.ext same]
  exact listed

theorem not_arrivesMarked {state : State}
    (unmarked : ((state.runtime.programs.lookup arrival.identity.key).any fun record =>
      decide (state.Marked record.reference)) = false) :
    ¬ ArrivesMarked state (.arrive arrival activatedAt) := by
  rintro ⟨_, stored, marked⟩
  rw [stored, Option.any_some, decide_eq_false_iff_not] at unmarked
  exact unmarked marked

end Sample

/-- A Program arrives with a declared output of five tokens, is admitted, and
sends a second request without a declared output. -/
theorem run_tallies_fails :
    ∃ (trace : _) (state : Sample.State) (event : Event Exact) (output : Output Exact)
      (next : Sample.State), Run (Sample.router false false) trace state ∧
      ((Sample.router false false).scheduler .filled).step state event = .ok (output, next) ∧
      KeepsTargets state next ∧ ¬ event.rebases ∧ ¬ ArrivesMarked state event ∧
      ¬ ((Sample.router false false).scheduler .filled).Tallies state next := by
  obtain ⟨trace, state, output, next, run, stepped, entries, unmarked, delta, tokens⟩ :=
    step_of_play (router false false)
      [.sync (snapshot 0 "pool" ["target"]), .arrive (hinted (arrival "pool" "program" 1) 5) 1]
      (.arrive (arrival "pool" "program" 2) 2)
      (fun state next => state.modelTargets.entries = next.modelTargets.entries ∧
        ((state.runtime.programs.lookup ⟨"pool", "program"⟩).any fun record =>
          decide (state.Marked record.reference)) = false ∧
        next.tokenDelta "target" - state.tokenDelta "target" = 0 ∧
        ((router false false).scheduler .filled).activeTokens next "target" -
          ((router false false).scheduler .filled).activeTokens state "target" = -5)
      (by decide +kernel)
  refine ⟨trace, state, _, output, next, run, stepped, keepsTargets_of_entries entries, id,
    not_arrivesMarked unmarked, ?_⟩
  intro tallies
  have balanced := tallies "target"
  rw [delta, tokens] at balanced
  exact absurd balanced (by decide +kernel)

/-- The arrival that is admitted is charged. -/
theorem run_tallies_admitted :
    ∃ (trace : _) (state : Sample.State) (event : Event Exact) (output : Output Exact)
      (next : Sample.State), Run (Sample.router false false) trace state ∧
      ((Sample.router false false).scheduler .filled).step state event = .ok (output, next) ∧
      next.tokenDelta "target" - state.tokenDelta "target" = 6 ∧
      KeepsTargets state next ∧ ¬ event.rebases ∧ ¬ ArrivesMarked state event ∧
      (((Sample.router false false).scheduler .filled).Tallies state next ↔
        ¬ ((Sample.router false false).scheduler .filled).Shrinks state event) := by
  obtain ⟨trace, state, output, next, run, stepped, entries, unmarked, delta⟩ :=
    step_of_play (router false false)
      [.sync (snapshot 0 "pool" ["target"])]
      (.arrive (hinted (arrival "pool" "program" 1) 5) 1)
      (fun state next => state.modelTargets.entries = next.modelTargets.entries ∧
        ((state.runtime.programs.lookup ⟨"pool", "program"⟩).any fun record =>
          decide (state.Marked record.reference)) = false ∧
        next.tokenDelta "target" - state.tokenDelta "target" = 6) (by decide +kernel)
  have kept := keepsTargets_of_entries entries
  have arrives : ¬ ArrivesMarked state (.arrive (hinted (arrival "pool" "program" 1) 5) 1) :=
    not_arrivesMarked unmarked
  exact ⟨trace, state, _, output, next, run, stepped, delta, kept, id, arrives,
    run_tallies run stepped kept id arrives⟩

end SmetricRouter.ProgramScheduling
