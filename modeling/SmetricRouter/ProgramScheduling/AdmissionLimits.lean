import Mathlib.Data.Set.Card
import SmetricRouter.ProgramScheduling.Ledger

/-! The limits that an ordinary admission keeps.

An admission that is neither forced nor granted by binding alone was planned: a
place was left on its target, and the projected usage was under the low
watermark. The number of active Programs stays under its limit through every
decision of a run. The usage does only as long as no stored reservation exceeds
what a waiting request declares, for the plan projects the one and the ledger is
charged with the other.
-/

namespace SmetricRouter.ProgramScheduling

open ProgramSchedulerState Function Sample ProgramScheduler

variable {F T : Type} [F64 F] {self : ProgramScheduler F} {globalMode : Bool}
  {state next : ProgramSchedulerState F T}

/-- An admission that is granted: the Program had no seat, takes one, and is
charged with its account. -/
structure Granted (scheduler : ProgramScheduler F) (state next : ProgramSchedulerState F T)
    (program : ProgramRef) (target : String) (plan : RankAdmissionPlan F) (now : Instant)
    (decision : ProgramDecisionState F) : Prop where
  planned : scheduler.rankAdmissionPlan state program target now = some plan ∨
    plan.bindingOnly = true
  decided : state.decisions.lookup program = some decision
  unseated : state.books.seat program = none
  books : next.books = ((state.books.place program (some target)).charge target
    (scheduler.weigh decision.account)).record
      ⟨program, target, plan, scheduler.targetUsage next target now⟩

/-- What a commit means for the seats: nothing is recorded and no Program takes
one, or one Program is admitted. -/
theorem Commit.seats (commit : Commit self state next) (inv : state.Inv globalMode) :
    (next.admissions = state.admissions ∧ ∀ program target,
      next.books.seat program = some target → state.books.seat program = some target) ∨
    ∃ program target plan now decision, Granted self state next program target plan now decision := by
  have grants program target plan now
      (planned : self.rankAdmissionPlan state program target now = some plan ∨
        plan.bindingOnly = true)
      (committed : next = self.commitAdmission state program target plan now) :
      next = state ∨ ∃ decision, Granted self state next program target plan now decision := by
    rcases self.commitAdmission_cases program target plan now with
      unchanged | ⟨decision, _, decided, activated⟩
    · exact .inl (committed.trans unchanged)
    · obtain ⟨unseated, entered⟩ := commitAdmission_books _ now decided activated
      rw [← committed] at entered
      exact .inr ⟨decision, planned, decided, unseated, entered⟩
  have posted := commit.posts inv
  have unrecorded (same : next.admissions = state.admissions) :
      next.admissions = state.admissions ∧ ∀ program target,
        next.books.seat program = some target → state.books.seat program = some target :=
    ⟨same, posted.unseating same⟩
  cases commit with
  | resume program target plan now planned =>
    rcases grants program target plan now (.inl planned) rfl with unchanged | ⟨decision, granted⟩
    · exact .inl (unrecorded (congrArg _ unchanged))
    · exact .inr ⟨program, target, plan, now, decision, granted⟩
  | bind program target now =>
    rcases grants program target self.bindingOnlyPlan now (.inr rfl) rfl with
      unchanged | ⟨decision, granted⟩
    · exact .inl (unrecorded (congrArg _ unchanged))
    · exact .inr ⟨program, target, self.bindingOnlyPlan, now, decision, granted⟩
  | pause _ _ _ _ _ paused =>
    obtain ⟨_, _, _, _, entered⟩ := pauseIdle_books paused
    exact .inl (unrecorded (congrArg Books.admissions entered))
  | release =>
    refine .inl (unrecorded ?_)
    unfold releaseProgram
    simp only
    split
    · rfl
    · split <;> rfl
  | note _ remark => exact .inl (unrecorded (congrArg Books.admissions remark.noted.books))
  | prune | wake => exact .inl (unrecorded rfl)

/-- What an ordinary resume is granted on. -/
structure Fits (scheduler : ProgramScheduler F) (state : ProgramSchedulerState F T)
    (program : ProgramRef) (target : String) (now : Instant) (decision : ProgramDecisionState F) :
    Prop where
  count : scheduler.countFits (scheduler.activeOn state target).length
  tokens : ∀ capacity, scheduler.config.progressTtl.tokenCapacity = some capacity →
    scheduler.targetUsage state target now + decision.privateTokensWithOutput
        scheduler.config.progressTtl.decodeBufferTokens
        ((state.runtime.frontRequestHints program).bind (·.expectedOutputTokens)) ≤
      F64.ofNat capacity * scheduler.config.progressTtl.lowWatermarkRatio

variable {program : ProgramRef} {target : String} {now : Instant}

theorem ProgramScheduler.rankAdmissionPlan_fits
    {plan : RankAdmissionPlan F} {decision : ProgramDecisionState F}
    (planned : self.rankAdmissionPlan state program target now = some plan)
    (unforced : plan.forced = false) (decided : state.decisions.lookup program = some decision) :
    Fits self state program target now decision := by
  simp only [rankAdmissionPlan, Option.bind_eq_bind, Option.bind_eq_some_iff, decided,
    Option.some.injEq, Option.ite_none_left_eq_some] at planned
  obtain ⟨_, _, _, rfl, _, _, _, granted⟩ := planned
  unfold capacityPlan at granted
  cases capacity_is : self.config.progressTtl.tokenCapacity with
  | none =>
    simp only [capacity_is] at granted
    split at granted
    · rename_i fits
      cases granted
      simp only at unforced
      rw [unforced] at fits
      refine ⟨fits, fun capacity known => ?_⟩
      rw [capacity_is] at known
      cases known
    · cases granted
  | some capacity =>
    simp only [capacity_is] at granted
    have fits : self.countFits (self.activeOn state target).length ∧
        self.targetUsage state target now + decision.privateTokensWithOutput
          self.config.progressTtl.decodeBufferTokens
          ((state.runtime.frontRequestHints program).bind (·.expectedOutputTokens)) ≤
        F64.ofNat capacity * self.config.progressTtl.lowWatermarkRatio := by
      split at granted
      · rename_i fits
        cases granted
        simp only at unforced
        rw [unforced, Bool.false_or, Bool.and_eq_true, Bool.and_eq_true] at fits
        exact ⟨fits.1.1, of_decide_eq_true fits.1.2⟩
      · split at granted
        · cases granted
        · rename_i fits
          rw [not_or, not_not, not_not] at fits
          exact ⟨fits.1, of_decide_eq_true fits.2⟩
    refine ⟨fits.1, fun _ known => ?_⟩
    rw [capacity_is] at known
    cases known
    exact fits.2

section Count

noncomputable def Books.crowd (books : Books F) (target : String) : Nat :=
  Set.ncard {program | books.seat program = some target}

variable {books : Books F}

omit [F64 F] in
theorem Books.finite_crowd (settled : Seating.Settled books.seat)
    (target : String) : {program | books.seat program = some target}.Finite := by
  refine Set.Finite.subset settled fun program (sits : books.seat program = some target) => ?_
  rw [Set.mem_ofPred_eq, sits]
  exact Option.some_ne_none _

theorem ProgramScheduler.length_activeOn (self : ProgramScheduler F)
    {state : ProgramSchedulerState F T} (keyed : state.runtime.Keyed) (target : String) :
    (self.activeOn state target).length = state.books.crowd target := by
  classical
  obtain ⟨nodup, members⟩ := self.activeOn_references keyed _
  have seats : {program | state.books.seat program = some target} =
      (((self.activeOn state target).map (·.reference)).toFinset : Set ProgramRef) := by
    ext program
    rw [Finset.mem_coe, List.mem_toFinset, members]
    rfl
  unfold Books.crowd
  rw [seats, Set.ncard_coe_finset, List.toFinset_card_of_nodup nodup, List.length_map]

omit [F64 F] in
theorem Books.crowd_place (settled : Seating.Settled books.seat) :
    (books.place program (some target)).crowd target ≤ books.crowd target + 1 ∧
      ∀ other, other ≠ target →
        (books.place program (some target)).crowd other ≤ books.crowd other := by
  constructor
  · refine (Set.ncard_le_ncard ?_ ((books.finite_crowd settled _).insert program)).trans
      (Set.ncard_insert_le _ _)
    intro seated (sits : update books.seat program (some target) seated = some target)
    by_cases same : seated = program
    · exact .inl same
    · rw [update_of_ne same] at sits
      exact .inr sits
  · intro other different
    refine Set.ncard_le_ncard ?_ (books.finite_crowd settled _)
    intro seated (sits : update books.seat program (some target) seated = some other)
    by_cases same : seated = program
    · rw [same, update_self] at sits
      exact absurd (Option.some.inj sits).symm different
    · rw [update_of_ne same] at sits
      exact sits

omit [F64 F] in
theorem Books.crowd_le {next : Books F} (settled : Seating.Settled books.seat)
    (seats : ∀ program target, next.seat program = some target → books.seat program = some target)
    : next.crowd target ≤ books.crowd target :=
  Set.ncard_le_ncard (fun program sits => seats program target sits)
    (books.finite_crowd settled target)

def RankAdmissionPlan.Ordinary (plan : RankAdmissionPlan F) : Prop :=
  plan.forced = false ∧ plan.bindingOnly = false

/-- As long as every admission was ordinary, no target is fuller than the limit. -/
def Capped (limit : Nat) (state : ProgramSchedulerState F T) : Prop :=
  (∀ admission ∈ state.admissions, admission.plan.Ordinary) →
    ∀ target, state.books.crowd target ≤ limit

theorem Capped.unseating {limit : Nat} (capped : Capped limit state)
    (admissions : next.admissions = state.admissions)
    (seats : ∀ program target, next.books.seat program = some target →
      state.books.seat program = some target) : Capped limit next := by
  intro ordinary target
  rw [admissions] at ordinary
  exact (Books.crowd_le state.runtime.seat_settled seats).trans (capped ordinary _)

theorem Commit.keeps_capped (commit : Commit self state next) (inv : state.Inv globalMode)
    (room : self.config.maxActiveProgramsPerTarget < u64Max)
    (capped : Capped self.config.maxActiveProgramsPerTarget state) :
    Capped self.config.maxActiveProgramsPerTarget next := by
  rcases commit.seats inv with
    ⟨admissions, seats⟩ | ⟨program, target, plan, now, _, granted⟩
  · exact capped.unseating admissions seats
  · have recorded : next.admissions = state.admissions ++ [_] :=
      congrArg Books.admissions granted.books
    intro ordinary other
    have before : ∀ admission ∈ state.admissions, admission.plan.Ordinary := by
      intro _ known
      apply ordinary
      rw [recorded]
      exact List.mem_append_left _ known
    have own : plan.Ordinary := by
      apply ordinary ⟨program, target, plan, self.targetUsage next target now⟩
      rw [recorded]
      exact List.mem_append_right _ List.mem_cons_self
    obtain planned := granted.planned.resolve_right (by rw [own.2]; exact Bool.false_ne_true)
    have fits := (rankAdmissionPlan_fits planned own.1 granted.decided).count
    rw [self.length_activeOn inv.stored] at fits
    have full : state.books.crowd target + 1 ≤ self.config.maxActiveProgramsPerTarget := by
      have bound := of_decide_eq_true fits
      unfold saturatingAdd at bound
      omega
    have settled : Seating.Settled state.books.seat := state.runtime.seat_settled
    obtain ⟨here, elsewhere⟩ := Books.crowd_place settled
    have crowd : next.books.crowd other = (state.books.place program (some target)).crowd other := by
      rw [granted.books]
      rfl
    rw [crowd]
    by_cases same : other = target
    · rw [same]
      exact here.trans full
    · exact (elsewhere _ same).trans (capped before _)

end Count

section CountRuns

variable [AffinityTree T] {setup : Setup F} {trace : List (Event F × Output F)}

theorem Run.capped (room : setup.config.maxActiveProgramsPerTarget < u64Max)
    (run : Run setup trace state) : Capped setup.config.maxActiveProgramsPerTarget state := by
  induction run with
  | start =>
    intro _ target
    have empty : {program | (new setup.config :
        ProgramSchedulerState F T).books.seat program = some target} = ∅ :=
      Set.eq_empty_of_forall_notMem fun _ => nofun
    unfold Books.crowd
    rw [empty, Set.ncard_empty]
    exact Nat.zero_le _
  | @next trace state next event output order run stepped ih =>
    have sound := run.sound order
    obtain ⟨_, opens, decides, _⟩ := (step_section sound stepped).opens sound.inv
      ((run.next order stepped).sound _).inv
    refine decides.keeps (Capped setup.config.maxActiveProgramsPerTarget) opens.inv ?_
      (ih.unseating opens.admissions opens.seats)
    intro _ _ inv commit capped
    exact commit.keeps_capped inv room capped

/-- In a run without a forced resume and without an activation by binding alone
no target ever has more active Programs than the limit. A limit of the largest
machine word is no limit to the check, but the table of Programs fits into
memory. -/
theorem run_concurrencyCap (run : Run setup trace state)
    (ordinary : ∀ admission ∈ state.admissions, admission.plan.Ordinary)
    (memory : u64Max ≤ setup.config.maxActiveProgramsPerTarget →
      state.runtime.programs.keys.length ≤ u64Max)
    (order : IterationOrder) (target : String) :
    ((setup.scheduler order).activeOn state target).length ≤
      setup.config.maxActiveProgramsPerTarget := by
  by_cases room : setup.config.maxActiveProgramsPerTarget < u64Max
  · rw [(setup.scheduler order).length_activeOn (run.sound order).inv.stored]
    exact run.capped room ordinary _
  · have scanned : ((setup.scheduler order).activeOn state target).length ≤
        state.runtime.programs.keys.length := by
      refine (List.length_filter_le _ _).trans ((List.length_filterMap_le _ _).trans ?_)
      exact (order.programs_perm _).length_eq.le
    have limitless := Nat.not_lt.mp room
    exact scanned.trans ((memory limitless).trans limitless)

end CountRuns

/-- Two Programs arrive for one place. -/
theorem run_concurrencyCap_contended :
    ∃ (trace : _) (state : Sample.State), Run (Sample.router false false) trace state ∧
      (state.admissions.map fun admission => (admission.plan.forced, admission.plan.bindingOnly)) =
        [(false, false)] ∧
      (((Sample.router false false).scheduler .filled).activeOn state "target").length ≤ 1 := by
  obtain ⟨trace, state, run, flags⟩ := run_of_play (router false false)
    [.sync (snapshot 0 "pool" ["target"]), .arrive (arrival "pool" "first" 1) 1,
      .arrive (arrival "pool" "second" 2) 2]
    (fun _ state => (state.admissions.map fun admission =>
      (admission.plan.forced, admission.plan.bindingOnly)) = [(false, false)]) (by decide +kernel)
  have ordinary : ∀ admission ∈ state.admissions, admission.plan.Ordinary := by
    intro admission known
    have flag := List.mem_map_of_mem known
      (f := fun admission => (admission.plan.forced, admission.plan.bindingOnly))
    rw [flags, List.mem_singleton] at flag
    exact ⟨congrArg Prod.fst flag, congrArg Prod.snd flag⟩
  exact ⟨trace, state, run, flags, run_concurrencyCap run ordinary
    (fun unlimited => absurd unlimited (by decide)) .filled "target"⟩

section Watermark

variable {sqrt ln exp : ℚ → ℚ} {self : ProgramScheduler (Rationals sqrt ln exp)}
  {state next : ProgramSchedulerState (Rationals sqrt ln exp) T}

theorem ProgramScheduler.targetUsage_eq (keyed : state.runtime.Keyed) (target : String)
    (now : Instant) :
    self.targetUsage state target now =
      ((state.books.meter target).usage fun observedAt =>
        decide (now - observedAt ≤ self.config.metricsInterval * 3)).getD
        (state.books.load self.weigh target) := by
  rw [← observedTargetUsage_eq self state target now, ← self.activeTokens_eq_load keyed]
  rfl

theorem Meter.usage_charge {meter : Meter (Rationals sqrt ln exp)} {fresh : Instant → Bool}
    {tokens load : Rationals sqrt ln exp} (charged : 0 ≤ tokens) :
    ((meter.charge tokens).usage fresh).getD (load + tokens) ≤
      (meter.usage fresh).getD load + tokens := by
  unfold Meter.usage Meter.charge
  cases meter.observedAt.filter fresh with
  | none => exact le_refl _
  | some =>
    cases meter.estimate with
    | none => exact le_refl _
    | some estimate =>
      simp only [Option.bind_some, Option.map_some, Option.getD_some, F64.lit_zero]
      have floor := le_max_right (estimate + meter.delta) 0
      have level := le_max_left (estimate + meter.delta) 0
      refine max_le ?_ ?_ <;> linarith

theorem ProgramScheduler.weigh_nonneg (account : Account) : 0 ≤ self.weigh account := by
  exact Nat.cast_nonneg _

variable {decision : ProgramDecisionState (Rationals sqrt ln exp)}

theorem Granted.usage_le {plan : RankAdmissionPlan (Rationals sqrt ln exp)}
    (granted : Granted self state next program target plan now decision)
    (before : state.runtime.Keyed) (after : next.runtime.Keyed) :
    self.targetUsage next target now ≤
      self.targetUsage state target now + self.weigh decision.account := by
  have known : state.books.account program = some decision.account := by
    simp [ProgramSchedulerState.books, granted.decided]
  have posted : Posting self.weigh state.books next.books := by
    rw [granted.books]
    exact .seat _ _ decision.account _ granted.unseated known
  have meter : next.books.meter target =
      (state.books.meter target).charge (self.weigh decision.account) := by
    rw [granted.books]
    exact update_self _ _ _
  have load : next.books.load self.weigh target =
      state.books.load self.weigh target + self.weigh decision.account := by
    have same := (posted.keeps_drift state.runtime.seat_settled).2 target
    unfold Books.drift at same
    rw [meter] at same
    have delta : ((state.books.meter target).charge (self.weigh decision.account)).delta =
        (state.books.meter target).delta + self.weigh decision.account := rfl
    linarith
  rw [self.targetUsage_eq before, self.targetUsage_eq after, meter, load]
  exact Meter.usage_charge (self.weigh_nonneg _)

/-- No stored reservation exceeds what a waiting request of its Program declares. -/
def Reserving (buffer : Nat) (state : ProgramSchedulerState (Rationals sqrt ln exp) T) : Prop :=
  ∀ program account, state.books.account program = some account →
    ∀ request ∈ state.waiting program, ∀ tokens,
      request.hints.expectedOutputTokens = some tokens →
        account.outputTokenReservation.getD buffer ≤ tokens

theorem ProgramScheduler.weigh_le_projected
    (reserving : Reserving self.config.progressTtl.decodeBufferTokens state)
    (decided : state.decisions.lookup program = some decision) :
    self.weigh decision.account ≤ decision.privateTokensWithOutput
      self.config.progressTtl.decodeBufferTokens
      ((state.runtime.frontRequestHints program).bind (·.expectedOutputTokens)) := by
  have known : state.books.account program = some decision.account := by
    simp [books, decided]
  have reserve : (decision.outputTokenReservation.getD self.config.progressTtl.decodeBufferTokens) ≤
      (((state.runtime.frontRequestHints program).bind (·.expectedOutputTokens)).or
        decision.outputTokenReservation).getD self.config.progressTtl.decodeBufferTokens := by
    cases front : (state.waiting program).head? with
    | none =>
      have hints : state.runtime.frontRequestHints program = none :=
        congrArg (Option.map PendingProgramRequest.hints) front
      rw [hints]
      exact le_refl _
    | some request =>
      have hints : state.runtime.frontRequestHints program = some request.hints :=
        congrArg (Option.map PendingProgramRequest.hints) front
      rw [hints, Option.bind_some]
      cases declared : request.hints.expectedOutputTokens with
      | none => exact le_refl _
      | some tokens =>
        exact reserving program _ known _ (List.mem_of_head? front) tokens declared
  unfold weigh ProgramDecisionState.privateTokensWithOutput saturatingAdd
  rw [F64.ofNat_eq_cast, F64.ofNat_eq_cast, Nat.cast_le]
  exact min_le_min_right _ (Nat.add_le_add_left reserve _)

def UnderWatermark (scheduler : ProgramScheduler (Rationals sqrt ln exp))
    (state : ProgramSchedulerState (Rationals sqrt ln exp) T) : Prop :=
  ∀ admission ∈ state.admissions, admission.plan.Ordinary →
    ∀ capacity, scheduler.config.progressTtl.tokenCapacity = some capacity →
      admission.usage ≤ F64.ofNat capacity * scheduler.config.progressTtl.lowWatermarkRatio

theorem Commit.keeps_underWatermark (commit : Commit self state next) (inv : state.Inv globalMode)
    (reserving : Reserving self.config.progressTtl.decodeBufferTokens state)
    (under : UnderWatermark self state) : UnderWatermark self next := by
  rcases commit.seats inv with ⟨admissions, _⟩ | ⟨_, target, _, now, decision, granted⟩
  · unfold UnderWatermark
    rw [admissions]
    exact under
  · have recorded : next.admissions = state.admissions ++ [_] :=
      congrArg Books.admissions granted.books
    intro admission known ordinary capacity limited
    rw [recorded, List.mem_append, List.mem_singleton] at known
    rcases known with earlier | rfl
    · exact under _ earlier ordinary capacity limited
    · have planned := granted.planned.resolve_right (by rw [ordinary.2]; exact Bool.false_ne_true)
      have fits := (rankAdmissionPlan_fits planned ordinary.1 granted.decided).tokens _ limited
      have after := ((commit.schedules inv).inv inv).stored
      calc self.targetUsage next target now
          ≤ self.targetUsage state target now + self.weigh decision.account :=
            granted.usage_le inv.stored after
        _ ≤ self.targetUsage state target now + _ :=
            add_le_add_right (weigh_le_projected reserving granted.decided) _
        _ ≤ _ := fits

theorem Commit.keeps_reserving {buffer : Nat} (commit : Commit self state next)
    (inv : state.Inv globalMode) (reserving : Reserving buffer state) : Reserving buffer next := by
  intro program account known request waits
  rw [(commit.schedules inv).waiting inv] at waits
  exact reserving _ _ (commit.accounts known) _ waits

/-- The section lets no reservation grow beyond what a waiting request of its
Program declares: the arriving request declares no more, and a completion falls
back to a buffer that is no more. -/
def KeepsReserve (buffer : Nat) (core : Core) : Event (Rationals sqrt ln exp) → Prop
  | .arrive arrival _ =>
    ∀ request ∈ core.runtime.requestPool.queue (core.retained arrival).1.program,
      ∀ tokens, request.hints.expectedOutputTokens = some tokens →
        arrival.identity.requestHints.expectedOutputTokens.getD buffer ≤ tokens
  | .complete dispatch _ _ usage _ _ =>
    core.runtime.placement dispatch.program = some dispatch.targetId →
      core.runtime.completeRequest dispatch usage ≠ none →
        ∀ request ∈ core.runtime.requestPool.queue dispatch.program,
          ∀ tokens, request.hints.expectedOutputTokens = some tokens → buffer ≤ tokens
  | _ => True

variable [AffinityTree T]

theorem Opens.keeps_reserving {buffer : Nat} {event : Event (Rationals sqrt ln exp)}
    (opens : Opens self state event next) (permitted : KeepsReserve buffer state.core event)
    (reserving : Reserving buffer state) : Reserving buffer next := by
  obtain ⟨_, opening, _, _⟩ := opens
  unfold Reserving
  generalize next.books.account = accounts at opening
  generalize next.waiting = waiting at opening
  have fewer (handle : ProgramRequestHandle) rest
      (less : ∀ request ∈ rest, request ∈ state.waiting handle.program) :
      ∀ program account, state.books.account program = some account →
        ∀ request ∈ update state.waiting handle.program rest program, ∀ tokens,
          request.hints.expectedOutputTokens = some tokens →
            account.outputTokenReservation.getD buffer ≤ tokens := by
    intro program account known request waits
    by_cases same : program = handle.program
    · rw [same, update_self] at waits
      exact reserving _ _ known _ (same ▸ less request waits)
    · rw [update_of_ne same] at waits
      exact reserving _ _ known _ waits
  cases opening with
  | plain | unclaimed | uncancelled | stale => exact reserving
  | arrived arrival _ program _ own hints =>
    intro other account known waiter waits tokens declared
    by_cases same : other = program
    · subst same
      rw [update_self, Option.some.injEq] at known
      rw [update_self, List.mem_append, List.mem_singleton] at waits
      have reserved : account.outputTokenReservation =
          arrival.identity.requestHints.expectedOutputTokens := by
        rw [← known]
        unfold Account.arriving
        split <;> rfl
      rw [reserved]
      rcases waits with earlier | rfl
      · exact permitted _ (own ▸ earlier) _ declared
      · rw [← hints, declared, Option.getD_some]
    · rw [update_of_ne same] at known waits
      exact reserving _ _ known _ waits _ declared
  | claimed handle _ _ _ rest _ _ _ front =>
    exact fewer _ _ fun waiter later => front ▸ List.mem_cons_of_mem _ later
  | cancelled handle =>
    exact fewer _ _ fun waiter kept => List.mem_of_mem_eraseIdx kept
  | completed dispatch _ _ _ _ _ _ accepted freed =>
    intro other held known waiter waits tokens declared
    by_cases same : other = dispatch.program
    · subst same
      rw [update_self, Option.some.injEq] at known
      rw [← known, freed]
      exact permitted accepted.1 accepted.2 _ waits _ declared
    · rw [update_of_ne same] at known
      exact reserving _ _ known _ waits _ declared

variable {setup : Setup (Rationals sqrt ln exp)}
  {trace : List (Event (Rationals sqrt ln exp) × Output (Rationals sqrt ln exp))}

/-- In a run whose sections all keep the reserve, the usage of the target right
after each ordinary admission is at most the capacity times the low watermark. -/
theorem run_underWatermark
    (guarded : GuardedRun setup (KeepsReserve setup.config.progressTtl.decodeBufferTokens) trace
      state) (admission : AdmissionRecord (Rationals sqrt ln exp))
    (recorded : admission ∈ state.admissions) (ordinary : admission.plan.Ordinary) (capacity : Nat)
    (limited : setup.config.progressTtl.tokenCapacity = some capacity) :
    admission.usage ≤ F64.ofNat capacity * setup.config.progressTtl.lowWatermarkRatio := by
  have both : Reserving setup.config.progressTtl.decodeBufferTokens state ∧
      UnderWatermark (setup.scheduler .filled) state := by
    clear admission recorded ordinary capacity limited
    induction guarded with
    | start =>
      exact ⟨fun _ _ known => absurd known.symm (Option.some_ne_none _),
        fun _ member => absurd member List.not_mem_nil⟩
    | @next trace state next event output order guarded permitted stepped ih =>
      have sound := guarded.run.sound order
      obtain ⟨middle, opens, decides, _⟩ := (step_section sound stepped).opens
        sound.inv ((guarded.run.next order stepped).sound order).inv
      have reserving := opens.keeps_reserving permitted ih.1
      have under : UnderWatermark (setup.scheduler order) middle := by
        unfold UnderWatermark
        rw [opens.admissions]
        exact ih.2
      refine decides.keeps (fun state => Reserving setup.config.progressTtl.decodeBufferTokens state ∧
        UnderWatermark (setup.scheduler order) state) opens.inv ?_ ⟨reserving, under⟩
      intro _ _ inv commit held
      exact ⟨commit.keeps_reserving inv held.1, commit.keeps_underWatermark inv held.1 held.2⟩
  exact both.2 admission recorded ordinary capacity limited

end Watermark

/-- A Program waits for a place with a request of two output tokens and sends a
second one of twenty. Once the place is free it is admitted on the projection of
the first and charged with the second. -/
theorem run_underWatermark_fails :
    ∃ (trace : _) (state : Sample.State), Run Sample.limitedRouter trace state ∧
      ∃ admission ∈ state.admissions, admission.plan.Ordinary ∧
        Sample.limitedConfig.progressTtl.tokenCapacity = some 10 ∧
        ¬ admission.usage ≤ F64.ofNat 10 * Sample.limitedConfig.progressTtl.lowWatermarkRatio := by
  obtain ⟨trace, state, run, last⟩ := run_of_play limitedRouter
    [.sync (snapshot 0 "pool" ["target"]), .arrive (arrival "pool" "first" 1) 1,
      .arrive (hinted (arrival "pool" "second" 2) 2) 2,
      .arrive (hinted (arrival "pool" "second" 3) 20) 3,
      .cancel ⟨⟨"pool", "first", 0⟩, 1, 0⟩ 4 4 4]
    (fun _ state => (state.admissions.getLast?.map fun admission =>
      (admission.plan.forced, admission.plan.bindingOnly, admission.usage)) =
        some (false, false, 21)) (by decide +kernel)
  obtain ⟨admission, recorded, seen⟩ := Option.map_eq_some_iff.mp last
  simp only [Prod.mk.injEq] at seen
  obtain ⟨forced, bindingOnly, usage⟩ := seen
  refine ⟨trace, state, run, admission, List.mem_of_getLast? recorded, ⟨forced, bindingOnly⟩, rfl, ?_⟩
  rw [usage]
  decide +kernel

/-- While a request of four output tokens waits, its Program sends one of two. -/
theorem run_underWatermark_admitted :
    ∃ (trace : _) (state : Sample.State), GuardedRun Sample.limitedRouter (KeepsReserve 0) trace state ∧
      ∃ admission ∈ state.admissions, admission.plan.Ordinary ∧ admission.usage = 3 ∧
        admission.usage ≤ F64.ofNat 10 * Sample.limitedConfig.progressTtl.lowWatermarkRatio := by
  have checked (state : Sample.State) (event : Event Exact) (passed : (match event with
      | .arrive arrival _ =>
        (state.runtime.requestPool.queue (state.core.retained arrival).1.program).all fun request =>
          request.hints.expectedOutputTokens.all fun tokens =>
            decide (arrival.identity.requestHints.expectedOutputTokens.getD 0 ≤ tokens)
      | .complete .. => false
      | _ => true) = true) : KeepsReserve 0 state.core event := by
    cases event with
    | arrive arrival =>
      intro request waits tokens declared
      have kept := List.all_eq_true.mp passed request waits
      rw [declared] at kept
      exact of_decide_eq_true kept
    | complete => cases passed
    | _ => trivial
  obtain ⟨trace, state, guarded, last⟩ := guarded_of_play limitedRouter checked
    [.sync (snapshot 0 "pool" ["target"]), .arrive (arrival "pool" "first" 1) 1,
      .arrive (hinted (arrival "pool" "second" 2) 4) 2,
      .arrive (hinted (arrival "pool" "second" 3) 2) 3, .cancel ⟨⟨"pool", "first", 0⟩, 1, 0⟩ 4 4 4]
    (fun _ state => (state.admissions.getLast?.map fun admission =>
      (admission.plan.forced, admission.plan.bindingOnly, admission.usage)) =
        some (false, false, 3)) (by decide +kernel)
  obtain ⟨admission, recorded, seen⟩ := Option.map_eq_some_iff.mp last
  simp only [Prod.mk.injEq] at seen
  obtain ⟨forced, bindingOnly, usage⟩ := seen
  have member := List.mem_of_getLast? recorded
  exact ⟨trace, state, guarded, admission, member, ⟨forced, bindingOnly⟩, usage,
    run_underWatermark guarded _ member ⟨forced, bindingOnly⟩ 10 rfl⟩

end SmetricRouter.ProgramScheduling
