import SmetricRouter.ProgramScheduling.Ledger

/-! Backend observations that are taken while the scheduler goes on.

An epoch keeps the ledger as it stood before the scrape. Installing the scrape
moves the ledger to that mark, so that only what changed since remains of it.
-/

namespace SmetricRouter.ProgramScheduling

open ProgramSchedulerState Sample ProgramScheduler

variable {F T : Type} [F64 F] {self : ProgramScheduler F} {globalMode : Bool}
  {state next : ProgramSchedulerState F T}

section Targets

theorem Commit.targets (commit : Commit self state next) : SameTargets state next := by
  have admits program target plan now :
      SameTargets state (self.commitAdmission state program target plan now) := by
    unfold commitAdmission
    split <;> exact ⟨rfl, rfl⟩
  cases commit with
  | resume _ _ _ now => exact admits _ _ _ now
  | bind _ _ now => exact admits _ _ _ now
  | pause _ _ _ _ _ paused =>
    obtain ⟨_, _, _, _, _, _, rfl⟩ := self.pauseIdle_eq_some paused
    exact ⟨rfl, rfl⟩
  | release =>
    unfold releaseProgram
    simp only
    split
    · exact ⟨rfl, rfl⟩
    · split <;> exact ⟨rfl, rfl⟩
  | note _ remark => exact remark.noted.targets
  | prune | wake => exact ⟨rfl, rfl⟩

theorem Commits.targets (taken : Commits self state next) : SameTargets state next := by
  induction taken with
  | refl => exact ⟨rfl, rfl⟩
  | tail _ commit ih => exact ih.trans commit.targets

variable [AffinityTree T]

theorem Section.targets {event : Event F} (taken : Section self state event next) :
    SameTargets state next ∨
      next.targetSnapshotRevision = state.targetSnapshotRevision + 1 := by
  cases taken with
  | synced _ _ _ _ targets => exact .inl targets
  | replaced _ _ _ _ revision => exact .inr revision
  | arrived _ _ _ _ enters decides =>
    exact .inl (enters.targets.trans decides.targets)
  | claimed =>
    obtain ⟨_, _, same⟩ := claimDispatch_frame state _ _
    rw [same]
    exact .inl ⟨rfl, rfl⟩
  | expired _ _ decides | ticked _ _ decides => exact .inl decides.targets
  | uncancelled | stale | observed | evicted => exact .inl ⟨rfl, rfl⟩
  | cancelled handle pausedAt _ _ runtime _ _ decides =>
    have cancelled : SameTargets state
        (self.cancelledState state runtime handle.program pausedAt) := by
      unfold cancelledState accountCancellation
      split <;> split <;> (try split) <;> (try split) <;> exact ⟨rfl, rfl⟩
    exact .inl (cancelled.trans decides.targets)
  | completed dispatch _ terminate _ _ now runtime _ _ _ _ _ completes =>
    have marked : SameTargets state (markedState state runtime dispatch terminate) :=
      ⟨rfl, rfl⟩
    have paused := (self.pauseCompleted_commits now completes.pauses).targets
    have settles := (self.settleCompletion_frame completes.settles).2.2.2.2
    exact .inl (((marked.trans paused).trans settles).trans completes.decides.targets)
  | applied epoch _ =>
    obtain ⟨_, applied⟩ := self.applyObservations_eq _ epoch _
    rw [applied]
    exact .inl ⟨rfl, rfl⟩

end Targets

section Paths

variable [AffinityTree T] {setup : Setup F}

theorem Path.targets {start : ProgramSchedulerState F T}
    {sections : List (Event F × ProgramSchedulerState F T)} (path : Path setup start sections state)
    {trace : List (Event F × Output F)} (run : Run setup trace start) :
    start.targetSnapshotRevision ≤ state.targetSnapshotRevision ∧
      (state.targetSnapshotRevision = start.targetSnapshotRevision →
        state.targets = start.targets) := by
  induction path generalizing trace with
  | nil => exact ⟨le_refl _, fun _ => rfl⟩
  | cons order stepped _ ih =>
    obtain ⟨grows, same⟩ := ih (run.next _ stepped)
    rcases (step_section (run.sound order) stepped).targets with kept | _
    · rw [← kept.revision, ← kept.targets]
      exact ⟨grows, same⟩
    · omega

end Paths

section Checkpoints

theorem ProgramScheduler.checkpointProgram_ledger
    (checkpoints : Table String (ObservationCheckpoint F)) (view : RuntimeProgramViewRef)
    (target : String) :
    ((self.checkpointProgram state checkpoints view).lookup target).map
      ObservationCheckpoint.ledgerCheckpoint =
      (checkpoints.lookup target).map ObservationCheckpoint.ledgerCheckpoint := by
  unfold checkpointProgram
  split
  · rw [Table.lookup_modify]
    split
    · rename_i same
      rw [same, Option.map_map]
      split <;> rfl
    · rfl
  · rfl

variable {target : String}

theorem ProgramScheduler.beginObservation_ledger {targets : List ProgramTarget}
    (listed : target ∈ targets.map (·.id)) :
    ((self.beginObservation state targets).checkpoints.lookup target).map
      ObservationCheckpoint.ledgerCheckpoint = some (state.tokenDelta target) := by
  have marked : ∀ (table : Table String (ObservationCheckpoint F)),
      target ∈ targets.map (·.id) ∨ (table.lookup target).map
        ObservationCheckpoint.ledgerCheckpoint = some (state.tokenDelta target) →
      ((targets.foldl (fun checkpoints target =>
        checkpoints.insert target.id ⟨((state.observations.lookup target.id).map
          (·.activeProgramTokenDelta)).getD (F64.lit 0), 0, 0, F64.lit 0, F64.lit 0⟩)
        table).lookup target).map ObservationCheckpoint.ledgerCheckpoint =
          some (state.tokenDelta target) := by
    clear listed
    induction targets with
    | nil =>
      rintro _ (impossible | known)
      · cases impossible
      · exact known
    | cons first _ ih =>
      intro _ known
      apply ih
      rw [Table.lookup_insert_eq]
      by_cases same : target = first.id
      · refine .inr ?_
        rw [if_pos same, same]
        rfl
      · rw [if_neg same]
        rw [List.map_cons, List.mem_cons] at known
        exact known.imp_left fun member => member.resolve_left same
  apply foldl_invariant fun _ (checkpoints : Table String (ObservationCheckpoint F)) =>
    (checkpoints.lookup _).map ObservationCheckpoint.ledgerCheckpoint = some (state.tokenDelta _)
  · exact marked ∅ (.inl listed)
  · intro _ _ _ known
    rw [checkpointProgram_ledger]
    exact known

/-- The usage that a raw observation with a KV ratio stands for, together with
what was active when the epoch began. -/
def ObservationCheckpoint.estimate (checkpoint : ObservationCheckpoint F)
    (raw : BackendObservation F) (ratio : F) (capacity : Nat) : F :=
  let nativeUsed := ratio * F64.ofNat capacity
  let running := raw.runningRequests.getD 0
  let reasoning :=
    if 0 < running then
      nativeUsed * F64.ofNat (max checkpoint.activeReasoningPrograms running) / F64.ofNat running
    else if 0 < checkpoint.activeReasoningPrograms then checkpoint.activeReasoningPrivateTokens
    else nativeUsed
  reasoning + checkpoint.activeActingPrivateTokens

variable {epoch : BackendObservationEpoch F} {raw : BackendObservation F}

theorem ProgramScheduler.applyObservation_other (other : raw.targetId ≠ target) :
    (self.applyObservation epoch state raw).books.meter target = state.books.meter target := by
  unfold applyObservation
  split
  · rfl
  · split
    · rfl
    · rw [books_updateObservation]
      exact Function.update_of_ne other.symm _ _

variable {checkpoint : ObservationCheckpoint F} {ratio : F} {capacity : Nat}

theorem ProgramScheduler.applyObservation_meter
    (marked : epoch.checkpoints.lookup raw.targetId = some checkpoint)
    (known : state.targets.lookup raw.targetId ≠ none) (used : raw.kvCacheUsage = some ratio)
    (limited : self.config.progressTtl.tokenCapacity = some capacity) :
    (self.applyObservation epoch state raw).books.meter raw.targetId =
      ⟨some (checkpoint.estimate raw ratio capacity), some raw.observedAt,
        state.tokenDelta raw.targetId - checkpoint.ledgerCheckpoint⟩ := by
  unfold applyObservation
  simp only [marked, Option.isNone_iff_eq_none, known, if_false, used, limited, Option.bind_some,
    Option.map_some]
  rw [books_updateObservation, tokenDelta_eq]
  exact Function.update_self _ _ _

variable {observations : List (BackendObservation F)}

theorem ProgramScheduler.applyObservations_others
    (others : ∀ raw ∈ observations, raw.targetId ≠ target) :
    (observations.foldl (self.applyObservation epoch) state).books.meter target =
        state.books.meter target ∧
      (observations.foldl (self.applyObservation epoch) state).targets = state.targets := by
  have kept := @foldl_invariant _ _ _ _ (self.applyObservation epoch)
    (fun rest next => (∀ raw ∈ rest, raw.targetId ≠ target) ∧
      next.books.meter target = state.books.meter target ∧ next.targets = state.targets)
    ⟨others, rfl, rfl⟩ (by
      rintro raw _ _ ⟨apart, meter, targets⟩
      refine ⟨fun later member => apart later (List.mem_cons_of_mem _ member), ?_, ?_⟩
      · rw [applyObservation_other (apart raw List.mem_cons_self), meter]
      · unfold applyObservation
        split
        · exact targets
        · split <;> exact targets)
  exact kept.2

theorem ProgramScheduler.applyObservations_meter
    (current : epoch.targetSnapshotRevision = state.targetSnapshotRevision)
    (distinct : (observations.map (·.targetId)).Nodup) (given : raw ∈ observations)
    (marked : epoch.checkpoints.lookup raw.targetId = some checkpoint)
    (known : state.targets.lookup raw.targetId ≠ none) (used : raw.kvCacheUsage = some ratio)
    (limited : self.config.progressTtl.tokenCapacity = some capacity) :
    (self.applyObservations state epoch observations).books.meter raw.targetId =
      ⟨some (checkpoint.estimate raw ratio capacity), some raw.observedAt,
        state.tokenDelta raw.targetId - checkpoint.ledgerCheckpoint⟩ := by
  obtain ⟨before, after, rfl⟩ := List.append_of_mem given
  rw [List.map_append, List.map_cons, List.nodup_append] at distinct
  obtain ⟨_, later, apart⟩ := distinct
  have earlier : ∀ other ∈ before, other.targetId ≠ raw.targetId := fun other member =>
    apart _ (List.mem_map_of_mem member) _ List.mem_cons_self
  have rest : ∀ other ∈ after, other.targetId ≠ raw.targetId := by
    intro _ member same
    exact (List.nodup_cons.mp later).1 (same ▸ List.mem_map_of_mem member)
  unfold applyObservations
  rw [if_neg (not_not.mpr current), List.foldl_append, List.foldl_cons]
  have reached : _ ∧ (before.foldl (self.applyObservation epoch) state).targets = state.targets :=
    applyObservations_others earlier
  rw [(applyObservations_others rest).1,
    applyObservation_meter marked (by rw [reached.2]; exact known) used limited, tokenDelta_eq,
    reached.1, ← tokenDelta_eq]

end Checkpoints

section Exact

variable {sqrt ln exp : ℚ → ℚ}

omit [F64 F] in
def amountsOf (target : String) (entries : List (String × F)) : List F :=
  (entries.filter fun entry => entry.1 = target).map (·.2)

def Books.Enters (books next : Books (Rationals sqrt ln exp)) : Prop :=
  ∃ entries, next.ledger = books.ledger ++ entries ∧
    ∀ target, (next.meter target).delta =
      (books.meter target).delta + (amountsOf target entries).sum

variable {books : Books (Rationals sqrt ln exp)}

namespace Books

variable {next last : Books (Rationals sqrt ln exp)}

theorem Enters.of_same (ledger : next.ledger = books.ledger) (meter : next.meter = books.meter) :
    books.Enters next :=
  ⟨[], by rw [ledger, List.append_nil], fun _ => by rw [meter]; exact (add_zero _).symm⟩

theorem Enters.trans (first : books.Enters next) (second : next.Enters last) :
    books.Enters last := by
  obtain ⟨earlier, prefixed, moved⟩ := first
  obtain ⟨later, longer, moves⟩ := second
  refine ⟨earlier ++ later, ?_, fun _ => ?_⟩
  · rw [longer, prefixed, List.append_assoc]
  · rw [moves, moved, amountsOf, amountsOf, amountsOf, List.filter_append, List.map_append,
      List.sum_append, add_assoc]

theorem enters_charge {target : String}
    {tokens : Rationals sqrt ln exp} : books.Enters (books.charge target tokens) := by
  refine ⟨[(target, tokens)], rfl, fun other => ?_⟩
  rw [delta_charge, amountsOf]
  by_cases same : target = other
  · simp [same]
  · simp [same]

end Books

variable {weigh : Account → Rationals sqrt ln exp}

theorem Posting.enters {next : Books (Rationals sqrt ln exp)} (posted : Posting weigh books next) :
    books.Enters next := by
  cases posted with
  | seat program target =>
    have placed : books.Enters (books.place program (some target)) := .of_same rfl rfl
    exact (placed.trans Books.enters_charge).trans (.of_same rfl rfl)
  | vacate program target =>
    have placed : books.Enters (books.place program none) := .of_same rfl rfl
    exact placed.trans Books.enters_charge
  | enroll => exact .of_same rfl rfl
  | regrade program _ _ after =>
    have graded : books.Enters (books.setAccount program (some after)) := .of_same rfl rfl
    exact graded.trans Books.enters_charge

theorem Posts.enters {next : Books (Rationals sqrt ln exp)} (posted : Posts weigh books next) :
    books.Enters next := by
  induction posted with
  | refl => exact .of_same rfl rfl
  | tail _ posted ih => exact ih.trans posted.enters

variable {setup : Setup (Rationals sqrt ln exp)}
  {self : ProgramScheduler (Rationals sqrt ln exp)}
  {state next start : ProgramSchedulerState (Rationals sqrt ln exp) T}
  {sections : List (Event (Rationals sqrt ln exp) ×
    ProgramSchedulerState (Rationals sqrt ln exp) T)}

theorem ProgramScheduler.arrivedBooks_enters (program : ProgramRef) (account : Account) :
    state.books.Enters (self.arrivedBooks state program account) := by
  have opened : state.books.Enters (state.books.setAccount program (some account)) :=
    .of_same rfl rfl
  unfold arrivedBooks
  split
  · split
    · exact opened.trans Books.enters_charge
    · exact opened
  · exact opened

variable [AffinityTree T]

theorem Section.enters {event : Event (Rationals sqrt ln exp)}
    (taken : Section self state event next) (inv : state.Inv self.config.globalQueue)
    (unchanged : next.targetSnapshotRevision = state.targetSnapshotRevision)
    (steady : ¬ event.rebases) : state.books.Enters next.books := by
  by_cases arrives : event.arrives
  · cases taken with
    | arrived _ _ middle _ enters decides =>
      have entered : state.books.Enters middle.books := by
        rw [enters.books]
        exact arrivedBooks_enters _ _
      exact entered.trans (decides.posts enters.inv).enters
    | _ => exact absurd arrives id
  · exact (taken.posts inv (.inl unchanged) steady arrives).enters

variable {trace : List (Event (Rationals sqrt ln exp) × Output (Rationals sqrt ln exp))}

theorem Path.enters (path : Path setup start sections state)
    (run : Run setup trace start) (steady : ∀ entry ∈ sections, ¬ entry.1.rebases)
    (unchanged : state.targetSnapshotRevision = start.targetSnapshotRevision) :
    start.books.Enters state.books := by
  induction path generalizing trace with
  | nil => exact .of_same rfl rfl
  | @cons state next last event output rest order stepped path ih =>
    have extended := run.next _ stepped
    have taken := step_section (run.sound _) stepped
    -- The revision never falls, so it is the same at every state between.
    have rises := (path.targets extended).1
    have same : next.targetSnapshotRevision = state.targetSnapshotRevision := by
      rcases taken.targets with kept | _
      · exact kept.revision
      · omega
    have first := taken.enters (run.sound _).inv same (steady _ List.mem_cons_self)
    exact first.trans (ih extended (fun _ later => steady _ (List.mem_cons_of_mem _ later))
      (unchanged.trans same.symm))

def ProgramSchedulerState.changesSince (state start : ProgramSchedulerState (Rationals sqrt ln exp) T)
    (target : String) : List (Rationals sqrt ln exp) :=
  amountsOf target (state.ledger.drop start.ledger.length)

theorem Path.tokenDelta (path : Path setup start sections state)
    (run : Run setup trace start) (steady : ∀ entry ∈ sections, ¬ entry.1.rebases)
    (unchanged : state.targetSnapshotRevision = start.targetSnapshotRevision) (target : String) :
    state.tokenDelta target = start.tokenDelta target + (state.changesSince start target).sum := by
  obtain ⟨entries, extended, moved⟩ := path.enters run steady unchanged
  have since : state.ledger.drop start.ledger.length = entries := by
    have whole : state.ledger = start.ledger ++ entries := extended
    rw [whole, List.drop_left]
  rw [tokenDelta_eq, tokenDelta_eq, changesSince, since, moved]

omit [AffinityTree T] in
theorem fresh_at (now : Instant) (interval : Duration) : decide (now - now ≤ interval * 3) = true := by
  rw [Nat.sub_self]
  exact decide_eq_true (Nat.zero_le _)

/-- An epoch is begun in a state of a run, other sections follow that neither
install observations nor, in the end, change the target revision, and the epoch
is applied. Then the usage of each observed target, at the time of its
observation, is what the raw observation and the checkpoint stand for, corrected
by the ledger changes since, and never negative. An epoch of another revision
changes nothing. -/
theorem run_rebase (setup : Setup (Rationals sqrt ln exp)) :
    (∀ (trace : List (Event (Rationals sqrt ln exp) × Output (Rationals sqrt ln exp)))
      (start state : ProgramSchedulerState (Rationals sqrt ln exp) T)
      (sections : List (Event (Rationals sqrt ln exp) ×
        ProgramSchedulerState (Rationals sqrt ln exp) T))
      (begun applied : IterationOrder) (targets : List ProgramTarget)
      (observations : List (BackendObservation (Rationals sqrt ln exp)))
      (raw : BackendObservation (Rationals sqrt ln exp)) (ratio : Rationals sqrt ln exp)
      (capacity : Nat),
      Run setup trace start → Path setup start sections state →
      (∀ entry ∈ sections, ¬ entry.1.rebases) →
      state.targetSnapshotRevision = start.targetSnapshotRevision →
      (observations.map (·.targetId)).Nodup → raw ∈ observations →
      raw.targetId ∈ targets.map (·.id) → start.targets.lookup raw.targetId ≠ none →
      raw.kvCacheUsage = some ratio →
      setup.config.progressTtl.tokenCapacity = some capacity →
      ∃ checkpoint,
        ((setup.scheduler begun).beginObservation start targets).checkpoints.lookup raw.targetId =
          some checkpoint ∧
        (setup.scheduler applied).targetUsage ((setup.scheduler applied).applyObservations state
          ((setup.scheduler begun).beginObservation start targets) observations)
          raw.targetId raw.observedAt =
        max 0 (checkpoint.estimate raw ratio capacity +
          (state.changesSince start raw.targetId).sum)) ∧
    ∀ (order : IterationOrder) (state : ProgramSchedulerState (Rationals sqrt ln exp) T)
      (epoch : BackendObservationEpoch (Rationals sqrt ln exp))
      (observations : List (BackendObservation (Rationals sqrt ln exp))),
      epoch.targetSnapshotRevision ≠ state.targetSnapshotRevision →
        (setup.scheduler order).applyObservations state epoch observations = state := by
  constructor
  · intro _ start state _ begun applied targets observations raw _ _ run path
      steady revision distinct given listed known used limited
    have marks : Option.map _ (((setup.scheduler begun).beginObservation start
        targets).checkpoints.lookup raw.targetId) = some (start.tokenDelta raw.targetId) :=
      beginObservation_ledger listed
    obtain ⟨checkpoint, marked, ledger⟩ := Option.map_eq_some_iff.mp marks
    refine ⟨checkpoint, marked, ?_⟩
    have still : state.targets.lookup raw.targetId ≠ none := by
      rw [(path.targets run).2 revision]
      exact known
    have meter : ((setup.scheduler applied).applyObservations state _ observations).books.meter
        raw.targetId = _ :=
      applyObservations_meter revision.symm distinct given marked still used limited
    unfold targetUsage
    rw [observedTargetUsage_eq, meter]
    simp only [Meter.usage, Option.filter_some, fresh_at, if_true, Option.bind_some, Option.map_some,
      Option.getD_some, F64.lit_zero]
    rw [ledger, path.tokenDelta run steady revision, add_sub_cancel_left, max_comm]
  · intro _ _ _ _ stale
    unfold applyObservations
    rw [if_pos stale]

end Exact

def Sample.scrape (target : String) (ratio : Exact) (observedAt : Instant) :
    BackendObservation Exact :=
  ⟨target, some ratio, some 1, some 0, observedAt⟩

/-- A Program of four tokens is admitted while a scrape that finds half of the
ten tokens used is under way. -/
theorem run_rebase_admitted :
    ∃ (trace : _) (start state : Sample.State) (sections : _),
      Run Sample.limitedRouter trace start ∧ Path Sample.limitedRouter start sections state ∧
      (state.changesSince start "target").sum = 4 ∧
      ∃ checkpoint : ObservationCheckpoint Exact,
        ((Sample.limitedRouter.scheduler .filled).beginObservation start
          [⟨"target", "target", none⟩]).checkpoints.lookup "target" = some checkpoint ∧
        (Sample.limitedRouter.scheduler .filled).targetUsage
          ((Sample.limitedRouter.scheduler .filled).applyObservations state
            ((Sample.limitedRouter.scheduler .filled).beginObservation start
              [⟨"target", "target", none⟩]) [Sample.scrape "target" (1 / 2) 5]) "target" 5 =
          max 0 (checkpoint.estimate (Sample.scrape "target" (1 / 2) 5) (1 / 2) 10 +
            (state.changesSince start "target").sum) := by
  obtain ⟨trace, start, _, state, run, stepped, known, revision, changes⟩ :=
    step_of_play limitedRouter [.sync (snapshot 0 "pool" ["target"])]
      (.arrive (hinted (arrival "pool" "program" 1) 3) 1)
      (fun start state => (start.targets.lookup "target").isSome ∧
        state.targetSnapshotRevision = start.targetSnapshotRevision ∧
        (state.changesSince start "target").sum = 4) (by decide +kernel)
  have path := Path.cons .filled stepped (.nil _)
  refine ⟨trace, start, state, _, run, path, changes, ?_⟩
  exact (run_rebase limitedRouter).1 _ _ _ _ .filled .filled
    [⟨"target", "target", none⟩] [scrape "target" (1 / 2) 5]
    (scrape "target" (1 / 2) 5) (1 / 2) 10 run path
    (by
      intro _ only
      rw [List.mem_singleton.mp only]
      exact id)
    revision (List.nodup_singleton _) List.mem_cons_self List.mem_cons_self
    (Option.isSome_iff_ne_none.mp known) rfl rfl

end SmetricRouter.ProgramScheduling
