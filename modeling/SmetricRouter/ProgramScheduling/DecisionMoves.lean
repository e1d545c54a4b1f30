import SmetricRouter.ProgramScheduling.Commits

/-! Scheduling decisions are commits.

Every decision function is total from a state that satisfies the invariant, and
what it does is a sequence of commits. Capacity and ordering choose which;
nothing below depends on how they choose.
-/

namespace SmetricRouter.ProgramScheduling

open ProgramSchedulerState ProgramRuntime

variable {F T : Type} [F64 F]

theorem ProgramRuntime.mem_iterViews {runtime : ProgramRuntime} (keyed : runtime.Keyed)
    {order : IterationOrder} {view : RuntimeProgramViewRef}
    (scanned : view ∈ runtime.iterViews order) :
    ∃ record, runtime.find view.reference = some record ∧ record.reference = view.reference ∧
      record.state = view.state ∧ record.status = view.status ∧
      record.inFlightRequests = view.inFlightRequests ∧
      record.placement = view.placement ∧ record.expectedResume = view.expectedResume ∧
      (runtime.requestPool.queue view.reference).length = view.waitingRequests := by
  simp only [iterViews, List.mem_filterMap, Option.map_eq_some_iff] at scanned
  obtain ⟨key, _, record, stored, rfl⟩ := scanned
  have own := keyed key _ stored
  refine ⟨record, find_eq_some.mpr ⟨?_, rfl⟩, rfl, rfl, rfl, rfl, rfl, rfl, rfl⟩
  rw [own]
  exact stored

namespace ProgramScheduler

variable (self : ProgramScheduler F) {globalMode : Bool} {state : ProgramSchedulerState F T}
  {program : ProgramRef}

theorem expireActingTtl_commits (now : Instant) (acting : Acting state program) :
    Commits self state (self.expireActingTtl now state program) ∧
      ∀ reference, Acting state reference →
        Acting (self.expireActingTtl now state program) reference := by
  unfold expireActingTtl
  cases paused : self.pauseIdle state program .ttlExpired now with
  | none => exact ⟨.refl, fun _ kept => kept⟩
  | some next =>
    constructor
    · apply (Commits.one (.pause _ .ttlExpired now next acting paused)).trans
      obtain ⟨_, decision, _, _, decided, _, written⟩ := self.pauseIdle_eq_some paused
      have after : next.decisions.lookup program =
          some (pausedDecision .ttlExpired now decision) := by
        rw [written]
        simp [adjustUsage, modifyDecision, Table.lookup_modify, decided]
      simp only [decided, Option.map_some, Option.getD_some]
      split
      · exact .noted (.restarted program (pausedDecision .ttlExpired now decision) after)
      · rename_i target last
        exact (Commits.noted (.sampled program _ after target last)).trans
          (.noted (.restarted program (pausedDecision .ttlExpired now decision) after))
    · intro _ kept
      have later := self.pauseIdle_acting paused kept
      simp only
      split <;> exact later

variable (inv : state.Inv globalMode)

include inv

variable {now : Instant}

theorem expiredActing_acting : ∀ program ∈ self.expiredActing state now, Acting state program := by
  intro _ expired
  simp only [expiredActing, List.mem_map, List.mem_filter, Bool.and_eq_true, beq_iff_eq] at expired
  obtain ⟨_, ⟨scanned, ⟨⟨_, acting⟩, _⟩, _⟩, rfl⟩ := expired
  obtain ⟨record, found, _, _, status, _⟩ := mem_iterViews inv.stored scanned
  exact ⟨record, found, status.trans acting⟩

theorem expireActingTtls_commits (now : Instant) :
    Commits self state (self.expireActingTtls state now) := by
  -- The Programs still to be expired stay acting while others are paused.
  have loop : Commits self state (self.expireActingTtls state now) ∧
      ∀ program ∈ ([] : List ProgramRef), Acting (self.expireActingTtls state now) program := by
    apply foldl_invariant fun rest next =>
      Commits self state next ∧ ∀ program ∈ rest, Acting next program
    · exact ⟨.refl, self.expiredActing_acting inv⟩
    · rintro _ _ _ ⟨taken, acting⟩
      obtain ⟨expired, kept⟩ := self.expireActingTtl_commits now (acting _ List.mem_cons_self)
      exact ⟨taken.trans expired, fun _ member =>
        kept _ (acting _ (List.mem_cons_of_mem _ member))⟩
  exact loop.1

omit inv in
theorem releaseProgram_quiet {reference : ProgramRef} (now : Instant)
    (quiet : Quiet state reference) : Quiet (self.releaseProgram state program now) reference := by
  cases released : state.runtime.releaseIdle program now with
  | none =>
    rw [self.releaseProgram_of_absent released]
    exact quiet
  | some =>
    obtain ⟨_, _, written⟩ := self.releaseProgram_eq released
    obtain ⟨record, found, _, _, rfl⟩ := releaseIdle_some released
    obtain ⟨lookup, rfl⟩ := find_eq_some.mp found
    intro later stored
    rw [written] at stored ⊢
    rw [find_of_erase rfl lookup reference] at stored
    by_cases same : reference = record.reference
    · rw [if_pos same] at stored
      cases stored
    · rw [if_neg same] at stored
      exact quiet later stored

theorem expiredPaused_quiet : ∀ program ∈ self.expiredPaused state now, Quiet state program := by
  intro _ expired _ found
  simp only [expiredPaused, List.mem_map, List.mem_filter, Bool.and_eq_true, beq_iff_eq] at expired
  obtain ⟨_, ⟨scanned, ⟨⟨⟨_, _⟩, idle⟩, empty⟩, _⟩, rfl⟩ := expired
  obtain ⟨_, stored, _, _, _, inFlight, _, _, waiting⟩ :=
    mem_iterViews inv.stored scanned
  rw [stored] at found
  cases found
  exact ⟨inFlight.trans idle, List.length_eq_zero_iff.mp (waiting.trans empty)⟩

theorem releaseExpiredPaused_commits (now : Instant) :
    Commits self state (self.releaseExpiredPaused state now) := by
  have loop : Commits self state (self.releaseExpiredPaused state now) ∧
      ∀ program ∈ ([] : List ProgramRef), Quiet (self.releaseExpiredPaused state now) program := by
    apply foldl_invariant fun rest next =>
      Commits self state next ∧ ∀ program ∈ rest, Quiet next program
    · exact ⟨.refl, self.expiredPaused_quiet inv⟩
    · rintro program _ next ⟨taken, quiet⟩
      have releasing : Commits self next (self.releaseProgram next program now) :=
        .one (.release _ now (quiet _ List.mem_cons_self))
      exact ⟨taken.trans releasing, fun _ member =>
        self.releaseProgram_quiet now (quiet _ (List.mem_cons_of_mem _ member))⟩
  exact loop.1

def Relievable (state : ProgramSchedulerState F T) (victim : CapacityVictim F) : Prop :=
  ∃ record, state.runtime.find victim.reference = some record ∧ record.status = victim.status

omit inv in
theorem relieveVictims_commits (averageCompletion low : F) (now : Instant)
    {victims : List (CapacityVictim F)} (projected : F) (inv : state.Inv globalMode)
    (relievable : ∀ victim ∈ victims, Relievable state victim) :
    Returns (self.relieveVictims averageCompletion low now victims projected state)
      (Commits self state) := by
  induction victims generalizing projected state with
  | nil => exact Commits.refl
  | cons victim _ ih =>
    unfold relieveVictims
    split
    · exact Commits.refl
    · obtain ⟨record, found, status⟩ := relievable victim List.mem_cons_self
      obtain ⟨decision, decided, _⟩ := inv.decision found
      have later := fun other member => relievable other (List.mem_cons_of_mem _ member)
      simp only [decisionAt, decided]
      cases kind : victim.status with
      | acting =>
        cases paused : self.pauseIdle state victim.reference .capacityRepair now with
        | none => exact ih _ inv later
        | some next =>
          have pausing : Commits self state next :=
            .one (.pause victim.reference .capacityRepair now next
              ⟨record, found, status.trans kind⟩ paused)
          refine Ensures.mono (ih _ (pausing.inv inv) ?_) fun _ taken => pausing.trans taken
          intro _ member
          obtain ⟨_, stored, same⟩ := later _ member
          obtain ⟨after, kept, statusKept⟩ := self.find_pauseIdle paused stored
          exact ⟨after, kept, statusKept.trans same⟩
      | reasoning =>
        have marking : Commits self state (state.modifyDecision victim.reference fun decision =>
              { decision with pauseWhenIdle := true }) :=
          .noted (.marked _)
        exact Ensures.mono (ih _ (marking.inv inv) later) fun _ taken => marking.trans taken

theorem scan_relievable {averagePrompt : F} {target : String} {start : RepairScan F}
    (fresh : start.victims = []) :
    ∀ victim ∈ ((self.activeOn state target).foldl
      (self.scanProgram state averagePrompt now) start).victims, Relievable state victim := by
  apply (foldl_invariant (fun rest (scan : RepairScan F) =>
    (∀ view ∈ rest, view ∈ state.runtime.iterViews self.order) ∧
      ∀ victim ∈ scan.victims, Relievable _ victim) ?_ ?_).2
  · refine ⟨fun view active => (List.mem_filter.mp active).1, ?_⟩
    rw [fresh]
    exact fun victim impossible => absurd impossible List.not_mem_nil
  · rintro view _ _ ⟨scanned, relievable⟩
    refine ⟨fun _ member => scanned _ (List.mem_cons_of_mem _ member), ?_⟩
    obtain ⟨record, found, _, _, status, _⟩ :=
      mem_iterViews inv.stored (scanned _ List.mem_cons_self)
    intro victim collected
    unfold scanProgram at collected
    cases decided : state.decisions.lookup view.reference with
    | none =>
      simp only [decided] at collected
      exact relievable victim collected
    | some =>
      simp only [decided] at collected
      split at collected
      · rcases List.mem_append.mp collected with before | now
        · exact relievable victim before
        · rw [List.mem_singleton.mp now]
          exact ⟨record, found, status⟩
      · exact relievable victim collected

theorem repairTarget_commits (capacity : Nat) (now : Instant) (target : String) :
    Returns (self.repairTarget capacity now state target) (Commits self state) := by
  unfold repairTarget
  simp only
  split
  · exact Commits.refl
  · apply self.relieveVictims_commits _ _ _ _ inv
    intro victim ranked
    rw [mem_sortBy] at ranked
    exact self.scan_relievable inv rfl victim ranked

theorem repairCapacity_commits (now : Instant) :
    Returns (self.repairCapacity state now) (Commits self state) := by
  unfold repairCapacity
  split
  · exact Commits.refl
  · apply Ensures.foldlM (fun _ => Commits self state) .refl
    intro _ _ _ taken
    exact Ensures.mono (self.repairTarget_commits (taken.inv inv) _ now _)
      fun _ repaired => taken.trans repaired

end ProgramScheduler

end SmetricRouter.ProgramScheduling
