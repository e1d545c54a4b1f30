import SmetricRouter.ProgramScheduling.FailedAcquisitions
import SmetricRouter.ProgramScheduling.Identity
import SmetricRouter.ProgramScheduling.InFlight
import SmetricRouter.ProgramScheduling.Sections

/-! Durations that clients declare.

A request may declare how long it waits at most and how long its context is kept. The
numbers become durations when the identity is parsed and are added to clock readings
when a Program is queued or its request completes.
-/

namespace SmetricRouter.ProgramScheduling

open Sample

/-! ### Parsing -/

def FitsDuration (value : Json) : Prop :=
  ∀ number ∈ value.asNumber, 0 ≤ number.asF64 → nanosFromSecs number.asF64 < durationLimit

theorem readDuration_panics_iff (key : String) (value : Json) :
    readDuration key value = .error .panic ↔ ¬ FitsDuration value := by
  unfold readDuration
  rw [okOr_safe.bind_eq_error (by simp)]
  constructor
  · rintro ⟨number, found, panics⟩ fits
    have there : value.asNumber = some number := by
      cases held : value.asNumber with
      | none => rw [held] at found; cases found
      | some => rw [held] at found; cases found; rfl
    split at panics
    case isTrue => cases panics
    case isFalse nonneg =>
      have below := fits _ there (not_lt.mp nonneg)
      rw [durationFromSecs, if_pos ⟨not_lt.mp nonneg, below⟩] at panics
      cases panics
  · intro large
    unfold FitsDuration at large
    push Not at large
    obtain ⟨number, there, nonneg, above⟩ := large
    refine ⟨number, by rw [there]; rfl, ?_⟩
    rw [if_neg (not_lt.mpr nonneg), durationFromSecs, if_neg (fun fits => fits.2.not_ge above)]

def DurationFits (context : JsonMap) (keys : List String) : Prop :=
  ∀ present ∈ firstPresent context keys, FitsDuration present.2

variable (context : JsonMap)

theorem contextDuration_panics_iff (keys : List String) :
    contextDuration context keys = .error .panic ↔ ¬ DurationFits context keys := by
  unfold contextDuration contextValue DurationFits
  cases found : firstPresent context keys with
  | none => simp
  | some present =>
    obtain ⟨key, value⟩ := present
    have one : (∀ present ∈ some (key, value), FitsDuration present.2) ↔ FitsDuration value :=
      ⟨fun all => all (key, value) rfl, fun fits _ same => by cases same; exact fits⟩
    rw [one, ← readDuration_panics_iff key value]
    simp only [map_eq_pure_bind, bind_eq_error_iff]
    exact or_iff_left fun ⟨_, _, impossible⟩ => nomatch impossible

def Reads {α : Type} (run : Parse α) : Prop := ∃ value, run = .ok value

def deadlineKeys : List String := ["deadline", "deadline_seconds"]

def retentionKeys : List String := ["kv_retention_ttl", "kv_retention_ttl_seconds"]

def ReachesDeadline (context : JsonMap) : Prop :=
  Reads (contextString context ["request_id"]) ∧ Reads (contextI64 context ["priority"])

def ReachesRetention (context : JsonMap) : Prop :=
  ReachesDeadline context ∧ Reads (contextDuration context deadlineKeys) ∧
    Reads (contextUsize context ["expected_output_length", "expected_output_tokens"])

/-- Every duration that is reached fits. -/
structure HintsFit (context : JsonMap) : Prop where
  deadline : ReachesDeadline context → DurationFits context deadlineKeys
  retention : ReachesRetention context → DurationFits context retentionKeys

theorem requestHints_panics_iff : requestHints context = .error .panic ↔ ¬ HintsFit context := by
  have refused : ¬ (IdentityError.panic ≠ IdentityError.panic) := fun differs => differs rfl
  have deadline := contextDuration_panics_iff context deadlineKeys
  have retention := contextDuration_panics_iff context retentionKeys
  unfold requestHints
  rw [contextString_safe.bind_eq_error refused]
  constructor
  · rintro ⟨requestId, identified, rest⟩ fit
    rw [contextI64_safe.bind_eq_error refused] at rest
    obtain ⟨priority, prioritised, rest⟩ := rest
    have reaches : ReachesDeadline context := ⟨⟨requestId, identified⟩, ⟨priority, prioritised⟩⟩
    rcases bind_eq_error_iff.mp rest with panics | ⟨limit, limited, rest⟩
    · exact deadline.mp panics (fit.deadline reaches)
    · rw [contextUsize, contextU64_safe.bind_eq_error refused] at rest
      obtain ⟨expected, declared, rest⟩ := rest
      rcases bind_eq_error_iff.mp rest with panics | ⟨_, _, impossible⟩
      · exact retention.mp panics (fit.retention ⟨reaches, ⟨limit, limited⟩, ⟨expected, declared⟩⟩)
      · cases impossible
  · intro unfit
    have large : (ReachesDeadline context ∧ ¬ DurationFits context deadlineKeys) ∨
        (ReachesRetention context ∧ ¬ DurationFits context retentionKeys) := by
      by_contra neither
      obtain ⟨first, second⟩ := not_or.mp neither
      exact unfit ⟨fun reaches => by_contra fun unfit => first ⟨reaches, unfit⟩,
        fun reaches => by_contra fun unfit => second ⟨reaches, unfit⟩⟩
    rcases large with ⟨⟨⟨requestId, identified⟩, ⟨priority, prioritised⟩⟩, tooLong⟩ |
      ⟨⟨⟨⟨requestId, identified⟩, ⟨priority, prioritised⟩⟩, ⟨limit, limited⟩,
        ⟨expected, declared⟩⟩, tooLong⟩
    · refine ⟨requestId, identified, (contextI64_safe.bind_eq_error refused).mpr ?_⟩
      exact ⟨priority, prioritised, bind_eq_error_iff.mpr (.inl (deadline.mpr tooLong))⟩
    · refine ⟨requestId, identified, (contextI64_safe.bind_eq_error refused).mpr ?_⟩
      refine ⟨priority, prioritised, bind_eq_error_iff.mpr (.inr ⟨limit, limited, ?_⟩)⟩
      refine bind_eq_error_iff.mpr (.inr ⟨expected, declared, ?_⟩)
      exact bind_eq_error_iff.mpr (.inl (retention.mpr tooLong))

/-- The parser gets to the request hints of this context. -/
structure HintsRead (primitives : Primitives) (headers : Option HeaderMap) (request : Option Json)
    (modelPool : Option String) (context : JsonMap) : Prop where
  found : canonicalContext primitives (request.bind Json.asObject) = .ok (some context)
  drafted : ∃ draft, canonicalDraft context headers modelPool = .ok (some draft)

theorem canonicalIdentity_panics_iff {headers : Option HeaderMap} {modelPool : Option String} :
    canonicalIdentity context headers modelPool = .error .panic ↔
      (∃ draft, canonicalDraft context headers modelPool = .ok (some draft)) ∧
        ¬ HintsFit context := by
  have refused : ¬ (IdentityError.panic ≠ IdentityError.panic) := fun differs => differs rfl
  unfold canonicalIdentity
  rw [(canonicalDraft_safe context headers modelPool).bind_eq_error refused,
    ← requestHints_panics_iff]
  constructor
  · rintro ⟨draft, drafted, panics⟩
    cases draft with
    | none => cases panics
    | some draft =>
      rcases bind_eq_error_iff.mp panics with hints | ⟨_, _, impossible⟩
      · exact ⟨⟨draft, drafted⟩, hints⟩
      · cases impossible
  · rintro ⟨⟨draft, drafted⟩, panics⟩
    exact ⟨some _, drafted, bind_eq_error_iff.mpr (.inl panics)⟩

section Requests

variable (primitives : Primitives) (headers : Option HeaderMap) (request : Option Json)
  (modelPool : Option String) (enableKey : ProgramSchedulingEnableKey)

theorem sourceIdentity_panics_iff :
    sourceIdentity primitives headers request modelPool enableKey = .error .panic ↔
      ∃ context, HintsRead primitives headers request modelPool context ∧ ¬ HintsFit context := by
  have refused : ¬ (IdentityError.panic ≠ IdentityError.panic) := fun differs => differs rfl
  unfold sourceIdentity
  rw [(canonicalContext_safe _ primitives).bind_eq_error refused]
  constructor
  · rintro ⟨context, found, panics⟩
    cases context with
    | some context =>
      obtain ⟨drafted, unfit⟩ := (canonicalIdentity_panics_iff _).mp panics
      exact ⟨context, ⟨found, drafted⟩, unfit⟩
    | none =>
      cases enableKey with
      | agenticContext => cases panics
      | auto =>
        obtain ⟨hinted, _, panics⟩ := ((agentHintIdentity_safe _ _).bind_eq_error refused).mp panics
        cases hinted with
        | some => cases panics
        | none => exact (frameworkIdentity_safe.ne_error refused panics).elim
  · rintro ⟨_, ⟨found, drafted⟩, unfit⟩
    exact ⟨some _, found, (canonicalIdentity_panics_iff _).mpr ⟨drafted, unfit⟩⟩

theorem fromRequest_panics_iff :
    fromRequestWithEnableKey primitives headers request modelPool enableKey = .error .panic ↔
      ∃ context, HintsRead primitives headers request modelPool context ∧ ¬ HintsFit context := by
  have refused : ¬ (IdentityError.panic ≠ IdentityError.panic) := fun differs => differs rfl
  unfold fromRequestWithEnableKey
  rw [bind_eq_error_iff, sourceIdentity_panics_iff]
  refine or_iff_left ?_
  rintro ⟨named, _, panics⟩
  cases named with
  | none => cases panics
  | some =>
    obtain ⟨_, _, panics⟩ := ((withPlacementHashKey_safe _ _).bind_eq_error refused).mp panics
    obtain ⟨_, _, impossible⟩ := (checkLengths_safe.bind_eq_error refused).mp panics
    cases impossible

end Requests

/-! ### Runs -/

section Provenance

variable {F : Type} {globalMode : Bool} {trace : List (Event F × Output F)} {core next : Core}
  {event : Event F} {output : Output F}

def Asked (trace : List (Event F × Output F)) (hints : ProgramRequestHints) : Prop :=
  ∃ arrival activatedAt output, (.arrive arrival activatedAt, output) ∈ trace ∧
    arrival.identity.requestHints = hints

theorem Asked.later {hints : ProgramRequestHints} (asked : Asked trace hints)
    (entry : Event F × Output F) : Asked (trace ++ [entry]) hints := by
  obtain ⟨arrival, activatedAt, output, member, same⟩ := asked
  exact ⟨arrival, activatedAt, output, List.mem_append_left _ member, same⟩

/-- What waits and what was handed out carries the hints of a request that arrived. -/
structure HintsAsked (trace : List (Event F × Output F)) (core : Core) : Prop where
  waiting : ∀ program, ∀ request ∈ core.runtime.requestPool.queue program, Asked trace request.hints
  issued : ∀ dispatch ∈ outstanding trace, Asked trace dispatch.requestHints

variable {dispatch : ProgramDispatch}

theorem mem_track {flights : Multiset ProgramDispatch} {entry : Event F × Output F}
    (member : dispatch ∈ track flights entry) :
    Event.issues entry = some dispatch ∨ dispatch ∈ flights := by
  unfold track at member
  split at member
  case h_1 handed _ issues =>
    rcases Multiset.mem_cons.mp member with rfl | earlier
    · exact .inl issues
    · exact .inr earlier
  case h_2 => exact .inr (Multiset.mem_of_mem_erase member)
  case h_3 => exact .inr member

theorem Transition.issued_front (transition : Transition globalMode core event output next)
    (inv : core.Inv globalMode) (issues : Event.issues (event, output) = some dispatch) :
    ∃ program, ∃ request ∈ core.runtime.requestPool.queue program,
      dispatch.requestHints = request.hints := by
  cases transition with
  | claimed handle now _ placed =>
    obtain ⟨_, found, placement⟩ := Option.bind_eq_some_iff.mp placed
    have active := inv.placement_active placed _ found
    rcases ProgramRuntime.admitFront_queue now found active placement with
      ⟨nothing, _⟩ | ⟨_, request, _, handed, _, hints, front, _⟩
    · exact absurd (nothing.symm.trans issues) nofun
    · cases handed.symm.trans issues
      exact ⟨handle.program, request, front ▸ List.mem_cons_self, hints⟩
  | _ => cases issues

theorem HintsAsked.step (asked : HintsAsked trace core) (inv : core.Inv globalMode)
    (transition : Transition globalMode core event output next) :
    HintsAsked (trace ++ [(event, output)]) next where
  waiting := by
    intro program request member
    by_cases arrives : event.arrives
    · cases event with
      | arrive arrival activatedAt =>
        rw [transition.queue_of_arrive inv program, Core.retained,
          ProgramRuntime.queue_retainRequest] at member
        split at member
        · rcases List.mem_append.mp member with earlier | last
          · exact (asked.waiting _ _ earlier).later _
          · cases List.mem_singleton.mp last
            exact ⟨arrival, activatedAt, output, List.mem_append_right _ List.mem_cons_self, rfl⟩
        · exact (asked.waiting _ _ member).later _
      | _ => exact arrives.elim
    · have earlier := (transition.queue_sublist inv arrives _).subset member
      exact (asked.waiting _ _ earlier).later _
  issued := by
    intro dispatch member
    rw [outstanding_append] at member
    rcases mem_track member with issues | earlier
    · obtain ⟨_, _, front, hints⟩ := transition.issued_front inv issues
      rw [hints]
      exact (asked.waiting _ _ front).later _
    · exact (asked.issued _ earlier).later _

end Provenance

section Deadlines

variable {F T : Type} [F64 F] {self : ProgramScheduler F}

namespace ProgramScheduler

variable (state : ProgramSchedulerState F T)

theorem setForceResumeDeadline_within {target : String} {candidate : ProgramRef} (now : Instant) :
    Ensures (fun _ => True) (self.setForceResumeDeadline state target candidate now) fun next =>
      ∀ decision deadline, next.decisions.lookup candidate = some decision →
        decision.forceResumeDeadline = some deadline →
          deadline ≤ now + self.config.queueTimeout := by
  have frozen timeout (change : ProgramDecisionState F → ProgramDecisionState F)
      (capped : timeout ≤ self.config.queueTimeout)
      (sets : ∀ decision, (change decision).forceResumeDeadline = some (now + timeout)) :
      ∀ decision deadline,
        (state.modifyDecision candidate change).decisions.lookup candidate = some decision →
          decision.forceResumeDeadline = some deadline →
            deadline ≤ now + self.config.queueTimeout := by
    intro _ _ decided due
    simp only [ProgramSchedulerState.modifyDecision, Table.lookup_modify, if_true] at decided
    obtain ⟨earlier, _, rfl⟩ := Option.map_eq_some_iff.mp decided
    cases (sets earlier).symm.trans due
    exact Nat.add_le_add_left capped now
  unfold setForceResumeDeadline
  split
  · exact Ensures.bind (Ensures.unclaimed _) fun _ _ =>
      Ensures.pure (frozen _ _ (Nat.min_le_right _ _) fun _ => rfl)
  · exact Ensures.bind (Ensures.unclaimed _) fun _ _ =>
      Ensures.pure (frozen _ _ (Nat.min_le_right _ _) fun _ => rfl)

end ProgramScheduler

end Deadlines

/-- A request does not ask for a retention that is beyond the clock when it starts by `clock`. -/
def Event.RetainsWithin {F : Type} (clock : Instant) : Event F → Prop
  | .arrive arrival _ =>
    ∀ ttl ∈ arrival.identity.requestHints.kvRetentionTtl, clock + ttl < instantLimit
  | _ => True

instance {F : Type} (clock : Instant) : (event : Event F) → Decidable (event.RetainsWithin clock)
  | .arrive arrival _ => inferInstanceAs (Decidable
      (∀ ttl ∈ arrival.identity.requestHints.kvRetentionTtl, clock + ttl < instantLimit))
  | .sync _ | .claim _ _ | .expire _ | .cancel _ _ _ _ | .complete _ _ _ _ _ _ | .tick _
  | .beginObservation _ | .applyObservations _ _ | .evict _ => .isTrue trivial

/-- Up to `clock`, every sum of a clock reading and a declared duration is on the clock. -/
structure ClockLaw {F T : Type} [F64 F] (self : ProgramScheduler F)
    (trace : List (Event F × Output F)) (state : ProgramSchedulerState F T) (clock : Instant) :
    Prop where
  /-- The deadline that the completion of an outstanding dispatch takes from its request. -/
  retention : ∀ dispatch ∈ outstanding trace, dispatch.requestHints.kvRetentionTtl.isSome →
    ∀ before decision success usage decodeSeconds now deadline, now ≤ clock →
      (ProgramScheduler.recordCompletion dispatch usage
        (self.completionFacts state dispatch before success usage decodeSeconds)
        (some .startActingTtl) now decision).ttlDeadline = some deadline → deadline < instantLimit
  /-- The deadline that an arrival freezes in whatever state it has reached. -/
  queueing : ∀ (queued next : ProgramSchedulerState F T) target candidate now decision deadline,
    now ≤ clock → self.setForceResumeDeadline queued target candidate now = .ok next →
      next.decisions.lookup candidate = some decision →
        decision.forceResumeDeadline = some deadline → deadline < instantLimit

section Runs

variable {F T : Type} [F64 F] [AffinityTree T] {setup : Setup F}
  {trace : List (Event F × Output F)} {state : ProgramSchedulerState F T} {clock : Instant}

theorem Run.hintsAsked (run : Run setup trace state) : HintsAsked trace state.core := by
  refine run.invariant HintsAsked ⟨fun _ _ member => absurd member List.not_mem_nil,
    fun _ member => absurd member (Multiset.notMem_zero _)⟩ ?_
  intro _ _ _ _ _ inv transition asked
  exact asked.step inv transition

theorem Run.clockLaw (run : Run setup trace state)
    (retained : ∀ entry ∈ trace, entry.1.RetainsWithin clock)
    (timeout : clock + setup.config.queueTimeout < instantLimit) {order : IterationOrder} :
    ClockLaw (setup.scheduler order) trace state clock where
  retention := by
    intro dispatch flying declares _ _ _ _ _ now _ early
      computed
    obtain ⟨ttl, declared⟩ := Option.isSome_iff_exists.mp declares
    simp only [ProgramScheduler.recordCompletion, ProgramScheduler.completionFacts, declared,
      if_true, Option.getD_some] at computed
    cases computed
    obtain ⟨_, _, _, member, same⟩ := run.hintsAsked.issued dispatch flying
    have short : clock + ttl < instantLimit := retained _ member ttl (same ▸ declared)
    exact (Nat.add_le_add_right early ttl).trans_lt short
  queueing := by
    intro _ _ _ _ now _ _ early frozen decided due
    have within := (ProgramScheduler.setForceResumeDeadline_within _
      now).ok_of frozen _ _ decided due
    exact (within.trans (Nat.add_le_add_right early _)).trans_lt timeout

/-- Parsing does not panic exactly when every duration it reaches fits, and no section of a
run adds a declared duration beyond the clock while declared retentions end on it. -/
theorem declaredDurations_safe (run : Run setup trace state)
    (retained : ∀ entry ∈ trace, entry.1.RetainsWithin clock)
    (timeout : clock + setup.config.queueTimeout < instantLimit) :
    (∀ primitives headers request modelPool enableKey,
      fromRequestWithEnableKey primitives headers request modelPool enableKey ≠ .error .panic ↔
        ∀ context, HintsRead primitives headers request modelPool context → HintsFit context) ∧
      ∀ order, ClockLaw (setup.scheduler order) trace state clock := by
  refine ⟨?_, fun _ => run.clockLaw retained timeout⟩
  intro _ _ _ _ _
  rw [ne_eq, fromRequest_panics_iff]
  constructor
  · intro none context read
    by_contra unfit
    exact none ⟨context, read, unfit⟩
  · rintro fit ⟨_, read, unfit⟩
    exact unfit (fit _ read)

end Runs

namespace Sample

def retentionBody (seconds : JsonNumber) : Json :=
  .object [("vllm_xargs", .object [("agentic_context", .object
    [("program_id", .string "program"), ("kv_retention_ttl", .number seconds)])])]

def readRetention (seconds : JsonNumber) : Parse (Option Duration) :=
  (fromRequestWithEnableKey primitives none (some (retentionBody seconds)) (some "pool") .auto).map
    fun identity => identity.bind (·.requestHints.kvRetentionTtl)

def retains (ttl : Duration) : List (Event Exact) :=
  [.sync (snapshot 0 "pool" ["target"]),
    .arrive
      { arrival "pool" "program" 1 with
        identity :=
          { (arrival "pool" "program" 1).identity with
            requestHints := { kvRetentionTtl := some ttl } } } 1,
    .claim ⟨⟨"pool", "program", 0⟩, 1, 0⟩ 2]

def retaining (ttl : Duration) : ProgramDispatch :=
  ⟨⟨"pool", "program", 0⟩, "target", 1, 1, 2, 1, true, none, { kvRetentionTtl := some ttl }⟩

end Sample

/-- A retention of seven nanoseconds is outstanding. -/
theorem declaredDurations_safe_short :
    ∃ trace state, Run (Sample.router false false) trace state ∧
      Sample.retaining 7 ∈ outstanding trace ∧
      ClockLaw ((Sample.router false false).scheduler .filled) trace (state : Sample.State) 100 := by
  obtain ⟨trace, state, run, within, waits⟩ := run_of_play (router false false) (retains 7)
    (fun trace _ => (∀ entry ∈ trace, entry.1.RetainsWithin 100) ∧
      retaining 7 ∈ outstanding trace) (by decide +kernel)
  exact ⟨trace, state, run, waits,
    (declaredDurations_safe run within (by decide +kernel)).2 .filled⟩

/-- Parsing panics on `1e20` and on the largest `u64`. Ten to the nineteenth seconds are
read as a duration, and the completion adds them to the clock beyond its end. -/
theorem declaredDurations_fail :
    Sample.readRetention (.float (10 ^ 20)) = .error .panic ∧
      Sample.readRetention (.posInt u64Max) = .error .panic ∧
      Sample.readRetention (.posInt (10 ^ 19)) = .ok (some (10 ^ 28)) ∧
      ∃ trace state output next, Run (Sample.router false false) trace state ∧
        ((Sample.router false false).scheduler .filled).step state
          (.complete (Sample.retaining (10 ^ 28)) true false {} none 3) =
            .ok (output, (next : Sample.State)) ∧
        (next.decisions.lookup ⟨"pool", "program", 0⟩).bind (·.ttlDeadline) =
          some (3 + 10 ^ 28) ∧ instantLimit ≤ 3 + 10 ^ 28 := by
  refine ⟨by decide +kernel, by decide +kernel, by decide +kernel, ?_⟩
  obtain ⟨trace, state, output, next, run, stepped, armed⟩ :=
    step_of_play (router false false) (retains (10 ^ 28))
      (.complete (retaining (10 ^ 28)) true false {} none 3)
      (fun _ next => (next.decisions.lookup ⟨"pool", "program", 0⟩).bind (·.ttlDeadline) =
        some (3 + 10 ^ 28)) (by decide +kernel)
  exact ⟨trace, state, output, next, run, stepped, armed, by decide +kernel⟩

end SmetricRouter.ProgramScheduling
