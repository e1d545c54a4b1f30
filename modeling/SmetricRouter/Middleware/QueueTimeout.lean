import SmetricRouter.Middleware.ConcurrencyLimit

/-! When a queued request is refused.

The queue timeout reaches a waiting task as the deadline around its whole wait, which
is never early. The wait inside it ends on its own deadline, the time the refill rate
takes to bring one token.
-/

namespace SmetricRouter.Middleware

open Limiter

variable {config : LimiterConfig} {state next : Limiter} {event : LimiterEvent} {request : Nat}

def Request.Due (timeout : Duration) (now : Instant) : Request → Prop
  | .denied queuedAt | .answered (.requestTimeout queuedAt) => queuedAt + timeout ≤ now
  | _ => True

instance (timeout : Duration) (now : Instant) :
    (phase : Request) → Decidable (phase.Due timeout now)
  | .denied _ | .answered (.requestTimeout _) => inferInstanceAs (Decidable (_ ≤ _))
  | .arriving | .queued _ | .granted | .running | .returning | .answered .response
  | .answered .tooManyRequests | .disconnected => inferInstanceAs (Decidable True)

variable {now : Instant} {phase : Request}

theorem Request.Due.later {timeout : Duration} {later : Instant}
    (due : phase.Due timeout now) (order : now ≤ later) : phase.Due timeout later := by
  unfold Request.Due at *
  split at due
  · exact due.trans order
  · exact due.trans order
  · trivial

def Request.QueuedAt (queuedAt : Instant) : Request → Prop
  | .arriving => False
  | .queued since => since = queuedAt
  | _ => True

/-- An entry is about a request that was queued when the entry says. -/
structure Listed (requests : Table Nat Request) (now : Instant) (queued : QueuedRequest) : Prop where
  past : queued.queuedAt ≤ now
  agrees : ∃ phase, requests.lookup queued.request = some phase ∧ phase.QueuedAt queued.queuedAt

/-- The queue timeout of the task does not end before the time the request is due. -/
def Waiting.Patient (due now : Instant) : Waiting → Prop
  | .spawned remaining => due ≤ now + remaining
  | .acquiring deadline | .measuring deadline | .retrying deadline _ | .pausing deadline _ _ =>
    due ≤ deadline

/-- The wait time that the task computed has run out. -/
def Waiting.runOut (now : Instant) : Waiting → Bool
  | .retrying _ waitUntil | .pausing _ waitUntil _ => waitUntil ≤ now
  | _ => false

variable {waiting : Waiting}

theorem Waiting.Patient.due_le {due : Instant} (patient : waiting.Patient due now)
    (late : expired now waiting) (inner : waiting.runOut now → due ≤ now) : due ≤ now := by
  cases waiting with
  | spawned => cases late
  | acquiring | measuring => exact le_trans patient (of_decide_eq_true late)
  | retrying =>
    simp only [expired, Bool.or_eq_true, decide_eq_true_eq] at late
    rcases late with outer | elapsed
    · exact le_trans patient outer
    · exact inner (decide_eq_true elapsed)
  | pausing =>
    simp only [expired, Bool.and_eq_true, Bool.or_eq_true, decide_eq_true_eq] at late
    rcases late.1 with outer | elapsed
    · exact le_trans patient outer
    · exact inner (decide_eq_true elapsed)

structure Timely (config : LimiterConfig) (state : Limiter) : Prop where
  due : ∀ request phase, state.requests.lookup request = some phase →
    phase.Due config.queueTimeout state.now
  queue : ∀ queued ∈ state.queue, Listed state.requests state.now queued
  processing : ∀ queued remaining, state.processing = some (queued, remaining) →
    Listed state.requests state.now queued ∧ queued.queuedAt + config.queueTimeout ≤ state.now + remaining
  waiters : ∀ request waiter, state.waiters.lookup request = some waiter →
    Listed state.requests state.now waiter.queued ∧
      waiter.waiting.Patient (waiter.queued.queuedAt + config.queueTimeout) state.now

def Limiter.queuedSince (state : Limiter) (request : Nat) : Option Instant :=
  match state.requests.lookup request with
  | some (.queued queuedAt) => some queuedAt
  | _ => none

/-- A wait time that has run out on a queued request did not end before the queue timeout. -/
def WaitsOut (config : LimiterConfig) (state : Limiter) : LimiterEvent → Prop
  | .expire request => ∀ waiter ∈ state.waiters.lookup request, waiter.waiting.runOut state.now →
      ∀ queuedAt ∈ state.queuedSince waiter.queued.request,
        queuedAt + config.queueTimeout ≤ state.now
  | _ => True

theorem queuedSince_eq_some {queuedAt : Instant} :
    state.queuedSince request = some queuedAt ↔
      state.requests.lookup request = some (.queued queuedAt) := by
  unfold queuedSince
  split
  · simp_all
  · rename_i other
    exact ⟨nofun, fun found => absurd found (other _)⟩

theorem Listed.since_eq {queued : QueuedRequest} {since : Instant}
    (listed : Listed state.requests now queued)
    (found : state.queuedSince queued.request = some since) : queued.queuedAt = since := by
  obtain ⟨_, known, agrees⟩ := listed.agrees
  cases known.symm.trans (queuedSince_eq_some.mp found)
  exact agrees.symm

theorem timely_new : Timely config (Limiter.new config) where
  due := nofun
  queue := nofun
  processing := nofun
  waiters := nofun

namespace Timely

variable (timely : Timely config state)

include timely

theorem enter (due : phase.Due config.queueTimeout state.now)
    (follows : ∀ old queuedAt, state.requests.lookup request = some old →
      old.QueuedAt queuedAt → phase.QueuedAt queuedAt) :
    Timely config (state.enter request phase) := by
  have listed : ∀ {queued}, Listed state.requests state.now queued →
      Listed (state.enter request phase).requests state.now queued := by
    intro queued listed
    obtain ⟨old, found, agrees⟩ := listed.agrees
    refine ⟨listed.past, ?_⟩
    unfold Limiter.enter
    simp only [Table.lookup_insert_eq]
    by_cases same : queued.request = request
    · rw [if_pos same]
      exact ⟨phase, rfl, follows old _ (same ▸ found) agrees⟩
    · rw [if_neg same]
      exact ⟨old, found, agrees⟩
  refine ⟨?_, ?_, ?_, ?_⟩
  · intro other entered found
    unfold Limiter.enter at found
    simp only [Table.lookup_insert_eq] at found
    split at found
    · cases found
      exact due
    · exact timely.due _ entered found
  · intro queued member
    exact listed (timely.queue _ member)
  · intro _ _ at'
    obtain ⟨known, long⟩ := timely.processing _ _ at'
    exact ⟨listed known, long⟩
  · intro _ _ found
    obtain ⟨known, patient⟩ := timely.waiters _ _ found
    exact ⟨listed known, patient⟩

theorem grant : Timely config (state.grant request) := by
  unfold Limiter.grant
  split
  · exact timely.enter trivial fun _ _ _ _ => trivial
  · exact timely

variable {queued : QueuedRequest}

theorem deny (due : ∀ queuedAt ∈ state.queuedSince request,
      queuedAt + config.queueTimeout ≤ state.now) : Timely config (state.deny request) := by
  unfold Limiter.deny
  split
  case h_1 since found =>
    refine timely.enter ?_ fun _ _ _ _ => trivial
    exact due since (queuedSince_eq_some.mpr found)
  case h_2 => exact timely

theorem withBucket (bucket : TokenBucketInner) : Timely config { state with bucket } :=
  ⟨timely.due, timely.queue, timely.processing, timely.waiters⟩

theorem idle : Timely config { state with processing := none } :=
  ⟨timely.due, timely.queue, nofun, timely.waiters⟩

variable {rest : List QueuedRequest}

theorem dequeued (split : state.queue = queued :: rest) :
    Timely config { state with queue := rest } :=
  ⟨timely.due, fun other member => timely.queue other (split ▸ List.mem_cons_of_mem queued member),
    timely.processing, timely.waiters⟩

theorem retire : Timely config (state.retire request) := by
  refine ⟨timely.due, timely.queue, timely.processing, ?_⟩
  intro _ _ found
  unfold Limiter.retire at found
  simp only [Table.lookup_erase_eq] at found
  split at found
  · cases found
  · exact timely.waiters _ _ found

variable {waiter : Waiter}

section

variable (listed : Listed state.requests state.now waiter.queued)
  (patient : waiting.Patient (waiter.queued.queuedAt + config.queueTimeout) state.now)

include listed patient

theorem wait : Timely config (state.wait waiter waiting) := by
  refine ⟨timely.due, timely.queue, timely.processing, ?_⟩
  intro _ found lookup
  unfold Limiter.wait at lookup
  simp only [Table.lookup_insert_eq] at lookup
  split at lookup
  · cases lookup
    exact ⟨listed, patient⟩
  · exact timely.waiters _ found lookup

theorem acquire : Timely config (state.acquire config waiter waiting) := by
  apply attempt_rule
  · intro bucket
    exact (timely.withBucket bucket).retire.grant
  · intro bucket
    exact (timely.withBucket bucket).wait listed patient

end

theorem poll (listed : Listed state.requests state.now waiter.queued)
    (patient : waiter.waiting.Patient (waiter.queued.queuedAt + config.queueTimeout) state.now)
    (polled : Polled config state waiter next) : Timely config next := by
  cases polled with
  | starts _ phase | measures _ phase | wakes _ _ _ phase =>
    rw [phase] at patient
    exact timely.wait listed patient
  | acquires _ phase | retries _ _ phase =>
    rw [phase] at patient
    exact timely.acquire listed patient

theorem enqueue (arriving : state.requests.lookup request = some .arriving) :
    Timely config (state.enqueue config request) := by
  have follows : ∀ phase old queuedAt, state.requests.lookup request = some old →
      old.QueuedAt queuedAt → Request.QueuedAt queuedAt phase := by
    intro _ _ _ found agrees
    rw [arriving] at found
    cases found
    exact agrees.elim
  unfold Limiter.enqueue
  split
  · have entered : Timely config (state.enter request (.queued state.now)) :=
      timely.enter trivial (follows _)
    refine ⟨entered.due, ?_, entered.processing, entered.waiters⟩
    intro queued member
    rcases List.mem_append.mp member with before | new
    · exact entered.queue queued before
    · rw [List.mem_singleton.mp new]
      exact ⟨le_refl _, .queued state.now, AList.lookup_insert _, rfl⟩
  · exact timely.enter trivial (follows _)

omit timely in
theorem due_le_remaining {queuedAt now : Nat} (timeout : Nat) (past : queuedAt ≤ now) :
    queuedAt + timeout ≤ now + (timeout - (now - queuedAt)) := by
  omega

theorem receive (split : state.queue = queued :: rest) :
    Timely config (state.receive config queued rest) := by
  have listed := timely.queue _ (split ▸ List.mem_cons_self)
  have past := listed.past
  unfold Limiter.receive
  simp only
  split
  case isTrue late =>
    have denied : Timely config (state.deny queued.request) := by
      refine timely.deny fun _ found => ?_
      rw [← listed.since_eq found]
      exact Nat.add_le_of_le_sub' past late
    have queue : (state.deny queued.request).queue = queued :: rest := by
      rw [← split]
      unfold Limiter.deny
      split <;> rfl
    exact denied.dequeued queue
  case isFalse early =>
    refine ⟨timely.due, (timely.dequeued split).queue, ?_, timely.waiters⟩
    rintro _ _ ⟨⟩
    exact ⟨listed, due_le_remaining config.queueTimeout past⟩

theorem process {remaining : Duration} (found : state.processing = some (queued, remaining)) :
    Timely config (state.process config queued remaining) := by
  obtain ⟨listed, long⟩ := timely.processing _ _ found
  apply attempt_rule
  · intro bucket
    exact (timely.idle.withBucket bucket).grant
  · intro bucket
    have waits : Timely config (Limiter.wait { state with processing := none, bucket }
        ⟨queued, .spawned remaining⟩ (.spawned remaining)) :=
      (timely.idle.withBucket bucket).wait listed long
    exact waits

theorem returnTokens : Timely config (state.returnTokens config request) := by
  have entered : Timely config (state.enter request (.answered .response)) :=
    timely.enter trivial fun _ _ _ _ => trivial
  refine ⟨entered.due, entered.queue, entered.processing, ?_⟩
  intro _ _ found
  unfold Limiter.returnTokens at found
  simp only [Table.lookup_mapValues] at found
  obtain ⟨waiter, lookup, rfl⟩ := Option.map_eq_some_iff.mp found
  obtain ⟨listed, patient⟩ := entered.waiters _ _ lookup
  refine ⟨listed, ?_⟩
  -- A notification moves only the time at which the pause ends.
  cases phase : waiter.waiting with
  | pausing | spawned | acquiring | measuring | retrying => rw [phase] at patient; exact patient

theorem advance (elapsed : Duration) : Timely config { state with now := state.now + elapsed } := by
  have later : state.now ≤ state.now + elapsed := Nat.le_add_right _ _
  have listed : ∀ {queued}, Listed state.requests state.now queued →
      Listed state.requests (state.now + elapsed) queued :=
    fun known => ⟨known.past.trans later, known.agrees⟩
  refine ⟨?_, ?_, ?_, ?_⟩
  · intro request phase found
    exact (timely.due _ _ found).later later
  · intro queued member
    exact listed (timely.queue _ member)
  · intro _ _ found
    obtain ⟨known, long⟩ := timely.processing _ _ found
    exact ⟨listed known, long.trans (Nat.add_le_add_right later _)⟩
  · intro _ waiter found
    obtain ⟨known, patient⟩ := timely.waiters _ _ found
    refine ⟨listed known, ?_⟩
    cases phase : waiter.waiting with
    | spawned =>
      rw [phase] at patient
      exact patient.trans (Nat.add_le_add_right later _)
    | acquiring | measuring | retrying | pausing =>
      rw [phase] at patient
      exact patient

theorem step (steps : step config state event = some next)
    (waitsOut : WaitsOut config state event) : Timely config next := by
  cases step_stepped steps with
  | arrive _ missing =>
    refine timely.enter trivial fun _ _ found => ?_
    cases missing.symm.trans found
  | tryAcquire _ arriving =>
    apply attempt_rule
    · intro bucket
      exact (timely.withBucket bucket).enter trivial fun _ _ _ _ => trivial
    · intro bucket
      exact (timely.withBucket bucket).enqueue arriving
  | refuse request _ denied =>
    have due := timely.due _ _ denied
    exact timely.enter due fun _ _ _ _ => trivial
  | proceed | finish | disconnect => exact timely.enter trivial fun _ _ _ _ => trivial
  | returnTokens => exact timely.returnTokens
  | receive _ _ _ waiting => exact timely.receive waiting
  | process _ _ found => exact timely.process found
  | poll _ _ _ found polled =>
    obtain ⟨listed, patient⟩ := timely.waiters _ _ found
    exact timely.poll listed patient polled
  | expire _ _ found late =>
    obtain ⟨listed, patient⟩ := timely.waiters _ _ found
    refine timely.retire.deny fun _ since => ?_
    cases listed.since_eq since
    exact patient.due_le late fun out => waitsOut _ found out _ since
  | advance _ => exact timely.advance _

end Timely

def Honoured (config : LimiterConfig) (state : Limiter) : Prop :=
  ∀ phase ∈ state.requests.values, phase.Due config.queueTimeout state.now

theorem not_honoured (steps : step config state event = some next)
    (early : ¬ WaitsOut config state event) : ¬ Honoured config next := by
  cases step_stepped steps with
  | expire request waiter found =>
    intro honoured
    refine early fun other same _ queuedAt since => ?_
    cases found.symm.trans same
    have queued : (state.retire request).requests.lookup waiter.queued.request =
      some (.queued queuedAt) := queuedSince_eq_some.mp since
    unfold Limiter.deny at honoured
    rw [queued] at honoured
    exact honoured (.denied queuedAt) ((Table.mem_values_iff _ _).mpr ⟨_, AList.lookup_insert _⟩)
  | _ => exact (early trivial).elim

instance : Decidable (WaitsOut config state event) :=
  match event with
  | .expire _ => inferInstanceAs (Decidable (∀ waiter ∈ state.waiters.lookup _, _ → ∀ _ ∈ _, _))
  | .arrive _ | .tryAcquire _ | .proceed _ | .finish _ | .returnTokens _ | .disconnect _
  | .receive | .process | .poll _ | .advance _ => inferInstanceAs (Decidable True)

instance : Decidable (Honoured config state) :=
  inferInstanceAs (Decidable (∀ phase ∈ state.requests.values, _))

end SmetricRouter.Middleware
