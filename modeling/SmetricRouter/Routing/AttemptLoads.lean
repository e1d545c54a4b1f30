import SmetricRouter.Routing.Attempts

/-! The load of the workers over whole runs of attempts.

An attempt owes its worker the load it put on. What a step takes off the load is what
the attempt owes less afterwards, so an attempt is even at its end if it was told to
take back what it put on, and the load of a worker is what its attempts owe.
-/

namespace SmetricRouter.Routing

open Table

variable {dpSize : Nat} {attempt later : Attempt} {progress : Progress} {decrements : Bool}

namespace Attempt

def due (attempt : Attempt) : Bool :=
  match attempt.caller with
  | .sending => attempt.dispatch.loadIncremented
  | .returned status => isRetryableStatus status && attempt.dispatch.loadIncremented
  | .finished => false

/-- The loads the attempt has still to take back: its own while it is sent, then that of
the caller and that of the holder. -/
def owes (attempt : Attempt) : Nat :=
  attempt.due.toNat + (attempt.holder.any Holder.unreleased).toNat

def opens (attempt : Attempt) : Nat := attempt.due.toNat + attempt.holder.isSome.toNat

theorem opens_eq (attempt : Attempt) : attempt.opens = attempt.owes + attempt.marked.toNat := by
  unfold opens owes marked
  rw [Nat.add_assoc]
  congr 1
  rcases attempt.holder with _ | ⟨_ | _⟩ | _ | _ <;> rfl

/-- A step after the answer: it pays what it takes off the load. -/
structure Proceeds (attempt later : Attempt) (decrements : Bool) : Prop where
  dispatch : later.dispatch = attempt.dispatch
  reaction : later.reaction = attempt.reaction
  caller : later.caller = attempt.caller ∨ later.caller = .finished
  answered : attempt.holder ≠ none ∨ ∃ status, attempt.caller = .returned status
  pays : later.owes + decrements.toNat = attempt.owes
  sheds : later.opens ≤ attempt.opens

variable {registered : Bool}

theorem proceeds_of_holder {holder : Holder} {left : Option Holder}
    (held : attempt.holder = some holder)
    (pays : (left.any Holder.unreleased).toNat + decrements.toNat = holder.unreleased.toNat) :
    Proceeds attempt { attempt with holder := left } decrements := by
  refine ⟨rfl, rfl, .inl rfl, .inl ?_, ?_, ?_⟩
  · rw [held]
    exact Option.some_ne_none _
  · unfold owes
    rw [held, Option.any_some, ← pays]
    exact Nat.add_assoc _ _ _
  · unfold opens
    rw [held]
    exact Nat.add_le_add_left (Bool.toNat_le _) _

theorem advance_cases (steps : attempt.advance dpSize true progress = some (later, decrements)) :
    (∃ reaction sent, progress = .answer reaction ∧ attempt.caller = .sending ∧
      sendTypedRequest dpSize true attempt.dispatch reaction = some sent ∧
      later = { attempt with
        caller := .returned sent.status, holder := sent.holder, reaction := some reaction } ∧
      decrements = sent.decremented) ∨
    (progress = .abandon ∧ attempt.caller = .sending ∧
      later = { attempt with caller := .finished } ∧ decrements = false) ∨
    Proceeds attempt later decrements := by
  revert steps
  fun_cases advance dpSize true attempt progress with
  | case1 reaction sending =>
    intro steps
    obtain ⟨sent, sends, same⟩ := Option.map_eq_some_iff.mp steps
    cases same
    exact .inl ⟨reaction, sent, rfl, sending, sends, rfl, rfl⟩
  | case3 sending =>
    rintro ⟨⟩
    exact .inr (.inl ⟨rfl, sending, rfl, rfl⟩)
  | case5 status returned =>
    rintro ⟨⟩
    refine .inr (.inr ⟨rfl, rfl, .inr rfl, .inr ⟨status, returned⟩, ?_, ?_⟩)
    · unfold owes due
      rw [returned]
      simp only [Bool.toNat_false]
      omega
    · exact Nat.add_le_add_right (Nat.zero_le _) _
  | case7 bytes decremented held marked =>
    subst marked
    rintro ⟨⟩
    refine .inr (.inr (proceeds_of_holder held ?_))
    cases decremented <;> cases showsDone bytes <;> rfl
  | case8 _ _ decremented held | case10 decremented held =>
    rintro ⟨⟩
    refine .inr (.inr (proceeds_of_holder held ?_))
    cases decremented <;> rfl
  | case12 held | case14 held =>
    rintro ⟨⟩
    exact .inr (.inr (proceeds_of_holder held rfl))
  | _ => rintro ⟨⟩

theorem advance_over (done : attempt.over) : attempt.advance dpSize registered progress = none := by
  simp only [Attempt.over, Bool.and_eq_true, decide_eq_true_eq, Option.isNone_iff_eq_none] at done
  obtain ⟨finished, free⟩ := done
  cases progress <;> simp [advance, finished, free]

theorem owes_of_over (done : attempt.over) : attempt.owes = 0 := by
  simp only [Attempt.over, Bool.and_eq_true, decide_eq_true_eq, Option.isNone_iff_eq_none] at done
  obtain ⟨finished, free⟩ := done
  unfold owes due
  rw [finished, free]
  rfl

/-- How often an attempt has taken its load back, by what it has met. -/
def Tracks (dpSize : Nat) (attempt : Attempt) (count : Nat) : Prop :=
  match attempt.reaction with
  | none => count = 0 ∧ attempt.holder = none ∧ ∀ status, attempt.caller ≠ .returned status
  | some reaction => attempt.caller ≠ .sending ∧
      ∃ sent, sendTypedRequest dpSize true attempt.dispatch reaction = some sent ∧
        count + attempt.owes = sent.releases attempt.dispatch

variable {count : Nat}

theorem Tracks.sending (tracks : attempt.Tracks dpSize count)
    (sending : attempt.caller = .sending) : attempt.holder = none ∧ count = 0 := by
  unfold Tracks at tracks
  split at tracks
  · exact ⟨tracks.2.1, tracks.1⟩
  · exact absurd sending tracks.1

theorem owes_answered {reaction : Reaction} {sent : Sent}
    (sends : sendTypedRequest dpSize registered attempt.dispatch reaction = some sent) :
    owes { attempt with
      caller := .returned sent.status, holder := sent.holder, reaction := some reaction } +
        sent.decremented.toNat = sent.releases attempt.dispatch := by
  have split := (sendTypedRequest_entrusted sends).split
  unfold owes due Sent.releases
  dsimp only
  omega

theorem Tracks.advance (tracks : attempt.Tracks dpSize count)
    (steps : attempt.advance dpSize true progress = some (later, decrements)) :
    later.Tracks dpSize (count + decrements.toNat) := by
  obtain ⟨reaction, sent, -, sending, sends, rfl, rfl⟩ | ⟨-, sending, rfl, rfl⟩ | proceeds :=
    advance_cases steps
  · obtain ⟨-, none⟩ := tracks.sending sending
    refine ⟨Caller.noConfusion, sent, sends, ?_⟩
    rw [none, Nat.zero_add, Nat.add_comm]
    exact owes_answered sends
  · unfold Tracks at tracks ⊢
    split at tracks
    · rename_i unanswered
      simp only [unanswered]
      exact ⟨tracks.1, tracks.2.1, fun _ => Caller.noConfusion⟩
    · exact absurd sending tracks.1
  · unfold Tracks at tracks ⊢
    rw [proceeds.reaction, proceeds.dispatch]
    split at tracks
    · obtain ⟨-, free, unreturned⟩ := tracks
      rcases proceeds.answered with held | ⟨status, returned⟩
      · exact absurd free held
      · exact absurd returned (unreturned _)
    · obtain ⟨answered, sent, sends, paid⟩ := tracks
      refine ⟨?_, sent, sends, ?_⟩
      · rcases proceeds.caller with same | finished
        · rw [same]
          exact answered
        · rw [finished]
          exact Caller.noConfusion
      · rw [← paid, ← proceeds.pays]
        omega

theorem Tracks.eq_one_iff (tracks : attempt.Tracks dpSize count)
    (counted : attempt.dispatch.loadIncremented) (done : attempt.over) :
    count = 1 ↔ ∃ reaction, attempt.reaction = some reaction ∧
      Orderly dpSize attempt.dispatch reaction := by
  unfold Tracks at tracks
  split at tracks
  · rename_i unanswered
    refine iff_of_false (fun one => ?_) ?_
    · rw [tracks.1] at one
      cases one
    · rintro ⟨reaction, answered, -⟩
      rw [unanswered] at answered
      cases answered
  · rename_i reaction answered
    obtain ⟨-, _, sends, paid⟩ := tracks
    rw [owes_of_over done, Nat.add_zero] at paid
    rw [paid, sendTypedRequest_releases_iff counted sends, answered]
    simp

theorem counts_eq_opens (bounded : attempt.opens ≤ attempt.dispatch.loadIncremented.toNat) :
    attempt.counts attempt.dispatch.workerUrl = attempt.opens := by
  unfold counts running
  unfold opens due at bounded ⊢
  cases counted : attempt.dispatch.loadIncremented with
  | false =>
    rw [counted, Bool.toNat_false, Nat.le_zero] at bounded
    rw [bounded]
    exact if_neg fun running => Bool.false_ne_true running.2.1
  | true =>
    cases held : attempt.holder.isSome <;> cases caller : attempt.caller with
    | sending => simp_all
    | returned status => cases retryable : isRetryableStatus status <;> simp_all
    | finished => simp

def owedTo (worker : String) (attempt : Attempt) : Nat :=
  if attempt.dispatch.workerUrl = worker then attempt.owes else 0

theorem counts_eq (bounded : attempt.opens ≤ attempt.dispatch.loadIncremented.toNat)
    (worker : String) : attempt.counts worker = attempt.owedTo worker + attempt.marks worker := by
  by_cases own : attempt.dispatch.workerUrl = worker
  · subst own
    rw [counts_eq_opens bounded, opens_eq, owedTo, if_pos rfl, marks]
    cases attempt.marked <;> simp
  · simp [counts, owedTo, marks, own]

/-- What has to be true of a step for its attempt to settle its load. -/
def OrderlyProgress (dpSize : Nat) (attempt : Attempt) : Progress → Prop
  | .answer reaction => Orderly dpSize attempt.dispatch reaction
  | .abandon => False
  | _ => True

instance {dispatch : TypedDispatch} {reaction : Reaction} :
    Decidable (Orderly dpSize dispatch reaction) := by
  cases reaction <;> (unfold Orderly; infer_instance)

instance : Decidable (attempt.OrderlyProgress dpSize progress) := by
  unfold OrderlyProgress
  split <;> infer_instance

theorem Tracks.pays (tracks : attempt.Tracks dpSize count)
    (steps : attempt.advance dpSize true progress = some (later, decrements))
    (orderly : attempt.dispatch.loadIncremented → attempt.OrderlyProgress dpSize progress) :
    later.dispatch = attempt.dispatch ∧ later.owes + decrements.toNat = attempt.owes ∧
      later.opens ≤ attempt.opens := by
  obtain ⟨_, sent, rfl, sending, sends, rfl, rfl⟩ | ⟨rfl, sending, rfl, rfl⟩ | proceeds :=
    advance_cases steps
  · have due : attempt.owes = attempt.dispatch.loadIncremented.toNat := by
      unfold owes Attempt.due
      rw [sending, (tracks.sending sending).1]
      rfl
    have releases : sent.releases attempt.dispatch = attempt.owes := by
      rw [due]
      cases counted : attempt.dispatch.loadIncremented with
      | false =>
        obtain ⟨unpaid, free⟩ := (sendTypedRequest_entrusted sends).uncounted counted
        simp [Sent.releases, unpaid, free, counted]
      | true => exact (sendTypedRequest_releases_iff counted sends).mpr (orderly counted)
    have pays := (owes_answered sends).trans releases
    refine ⟨rfl, pays, ?_⟩
    rw [opens_eq, opens_eq, show marked _ = false from
      decide_eq_false (sendTypedRequest_entrusted sends).fresh]
    exact (Nat.le_add_right _ _).trans (pays.le.trans (Nat.le_add_right _ _))
  · have uncounted : attempt.dispatch.loadIncremented = false :=
      Bool.eq_false_iff.mpr orderly
    refine ⟨rfl, ?_, Nat.add_le_add_right (Nat.zero_le _) _⟩
    unfold owes due
    rw [sending, uncounted]
    rfl
  · exact ⟨proceeds.dispatch, proceeds.pays, proceeds.sheds⟩

end Attempt

namespace DispatchState

variable {state next : DispatchState} {event : DispatchEvent}

theorem count_settle (number other : Nat) (worker : String) (decrements : Bool) :
    (state.settle number worker decrements).decrements.count other =
      state.decrements.count other + if other = number then decrements.toNat else 0 := by
  cases decrements with
  | false => simp [settle]
  | true =>
    change (number :: state.decrements).count other = _
    by_cases same : other = number
    · simp [same]
    · simp [same, Ne.symm same]

theorem load_settle (number : Nat) (worker other : String) (decrements : Bool) :
    (state.settle number worker decrements).load other =
      state.load other - if other = worker then decrements.toNat else 0 := by
  cases decrements with
  | false => simp [settle]
  | true =>
    change Function.update state.load worker _ other = _
    rw [Function.update_apply]
    split
    · rename_i same
      rw [same]
      rfl
    · rfl

variable (dispatch : TypedDispatch)

theorem count_charge (other : Nat) :
    (state.charge dispatch).decrements.count other = state.decrements.count other := by
  unfold charge
  split <;> rfl

theorem load_charge (other : String) :
    (state.charge dispatch).load other =
      state.load other + if other = dispatch.workerUrl then dispatch.loadIncremented.toNat else 0 := by
  unfold charge
  split
  · rename_i counted
    change Function.update state.load dispatch.workerUrl _ other = _
    rw [Function.update_apply, counted]
    split
    · rename_i same
      rw [same]
      rfl
    · rfl
  · rename_i uncounted
    rw [Bool.eq_false_iff.mpr uncounted]
    simp

theorem step_cases (steps : state.step dpSize event = some next) :
    (∃ workers, event = .registryChange workers ∧ next = { state with registered := workers }) ∨
    (∃ number dispatch, event = .begin number dispatch ∧ state.attempts.lookup number = none ∧
      next = { state.charge dispatch with
        attempts := state.attempts.insert number ⟨dispatch, .sending, none, none⟩ }) ∨
    (∃ number progress attempt later decrements, event = .advance number progress ∧
      state.attempts.lookup number = some attempt ∧
      attempt.advance dpSize (state.registered.contains attempt.dispatch.workerUrl) progress =
        some (later, decrements) ∧
      next = { state.settle number attempt.dispatch.workerUrl decrements with
        attempts := state.attempts.insert number later }) := by
  revert steps
  fun_cases step dpSize state event with
  | case1 workers =>
    rintro ⟨⟩
    exact .inl ⟨workers, rfl, rfl⟩
  | case2 => rintro ⟨⟩
  | case3 number dispatch unknown =>
    rintro ⟨⟩
    exact .inr (.inl ⟨number, dispatch, rfl, Option.not_isSome_iff_eq_none.mp unknown, rfl⟩)
  | case4 number progress =>
    intro steps
    obtain ⟨attempt, found, moves⟩ := Option.bind_eq_some_iff.mp steps
    obtain ⟨⟨later, decrements⟩, advances, rfl⟩ := Option.map_eq_some_iff.mp moves
    exact .inr (.inr ⟨number, progress, attempt, later, decrements, rfl, found, advances, rfl⟩)

variable {number : Nat}

theorem StaysRegistered.advance (stays : state.StaysRegistered) {result : Attempt × Bool}
    (found : state.attempts.lookup number = some attempt)
    (advances : attempt.advance dpSize (state.registered.contains attempt.dispatch.workerUrl)
      progress = some result) : attempt.advance dpSize true progress = some result := by
  have unfinished : attempt.over = false := by
    by_contra done
    rw [Attempt.advance_over (Bool.eq_true_of_not_eq_false done)] at advances
    cases advances
  have listed := stays _ ((mem_values_iff _ _).mpr ⟨number, found⟩) unfinished
  rwa [List.contains_iff_mem.mpr listed] at advances

/-- The history of every attempt is as its state says. -/
def Kept (dpSize : Nat) (state : DispatchState) : Prop :=
  ∀ number, match state.attempts.lookup number with
    | none => state.decrements.count number = 0
    | some attempt => attempt.Tracks dpSize (state.decrements.count number)

theorem Kept.tracks (kept : state.Kept dpSize)
    (found : state.attempts.lookup number = some attempt) :
    attempt.Tracks dpSize (state.decrements.count number) := by
  have known := kept number
  rwa [found] at known

theorem Kept.step (kept : state.Kept dpSize) (steps : state.step dpSize event = some next)
    (stays : state.StaysRegistered) : next.Kept dpSize := by
  obtain ⟨_, -, rfl⟩ | ⟨number, _, -, unknown, rfl⟩ |
    ⟨number, progress, attempt, later, decrements, -, found, advances, rfl⟩ := step_cases steps
  · exact kept
  · intro other
    have before := kept other
    simp only [lookup_insert_eq, count_charge]
    split_ifs with same
    · subst same
      rw [unknown] at before
      exact ⟨before, rfl, fun _ => Caller.noConfusion⟩
    · exact before
  · intro other
    have before := kept other
    simp only [lookup_insert_eq, count_settle]
    split_ifs with same
    · subst same
      exact (kept.tracks found).advance (stays.advance found advances)
    · exact before

/-- The step is orderly for the attempt that takes it, if it counts. -/
def OrderlyStep (dpSize : Nat) (state : DispatchState) : DispatchEvent → Prop
  | .advance number progress => ∀ attempt ∈ state.attempts.lookup number,
      attempt.dispatch.loadIncremented → attempt.OrderlyProgress dpSize progress
  | _ => True

instance : Decidable (state.OrderlyStep dpSize event) := by
  unfold OrderlyStep
  split <;> infer_instance

/-- The load of every worker is what its attempts owe, and no attempt has more open than
it put on. -/
structure Balanced (state : DispatchState) : Prop where
  load : ∀ worker, state.load worker = state.attempts.total (Attempt.owedTo worker)
  bounded : ∀ number attempt, state.attempts.lookup number = some attempt →
    attempt.opens ≤ attempt.dispatch.loadIncremented.toNat

variable (balanced : state.Balanced)

include balanced

theorem Balanced.running (worker : String) :
    state.running worker = state.load worker + state.attempts.total (Attempt.marks worker) := by
  rw [balanced.load]
  unfold DispatchState.running total
  rw [← List.sum_map_add]
  refine congrArg _ (List.map_congr_left fun attempt present => ?_)
  obtain ⟨_, found⟩ := (mem_values_iff _ _).mp present
  exact Attempt.counts_eq (balanced.bounded _ _ found) worker

theorem Balanced.begin {dispatch : TypedDispatch} (unknown : state.attempts.lookup number = none) :
    Balanced { state.charge dispatch with
      attempts := state.attempts.insert number ⟨dispatch, .sending, none, none⟩ } := by
  constructor
  · intro worker
    have added := total_insert state.attempts (Attempt.owedTo worker) number
      ⟨dispatch, .sending, none, none⟩
    rw [unknown, Option.map_none, Option.getD_none, Nat.add_zero] at added
    change (state.charge dispatch).load worker = total (AList.insert number _ _) _
    rw [load_charge, added, balanced.load]
    congr 1
    exact if_congr eq_comm rfl rfl
  · intro _ _ found
    rw [lookup_insert_eq] at found
    split_ifs at found
    · cases found
      exact le_rfl
    · exact balanced.bounded _ _ found

theorem Balanced.advance (found : state.attempts.lookup number = some attempt)
    (same : later.dispatch = attempt.dispatch)
    (pays : later.owes + decrements.toNat = attempt.owes) (sheds : later.opens ≤ attempt.opens) :
    Balanced { state.settle number attempt.dispatch.workerUrl decrements with
      attempts := state.attempts.insert number later } := by
  constructor
  · intro worker
    have moved := total_insert state.attempts (Attempt.owedTo worker) number later
    rw [found, Option.map_some, Option.getD_some] at moved
    change (state.settle number attempt.dispatch.workerUrl decrements).load worker =
      total (AList.insert number _ _) _
    rw [load_settle, balanced.load]
    unfold Attempt.owedTo at moved ⊢
    rw [same] at moved
    by_cases own : attempt.dispatch.workerUrl = worker
    · rw [if_pos own, if_pos own] at moved
      rw [if_pos own.symm]
      omega
    · rw [if_neg own, if_neg own] at moved
      rw [if_neg (Ne.symm own)]
      omega
  · intro _ kept looked
    rw [lookup_insert_eq] at looked
    split_ifs at looked
    · cases looked
      rw [same]
      exact sheds.trans (balanced.bounded _ _ found)
    · exact balanced.bounded _ kept looked

theorem Balanced.step (kept : state.Kept dpSize)
    (steps : state.step dpSize event = some next) (stays : state.StaysRegistered)
    (orderly : state.OrderlyStep dpSize event) : next.Balanced := by
  obtain ⟨_, -, rfl⟩ | ⟨number, _, -, unknown, rfl⟩ |
    ⟨number, progress, attempt, later, decrements, rfl, found, advances, rfl⟩ := step_cases steps
  · exact ⟨balanced.load, balanced.bounded⟩
  · exact balanced.begin unknown
  · obtain ⟨same, pays, sheds⟩ := (kept.tracks found).pays (stays.advance found advances)
      (orderly _ found)
    exact balanced.advance found same pays sheds

omit balanced

theorem kept_new : (new : DispatchState).Kept dpSize := fun _ => rfl

theorem balanced_new : (new : DispatchState).Balanced :=
  ⟨fun _ => rfl, fun _ _ found => nomatch found⟩

def Settled (dpSize : Nat) (state : DispatchState) : Prop := state.Kept dpSize ∧ state.Balanced

theorem settled_of_orderly {events : List DispatchEvent}
    (stays : Along (DispatchState.step dpSize) new StaysRegistered events)
    (orderly : Throughout (DispatchState.step dpSize) new (OrderlyStep dpSize) events)
    (ends : runFrom (DispatchState.step dpSize) new events = some state) :
    state.Settled dpSize := by
  refine (stays.throughout.and orderly).invariant ⟨kept_new, balanced_new⟩ ?_ ends
  rintro _ _ _ ⟨kept, balanced⟩ steps ⟨registered, settling⟩
  exact ⟨kept.step steps registered, balanced.step kept steps registered settling⟩

/-- In every run with the workers of its attempts registered: an attempt that put its
load on and is over has taken it back exactly once if and only if it met an orderly
reaction, and as long as all steps are orderly the load of a worker is the number of its
running attempts if and only if none of its streams goes on behind its marker. -/
theorem load_released_once (dpSize : Nat) (events : List DispatchEvent) (state : DispatchState)
    (stays : Along (DispatchState.step dpSize) new StaysRegistered events)
    (ends : runFrom (DispatchState.step dpSize) new events = some state) :
    (∀ number attempt, state.attempts.lookup number = some attempt →
      attempt.dispatch.loadIncremented → attempt.over →
        (state.decrements.count number = 1 ↔
          ∃ reaction, attempt.reaction = some reaction ∧
            Orderly dpSize attempt.dispatch reaction)) ∧
      (Throughout (DispatchState.step dpSize) new (OrderlyStep dpSize) events →
        ∀ worker, state.load worker = state.running worker ↔
          ∀ attempt ∈ state.attempts.values, attempt.dispatch.workerUrl = worker →
            attempt.marked = false) := by
  constructor
  · intro _ _ found counted done
    have kept : state.Kept dpSize := stays.throughout.invariant kept_new Kept.step ends
    exact (kept.tracks found).eq_one_iff counted done
  · intro orderly worker
    have running := (settled_of_orderly stays orderly ends).2.running worker
    constructor
    · intro same attempt present own
      obtain ⟨_, found⟩ := (mem_values_iff _ _).mp present
      have shown := measure_le_total state.attempts (Attempt.marks worker) found
      refine Bool.eq_false_iff.mpr fun marked => ?_
      rw [Attempt.marks, if_pos ⟨own, marked⟩] at shown
      omega
    · intro unmarked
      have none := total_eq_zero state.attempts (Attempt.marks worker) fun number attempt found =>
        if_neg fun own => Bool.false_ne_true
          ((unmarked attempt ((mem_values_iff _ _).mpr ⟨number, found⟩) own.1).symm.trans own.2)
      omega

def sampleDispatch : TypedDispatch :=
  ⟨"/v1/completions", "http://worker", false, true, false, true⟩

/-- A stream that goes on behind its marker and one that has not shown it. -/
def sampleStreams : List DispatchEvent :=
  [.registryChange ["http://worker"], .begin 0 { sampleDispatch with isStream := true },
    .begin 1 { sampleDispatch with isStream := true }, .advance 0 (.answer (.http 200 true)),
    .advance 0 .cleanUp, .advance 1 (.answer (.http 200 true)),
    .advance 0 (.chunk ("data: {}\n\n".toUTF8.toList) true),
    .advance 0 (.chunk ("data: [DONE]\n\n".toUTF8.toList) true)]

theorem load_released_once_answered :
    ∃ early ended,
      runFrom (DispatchState.step 1) new sampleStreams = some early ∧
      early.load "http://worker" = 1 ∧ early.running "http://worker" = 2 ∧
      runFrom (DispatchState.step 1) new (sampleStreams ++ [.advance 0 .streamEnd]) = some ended ∧
      ended.decrements.count 0 = 1 ∧
      ended.load "http://worker" = ended.running "http://worker" := by
  have released := load_released_once 1 (sampleStreams ++ [.advance 0 .streamEnd]) _
    (by decide +kernel) rfl
  refine ⟨_, _, rfl, by decide +kernel, by decide +kernel, rfl, ?_, ?_⟩
  · exact (released.1 0 _ rfl rfl (by decide +kernel)).mpr
      ⟨.http 200 true, rfl, by decide +kernel⟩
  · exact (released.2 (by decide +kernel) _).mpr (by decide +kernel)

/-- A worker that cannot be reached is unloaded twice, and with it the other attempt. -/
theorem send_failure_released_twice :
    (runFrom (DispatchState.step 1) new
      [.registryChange ["http://worker"], .begin 0 sampleDispatch, .begin 1 sampleDispatch,
        .advance 0 (.answer .sendFailed), .advance 0 .cleanUp]).map
      (fun state => (state.decrements, state.load "http://worker", state.running "http://worker")) =
        some ([0, 0], 0, 1) := by
  decide +kernel

end DispatchState

end SmetricRouter.Routing
