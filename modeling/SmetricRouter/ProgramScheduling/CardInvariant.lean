import SmetricRouter.ProgramScheduling.CardMoves

/-! What holds of every Program's card.

The invariant says that record, standing and requests of a Program exist
together, that its state agrees with its placement and its counters, that its
targets belong to its pool, and that it waits in a queue only as itself, only
where it should and at most once.
-/

namespace SmetricRouter.ProgramScheduling

open Card

variable {globalMode : Bool} {label : Label}

namespace Card

/-- The facts of a live Program. -/
structure Live (globalMode : Bool) (reference : ProgramRef) (card : Card)
    (record : RuntimeProgram) (standing : Standing) : Prop where
  activePlaced : record.state = .active ↔ record.placement.isSome
  pausedIdle : record.state = .paused → record.inFlightRequests = 0
  actingQuiet : record.status = .acting → record.inFlightRequests = 0 ∧ card.requests = []
  placedLast : ∀ target, record.placement = some target → standing.lastTarget = some target
  lastListed : ∀ target, standing.lastTarget = some target → target ∈ card.targets
  rankSound : ∀ target, card.rank target ≠ 0 →
    globalMode = false ∧ record.state = .paused ∧ card.requests ≠ [] ∧
      standing.lastTarget = some target ∧ card.rank target = 1
  globalSound : ∀ pool, card.global pool ≠ 0 →
    globalMode = true ∧ record.state = .paused ∧ card.requests ≠ [] ∧
      pool = reference.modelPool ∧ card.global pool = 1

/-- A reference is either unknown everywhere or live with its facts. -/
inductive Ok (globalMode : Bool) (reference : ProgramRef) (card : Card) : Prop where
  | absent (program : card.program = none) (standing : card.standing = none)
      (requests : card.requests = []) (rank : ∀ target, card.rank target = 0)
      (global : ∀ pool, card.global pool = 0)
  | live (record standing) (program : card.program = some record)
      (standing_eq : card.standing = some standing)
      (facts : card.Live globalMode reference record standing)

variable {reference : ProgramRef} {card : Card}

variable {record : RuntimeProgram} {standing : Standing}

variable (ok : card.Ok globalMode reference)

include ok

theorem Ok.of_program (found : card.program = some record) :
    ∃ standing, card.standing = some standing ∧ card.Live globalMode reference record standing := by
  cases ok with
  | absent program => rw [program] at found; cases found
  | live _ standing program standing_eq facts =>
    rw [program] at found
    cases found
    exact ⟨standing, standing_eq, facts⟩

theorem Ok.of_standing (found : card.standing = some standing) :
    ∃ record, card.program = some record ∧ card.Live globalMode reference record standing := by
  cases ok with
  | absent _ absent => rw [absent] at found; cases found
  | live record _ program standing_eq facts =>
    rw [standing_eq] at found
    cases found
    exact ⟨record, program, facts⟩

theorem Ok.of_requests (waiting : card.requests ≠ []) :
    ∃ record standing, card.program = some record ∧ card.standing = some standing ∧
      card.Live globalMode reference record standing := by
  cases ok with
  | absent _ _ requests => exact absurd requests waiting
  | live record standing program standing_eq facts =>
    exact ⟨record, standing, program, standing_eq, facts⟩

omit ok in
theorem state_of_unplaced (facts : card.Live globalMode reference record standing)
    (unplaced : record.placement = none) : record.state = .paused := by
  cases state : record.state with
  | paused => rfl
  | active =>
    have placed := facts.activePlaced.mp state
    rw [unplaced] at placed
    cases placed

theorem Ok.retain {arrivedAt : Instant} (stored : Standing)
    (request : PendingProgramRequest) (retains : card.Retains record standing arrivedAt) :
    (card.retain record stored request).Live globalMode reference record standing := by
  have waiting : card.requests ++ [request] ≠ [] := by simp
  obtain ⟨_, standing_is, bound, _⟩ := retains.bound
  have reasoning := retains.reasoning
  cases ok with
  | absent program standing_eq _ rank global =>
    obtain ⟨paused, unplaced, idle⟩ := retains.fresh program
    rw [standing_eq] at standing_is
    subst standing_is
    refine ⟨by simp [paused, unplaced], fun _ => idle, by simp [reasoning], ?_, bound, ?_, ?_⟩
    · intro target placed
      rw [unplaced] at placed
      cases placed
    · intro target queued
      exact absurd (rank target) queued
    · intro pool queued
      exact absurd (global pool) queued
  | live old _ program standing_eq facts =>
    obtain ⟨state, placement, inFlight⟩ := retains.continued old program
    rw [standing_eq] at standing_is
    subst standing_is
    refine ⟨?_, ?_, by simp [reasoning], ?_, facts.lastListed, ?_, ?_⟩
    · rw [state, placement]
      exact facts.activePlaced
    · rw [state, inFlight]
      exact facts.pausedIdle
    · rw [placement]
      exact facts.placedLast
    · intro target queued
      obtain ⟨mode, paused, _, last, once⟩ := facts.rankSound target queued
      exact ⟨mode, by rw [state, paused], waiting, last, once⟩
    · intro pool queued
      obtain ⟨mode, paused, _, own, once⟩ := facts.globalSound pool queued
      exact ⟨mode, by rw [state, paused], waiting, own, once⟩

omit ok in
theorem Live.setQueue (next : Standing) (target : String)
    (facts : card.Live globalMode reference record standing) (waiting : card.requests ≠ [])
    (unplaced : record.placement = none) (last : next.lastTarget = standing.lastTarget)
    (home : globalMode = false → standing.lastTarget = some target) :
    (card.setQueue globalMode reference.modelPool target (max 1)).Live globalMode reference record
      next := by
  have paused := state_of_unplaced facts unplaced
  cases globalMode with
  | true =>
    refine ⟨facts.activePlaced, facts.pausedIdle, facts.actingQuiet, by rw [last]; exact
      facts.placedLast, by rw [last]; exact facts.lastListed, ?_, ?_⟩
    · intro other queued
      have := (facts.rankSound other queued).1
      cases this
    · intro pool queued
      by_cases own : pool = reference.modelPool
      · subst own
        have count : (max 1 (card.global reference.modelPool)) = 1 := by
          by_cases zero : card.global reference.modelPool = 0
          · omega
          · have := (facts.globalSound _ zero).2.2.2.2
            omega
        exact ⟨rfl, paused, waiting, rfl, by simpa [setQueue] using count⟩
      · simp only [setQueue, if_true, Function.update_of_ne own] at queued
        exact absurd (facts.globalSound pool queued).2.2.2.1 own
  | false =>
    refine ⟨facts.activePlaced, facts.pausedIdle, facts.actingQuiet, by rw [last]; exact
      facts.placedLast, by rw [last]; exact facts.lastListed, ?_, ?_⟩
    · intro other queued
      by_cases own : other = target
      · subst own
        have count : (max 1 (card.rank other)) = 1 := by
          by_cases zero : card.rank other = 0
          · omega
          · have := (facts.rankSound _ zero).2.2.2.2
            omega
        exact ⟨rfl, paused, waiting, by rw [last, home rfl], by simpa [setQueue] using count⟩
      · simp only [setQueue, Bool.false_eq_true, if_false, Function.update_of_ne own] at queued
        have elsewhere := (facts.rankSound other queued).2.2.2.1
        rw [home rfl] at elsewhere
        exact absurd (Option.some.inj elsewhere).symm own
    · intro pool queued
      have := (facts.globalSound pool queued).1
      cases this

omit ok in
theorem Live.of_unqueued (activePlaced : record.state = .active ↔ record.placement.isSome)
    (pausedIdle : record.state = .paused → record.inFlightRequests = 0)
    (actingQuiet : record.status = .acting → record.inFlightRequests = 0 ∧ card.requests = [])
    (placedLast : ∀ target, record.placement = some target → standing.lastTarget = some target)
    (lastListed : ∀ target, standing.lastTarget = some target → target ∈ card.targets) :
    card.unqueued.Live globalMode reference record standing :=
  ⟨activePlaced, pausedIdle, actingQuiet, placedLast, lastListed,
    fun _ queued => absurd rfl queued, fun _ queued => absurd rfl queued⟩

omit ok in
theorem Live.active_unqueued (facts : card.Live globalMode reference record standing)
    (active : record.state = .active) :
    (∀ target, card.rank target = 0) ∧ ∀ pool, card.global pool = 0 := by
  constructor
  · intro target
    by_contra queued
    have paused := (facts.rankSound target queued).2.1
    rw [active] at paused
    cases paused
  · intro pool
    by_contra queued
    have paused := (facts.globalSound pool queued).2.1
    rw [active] at paused
    cases paused

theorem Ok.lose (removed ids : List String)
    (listed : ∀ standing target, card.standing = some standing →
      standing.lastTarget = some target → target ∈ card.targets → target ∈ ids) :
    Ok globalMode reference { card.lose removed with targets := ids } := by
  cases ok with
  | absent program standing requests rank global =>
    exact .absent program standing requests (by simp [Card.lose, rank]) global
  | live record standing program standing_eq facts =>
    refine .live record standing program standing_eq
      ⟨facts.activePlaced, facts.pausedIdle, facts.actingQuiet, facts.placedLast,
        fun target last => listed _ _ standing_eq last (facts.lastListed target last), ?_,
        facts.globalSound⟩
    intro target queued
    by_cases lost : target ∈ removed
    · simp [Card.lose, lost] at queued
    · simp only [Card.lose, lost, if_false] at queued ⊢
      exact facts.rankSound target queued

theorem Ok.cancel (position : Nat) (present : position < card.requests.length) :
    (card.cancel position).Ok globalMode reference := by
  have waiting : card.requests ≠ [] := List.ne_nil_of_length_pos (by omega)
  obtain ⟨record, standing, program, standing_eq, facts⟩ := ok.of_requests waiting
  unfold Card.cancel
  generalize card.requests.eraseIdx position = rest
  simp only [program, Option.isSome_some, true_and, Option.map_some]
  by_cases empty : rest = []
  · -- The last request is gone: an idle Program turns acting and unplaced.
    rw [if_neg (not_not.mpr empty)]
    refine .live (Card.quiesce rest record) standing rfl standing_eq ?_
    by_cases idle : record.inFlightRequests = 0
    · cases state : record.state with
      | active =>
        have settled : Card.quiesce rest record =
            { record with status := .acting, state := .paused, placement := none } := by
          simp [Card.quiesce, idle, empty, state]
        rw [settled]
        exact Live.of_unqueued (by simp) (fun _ => idle) (fun _ => ⟨idle, empty⟩) (by simp)
          facts.lastListed
      | paused =>
        have settled : Card.quiesce rest record = { record with status := .acting } := by
          simp [Card.quiesce, idle, empty, state]
        rw [settled]
        exact Live.of_unqueued facts.activePlaced facts.pausedIdle (fun _ => ⟨idle, empty⟩)
          facts.placedLast facts.lastListed
    · have settled : Card.quiesce rest record = record := by simp [Card.quiesce, idle]
      rw [settled]
      exact Live.of_unqueued facts.activePlaced facts.pausedIdle
        (fun acting => absurd (facts.actingQuiet acting).1 idle) facts.placedLast facts.lastListed
  · rw [if_pos empty]
    have kept : Card.quiesce rest record = record := by simp [Card.quiesce, empty]
    rw [kept]
    refine .live record standing rfl standing_eq
      ⟨facts.activePlaced, facts.pausedIdle, ?_, facts.placedLast, facts.lastListed, ?_, ?_⟩
    · intro acting
      exact absurd (facts.actingQuiet acting).2 waiting
    · intro target queued
      obtain ⟨mode, paused, _, last, once⟩ := facts.rankSound target queued
      exact ⟨mode, paused, empty, last, once⟩
    · intro pool queued
      obtain ⟨mode, paused, _, own, once⟩ := facts.globalSound pool queued
      exact ⟨mode, paused, empty, own, once⟩

omit ok in
theorem Live.interrupted (removed : List String) (epoch : Nat)
    (facts : card.Live globalMode reference record standing)
    (homeless : ∀ target, standing.lastTarget = some target → target ∈ removed) :
    (interrupt removed epoch record).state = .paused ∧
      (interrupt removed epoch record).placement = none ∧
      (interrupt removed epoch record).inFlightRequests = 0 ∧
      (interrupt removed epoch record).status = record.status := by
  cases placed : record.placement with
  | none =>
    have kept : interrupt removed epoch record = record := by
      simp [interrupt, placed]
    have paused := state_of_unplaced facts placed
    rw [kept]
    exact ⟨paused, placed, facts.pausedIdle paused, rfl⟩
  | some target =>
    have gone := homeless target (facts.placedLast target placed)
    simp [interrupt, placed, gone]

theorem Ok.failOver (current removed : List String)
    (epoch : Nat) (standing : Standing) (replacement : Option String)
    (standing_eq : card.standing = some standing)
    (homeless : ∀ target, standing.lastTarget = some target → target ∈ removed)
    (listed : ∀ target ∈ current, target ∈ card.targets)
    (bound : ∀ target, replacement = some target → target ∈ current) :
    (card.failOver globalMode reference.modelPool removed epoch standing replacement).Ok globalMode
      reference := by
  obtain ⟨record, program, facts⟩ := ok.of_standing standing_eq
  obtain ⟨paused, unplaced, idle, status⟩ := facts.interrupted removed epoch homeless
  have moved : (card.moved removed epoch standing replacement).Live globalMode reference
      (interrupt removed epoch record) { standing with lastTarget := replacement } := by
    refine Live.of_unqueued (by simp [paused, unplaced]) (fun _ => idle) ?_ (by simp [unplaced]) ?_
    · intro acting
      rw [status] at acting
      exact ⟨idle, (facts.actingQuiet acting).2⟩
    · exact fun target replaced => listed target (bound target replaced)
  have program' : (card.moved removed epoch standing replacement).program =
      some (interrupt removed epoch record) := by
    simp [Card.moved, Card.unqueued, program]
  unfold Card.failOver
  by_cases quiet : card.requests = []
  · rw [if_pos quiet]
    exact .live _ _ program' rfl moved
  · rw [if_neg quiet]
    cases globalMode with
    | true =>
      refine .live _ { standing with lastTarget := replacement } program' rfl ?_
      exact moved.setQueue _ "" quiet unplaced rfl (fun rank => by cases rank)
    | false =>
      cases replacement with
      | none => exact .live _ _ program' rfl moved
      | some target =>
        refine .live _ { standing with lastTarget := some target } program' rfl ?_
        exact moved.setQueue _ target quiet unplaced rfl (fun _ => rfl)

theorem Ok.step {next : Card}
    (stepped : CardStep globalMode reference card label next) : next.Ok globalMode reference := by
  cases stepped with
  | stay => exact ok
  | arrivePlaced _ record standing request retains
  | arriveHomeless _ record standing request retains =>
    exact .live record standing rfl rfl (ok.retain standing _ retains)
  | arriveQueued _ record _ request retains target _ unplaced home =>
    have waiting : card.requests ++ [request] ≠ [] := by simp
    cases globalMode <;>
      exact .live record _ rfl rfl ((ok.retain _ request retains).setQueue _ target waiting unplaced
        rfl fun _ => home)
  | activate _ target _ live _ _ listed =>
    refine .live _ ⟨some target, none, none⟩ rfl rfl (Live.of_unqueued ?_ ?_ ?_ ?_ ?_)
    · simp
    · exact fun contradiction => by cases contradiction
    · exact fun contradiction => by cases contradiction
    · exact fun _ placed => placed
    · intro _ last
      cases last
      exact listed
  | pause _ live active _ idle =>
    obtain ⟨standing, standing_eq, facts⟩ := ok.of_program live
    obtain ⟨noRank, noGlobal⟩ := facts.active_unqueued active
    refine .live _ standing rfl standing_eq
      ⟨by simp, fun _ => idle, facts.actingQuiet, by simp, facts.lastListed, ?_, ?_⟩
    · exact fun target queued => absurd (noRank target) queued
    · exact fun pool queued => absurd (noGlobal pool) queued
  | unmark _ _ _ live =>
    obtain ⟨standing, standing_eq, facts⟩ := ok.of_program live
    exact .live _ standing rfl standing_eq
      ⟨facts.activePlaced, facts.pausedIdle, facts.actingQuiet, facts.placedLast,
        facts.lastListed, facts.rankSound, facts.globalSound⟩
  | dispatch _ _ record _ _ live active =>
    obtain ⟨standing, standing_eq, facts⟩ := ok.of_program live
    obtain ⟨noRank, noGlobal⟩ := facts.active_unqueued active
    refine .live _ standing rfl standing_eq
      ⟨facts.activePlaced, ?_, ?_, facts.placedLast, facts.lastListed, ?_, ?_⟩
    · intro paused
      rw [show record.state = .paused from paused] at active
      cases active
    · exact fun contradiction => by cases contradiction
    · exact fun target queued => absurd (noRank target) queued
    · exact fun pool queued => absurd (noGlobal pool) queued
  | complete _ _ record _ live busy =>
    obtain ⟨standing, standing_eq, facts⟩ := ok.of_program live
    refine .live _ standing rfl standing_eq
      ⟨facts.activePlaced, ?_, ?_, facts.placedLast, facts.lastListed, facts.rankSound,
        facts.globalSound⟩
    · exact fun paused => absurd (facts.pausedIdle paused) busy
    · intro acting
      by_cases quiet : record.inFlightRequests - 1 = 0 ∧ card.requests = []
      · exact quiet
      · simp only [quiet, if_false] at acting
        exact absurd (facts.actingQuiet acting).1 busy
  | cancel _ position present => exact ok.cancel position present
  | release _ _ _ quiet =>
    exact .absent rfl rfl quiet (fun _ => rfl) (fun _ => rfl)
  | extend _ kept =>
    cases ok with
    | absent program standing requests rank global =>
      exact .absent program standing requests rank global
    | live record standing program standing_eq facts =>
      exact .live record standing program standing_eq
        ⟨facts.activePlaced, facts.pausedIdle, facts.actingQuiet, facts.placedLast,
          fun target last => kept target (facts.lastListed target last), facts.rankSound,
          facts.globalSound⟩
  | failOver current removed epoch standing replacement standing_eq homeless listed bound =>
    exact ok.failOver current removed epoch _ _ standing_eq homeless listed bound
  | shrink ids removed settled =>
    exact ok.lose removed ids fun standing target standing_eq last _ =>
      (settled standing standing_eq).1 target last
  | lose _ removed => exact ok.lose removed card.targets fun _ _ _ _ listed => listed

end Card

/-- Every card is in order and every Program is stored under its own key. -/
structure Core.Inv (globalMode : Bool) (core : Core) : Prop where
  keyed : core.runtime.Keyed
  cards : ∀ reference, (core.card reference).Ok globalMode reference

variable {core next : Core}

theorem Core.Inv.placement_active {program : ProgramRef} {target : String}
    (inv : core.Inv globalMode) (placed : core.runtime.placement program = some target) :
    ∀ record, core.runtime.find program = some record → record.state = .active := by
  intro _ found
  obtain ⟨_, _, facts⟩ := (inv.cards program).of_program found
  apply facts.activePlaced.mpr
  simp only [ProgramRuntime.placement, found, Option.bind_some] at placed
  rw [placed]
  rfl

theorem Move.inv
    (taken : Move globalMode core label next) (inv : core.Inv globalMode) : next.Inv globalMode :=
  ⟨taken.keyed inv.keyed,
    fun reference => (inv.cards reference).step (taken.cardStep reference inv.keyed)⟩

variable {kind : Label → Prop}

theorem Evolves.inv (evolved : Evolves globalMode kind core next) (inv : core.Inv globalMode) :
    next.Inv globalMode :=
  evolved.invariant (fun _ _ _ _ taken holds => taken.inv holds) inv

theorem Evolves.keeps_card (holds : Card → Prop) (evolved : Evolves globalMode kind core next)
    (inv : core.Inv globalMode) (reference : ProgramRef)
    (step : ∀ card label next, kind label → card.Ok globalMode reference →
      CardStep globalMode reference card label next → holds card → holds next)
    (initially : holds (core.card reference)) : holds (next.card reference) := by
  have kept := @Evolves.invariant globalMode kind core next
    (fun core => core.Inv globalMode ∧ holds (core.card reference)) evolved (by
      rintro _ label _ allowed taken ⟨sound, held⟩
      exact ⟨taken.inv sound, step _ label _ allowed (sound.cards reference)
        (taken.cardStep reference sound.keyed) held⟩)
  exact (kept ⟨inv, initially⟩).2

end SmetricRouter.ProgramScheduling
