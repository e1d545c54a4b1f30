import SmetricRouter.ProgramScheduling.Core

/-! One Program seen alone.

A card holds everything the machine knows of one Program reference: its record,
its requests, its standing, how often it occurs in each queue, and the targets
of its pool. Programs do not touch each other's cards, except that a pool that
loses a target also empties the queue other pools keep there.
-/

namespace SmetricRouter.ProgramScheduling

structure Card where
  program : Option RuntimeProgram
  requests : List PendingProgramRequest
  standing : Option Standing
  rank : String → Nat
  global : String → Nat
  targets : List String

namespace Card

variable (card : Card)

def unqueued : Card := { card with rank := fun _ => 0, global := fun _ => 0 }

variable (removed : List String)

def lose : Card :=
  { card with rank := fun target => if target ∈ removed then 0 else card.rank target }

variable (globalMode : Bool)

def setQueue (pool target : String) (count : Nat → Nat) : Card :=
  if globalMode then
    { card with global := Function.update card.global pool (count (card.global pool)) }
  else { card with rank := Function.update card.rank target (count (card.rank target)) }

/-- The record and the standing with which a Program takes an arriving request. -/
structure Retains (record : RuntimeProgram) (standing : Standing) (arrivedAt : Instant) : Prop where
  reasoning : record.status = .reasoning
  continued : ∀ old, card.program = some old →
    record.state = old.state ∧ record.placement = old.placement ∧
      record.inFlightRequests = old.inFlightRequests
  fresh : card.program = none →
    record.state = .paused ∧ record.placement = none ∧ record.inFlightRequests = 0
  bound : ∃ home, standing = card.standing.getD ⟨home, some arrivedAt, none⟩ ∧
    (∀ target, home = some target → target ∈ card.targets) ∧
    (home = none → card.targets = [])

/-- A Program that lost its last request gives up its placement. -/
def quiesce (rest : List PendingProgramRequest) (record : RuntimeProgram) : RuntimeProgram :=
  if record.inFlightRequests = 0 ∧ rest = [] then
    if record.state = .active then
      { record with status := .acting, state := .paused, placement := none }
    else { record with status := .acting }
  else record

def interrupt (epoch : Nat) (record : RuntimeProgram) : RuntimeProgram :=
  if record.placement.any (· ∈ removed) then
    { record with
      state := .paused
      placement := none
      placementEpoch := epoch
      placementStartRequestPending := false
      inFlightRequests := 0 }
  else record

def retain (record : RuntimeProgram) (standing : Standing) (request : PendingProgramRequest) :
    Card :=
  { card with
    program := some record
    requests := card.requests ++ [request]
    standing := some standing }

def cancel (position : Nat) : Card :=
  let rest := card.requests.eraseIdx position
  let cancelled := { card with requests := rest, program := card.program.map (quiesce rest) }
  if card.program.isSome ∧ rest ≠ [] then cancelled else cancelled.unqueued

def moved (epoch : Nat) (standing : Standing) (replacement : Option String) : Card :=
  { card with
    program := card.program.map (interrupt removed epoch)
    standing := some { standing with lastTarget := replacement } }.unqueued

def failOver (pool : String) (removed : List String) (epoch : Nat) (standing : Standing)
    (replacement : Option String) : Card :=
  let moved := card.moved removed epoch standing replacement
  if card.requests = [] then moved
  else if globalMode then moved.setQueue true pool "" fun _ => 1
  else
    match replacement with
    | some target => moved.setQueue false pool target fun _ => 1
    | none => moved

theorem setQueue_fields {pool target : String} {count : Nat → Nat} :
    (card.setQueue globalMode pool target count).program = card.program ∧
      (card.setQueue globalMode pool target count).requests = card.requests ∧
      (card.setQueue globalMode pool target count).standing = card.standing ∧
      (card.setQueue globalMode pool target count).targets = card.targets := by
  cases globalMode <;> exact ⟨rfl, rfl, rfl, rfl⟩

theorem setQueue_count {card : Card} (pool target : String)
    (count : Nat → Nat) (positive : ∀ old, count old ≠ 0) :
    (if globalMode then (card.setQueue globalMode pool target count).global pool
      else (card.setQueue globalMode pool target count).rank target) ≠ 0 := by
  cases globalMode with
  | true =>
    simp only [setQueue, if_true, Function.update_self]
    exact positive _
  | false =>
    simp only [setQueue, Bool.false_eq_true, if_false, Function.update_self]
    exact positive _

theorem cancel_fields {position : Nat} :
    (card.cancel position).requests = card.requests.eraseIdx position ∧
      (card.cancel position).program =
        card.program.map (quiesce (card.requests.eraseIdx position)) ∧
      (card.cancel position).standing = card.standing ∧
      (card.cancel position).targets = card.targets := by
  simp only [cancel]
  split <;> exact ⟨rfl, rfl, rfl, rfl⟩

theorem failOver_fields (card : Card) {globalMode : Bool} (pool : String) (removed : List String)
    (epoch : Nat) (standing : Standing) {replacement : Option String} :
    let next := card.failOver globalMode pool removed epoch standing replacement
    next.program = card.program.map (interrupt removed epoch) ∧ next.requests = card.requests ∧
      next.standing = some { standing with lastTarget := replacement } ∧
      next.targets = card.targets := by
  fun_cases failOver card globalMode pool removed epoch standing replacement <;>
    exact ⟨rfl, rfl, rfl, rfl⟩

end Card

/-- What a move of a given name does to one card. -/
inductive CardStep (globalMode : Bool) (reference : ProgramRef) (card : Card) :
    Label → Card → Prop where
  | stay (label) (unlisted : ∀ pool removed, label ≠ .shrink pool removed) :
      CardStep globalMode reference card label card
  | arrivePlaced (arrival : Arrival) (record : RuntimeProgram) (standing : Standing)
      (request : PendingProgramRequest) (retains : card.Retains record standing arrival.arrivedAt)
      (placed : record.placement ≠ none) :
      CardStep globalMode reference card (.arrive arrival) (card.retain record standing request)
  | arriveHomeless (arrival record standing request)
      (retains : card.Retains record standing arrival.arrivedAt)
      (pool : reference.modelPool = arrival.identity.modelPool) (unplaced : record.placement = none)
      (homeless : standing.lastTarget = none) :
      CardStep globalMode reference card (.arrive arrival) (card.retain record standing request)
  | arriveQueued (arrival record standing request)
      (retains : card.Retains record standing arrival.arrivedAt) (target deadline)
      (unplaced : record.placement = none) (home : standing.lastTarget = some target) :
      CardStep globalMode reference card (.arrive arrival)
        ((card.retain record
          { standing with
            queuedAt := standing.queuedAt.or (some arrival.arrivedAt)
            forceResumeDeadline := some deadline } request).setQueue globalMode
          reference.modelPool target (max 1))
  | activate (record target epoch) (live : card.program = some record)
      (paused : record.state = .paused) (waiting : card.requests ≠ [])
      (listed : target ∈ card.targets) :
      CardStep globalMode reference card (.activate reference target)
        { card with
          program := some
            { record with
              status := .reasoning
              state := .active
              placement := some target
              placementEpoch := epoch
              placementStartRequestPending := true }
          standing := some ⟨some target, none, none⟩ }.unqueued
  | pause (record) (live : card.program = some record) (active : record.state = .active)
      (acting : record.status = .acting) (idle : record.inFlightRequests = 0) :
      CardStep globalMode reference card (.pause reference)
        { card with program := some { record with state := .paused, placement := none } }
  | unmark (handle now record) (live : card.program = some record) :
      CardStep globalMode reference card (.dispatch handle now)
        { card with program := some { record with placementStartRequestPending := false } }
  | dispatch (handle now record request rest) (live : card.program = some record)
      (active : record.state = .active) (front : card.requests = request :: rest) :
      CardStep globalMode reference card (.dispatch handle now)
        { card with
          program := some
            { record with
              placementStartRequestPending := false
              status := .reasoning
              inFlightRequests := saturatingAdd record.inFlightRequests 1 }
          requests := rest }
  | complete (dispatch usage record tokens) (live : card.program = some record)
      (busy : record.inFlightRequests ≠ 0) :
      CardStep globalMode reference card (.complete dispatch usage)
        { card with
          program := some
            { record with
              estimatedContextTokens := tokens
              inFlightRequests := record.inFlightRequests - 1
              status :=
                if record.inFlightRequests - 1 = 0 ∧ card.requests = [] then .acting
                else record.status } }
  | cancel (handle position) (present : position < card.requests.length) :
      CardStep globalMode reference card (.cancel handle) (card.cancel position)
  | release (record) (live : card.program = some record) (idle : record.inFlightRequests = 0)
      (quiet : card.requests = []) :
      CardStep globalMode reference card (.release reference)
        { card with program := none, standing := none }.unqueued
  | extend (ids) (kept : ∀ target ∈ card.targets, target ∈ ids) :
      CardStep globalMode reference card (.extend reference.modelPool) { card with targets := ids }
  | failOver (current removed epoch standing replacement)
      (standing_eq : card.standing = some standing)
      (homeless : ∀ target, standing.lastTarget = some target → target ∈ removed)
      (listed : ∀ target ∈ current, target ∈ card.targets)
      (bound : ∀ target, replacement = some target → target ∈ current)
      (unbound : replacement = none → current = []) :
      CardStep globalMode reference card (.failOver reference removed)
        (card.failOver globalMode reference.modelPool removed epoch standing replacement)
  | shrink (ids removed)
      (settled : ∀ standing, card.standing = some standing →
        (∀ target, standing.lastTarget = some target → target ∈ ids) ∧
        (standing.lastTarget = none → ids = []))
      (lost : ∀ target ∈ removed, target ∉ ids) :
      CardStep globalMode reference card (.shrink reference.modelPool removed)
        { card.lose removed with targets := ids }
  | lose (pool removed) (foreign : reference.modelPool ≠ pool) :
      CardStep globalMode reference card (.shrink pool removed) (card.lose removed)

def Core.card (core : Core) (reference : ProgramRef) : Card where
  program := core.runtime.find reference
  requests := core.runtime.requestPool.queue reference
  standing := core.standing reference
  rank := fun target => (core.rankQueue target).count reference
  global := fun pool => (core.globalQueue pool).count reference
  targets := core.targets reference.modelPool

end SmetricRouter.ProgramScheduling
