import SmetricRouter.Library.StepRuns
import SmetricRouter.Library.Table
import Mathlib.Data.List.Sort

/-! The in-memory response store and its index by user.

Both maps stand under one lock, so each operation is one step. The index is
written when a response is stored and when it is deleted; a response that is
stored again under its identifier leaves the index entry it had before.
-/

namespace SmetricRouter.DataConnector

abbrev ResponseId : Type := String

structure StoredResponse where
  id : ResponseId
  /-- ID of the previous response in the chain (if any). -/
  previousResponseId : Option ResponseId
  input : String
  instructions : Option String
  output : String
  createdAt : Int
  user : Option String
  model : Option String
  deriving DecidableEq, Repr

structure InnerStore where
  /-- All stored responses indexed by ID. -/
  responses : Table ResponseId StoredResponse
  /-- Index of response IDs by user. -/
  userIndex : Table String (List ResponseId)

inductive StoreOperation where
  /-- The second identifier is the one that is generated if the response has none. -/
  | storeResponse (response : StoredResponse) (generated : ResponseId)
  | deleteResponse (responseId : ResponseId)
  | deleteUserResponses (user : String)
  deriving DecidableEq, Repr

namespace InnerStore

def new : InnerStore := ⟨∅, ∅⟩

def identified (response : StoredResponse) (generated : ResponseId) : StoredResponse :=
  if response.id = "" then { response with id := generated } else response

variable (store : InnerStore)

def storeResponse (response : StoredResponse) (generated : ResponseId) : ResponseId × InnerStore :=
  let response := identified response generated
  let userIndex :=
    match response.user with
    | some user => store.userIndex.update user (· ++ [response.id])
    | none => store.userIndex
  (response.id, ⟨store.responses.insert response.id response, userIndex⟩)

def deleteResponse (responseId : ResponseId) : InnerStore :=
  match store.responses.lookup responseId with
  | some response =>
    { responses := store.responses.erase responseId
      userIndex :=
        match response.user with
        | some user => store.userIndex.modify user fun ids => ids.filter (· ≠ responseId)
        | none => store.userIndex }
  | none => store

variable (user : String)

def listUserResponses (limit : Option Nat) : List StoredResponse :=
  match store.userIndex.lookup user with
  | some userResponseIds =>
    let responsesWithTime := userResponseIds.filterMap fun id =>
      (store.responses.lookup id).map fun response => (response.createdAt, id)
    -- The sort is stable, by creation time with the newest first.
    let sorted := responsesWithTime.insertionSort fun first second => second.1 ≤ first.1
    (sorted.take (limit.getD responsesWithTime.length)).filterMap fun entry =>
      store.responses.lookup entry.2
  | none => []

def deleteUserResponses : Nat × InnerStore :=
  match store.userIndex.lookup user with
  | some userResponseIds =>
    (userResponseIds.length, ⟨store.responses.eraseAll userResponseIds, store.userIndex.erase user⟩)
  | none => (0, store)

def apply : StoreOperation → InnerStore
  | .storeResponse response generated => (store.storeResponse response generated).2
  | .deleteResponse responseId => store.deleteResponse responseId
  | .deleteUserResponses user => (store.deleteUserResponses user).2

def ofUser : List StoredResponse :=
  store.responses.values.filter (·.user = some user)

/-- Listing a user returns the stored responses of the user, newest first, and
deleting a user removes these and counts them. -/
structure Faithful : Prop where
  lists : ∀ user, (store.listUserResponses user none).Perm (store.ofUser user)
  newest : ∀ user, (store.listUserResponses user none).Pairwise fun first second =>
    second.createdAt ≤ first.createdAt
  deletes : ∀ user id, (store.deleteUserResponses user).2.responses.lookup id =
    (store.responses.lookup id).filter (·.user ≠ some user)
  counts : ∀ user, (store.deleteUserResponses user).1 = (store.ofUser user).length

def indexed : List ResponseId :=
  (store.userIndex.lookup user).getD []

/-- Every response is stored under its own identifier. -/
def Keyed : Prop :=
  ∀ id response, store.responses.lookup id = some response → response.id = id

/-- Responses are stored under their own identifier, and the index lists, once
each, the identifiers of the responses of its user. -/
structure Inv : Prop where
  keyed : store.Keyed
  nodup : ∀ user, (store.indexed user).Nodup
  listed : ∀ user id, id ∈ store.indexed user ↔
    ∃ response, store.responses.lookup id = some response ∧ response.user = some user

/-- The operation does not store over a response that has a user. -/
def SparesOwned : StoreOperation → Prop
  | .storeResponse response generated =>
    ∀ old, store.responses.lookup (identified response generated).id = some old → old.user = none
  | _ => True

variable {store}

theorem inv_new : new.Inv :=
  ⟨nofun, fun _ => List.nodup_nil, fun _ _ => ⟨nofun, fun ⟨_, stored, _⟩ => nomatch stored⟩⟩

variable {response : StoredResponse}

variable {user : String}

theorem mem_ofUser :
    response ∈ store.ofUser user ↔
      (∃ id, store.responses.lookup id = some response) ∧ response.user = some user := by
  simp [ofUser, Table.mem_values_iff]

theorem listUserResponses_perm (store : InnerStore) :
    (store.listUserResponses user none).Perm
      ((store.indexed user).filterMap store.responses.lookup) := by
  unfold listUserResponses indexed
  cases store.userIndex.lookup user with
  | none => exact .refl _
  | some =>
    simp only [Option.getD_none, Option.getD_some]
    rw [List.take_of_length_le (List.length_insertionSort _ _).le]
    refine ((List.perm_insertionSort _ _).filterMap _).trans (.of_eq ?_)
    rw [List.filterMap_filterMap]
    congr 1
    funext id
    cases stored : store.responses.lookup id with
    | none => rfl
    | some => simp [stored]

theorem listUserResponses_newest (store : InnerStore) (user : String) :
    (store.listUserResponses user none).Pairwise fun first second =>
      second.createdAt ≤ first.createdAt := by
  unfold listUserResponses
  cases store.userIndex.lookup user with
  | none => exact .nil
  | some ids =>
    simp only [Option.getD_none]
    rw [List.take_of_length_le (List.length_insertionSort _ _).le, List.pairwise_filterMap]
    -- Every entry carries the time of the response that it names.
    have dated entry (listed : entry ∈ (ids.filterMap fun id =>
        (store.responses.lookup id).map fun response => (response.createdAt, id)).insertionSort
          fun first second => second.1 ≤ first.1) response
        (stored : store.responses.lookup entry.2 = some response) :
        response.createdAt = entry.1 := by
      rw [List.mem_insertionSort, List.mem_filterMap] at listed
      obtain ⟨_, _, named⟩ := listed
      obtain ⟨_, found_is, rfl⟩ := Option.map_eq_some_iff.mp named
      rw [found_is] at stored
      cases stored
      rfl
    refine (List.pairwise_insertionSort _ _).imp_of_mem ?_
    intro first second first_listed second_listed ordered one one_is other other_is
    rw [dated first first_listed one one_is, dated second second_listed other other_is]
    exact ordered

section Writes

variable (store) (response)

theorem lookup_storeResponse (generated id : ResponseId) :
    (store.storeResponse response generated).2.responses.lookup id =
      if id = (identified response generated).id then some (identified response generated)
      else store.responses.lookup id :=
  Table.lookup_insert_eq store.responses _ id _

theorem indexed_storeResponse (generated : ResponseId) (user : String) :
    (store.storeResponse response generated).2.indexed user =
      if (identified response generated).user = some user then
        store.indexed user ++ [(identified response generated).id]
      else store.indexed user := by
  unfold storeResponse indexed
  simp only
  cases (identified response generated).user with
  | none => rfl
  | some owner =>
    simp only [Table.lookup_update, Option.some.injEq]
    by_cases same : user = owner
    · subst same
      rw [if_pos rfl, if_pos rfl]
      rfl
    · rw [if_neg same, if_neg (Ne.symm same)]

theorem lookup_deleteResponse (responseId id : ResponseId) :
    (store.deleteResponse responseId).responses.lookup id =
      if id = responseId then none else store.responses.lookup id := by
  unfold deleteResponse
  cases found : store.responses.lookup responseId with
  | none =>
    by_cases same : id = responseId
    · rw [if_pos same, same]
      exact found
    · rw [if_neg same]
  | some => exact Table.lookup_erase_eq store.responses _ id

theorem indexed_deleteResponse (responseId : ResponseId) (user : String) :
    (store.deleteResponse responseId).indexed user =
      if ∃ response, store.responses.lookup responseId = some response ∧ response.user = some user
      then (store.indexed user).filter (· ≠ responseId) else store.indexed user := by
  unfold deleteResponse
  cases found : store.responses.lookup responseId with
  | none => simp
  | some response =>
    simp only [indexed, Option.some.injEq, exists_eq_left']
    cases response.user with
    | none => simp
    | some owner =>
      simp only [Table.getD_lookup_modify_filter, Option.some.injEq]
      by_cases same : user = owner
      · rw [if_pos same, if_pos same.symm, same]
      · rw [if_neg same, if_neg (Ne.symm same)]

theorem lookup_deleteUserResponses (user : String) (id : ResponseId) :
    (store.deleteUserResponses user).2.responses.lookup id =
      if id ∈ store.indexed user then none else store.responses.lookup id := by
  unfold deleteUserResponses indexed
  cases store.userIndex.lookup user with
  | none => rfl
  | some ids => exact Table.lookup_eraseAll store.responses ids id

theorem indexed_deleteUserResponses (user other : String) :
    (store.deleteUserResponses user).2.indexed other =
      if other = user then [] else store.indexed other := by
  unfold deleteUserResponses indexed
  cases listed : store.userIndex.lookup user with
  | none =>
    by_cases same : other = user
    · rw [if_pos same, same]
      exact congrArg (Option.getD · []) listed
    · rw [if_neg same]
  | some =>
    simp only [Table.lookup_erase_eq]
    split <;> rfl

theorem count_deleteUserResponses (user : String) :
    (store.deleteUserResponses user).1 = (store.indexed user).length := by
  unfold deleteUserResponses indexed
  cases store.userIndex.lookup user <;> rfl

end Writes

theorem Keyed.apply (keyed : store.Keyed) (operation : StoreOperation) :
    (store.apply operation).Keyed := by
  intro id other found
  cases operation with
  | storeResponse =>
    rw [InnerStore.apply, lookup_storeResponse] at found
    split at found
    case isTrue same =>
      cases found
      exact same.symm
    case isFalse => exact keyed id other found
  | deleteResponse =>
    rw [InnerStore.apply, lookup_deleteResponse] at found
    split at found
    · cases found
    · exact keyed id other found
  | deleteUserResponses =>
    rw [InnerStore.apply, lookup_deleteUserResponses] at found
    split at found
    · cases found
    · exact keyed id other found

theorem ofUser_nodup (keyed : store.Keyed) (user : String) :
    ((store.ofUser user).map StoredResponse.id).Nodup := by
  have keys : store.responses.values.map StoredResponse.id = store.responses.keys := by
    unfold Table.values AList.keys List.keys
    rw [List.map_map]
    refine List.map_congr_left fun entry member => ?_
    exact keyed entry.1 entry.2 (AList.mem_lookup_iff.mpr member)
  have distinct : (store.responses.values.map StoredResponse.id).Nodup := by
    rw [keys]
    exact store.responses.nodupKeys
  exact distinct.sublist (List.filter_sublist.map _)

section Invariant

variable (inv : store.Inv)

include inv

theorem Inv.stored {id : ResponseId} (found : store.responses.lookup id = some response) :
    store.responses.lookup response.id = some response := by
  rw [inv.keyed id response found]
  exact found

variable (user : String)

theorem Inv.indexed_perm :
    (store.indexed user).Perm ((store.ofUser user).map StoredResponse.id) := by
  rw [List.perm_ext_iff_of_nodup (inv.nodup user) (ofUser_nodup inv.keyed user)]
  intro id
  rw [inv.listed, List.mem_map]
  constructor
  · rintro ⟨response, found, owner⟩
    exact ⟨response, mem_ofUser.mpr ⟨⟨id, found⟩, owner⟩, inv.keyed id response found⟩
  · rintro ⟨response, member, rfl⟩
    obtain ⟨⟨_, found⟩, owner⟩ := mem_ofUser.mp member
    exact ⟨response, inv.stored found, owner⟩

theorem Inv.lists : (store.listUserResponses user none).Perm (store.ofUser user) := by
  refine store.listUserResponses_perm.trans (((inv.indexed_perm _).filterMap _).trans ?_)
  rw [List.filterMap_map]
  have own : ∀ response ∈ store.ofUser user,
      (store.responses.lookup ∘ StoredResponse.id) response = some response := by
    intro _ member
    obtain ⟨⟨_, found⟩, _⟩ := mem_ofUser.mp member
    exact inv.stored found
  rw [List.filterMap_congr own, List.filterMap_some]

theorem Inv.deletes (id : ResponseId) :
    (store.deleteUserResponses user).2.responses.lookup id =
      (store.responses.lookup id).filter (·.user ≠ some user) := by
  rw [lookup_deleteUserResponses]
  cases found : store.responses.lookup id with
  | none => simp
  | some response =>
    have owned : id ∈ store.indexed user ↔ response.user = some user := by
      rw [inv.listed, found]
      simp
    simp only [owned, Option.filter_some]
    by_cases owner : response.user = some user
    · simp [owner]
    · simp [owner]

theorem Inv.faithful : store.Faithful := by
  refine ⟨inv.lists, store.listUserResponses_newest, inv.deletes, fun user => ?_⟩
  have listed := (inv.indexed_perm user).length_eq
  rw [List.length_map] at listed
  rw [count_deleteUserResponses, listed]

theorem Inv.deleteResponse (responseId : ResponseId) : (store.deleteResponse responseId).Inv := by
  -- Only the user of the deleted response had it in the index.
  have thinned user : (store.deleteResponse responseId).indexed user =
      (store.indexed user).filter (· ≠ responseId) := by
    rw [indexed_deleteResponse]
    split
    · rfl
    · rename_i foreign
      refine (List.filter_eq_self.mpr fun id listed => decide_eq_true ?_).symm
      rintro rfl
      exact foreign ((inv.listed _ id).mp listed)
  refine ⟨Keyed.apply inv.keyed (.deleteResponse _), fun _ => ?_, fun _ id => ?_⟩
  · rw [thinned]
    exact (inv.nodup _).filter _
  · rw [thinned, List.mem_filter, inv.listed, lookup_deleteResponse]
    by_cases same : id = responseId
    · simp [same]
    · simp [same]

theorem Inv.deleteUserResponses : (store.deleteUserResponses user).2.Inv := by
  refine ⟨Keyed.apply inv.keyed (.deleteUserResponses _), fun other => ?_, fun other id => ?_⟩
  · rw [indexed_deleteUserResponses]
    split
    · exact List.nodup_nil
    · exact inv.nodup _
  · rw [indexed_deleteUserResponses, inv.deletes]
    by_cases same : other = user
    · subst same
      simp [Option.filter_eq_some_iff]
    · rw [if_neg same, inv.listed]
      constructor
      · rintro ⟨response, stored, owner⟩
        refine ⟨response, Option.filter_eq_some_iff.mpr ⟨stored, ?_⟩, owner⟩
        simp [owner, same]
      · rintro ⟨response, stored, owner⟩
        exact ⟨response, (Option.filter_eq_some_iff.mp stored).1, owner⟩

theorem Inv.storeResponse {generated : ResponseId}
    (spares : ∀ old, store.responses.lookup (identified response generated).id = some old →
      old.user = none) : (store.storeResponse response generated).2.Inv := by
  generalize stored_is : identified response generated = stored at spares
  have unlisted user : stored.id ∉ store.indexed user := by
    intro listed
    obtain ⟨old, found, owner⟩ := (inv.listed _ stored.id).mp listed
    rw [spares old found] at owner
    cases owner
  refine ⟨Keyed.apply inv.keyed (.storeResponse _ _), fun user => ?_, fun user id => ?_⟩
  · rw [indexed_storeResponse, stored_is]
    split
    · exact List.nodup_append_comm.mp (List.nodup_cons.mpr ⟨unlisted _, inv.nodup _⟩)
    · exact inv.nodup _
  · rw [indexed_storeResponse, lookup_storeResponse, stored_is]
    by_cases same : id = stored.id
    · subst same
      by_cases owner : stored.user = some user
      · simp [owner]
      · simp [owner, unlisted user]
    · rw [if_neg same, ← inv.listed]
      split
      · simp [same]
      · rfl

variable {operation : StoreOperation}

theorem Inv.apply (spares : store.SparesOwned operation) : (store.apply operation).Inv := by
  cases operation with
  | storeResponse => exact inv.storeResponse spares
  | deleteResponse _ => exact inv.deleteResponse _
  | deleteUserResponses _ => exact inv.deleteUserResponses _

/-- Storing over a response that has a user leaves its identifier in the index of
that user, a second time or for a response that is not the user's. -/
theorem Inv.unfaithful (owned : ¬ store.SparesOwned operation) :
    ¬ (store.apply operation).Faithful := by
  cases operation with
  | deleteResponse | deleteUserResponses => exact absurd trivial owned
  | storeResponse response generated =>
    intro faithful
    simp only [SparesOwned, not_forall] at owned
    obtain ⟨old, found, owner⟩ := owned
    obtain ⟨user, user_is⟩ := Option.ne_none_iff_exists'.mp owner
    have listed := (inv.listed _ _).mpr ⟨old, found, user_is⟩
    have lists := (listUserResponses_perm _).symm.trans (faithful.lists user)
    have current : (store.storeResponse response generated).2.responses.lookup
        (identified response generated).id = some (identified response generated) := by
      rw [lookup_storeResponse, if_pos rfl]
    have again : identified response generated ∈ (store.indexed user).filterMap
        (store.storeResponse response generated).2.responses.lookup :=
      List.mem_filterMap.mpr ⟨_, listed, current⟩
    change (((store.storeResponse response generated).2.indexed user).filterMap _).Perm _ at lists
    rw [indexed_storeResponse] at lists
    split at lists
    · -- The response is listed before and listed once more.
      have distinct := lists.nodup_iff.mpr
        (.of_map _ (ofUser_nodup (Keyed.apply inv.keyed (.storeResponse _ _)) _))
      rw [List.filterMap_append] at distinct
      exact List.disjoint_of_nodup_append distinct again
        (List.mem_filterMap.mpr ⟨_, List.mem_singleton_self _, current⟩)
    · rename_i foreign
      exact foreign (mem_ofUser.mp (lists.mem_iff.mp again)).2

end Invariant

/-- Over every sequence of operations the listings and deletions by user are
right in every state reached exactly if no operation stores over a response that
has a user. -/
theorem run_faithful (operations : List StoreOperation) :
    Along (fun store operation => some (store.apply operation)) new Faithful operations ↔
      Throughout (fun store operation => some (store.apply operation)) new SparesOwned operations := by
  refine along_iff_throughout inv_new (fun inv => inv.faithful) ?_ ?_
  · rintro _ _ _ inv ⟨rfl⟩ spares
    exact inv.apply spares
  · rintro _ _ _ inv ⟨rfl⟩ owned
    exact inv.unfaithful owned

/-- A response is stored twice for one user and listed twice; stored again for
another user, it goes when the first user's responses are deleted. -/
theorem run_faithful_fails :
    let response (user : String) : StoredResponse := ⟨"r", none, "", none, "", 0, some user, none⟩
    let twice := (new.apply (.storeResponse (response "a") "")).apply
      (.storeResponse (response "a") "")
    let moved := (new.apply (.storeResponse (response "a") "")).apply
      (.storeResponse (response "b") "")
    twice.listUserResponses "a" none = [response "a", response "a"] ∧
      twice.ofUser "a" = [response "a"] ∧ (twice.deleteUserResponses "a").1 = 2 ∧
      moved.ofUser "b" = [response "b"] ∧
      (moved.deleteUserResponses "a").2.responses.lookup "r" = none := by
  decide +kernel

/-- The identifiers that the first lock section of `getResponseChain` collects, the
newest first. -/
def chainIds (store : InnerStore) : Nat → Option ResponseId → List ResponseId
  | depth + 1, some id =>
    match store.responses.lookup id with
    | some response => id :: store.chainIds depth response.previousResponseId
    | none => []
  | _, _ => []

/-- The lock is given up between the two sections: the identifiers are collected in
`store` and their responses fetched from `later`. -/
def getResponseChain (store later : InnerStore) (responseId : ResponseId)
    (maxDepth : Option Nat) : List StoredResponse :=
  let responseIds := store.chainIds (maxDepth.getD 100) (some responseId)
  responseIds.reverse.filterMap later.responses.lookup

/-- From the newest on, each response is the one that is named before it. -/
def Contiguous : Option ResponseId → List StoredResponse → Prop
  | _, [] => True
  | named, response :: older =>
    named = some response.id ∧ Contiguous response.previousResponseId older

def link (store : InnerStore) (id : ResponseId) : Option (Option ResponseId) :=
  (store.responses.lookup id).map StoredResponse.previousResponseId

/-- None of the responses is deleted or stored again with another predecessor. -/
def SameLinks (ids : List ResponseId) (store later : InnerStore) : Prop :=
  ∀ id ∈ ids, later.link id = store.link id

instance sameLinks_decidable (ids : List ResponseId) : DecidableRel (SameLinks ids) :=
  fun _ _ => inferInstanceAs (Decidable (∀ _ ∈ _, _))

theorem Keyed.contiguous {later : InnerStore} (keyed : later.Keyed) (depth : Nat)
    (named : Option ResponseId) (kept : SameLinks (store.chainIds depth named) store later) :
    Contiguous named ((store.chainIds depth named).filterMap later.responses.lookup) := by
  induction depth generalizing named with
  | zero => trivial
  | succ _ ih =>
    cases named with
    | none => trivial
    | some id =>
      rw [chainIds] at kept ⊢
      cases found : store.responses.lookup id with
      | none => trivial
      | some _ =>
        simp only [found, SameLinks, List.forall_mem_cons] at kept
        obtain ⟨same, older⟩ := kept
        rw [link, link, found] at same
        obtain ⟨current, stored, previous⟩ := Option.map_eq_some_iff.mp same
        simp only [List.filterMap_cons, stored]
        refine ⟨congrArg some (keyed id current stored).symm, ?_⟩
        rw [previous]
        exact ih _ older

/-- The chain has no gap if no operation between the two lock sections changes what a
collected response names. -/
theorem getResponseChain_contiguous (earlier between : List StoreOperation) {later : InnerStore}
    (reached : runFrom (fun store operation => some (store.apply operation)) new earlier = some store)
    (runs : runFrom (fun store operation => some (store.apply operation)) store between = some later)
    (responseId : ResponseId) (maxDepth : Option Nat)
    (spared : Throughout (fun store operation => some (store.apply operation)) store
      (fun state operation => SameLinks (store.chainIds (maxDepth.getD 100) (some responseId))
        state (state.apply operation)) between) :
    Contiguous (some responseId) (store.getResponseChain later responseId maxDepth).reverse := by
  have keeps {state next : InnerStore} {operation : StoreOperation} (keyed : state.Keyed)
      (steps : some (state.apply operation) = some next) : next.Keyed := by
    cases steps
    exact keyed.apply operation
  have keyed : later.Keyed :=
    runFrom_invariant (runFrom_invariant inv_new.keyed keeps reached) keeps runs
  have kept : SameLinks (store.chainIds (maxDepth.getD 100) (some responseId)) store later := by
    refine spared.invariant (fun _ _ => rfl) ?_ runs
    rintro _ _ _ kept ⟨rfl⟩ spares id listed
    exact (spares id listed).trans (kept id listed)
  rw [getResponseChain, List.filterMap_reverse, List.reverse_reverse]
  exact keyed.contiguous _ _ kept

/-- Of three responses the middle one is deleted while the chain is read: the newest
is followed by one that it does not name. -/
theorem getResponseChain_contiguous_fails :
    let response (id : ResponseId) (previous : Option ResponseId) : StoredResponse :=
      ⟨id, previous, "", none, "", 0, none, none⟩
    let store := [response "a" none, response "b" (some "a"), response "c" (some "b")].foldl
      (fun store response => store.apply (.storeResponse response "")) new
    ¬ Contiguous (some "c")
      (store.getResponseChain (store.apply (.deleteResponse "b")) "c" none).reverse := by
  intro response store contiguous
  have chain : store.getResponseChain (store.apply (.deleteResponse "b")) "c" none =
      [response "a" none, response "c" (some "b")] := by
    decide +kernel
  rw [chain] at contiguous
  exact absurd contiguous.2.1 (by decide)

/-- While a chain of three is read, the middle response is stored again with its
predecessor and a fourth is stored behind the newest. -/
theorem getResponseChain_contiguous_stored :
    let response (id : ResponseId) (previous : Option ResponseId) (output : String) :
        StoredResponse := ⟨id, previous, "", none, output, 0, none, none⟩
    let stored (id : ResponseId) (previous : Option ResponseId) (output : String) :
        StoreOperation := .storeResponse (response id previous output) ""
    let store := ((new.apply (stored "a" none "")).apply (stored "b" (some "a") "")).apply
      (stored "c" (some "b") "")
    let later := (store.apply (stored "b" (some "a") "again")).apply (stored "d" (some "c") "")
    store.getResponseChain later "c" none =
        [response "a" none "", response "b" (some "a") "again", response "c" (some "b") ""] ∧
      Contiguous (some "c") (store.getResponseChain later "c" none).reverse := by
  intro response stored store later
  refine ⟨by decide +kernel, ?_⟩
  refine getResponseChain_contiguous
    [stored "a" none "", stored "b" (some "a") "", stored "c" (some "b") ""]
    [stored "b" (some "a") "again", stored "d" (some "c") ""] rfl rfl "c" none ?_
  decide +kernel

end InnerStore

end SmetricRouter.DataConnector
