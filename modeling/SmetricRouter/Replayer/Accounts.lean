import Mathlib.Data.List.Sigma
import Mathlib.Data.List.TakeWhile
import SmetricRouter.Replayer.Replay

/-! Every record of a replayed trace has one row.

Along every run a session has written the rows of the turns its loop has passed,
and no other; the last pass adds those of the other turns. It does so only if the
started requests can be read back, and `str.splitlines` also cuts a row where one
of its texts holds a line separator that JSON does not escape. And it stops at a row that
cannot be encoded.
-/

namespace SmetricRouter.Replayer

variable {M : Type} {config : ReplayConfig M} {rid : TraceRecord → Text}
  {records : List TraceRecord} {replay next : Replay M} {event : ReplayEvent M}

theorem requestId_index {i j : Nat} {left right : TraceRecord}
    (same : requestId i left = requestId j right) : i = j := by
  have digits (n : Nat) : ∀ code ∈ (codes n.repr).reverse, decide (code ≠ 58) = true := by
    intro _ within
    rw [List.mem_reverse, codes, Nat.toList_repr] at within
    obtain ⟨letter, among, rfl⟩ := List.mem_map.mp within
    have digit := Nat.isDigit_of_mem_toDigits (by omega) (by omega) among
    rw [decide_eq_true_iff]
    intro colon
    have same : letter = ':' := Char.toNat_inj.mp colon
    rw [same] at digit
    simp at digit
  -- The index is what follows the last colon.
  have ends n record :
      (requestId n record).reverse.takeWhile (· ≠ 58) = (codes n.repr).reverse := by
    rw [requestId, List.reverse_append, List.takeWhile_append_of_pos (digits n)]
    simp [codes]
  have alike := (ends i _).symm.trans (same ▸ ends j _)
  rw [List.reverse_inj, codes, codes, List.map_inj_right fun _ _ => Char.toNat_inj.mp,
    Nat.toList_repr, Nat.toList_repr] at alike
  rw [← Nat.ofDigitChars_ten_toDigits (n := i), alike, Nat.ofDigitChars_ten_toDigits]

theorem requestIds_foldl {entries : List (TraceRecord × Nat)}
    (distinct : (entries.map (·.1.chatId)).Nodup) {entry : TraceRecord × Nat}
    (within : entry ∈ entries) :
    entries.foldl addRequestId (fun _ => none) entry.1.chatId
      = some (requestId entry.2 entry.1) := by
  induction entries using List.reverseRecOn with
  | nil => cases within
  | append_singleton _ _ ih =>
    rw [List.foldl_append, List.foldl_cons, List.foldl_nil, addRequestId]
    rw [List.map_append, List.nodup_append] at distinct
    rcases List.mem_append.mp within with earlier | final
    · have other := distinct.2.2 _ (List.mem_map_of_mem earlier) _ List.mem_cons_self
      rw [Function.update_of_ne other]
      exact ih distinct.1 earlier
    · obtain rfl := List.mem_singleton.mp final
      exact Function.update_self ..

theorem map_ridOf (distinct : (records.map (·.chatId)).Nodup) :
    records.map (ridOf records) = records.zipIdx.map fun entry => requestId entry.2 entry.1 := by
  have keys {β : Type} (key : TraceRecord → β) :
      records.map key = records.zipIdx.map fun entry => key entry.1 := by
    conv_lhs => rw [← List.zipIdx_map_fst 0 records]
    exact List.map_map
  rw [keys] at distinct ⊢
  refine List.map_congr_left fun _ within => ?_
  rw [ridOf, requestIds, requestIds_foldl distinct within]
  rfl

theorem ridOf_nodup (distinct : (records.map (·.chatId)).Nodup) :
    (records.map (ridOf records)).Nodup := by
  rw [map_ridOf distinct]
  have positions := List.pairwise_map.mp (List.nodup_zipIdx_map_snd records)
  exact List.pairwise_map.mpr (positions.imp fun apart same => apart (requestId_index same))

theorem addTurn_perm {record : TraceRecord} {groups : List (Text × List TraceRecord)} :
    ((addTurn record groups).flatMap (·.2)).Perm (record :: groups.flatMap (·.2)) := by
  induction groups with
  | nil => exact .refl _
  | cons _ _ ih =>
    unfold addTurn
    split
    · rw [List.flatMap_cons, List.append_assoc]
      exact List.perm_middle
    · exact (ih.append_left _).trans List.perm_middle

theorem groupBySession_perm : ((groupBySession records).flatMap (·.2)).Perm records := by
  rw [groupBySession, List.flatMap_map]
  refine (List.Perm.flatMap_left _ fun group _ => sortBy_perm _ group.2).trans ?_
  induction records using List.reverseRecOn with
  | nil => exact .refl _
  | append_singleton _ _ ih =>
    rw [List.foldl_append]
    exact (addTurn_perm.trans (ih.cons _)).trans (List.perm_append_singleton _ _).symm

/-- The rows of a session are those of the turns its loop has passed. -/
structure SessionState.Accounts (rid : TraceRecord → Text) (session : SessionState M) : Prop where
  passed : session.turnIdx ≤ session.turns.length
  rows : session.metrics.map (·.requestId) = (session.turns.take session.turnIdx).map rid

structure Replay.Accounts (rid : TraceRecord → Text) (turns : List (List TraceRecord))
    (replay : Replay M) : Prop where
  sessions : ∀ session ∈ replay.sessions, session.Accounts rid
  turns : replay.sessions.map (·.turns) = turns
  output : replay.output.Perm (replay.sessions.flatMap (·.metrics))

variable {turns : List (List TraceRecord)} {session after : SessionState M}

theorem SessionState.Accounts.append (accounts : session.Accounts rid) {record : TraceRecord}
    (current : session.turns[session.turnIdx]? = some record) {row : RequestMetrics M}
    (names : row.requestId = rid record) :
    { session with
      metrics := session.metrics ++ [row], turnIdx := session.turnIdx + 1,
      phase := .waiting : SessionState M }.Accounts rid where
  passed := (List.getElem?_eq_some_iff.mp current).1
  rows := by
    rw [List.map_append, accounts.rows, List.take_add_one, current]
    simp [names]

variable {index : Nat} {rows : List (RequestMetrics M)}

theorem Replay.Accounts.set (accounts : replay.Accounts rid turns)
    (found : replay.sessions[index]? = some session) (kept : after.Accounts rid)
    (same : after.turns = session.turns)
    (gains : after.metrics = session.metrics ++ rows) (started : List (RequestMetrics M)) :
    Replay.Accounts rid turns
      ⟨replay.sessions.set index after, replay.output ++ rows, started⟩ := by
  obtain ⟨bound, rfl⟩ := List.getElem?_eq_some_iff.mp found
  refine ⟨fun _ within => ?_, ?_, ?_⟩
  · rcases List.mem_or_eq_of_mem_set within with old | rfl
    · exact accounts.sessions _ old
    · exact kept
  · rw [← accounts.turns, List.map_set, same]
    refine (congrArg _ ?_).trans (List.set_getElem_self (by simpa using bound))
    rw [List.getElem_map]
  · have parts : replay.sessions = replay.sessions.take index
        ++ replay.sessions[index] :: replay.sessions.drop (index + 1) := by simp
    have before := accounts.output
    rw [parts, List.flatMap_append, List.flatMap_cons] at before
    rw [List.set_eq_take_append_cons_drop, if_pos bound, List.flatMap_append, List.flatMap_cons,
      gains]
    refine (before.append_right _).trans ?_
    simp only [List.append_assoc]
    exact ((List.perm_append_comm.append_left _).append_left _)

theorem Replay.current_eq_some {phase : Phase} {at_turn : SessionState M × TraceRecord}
    (found : replay.current index phase = some at_turn) :
    replay.sessions[index]? = some at_turn.1
      ∧ at_turn.1.turns[at_turn.1.turnIdx]? = some at_turn.2 := by
  simp only [Replay.current, Option.bind_eq_bind, Option.bind_eq_some_iff] at found
  obtain ⟨_, held, _, turn, chosen⟩ := found
  split at chosen
  · obtain rfl := Option.some.inj chosen
    exact ⟨held, turn⟩
  · cases chosen

theorem Replay.Accounts.enter (accounts : replay.Accounts rid turns)
    (found : replay.sessions[index]? = some session) (phase : Phase)
    (started : List (RequestMetrics M)) :
    Replay.Accounts rid turns { replay.enter index session phase with started := started } := by
  have kept := accounts.sessions _ (List.mem_of_getElem? found)
  have marked : SessionState.Accounts rid { session with phase := phase } :=
    ⟨kept.passed, kept.rows⟩
  simpa [Replay.enter] using accounts.set found marked rfl (List.append_nil _).symm started

theorem Replay.Accounts.step (accounts : replay.Accounts rid turns)
    (steps : replay.step config rid event = some next) : next.Accounts rid turns := by
  cases event with
  | skipOverlong | respond =>
    obtain ⟨⟨session, _⟩, held, rfl⟩ := Option.map_eq_some_iff.mp steps
    obtain ⟨found, current⟩ := Replay.current_eq_some held
    have kept := accounts.sessions _ (List.mem_of_getElem? found)
    dsimp only [Replay.append]
    split
    · exact accounts.set found (kept.append current rfl) rfl rfl _
    · exact accounts.enter found _ _
  | dispatch =>
    obtain ⟨_, held, rfl⟩ := Option.map_eq_some_iff.mp steps
    obtain ⟨found, _⟩ := Replay.current_eq_some held
    dsimp only
    split <;> exact accounts.enter found _ _
  | finish =>
    obtain ⟨session, found, ends⟩ := Option.bind_eq_some_iff.mp steps
    obtain ⟨-, same⟩ := Option.ite_none_right_eq_some.mp ends
    obtain rfl := Option.some.inj same
    exact accounts.enter found _ _
  | durationLimit =>
    obtain ⟨-, same⟩ := Option.ite_none_right_eq_some.mp steps
    obtain rfl := Option.some.inj same
    have metrics (session : SessionState M) : session.cancel.metrics = session.metrics := by
      unfold SessionState.cancel
      split <;> rfl
    have same (session : SessionState M) : session.cancel.turns = session.turns := by
      unfold SessionState.cancel
      split <;> rfl
    refine ⟨?_, ?_, ?_⟩
    · intro _ within
      obtain ⟨_, old, rfl⟩ := List.mem_map.mp within
      have kept := accounts.sessions _ old
      unfold SessionState.cancel
      split
      · exact kept
      · exact ⟨kept.passed, kept.rows⟩
    · simpa [Function.comp_def, same] using accounts.turns
    · simpa [List.flatMap_map, metrics] using accounts.output

theorem initialReplay_accounts :
    (initialReplay records : Replay M).Accounts rid
      ((sortBy sessionCmp (groupBySession records)).map (·.2)) where
  sessions session within := by
    obtain ⟨_, _, rfl⟩ := List.mem_map.mp within
    exact ⟨Nat.zero_le _, rfl⟩
  turns := by simp [initialReplay, Function.comp_def]
  output := by simp [initialReplay, List.flatMap_map]

theorem Replay.Accounts.ids_perm
    (accounts : replay.Accounts rid ((sortBy sessionCmp (groupBySession records)).map (·.2))) :
    (replay.output.map (·.requestId)
      ++ (replay.sessions.flatMap (·.unfinished)).map rid).Perm (records.map rid) := by
  have whole : ((replay.sessions.map (·.turns)).flatten).Perm records := by
    rw [accounts.turns]
    exact ((sortBy_perm ..).flatMap_right _).trans groupBySession_perm
  refine List.Perm.trans ?_ (whole.map rid)
  refine ((accounts.output.map _).append_right _).trans ?_
  have each := accounts.sessions
  generalize replay.sessions = sessions at each
  induction sessions with
  | nil => exact .refl _
  | cons session _ ih =>
    have own := each _ List.mem_cons_self
    have split : session.turns.map rid
        = session.metrics.map (·.requestId) ++ session.unfinished.map rid := by
      have length := congrArg List.length own.rows
      rw [List.length_map, List.length_map, List.length_take, Nat.min_eq_left own.passed] at length
      rw [own.rows, SessionState.unfinished, length, ← List.map_append, List.take_append_drop]
    simp only [List.flatMap_cons, List.map_append, List.map_cons, List.flatten_cons, split,
      List.append_assoc]
    refine List.Perm.append_left _ (List.Perm.trans ?_ ((ih fun _ within =>
      each _ (List.mem_cons_of_mem _ within)).append_left _))
    simp only [← List.append_assoc]
    exact List.perm_append_comm.append_right _

/-- What `json` does with the rows: it writes an object on one line, reads it back, escapes the
control characters in its texts and no other boundary of a line, and refuses an object whose text
breaks off. -/
structure ReplayConfig.JsonLines (config : ReplayConfig M) (rows : List (RequestMetrics M)) :
    Prop where
  opens : ∀ row ∈ rows, ∃ rest, config.toLine row = 0x7b :: rest
  reads : ∀ row ∈ rows, config.fromLine (config.toLine row) = some row
  raw : ∀ row ∈ rows, (∃ letter ∈ config.toLine row, isLineBoundary letter)
    ↔ ∃ text ∈ row.texts, ∃ letter ∈ text, isRawBoundary letter
  broken : ∀ row ∈ rows, ∀ front letter back, config.toLine row = front ++ letter :: back →
    isLineBoundary letter → config.fromLine front = none

def RequestMetrics.OneLine (row : RequestMetrics M) : Prop :=
  ∀ text ∈ row.texts, ∀ letter ∈ text, ¬ isRawBoundary letter

theorem mapM_eq_none {α β : Type} {read : α → Option β} {items : List α} {item : α}
    (within : item ∈ items) (fails : read item = none) : items.mapM read = none := by
  induction items with
  | nil => cases within
  | cons first _ ih =>
    rw [List.mapM_cons]
    rcases List.mem_cons.mp within with rfl | later
    · rw [fails]
      rfl
    · rw [ih later]
      cases read first <;> rfl

theorem mapM_eq_some_map {α β : Type} {read : α → Option β} {write : β → α} {items : List β}
    (reads : ∀ item ∈ items, read (write item) = some item) :
    (items.map write).mapM read = some items := by
  induction items with
  | nil => rfl
  | cons item _ ih =>
    rw [List.map_cons, List.mapM_cons, reads item List.mem_cons_self,
      ih fun other within => reads other (List.mem_cons_of_mem _ within)]
    rfl

theorem readStarts_of_oneLine (json : config.JsonLines rows) (plain : ∀ row ∈ rows, row.OneLine) :
    config.readStarts (config.startedText rows) = some rows := by
  have lines : splitLines isLineBoundary (config.startedText rows) = rows.map config.toLine := by
    refine splitLines_file_plain rfl fun line within letter inside => ?_
    obtain ⟨row, of_rows, rfl⟩ := List.mem_map.mp within
    by_contra bound
    obtain ⟨_, of_row, raw, of_text, cuts⟩ :=
      (json.raw row of_rows).mp ⟨letter, inside, by simpa using bound⟩
    exact plain row of_rows _ of_row raw of_text cuts
  have visible : ∀ line ∈ rows.map config.toLine, (!line.all isSpace) = true := by
    intro _ within
    obtain ⟨row, of_rows, rfl⟩ := List.mem_map.mp within
    obtain ⟨_, opens⟩ := json.opens row of_rows
    rw [opens]
    rfl
  rw [ReplayConfig.readStarts, lines, List.filter_eq_self.mpr visible]
  exact mapM_eq_some_map json.reads

theorem readStarts_of_not_oneLine (json : config.JsonLines rows)
    (cut : ¬ ∀ row ∈ rows, row.OneLine) : config.readStarts (config.startedText rows) = none := by
  simp only [RequestMetrics.OneLine, not_forall, not_not] at cut
  obtain ⟨row, of_rows, text, of_row, letter, of_text, raw⟩ := cut
  obtain ⟨front, bound, _, split, cuts, within⟩ :=
    @front_mem_splitLines_file _ _ _ 0xa rfl _
      (List.mem_map_of_mem of_rows)
      ((json.raw row of_rows).mpr ⟨text, of_row, letter, of_text, raw⟩)
  obtain ⟨_, opens⟩ := json.opens row of_rows
  refine mapM_eq_none (List.mem_filter.mpr ⟨within, ?_⟩)
    (json.broken row of_rows _ bound _ split cuts)
  -- The brace that opens the object is no boundary, so it is in front of the first one.
  cases front with
  | nil =>
    obtain ⟨rfl, -⟩ := List.cons.inj (opens.symm.trans split)
    cases cuts
  | cons =>
    obtain ⟨rfl, -⟩ := List.cons.inj (opens.symm.trans split)
    rfl

theorem closingRow_requestId (starts : List (RequestMetrics M)) (record : TraceRecord)
    (id : Text) : (config.closingRow starts record id).requestId = id := by
  unfold ReplayConfig.closingRow
  split
  · next start found => simpa using List.find?_some found
  · rfl

variable (config replay rid) in
theorem map_closingRows (starts : List (RequestMetrics M)) :
    (replay.closingRows config rid starts).map (·.requestId)
      = (replay.sessions.flatMap (·.unfinished)).map rid := by
  simp [Replay.closingRows, List.map_flatMap, Function.comp_def, closingRow_requestId]

/-- Of the rows that are missing when the last pass begins none may stay missing. -/
theorem Replay.Accounts.once_iff (distinct : (records.map (·.chatId)).Nodup)
    (accounts : replay.Accounts (ridOf records)
      ((sortBy sessionCmp (groupBySession records)).map (·.2))) {front back : List Text}
    (split : (replay.sessions.flatMap (·.unfinished)).map (ridOf records) = front ++ back) :
    (∀ record ∈ records,
        (replay.output.map (·.requestId) ++ front).count (ridOf records record) = 1)
      ↔ back = [] := by
  have ids := accounts.ids_perm
  rw [split, ← List.append_assoc] at ids
  have once record (within : record ∈ records) :
      (records.map (ridOf records)).count (ridOf records record) = 1 :=
    List.count_eq_one_of_mem (ridOf_nodup distinct) (List.mem_map_of_mem within)
  constructor
  · intro counted
    refine List.eq_nil_iff_forall_not_mem.mpr fun id missing => ?_
    obtain ⟨record, of_trace, rfl⟩ :=
      List.mem_map.mp (ids.mem_iff.mp (List.mem_append_right _ missing))
    have total := ids.count_eq (ridOf records record)
    rw [List.count_append, counted record of_trace, once record of_trace] at total
    have positive := List.count_pos_iff.mpr missing
    omega
  · rintro rfl record within
    rw [List.append_nil] at ids
    rw [ids.count_eq, once record within]

/-- What the last pass needs to write all rows it has to: no task has ended the replay, the
started rows are read back, and the rows can be encoded. -/
structure Replay.Closable (config : ReplayConfig M) (rid : TraceRecord → Text)
    (replay : Replay M) : Prop where
  reached : config.limited ∨ ∀ session ∈ replay.sessions, session.phase ≠ .failed
  starts : ∀ row ∈ replay.started, row.OneLine
  rows : ∀ row ∈ replay.closingRows config rid replay.started, row.encodable

/-- The output has exactly one row for each record, unless a turn was left without its row and the
last pass cannot write it. -/
theorem close_exactly_once_iff {events : List (ReplayEvent M)}
    (distinct : (records.map (·.chatId)).Nodup)
    (reached : runFrom (Replay.step config (ridOf records)) (initialReplay records) events
      = some replay)
    (json : config.JsonLines replay.started) :
    (∀ record ∈ records,
        ((replay.close config (ridOf records)).map (·.requestId)).count (ridOf records record) = 1)
      ↔ (∀ session ∈ replay.sessions, session.unfinished = [])
        ∨ replay.Closable config (ridOf records) := by
  have accounts : replay.Accounts (ridOf records) _ :=
    runFrom_invariant initialReplay_accounts (fun kept steps => kept.step steps) reached
  have unwritten : (∀ record ∈ records,
      (replay.output.map (·.requestId)).count (ridOf records record) = 1)
        ↔ ∀ session ∈ replay.sessions, session.unfinished = [] := by
    have all := accounts.once_iff distinct (List.nil_append _).symm
    rwa [List.append_nil, List.map_eq_nil_iff, List.flatMap_eq_nil_iff] at all
  unfold Replay.close
  split
  · rename_i failed
    rw [unwritten, iff_self_or]
    intro closable
    simp at failed
    obtain ⟨unlimited, session, within, failed⟩ := failed
    rcases closable.reached with limited | running
    · rw [unlimited] at limited
      cases limited
    · exact absurd failed (running session within)
  · rename_i passed
    by_cases plain : ∀ row ∈ replay.started, row.OneLine
    · rw [readStarts_of_oneLine json plain]
      have rows := map_closingRows config (ridOf records) replay replay.started
      rw [← List.takeWhile_append_dropWhile (p := (·.encodable))
        (l := replay.closingRows config (ridOf records) replay.started), List.map_append] at rows
      rw [List.map_append, accounts.once_iff distinct rows.symm, List.map_eq_nil_iff,
        List.dropWhile_eq_nil_iff]
      constructor
      · intro writable
        refine .inr ⟨?_, plain, writable⟩
        simpa [imp_iff_not_or, or_comm] using passed
      · rintro (finished | closable)
        · have nothing : replay.closingRows config (ridOf records) replay.started = [] :=
            List.flatMap_eq_nil_iff.mpr fun session within => by rw [finished session within]; rfl
          rw [nothing]
          exact List.forall_mem_nil _
        · exact closable.rows
    · rw [readStarts_of_not_oneLine json plain, unwritten, iff_self_or]
      exact fun closable => absurd closable.starts plain

namespace Sample

variable (type : Text)

def record : TraceRecord :=
  { chatId := 7, sessionId := codes "s", turn := 1, timestamp := 0, type := type }

def started : RequestMetrics Unit :=
  { requestId := codes "s:1:7:0", sessionId := codes "s", turnId := 1, requestType := type,
    error := some (codes "awaiting_terminal_record"), endpointUrl := some (codes "e")
    figures := () }

def quoted (text : Text) : Text := 0x22 :: text ++ [0x22]

def orNull (text : Option Text) : Text := (text.map quoted).getD (codes "null")

/-- The row as `json.dumps` writes it where nothing has to be escaped. -/
def written (row : RequestMetrics Unit) : Text :=
  0x7b :: (codes ", ").intercalate ([("request_id", quoted row.requestId),
    ("session_id", quoted row.sessionId), ("turn_id", codes (Nat.repr row.turnId)),
    ("trace_timestamp_s", codes "0.0"), ("input_length", codes "1"), ("output_length", codes "1"),
    ("request_type", quoted row.requestType), ("effective_input_length", codes "1"),
    ("cached_tokens", codes "0"), ("external_cached_tokens", codes "0"),
    ("latency_s", orNull none), ("ttft_s", orNull none), ("tpot_s", orNull none),
    ("actual_output_tokens", orNull none), ("requested_output_tokens", codes "1"),
    ("finish_reason", orNull row.finishReason), ("error", orNull row.error),
    ("t_dispatch_unix", codes "9.0"), ("t_first_token_unix", orNull none),
    ("t_finish_unix", orNull none), ("endpoint_url", orNull row.endpointUrl),
    ("request_timeout_s", codes "60.0"), ("request_deadline_unix", codes "69.0"),
    ("trace_hash_ids", codes "[]"), ("routed_instance", orNull row.routedInstance),
    ("policy_decision", orNull row.policyDecision)].map fun (name, value) =>
      quoted (codes name) ++ codes ": " ++ value) ++ [0x7d]

def writer : ReplayConfig Unit where
  limited := true
  endpointUrl := codes "e"
  recordFigures _ := ()
  toLine := written
  fromLine line := if line = written (started type) then some (started type) else none

def cutOff : Replay Unit where
  sessions := [{ turns := [record type], phase := .cancelled }]
  started := [started type]

def run : List (ReplayEvent Unit) → Option (Replay Unit) :=
  runFrom (Replay.step (writer type) (ridOf [record type])) (initialReplay [record type])

def closed (replay : Replay Unit) : List (RequestMetrics Unit) :=
  replay.close (writer type) (ridOf [record type])

theorem jsonLines (raw : (written (started type)).any isLineBoundary
      = (started type).texts.any fun text => text.any isRawBoundary) :
    (writer type).JsonLines (cutOff type).started := by
  refine ⟨?_, ?_, ?_, ?_⟩ <;> intro row within <;> obtain rfl := List.mem_singleton.mp within
  · exact ⟨_, rfl⟩
  · simp [writer]
  · rw [Bool.eq_iff_iff] at raw
    simpa [writer] using raw
  · intro front _ _ split _
    refine if_neg fun whole => ?_
    have lengths := congrArg List.length split
    rw [List.length_append, List.length_cons, whole] at lengths
    simp [writer] at lengths

end Sample

theorem close_exactly_once_cancelled :
    Sample.run (codes "chat") [.dispatch 0 (), .durationLimit]
        = some (Sample.cutOff (codes "chat"))
      ∧ ∀ record ∈ [Sample.record (codes "chat")],
          ((Sample.closed (codes "chat") (Sample.cutOff (codes "chat"))).map (·.requestId)).count
              (ridOf [Sample.record (codes "chat")] record) = 1 := by
  have reached : Sample.run (codes "chat") [.dispatch 0 (), .durationLimit]
      = some (Sample.cutOff (codes "chat")) := by decide +kernel
  have json := Sample.jsonLines (codes "chat") (by decide +kernel)
  refine ⟨reached, (close_exactly_once_iff (by decide) reached json).mpr (.inr ⟨.inl rfl, ?_, ?_⟩)⟩
  · have plain : (Sample.cutOff (codes "chat")).started.all fun row => row.texts.all fun text =>
        text.all fun letter => !isRawBoundary letter := by decide +kernel
    simpa [RequestMetrics.OneLine] using plain
  · decide +kernel

/-- A type with a line separator: the started row is cut in two, and the request in flight when the
limit is reached gets no row. And a type that cannot be encoded. -/
theorem close_missing_row :
    Sample.run (codes "a\u2028b") [.dispatch 0 (), .durationLimit]
        = some (Sample.cutOff (codes "a\u2028b"))
      ∧ (Sample.writer (codes "a\u2028b")).JsonLines (Sample.cutOff (codes "a\u2028b")).started
      ∧ Sample.closed (codes "a\u2028b") (Sample.cutOff (codes "a\u2028b")) = []
      ∧ (Sample.run [0xd800] [.dispatch 0 ()]).map (Sample.closed [0xd800]) = some [] := by
  have json := Sample.jsonLines (codes "a\u2028b") (by decide +kernel)
  refine ⟨by decide +kernel, json, ?_, by decide +kernel⟩
  have cut : ¬ ∀ row ∈ (Sample.cutOff (codes "a\u2028b")).started, row.OneLine :=
    fun plain => plain _ List.mem_cons_self (codes "a\u2028b") (by decide) 0x2028 (by decide) rfl
  unfold Sample.closed Replay.close
  rw [if_neg (by decide), readStarts_of_not_oneLine json cut]
  rfl

end SmetricRouter.Replayer
