import Orchestrator.Harness.Polling

/-!
# What the polls of a session return

However the file is cut into the parts the polls see, a poll starts where a line starts and the
reducer is in the state all lines before have led to (`Consumed`), so the polls together return what
one reduction of the complete lines returns. What the reducer says at the end of an agent's run is
read off its terminal state (`Disciplined`).
-/

namespace Orchestrator

open Lines

/-! ## Chunks -/

section Chunks
variable {session : SessionRef} {decode : List UInt8 → Option PiRecord} {now : Timestamp}

theorem normalizeAll_append (reducer : ReducerState) (xs ys : List PiRecord) :
    normalizeAll session reducer (xs ++ ys) =
      ((normalizeAll session reducer xs).1 ++
          (normalizeAll session (normalizeAll session reducer xs).2 ys).1,
        (normalizeAll session (normalizeAll session reducer xs).2 ys).2) := by
  induction xs generalizing reducer with
  | nil => rfl
  | cons x xs ih => simp only [List.cons_append, normalizeAll, ih]

def untimed (event : ExecutionEvent) : ExecutionEvent := { event with at_ := 0 }

def reducedEvents (session : SessionRef) (reducer : ReducerState) (records : List PiRecord) :
    List ExecutionEvent :=
  (normalizeAll session reducer records).1.filterMap fun
    | .event state kind => some (liveEvent session 0 state kind)
    | _ => none

def recordsOf (decode : List UInt8 → Option PiRecord) (lines : List (List UInt8)) : List PiRecord :=
  (lines.filter (· ≠ [])).filterMap decode

theorem reducedEvents_append (reducer : ReducerState) (xs ys : List PiRecord) :
    reducedEvents session reducer (xs ++ ys) = reducedEvents session reducer xs ++
      reducedEvents session (normalizeAll session reducer xs).2 ys := by
  simp only [reducedEvents, normalizeAll_append, List.filterMap_append]

theorem reducedEvents_cons (reducer : ReducerState) (x : PiRecord) (xs : List PiRecord) :
    reducedEvents session reducer (x :: xs) = reducedEvents session reducer [x] ++
      reducedEvents session (normalize session reducer x).2 xs :=
  reducedEvents_append reducer [x] xs

theorem foldlM_feed (session : SessionRef) (now : Timestamp) {lines : List (List UInt8)}
    (hvalid : ∀ line ∈ lines, line ≠ [] → (decode line).isSome) (batch : Batch) :
    ∃ last, (lines.map (seenLine decode)).foldlM (Batch.feed session now) batch = .ok last ∧
      last.cursor.reducer =
        (normalizeAll session batch.cursor.reducer (recordsOf decode lines)).2 ∧
      last.events.map (fun x => untimed x.event) = batch.events.map (fun x => untimed x.event) ++
        reducedEvents session batch.cursor.reducer (recordsOf decode lines) := by
  induction lines generalizing batch with
  | nil => exact ⟨batch, rfl, rfl, by simp [reducedEvents, recordsOf, normalizeAll]⟩
  | cons line lines ih =>
    have hrest := ih fun l hl => hvalid l (List.mem_cons_of_mem _ hl)
    rw [List.map_cons, List.foldlM_cons]
    by_cases hblank : line = []
    · subst hblank
      obtain ⟨last, hlast, hreducer, hevents⟩ :=
        hrest { batch with cursor.offset := batch.cursor.offset + 1 }
      exact ⟨last, hlast, hreducer, hevents⟩
    · obtain ⟨record, hrecord⟩ := Option.isSome_iff_exists.1
        (hvalid line List.mem_cons_self hblank)
      have hseen : seenLine decode line = .record record := by simp [seenLine, hblank, hrecord]
      have hrecords : recordsOf decode (line :: lines) = record :: recordsOf decode lines := by
        simp [recordsOf, hblank, hrecord]
      rw [hseen, hrecords, reducedEvents_cons]
      obtain ⟨next, hfeed, hnext, hnew⟩ : ∃ next, batch.feed session now (.record record) = .ok next ∧
          next.cursor.reducer = (normalize session batch.cursor.reducer record).2 ∧
          next.events.map (fun x => untimed x.event) =
            batch.events.map (fun x => untimed x.event) ++
              reducedEvents session batch.cursor.reducer [record] := by
        unfold Batch.feed
        cases hn : (normalize session batch.cursor.reducer record).1 <;>
          simp [hn, reducedEvents, normalizeAll, untimed, liveEvent]
      obtain ⟨last, hlast, hreducer, hevents⟩ := hrest next
      refine ⟨last, by rw [hfeed]; exact hlast, ?_, ?_⟩
      · rw [hreducer, hnext]
        rfl
      · rw [hevents, hnew, hnext, List.append_assoc]

/-- The cursor stands behind `q`, which ends with a line. -/
structure Consumed (session : SessionRef) (decode : List UInt8 → Option PiRecord) (q : List UInt8)
    (cursor : JsonlCursor) : Prop where
  offset : cursor.offset = q.length
  ends : q = [] ∨ ∃ ys, q = ys ++ [newline]
  reducer : cursor.reducer = (normalizeAll session {} (recordsOf decode (split newline q))).2

theorem recordsOf_append {q : List UInt8} (hq : q = [] ∨ ∃ ys, q = ys ++ [newline])
    (c : List UInt8) : recordsOf decode (split newline (q ++ c)) =
      recordsOf decode (split newline q) ++ recordsOf decode (split newline c) := by
  rcases hq with rfl | ⟨ys, rfl⟩
  · simp [recordsOf, split]
  · rw [List.append_assoc, List.singleton_append, split_append, split_append]
    simp [recordsOf, split]

theorem upToLast_consumed {q p : List UInt8} (hq : q = [] ∨ ∃ ys, q = ys ++ [newline])
    (hqp : q <+: p) : upToLast newline p = q ++ upToLast newline (p.drop q.length) := by
  obtain ⟨rest, rfl⟩ := hqp
  rw [List.drop_left]
  rcases hq with rfl | ⟨ys, rfl⟩
  · rfl
  · exact upToLast_append newline ys rest

theorem poll_consumed (now : Timestamp) {q p : List UInt8} {cursor : JsonlCursor}
    (h : Consumed session decode q cursor) (hqp : q <+: p)
    (hvalid : ∀ line ∈ split newline (upToLast newline (p.drop q.length)),
      line ≠ [] → (decode line).isSome) :
    ∃ polled, pollEvents session decode now cursor false p = .ok polled ∧
      Consumed session decode (upToLast newline p) (polled.getD { cursor }).cursor ∧
      reducedEvents session {} (recordsOf decode (split newline (upToLast newline p))) =
        reducedEvents session {} (recordsOf decode (split newline q)) ++
          (polled.getD { cursor }).events.map fun x => untimed x.event := by
  have hle : ¬p.length < q.length := Nat.not_lt.2 hqp.length_le
  have hcomplete := upToLast_consumed h.ends hqp
  unfold pollEvents
  simp only [h.offset, if_neg hle, Bool.false_and, Bool.not_false, and_true]
  split
  · rename_i hnone
    rw [hnone, List.append_nil] at hcomplete
    exact ⟨none, rfl, by rw [hcomplete]; exact h, by rw [hcomplete]; exact (List.append_nil _).symm⟩
  · obtain ⟨last, hlast, hreducer, hevents⟩ := foldlM_feed session now hvalid { cursor }
    rw [hlast]
    refine ⟨_, rfl, ⟨?_, upToLast_ends newline p, ?_⟩, ?_⟩
    · rw [hcomplete, List.length_append]
      rfl
    · rw [hcomplete, recordsOf_append h.ends, normalizeAll_append, ← h.reducer]
      exact hreducer
    · rw [hcomplete, recordsOf_append h.ends, reducedEvents_append, ← h.reducer]
      exact congrArg _ hevents.symm

theorem valid_part {q p content : List UInt8} (hq : q = [] ∨ ∃ ys, q = ys ++ [newline])
    (hqp : q <+: p) (hp : p <+: content)
    (hvalid : ∀ line ∈ split newline (upToLast newline content), line ≠ [] → (decode line).isSome) :
    ∀ line ∈ split newline (upToLast newline (p.drop q.length)), line ≠ [] →
      (decode line).isSome := by
  intro line hline hne
  have hwhole := upToLast_consumed (upToLast_ends newline p) ((upToLast_part newline p).trans hp)
  have hpart := upToLast_consumed hq hqp
  rcases upToLast_ends newline (p.drop q.length) with hnil | ⟨ys, hys⟩
  · rw [hnil] at hline
    exact absurd (List.mem_singleton.1 hline) hne
  · refine hvalid line ?_ hne
    rw [hys, split_append] at hline
    have hmem : line ∈ split newline ys :=
      (List.mem_append.1 hline).resolve_right fun h => hne (List.mem_singleton.1 h)
    rw [hwhole, hpart, hys, List.append_assoc, List.append_assoc, List.singleton_append]
    rcases hq with rfl | ⟨zs, rfl⟩
    · rw [List.nil_append, split_append]
      exact List.mem_append_left _ hmem
    · rw [List.append_assoc, List.singleton_append, split_append, split_append]
      exact List.mem_append_right _ (List.mem_append_left _ hmem)

theorem polls_consumed {content : List UInt8}
    (hvalid : ∀ line ∈ split newline (upToLast newline content), line ≠ [] → (decode line).isSome)
    {visible : List (Timestamp × List UInt8)} {q : List UInt8} {cursor : JsonlCursor}
    (h : Consumed session decode q cursor) (hq : q <+: content)
    (hparts : ∀ p ∈ visible, p.2 <+: content) (hseen : ∀ p ∈ visible, q <+: p.2)
    (hgrows : visible.Pairwise fun p q => p.2 <+: q.2) :
    ∃ events last q', polls session decode cursor visible = .ok (events, last) ∧
      Consumed session decode q' last ∧ q' <+: content ∧
      q' = upToLast newline ((visible.map Prod.snd).getLastD q) ∧
      reducedEvents session {} (recordsOf decode (split newline q')) =
        reducedEvents session {} (recordsOf decode (split newline q)) ++ events.map untimed := by
  have hagain : ∀ {q : List UInt8}, (q = [] ∨ ∃ ys, q = ys ++ [newline]) →
      upToLast newline q = q := fun {q} hq => by
    rw [upToLast_consumed hq (List.prefix_refl q), List.drop_length]
    exact List.append_nil q
  induction visible generalizing q cursor with
  | nil => exact ⟨[], cursor, q, rfl, h, hq, (hagain h.ends).symm, (List.append_nil _).symm⟩
  | cons p rest ih =>
    obtain ⟨now, p⟩ := p
    have hp : p <+: content := hparts _ List.mem_cons_self
    have hqp : q <+: p := hseen _ List.mem_cons_self
    obtain ⟨polled, hpolled, hconsumed, hevents⟩ :=
      poll_consumed now h hqp (valid_part h.ends hqp hp hvalid)
    have hwhole : upToLast newline p <+: p := upToLast_part newline p
    obtain ⟨events, last, q', hlast, hend, hcontent, hq', hreduced⟩ := ih hconsumed
      (hwhole.trans hp) (fun r hr => hparts r (List.mem_cons_of_mem _ hr))
      (fun r hr => hwhole.trans ((List.pairwise_cons.1 hgrows).1 r hr))
      (List.pairwise_cons.1 hgrows).2
    refine ⟨_, last, q', by rw [polls, hpolled]; simp only [bind, Except.bind, hlast]; rfl, hend,
      hcontent, ?_, ?_⟩
    · cases rest with
      | nil => exact hq'.trans (hagain (upToLast_ends newline p))
      | cons r rest => exact hq'
    · rw [hreduced, hevents, List.map_append, List.map_map, List.append_assoc]
      rfl

end Chunks

/-- However a file is cut into what successive polls see of it, they all succeed, return together the
events of its complete records reduced once, and leave the cursor at the start of a line. -/
theorem polling_independent_of_chunking (session : SessionRef)
    (decode : List UInt8 → Option PiRecord) {content : List UInt8}
    (hvalid : ∀ line ∈ split newline (upToLast newline content), line ≠ [] → (decode line).isSome)
    {visible : List (Timestamp × List UInt8)} (hparts : ∀ p ∈ visible, p.2 <+: content)
    (hgrows : visible.Pairwise fun p q => p.2 <+: q.2) :
    ∃ events cursor, polls session decode {} visible = .ok (events, cursor) ∧
      events.map untimed = reducedEvents session {} (recordsOf decode
        (split newline (upToLast newline ((visible.map Prod.snd).getLastD [])))) ∧
      (cursor.offset = 0 ∨ content[cursor.offset - 1]? = some newline) := by
  obtain ⟨events, last, q', hlast, hq', hcontent, hend, hreduced⟩ := polls_consumed hvalid
    (show Consumed session decode [] {} from ⟨rfl, .inl rfl, rfl⟩) List.nil_prefix hparts
    (fun _ _ => List.nil_prefix) hgrows
  refine ⟨events, last, hlast, ?_, ?_⟩
  · rw [← hend, hreduced]
    simp [recordsOf, split, reducedEvents, normalizeAll]
  · rw [hq'.offset]
    rcases hq'.ends with rfl | ⟨ys, rfl⟩
    · exact .inl rfl
    · obtain ⟨rest, rfl⟩ := hcontent
      exact .inr (by simp)

/-- A record in two pieces, and then the rest of the file. -/
theorem polling_independent_of_chunking_sample :
    let decode := fun line : List UInt8 => some (if line = [1] then PiRecord.agentStart else .testRun)
    let session : SessionRef := ⟨⟨"s"⟩, "/s", ⟨"e"⟩, "/w"⟩
    ∃ events cursor, polls session decode {} [(5, [1]), (6, [1, newline, 2]), (7, [1, newline, 2,
      newline, 3])] = .ok (events, cursor) ∧
      events.map untimed = reducedEvents session {} [.agentStart, .testRun] := by
  intro decode session
  obtain ⟨events, cursor, hpolls, hevents, _⟩ := @polling_independent_of_chunking session decode
    [1, newline, 2, newline, 3] (fun _ _ _ => rfl)
    [(5, [1]), (6, [1, newline, 2]), (7, [1, newline, 2, newline, 3])] (by decide) (by decide)
  exact ⟨events, cursor, hpolls, hevents⟩

/-! ## The end of an agent's run -/

def Normalized.isReviewReady : Normalized → Bool
  | .event _ .reviewReady => true
  | _ => false

def Normalized.isFailure : Normalized → Bool
  | .event _ (.executionFailed _) => true
  | _ => false

/-- What a record says of unresolved model errors. -/
def PiRecord.erring (pending : Bool) : PiRecord → Bool
  | .messageEnd message => if isAssistantMessage message then isModelError message else pending
  | .autoRetryEnd success => !success.getD false
  | _ => pending

def PiRecord.retrying (before : Bool) : PiRecord → Bool
  | .agentEnd willRetry => willRetry.getD false
  | .autoRetryStart => true
  | .autoRetryEnd _ => false
  | _ => before

def PiRecord.assistantTurn : PiRecord → Bool
  | .messageEnd message => isAssistantMessage message && !isModelError message
  | _ => false

def ReducerState.ended (reducer : ReducerState) : Bool :=
  reducer.terminal = .modelFailed || reducer.terminal = .harnessFailed

section Reducer
variable {session : SessionRef} {reducer : ReducerState} {record : PiRecord}

theorem normalize_tracks (hrecord : record ≠ .agentStart)
    (hopen : (normalize session reducer record).2.ended = false) :
    (normalize session reducer record).2.pendingModelError =
        record.erring reducer.pendingModelError ∧
      (normalize session reducer record).2.retrying = record.retrying reducer.retrying ∧
      (0 < (normalize session reducer record).2.assistantTurns ↔
        0 < reducer.assistantTurns ∨ record.assistantTurn = true) := by
  cases record with
  | agentStart => exact absurd rfl hrecord
  | _ =>
    simp only [normalize, ReducerState.settle, ReducerState.modelFailed, ReducerState.harnessFailed,
      PiRecord.erring, PiRecord.retrying, PiRecord.assistantTurn] at hopen ⊢
    grind [ReducerState.ended]

/-- How the reducer may answer. -/
inductive Replies (reducer : ReducerState) (next : Normalized × ReducerState) : Prop where
  | silent (ready : next.1.isReviewReady = false) (failure : next.1.isFailure = false)
      (terminal : next.2.terminal = reducer.terminal)
  | ready (ready : next.1.isReviewReady = true) (failure : next.1.isFailure = false)
      (active : reducer.terminal = .active) (terminal : next.2.terminal = .reviewReady)
      (settled : reducer.pendingModelError = false ∧ reducer.retrying = false ∧
        0 < reducer.assistantTurns)
  | failed (ready : next.1.isReviewReady = false) (failure : next.1.isFailure = true)
      (before : reducer.ended = false) (after : next.2.ended = true)

theorem replies_modelFailed {now : ReducerState} (h : now.terminal = reducer.terminal) :
    Replies reducer now.modelFailed := by
  unfold ReducerState.modelFailed
  split
  · exact .silent rfl rfl h
  · rename_i hopen
    exact .failed rfl rfl (by simpa [ReducerState.ended, h] using hopen) rfl

theorem replies_settle (reducer : ReducerState) : Replies reducer reducer.settle := by
  unfold ReducerState.settle
  split
  · exact .silent rfl rfl rfl
  rename_i hopen
  split
  · exact replies_modelFailed rfl
  rename_i hquiet
  simp only [Bool.or_eq_true, not_or, Bool.not_eq_true] at hquiet
  split
  · exact .failed rfl rfl (by simpa [ReducerState.ended] using hopen) rfl
  rename_i hturns
  split
  · exact .silent rfl rfl rfl
  · refine .ready rfl rfl ?_ rfl ⟨hquiet.1, hquiet.2, Nat.pos_of_ne_zero hturns⟩
    cases ht : reducer.terminal <;> simp_all

theorem replies_normalize (session : SessionRef) (reducer : ReducerState)
    (hrecord : record ≠ .agentStart) :
    Replies reducer (normalize session reducer record) := by
  cases record with
  | agentStart => exact absurd rfl hrecord
  | done | agentSettled => exact replies_settle reducer
  | modelError => exact replies_modelFailed rfl
  | messageEnd message | toolExecutionStart _ _ =>
    simp only [normalize]; split <;> exact .silent rfl rfl rfl
  | agentEnd willRetry =>
    simp only [normalize]
    split
    · exact replies_modelFailed rfl
    · exact .silent rfl rfl rfl
  | _ => exact .silent rfl rfl rfl

/-- What was answered since an agent started, by the state of the reducer. -/
structure Disciplined (records : List PiRecord) (answers : List Normalized) (reducer : ReducerState) :
    Prop where
  tracks : reducer.ended = false →
    reducer.pendingModelError = records.foldl PiRecord.erring false ∧
    reducer.retrying = records.foldl PiRecord.retrying false ∧
    (0 < reducer.assistantTurns ↔ records.any PiRecord.assistantTurn = true)
  ready : answers.countP Normalized.isReviewReady ≤ if reducer.terminal = .active then 0 else 1
  failed : answers.countP Normalized.isFailure ≤ if reducer.ended then 1 else 0
  order : answers.Pairwise fun a b => a.isFailure = true → b.isReviewReady = false

theorem Disciplined.snoc {records : List PiRecord} {answers : List Normalized}
    (h : Disciplined records answers reducer) (session : SessionRef) (hrecord : record ≠ .agentStart) :
    Disciplined (records ++ [record]) (answers ++ [(normalize session reducer record).1])
      (normalize session reducer record).2 := by
  have hanswered := replies_normalize session reducer hrecord
  have hended : (normalize session reducer record).2.ended = false → reducer.ended = false := by
    intro hopen
    cases hanswered with
    | silent _ _ ht => simpa [ReducerState.ended, ht] using hopen
    | ready _ _ ha _ _ => simp [ReducerState.ended, ha]
    | failed _ _ hb _ => exact hb
  refine ⟨fun hopen => ?_, ?_, ?_, ?_⟩
  · obtain ⟨hpending, hretrying, hturns⟩ := h.tracks (hended hopen)
    obtain ⟨hp, hr, ht⟩ := normalize_tracks hrecord hopen
    simp [hp, hr, ht, hpending, hretrying, hturns]
  · have hready := h.ready
    rw [List.countP_append, List.countP_singleton]
    cases hanswered with
    | silent hr _ ht => simpa [hr, ht] using hready
    | ready hr _ ha ht _ => simpa [hr, ha, ht] using hready
    | failed hr _ _ ha =>
      have hne : (normalize session reducer record).2.terminal ≠ .active := by
        intro hactive
        simp [ReducerState.ended, hactive] at ha
      rw [hr, if_neg hne]
      split at hready <;> simp <;> omega
  · have hfailed := h.failed
    rw [List.countP_append, List.countP_singleton]
    cases hanswered with
    | silent _ hf ht => simpa [hf, ReducerState.ended, ht] using hfailed
    | ready _ hf ha ht _ => simpa [hf, ReducerState.ended, ha, ht] using hfailed
    | failed _ hf hb ha => simpa [hf, hb, ha] using hfailed
  · rw [List.pairwise_append]
    refine ⟨h.order, List.pairwise_singleton _ _, fun a ha b hb hfailure => ?_⟩
    obtain rfl := List.mem_singleton.1 hb
    cases hanswered with
    | silent hr _ _ => exact hr
    | failed hr _ _ _ => exact hr
    | ready _ _ hactive _ _ =>
      have hnone := h.failed
      have hpos : 0 < answers.countP Normalized.isFailure := List.countP_pos_iff.2 ⟨a, ha, hfailure⟩
      simp [ReducerState.ended, hactive] at hnone
      exact absurd hfailure (by simp [hnone a ha])

theorem disciplined_normalizeAll (session : SessionRef) {records : List PiRecord}
    (h : .agentStart ∉ records) :
    Disciplined records (normalizeAll session {} records).1 (normalizeAll session {} records).2 := by
  induction records using List.reverseRecOn with
  | nil => exact ⟨fun _ => ⟨rfl, rfl, by simp [normalizeAll]⟩, by simp [normalizeAll],
      by simp [normalizeAll], List.Pairwise.nil⟩
  | append_singleton records record ih =>
    have hrecord : record ≠ .agentStart := fun heq => h (by simp [heq])
    have htold := (ih fun hmem => h (List.mem_append_left _ hmem)).snoc session hrecord
    rw [normalizeAll_append]
    exact htold

theorem normalizeAll_started (session : SessionRef) {before : List PiRecord}
    (h : before = [] ∨ before.getLast? = some .agentStart) :
    (normalizeAll session {} before).2 = {} := by
  rcases h with rfl | h
  · rfl
  · obtain ⟨init, rfl⟩ := List.getLast?_eq_some_iff.1 h
    rw [normalizeAll_append]
    rfl

end Reducer

/-- From one `agent_start` to the next, the reducer reports at most one `ReviewReady` and at most one
failure, no `ReviewReady` after a failure, and a `ReviewReady` only after an assistant's turn, when
neither a model error nor a retry is open. -/
theorem reducer_terminal_discipline (session : SessionRef) {before records : List PiRecord}
    (hbefore : before = [] ∨ before.getLast? = some .agentStart) (hrecords : .agentStart ∉ records) :
    let answers := (normalizeAll session (normalizeAll session {} before).2 records).1
    answers.countP Normalized.isReviewReady ≤ 1 ∧ answers.countP Normalized.isFailure ≤ 1 ∧
      answers.Pairwise (fun a b => a.isFailure = true → b.isReviewReady = false) ∧
      ∀ since record rest, records = since ++ record :: rest →
        (normalize session (normalizeAll session {} (before ++ since)).2 record).1.isReviewReady =
          true →
        since.any PiRecord.assistantTurn = true ∧ since.foldl PiRecord.erring false = false ∧
          since.foldl PiRecord.retrying false = false := by
  intro answers
  have hstart := normalizeAll_started session hbefore
  have htold := disciplined_normalizeAll session hrecords
  rw [← hstart] at htold
  refine ⟨htold.ready.trans ?_, htold.failed.trans ?_, htold.order, ?_⟩
  · split <;> simp
  · split <;> simp
  · rintro since record rest rfl hready
    rw [normalizeAll_append, hstart] at hready
    have hsince := disciplined_normalizeAll session
      (fun hmem => hrecords (List.mem_append_left _ hmem))
    have hrecord : record ≠ .agentStart := fun heq => hrecords (by simp [heq])
    cases replies_normalize session (normalizeAll session {} since).2 hrecord with
    | silent hr _ _ | failed hr _ _ _ => exact nomatch hr.symm.trans hready
    | ready _ _ hactive _ hsettled =>
      obtain ⟨hpending, hretrying, hturns⟩ := hsince.tracks (by simp [ReducerState.ended, hactive])
      exact ⟨hturns.1 hsettled.2.2, hpending.symm.trans hsettled.1,
        hretrying.symm.trans hsettled.2.1⟩

/-- A model error that is retried, and then an answer of the assistant. -/
theorem reducer_terminal_discipline_sample :
    let session : SessionRef := ⟨⟨"s"⟩, "/s", ⟨"e"⟩, "/w"⟩
    let answer : PiMessage := { role := some "assistant" }
    let records : List PiRecord := [.messageEnd { answer with stopReason := some "error" },
      .agentEnd (some true), .autoRetryStart, .autoRetryEnd (some true), .messageEnd answer,
      .agentEnd none, .done, .agentSettled]
    let answers := (normalizeAll session (normalizeAll session {} [.agentStart]).2 records).1
    answers.countP Normalized.isReviewReady = 1 ∧ answers.countP Normalized.isReviewReady ≤ 1 :=
  ⟨by decide, (reducer_terminal_discipline _ (.inr rfl) (by decide)).1⟩

end Orchestrator
