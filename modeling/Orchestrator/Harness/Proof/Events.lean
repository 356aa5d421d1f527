import Orchestrator.Harness.Events

/-!
# Harness failures of a settled run

An `agent_start` record resets the reducer, so Pi's output falls into agent runs. Within one run a
settled reducer stays settled and a failed one stays failed (`Settled.keeps`, `failed_keeps`); the
reducer alone never gives one run both verdicts. What the cursor holds is the reduction of the
lines behind it, or a harness failure already reported (`Agrees`).

A poll that finds the process gone adds a verdict of its own, about everything Pi wrote, from the
lines the pump has copied so far. It is right when a settle record, if there is one, is among them
(`no_false_harness_failure`); nothing in `poll_events` waits for that (`pump_behind`).
-/

namespace Orchestrator

open Txn

/-! ## Reducing the output -/

section
variable (session : SessionRef)

def ReducerState.after (reducer : ReducerState) : LiveLine → ReducerState
  | .record record => (normalize session reducer record).2
  | _ => reducer

def reduced (lines : List LiveLine) : ReducerState := lines.foldl (ReducerState.after session) {}

theorem reduced_append (lines rest : List LiveLine) :
    reduced session (lines ++ rest) = rest.foldl (ReducerState.after session) (reduced session lines) :=
  List.foldl_append

theorem reduced_snoc (lines : List LiveLine) (line : LiveLine) :
    reduced session (lines ++ [line]) = (reduced session lines).after session line := by
  rw [reduced_append]
  rfl

end

def PiRecord.isSettle (record : PiRecord) : Bool := record = .done || record = .agentSettled

/-- The event a harness failure is reported with. -/
abbrev harnessFailure : ExecutionEventKind := .executionFailed .harnessFailed

/-- Settled with a turn to show for it, or failed by the model since. -/
def ReducerState.Settled (reducer : ReducerState) : Prop :=
  reducer.terminal = .reviewReady ∧ 0 < reducer.assistantTurns ∨ reducer.terminal = .modelFailed

section
variable {session : SessionRef} {reducer : ReducerState} {record : PiRecord}

theorem ReducerState.Settled.keeps (h : reducer.Settled) (hr : record ≠ .agentStart) :
    (normalize session reducer record).2.Settled := by
  unfold ReducerState.Settled at *
  cases record <;>
    grind [normalize, ReducerState.settle, ReducerState.modelFailed, ReducerState.harnessFailed]

theorem failed_keeps (h : reducer.terminal = .harnessFailed) (hr : record ≠ .agentStart) :
    (normalize session reducer record).2.terminal = .harnessFailed := by
  cases record <;> grind [normalize, ReducerState.settle, ReducerState.modelFailed]

theorem settled_of_event
    (h : (normalize session reducer record).1 = .event .reviewReady .reviewReady) :
    reducer.terminal ≠ .harnessFailed ∧ (normalize session reducer record).2.Settled := by
  unfold ReducerState.Settled
  cases record <;>
    grind [normalize, ReducerState.settle, ReducerState.modelFailed, ReducerState.harnessFailed]

/-- The reducer of a cursor against the reduction of the lines behind it: a poll may have added
the failure of a process that is gone. -/
def Agrees (kept pure : ReducerState) : Prop := kept = pure ∨ kept.terminal = .harnessFailed

theorem Agrees.after {kept pure : ReducerState} (h : Agrees kept pure) :
    Agrees (normalize session kept record).2 (normalize session pure record).2 := by
  rcases h with rfl | h
  · exact .inl rfl
  · by_cases hr : record = .agentStart
    · subst hr
      exact .inl rfl
    · exact .inr (failed_keeps h hr)

theorem Agrees.failure {kept pure : ReducerState} {state : ExecutionState} (h : Agrees kept pure)
    (he : (normalize session kept record).1 = .event state harnessFailure) :
    (normalize session pure record).2.terminal = .harnessFailed := by
  rcases h with rfl | h <;> cases record <;>
    grind [normalize, ReducerState.settle, ReducerState.modelFailed, ReducerState.harnessFailed]

end

/-! ## Agent runs -/

/-- The agent run that line `n` belongs to: how many were started before it. -/
def agentRun (lines : List LiveLine) (n : Nat) : Nat :=
  (lines.take n).count (.record .agentStart)

/-- The agent run an event is for. That the process is gone is about the last one. -/
def EventSource.run (lines : List LiveLine) : EventSource → Nat
  | .line index => agentRun lines (index + 1)
  | .exit => agentRun lines lines.length

/-- Line `n` is a settle record that the reducer turns into `ReviewReady`. -/
def Settles (session : SessionRef) (lines : List LiveLine) (n : Nat) : Prop :=
  ∃ record, lines[n]? = some (.record record) ∧ record.isSettle ∧
    (normalize session (reduced session (lines.take n)) record).1 = .event .reviewReady .reviewReady

section
variable {session : SessionRef} {lines : List LiveLine} {n k : Nat}

theorem within_run {I : ReducerState → Prop}
    (hI : ∀ reducer record, I reducer → record ≠ .agentStart → I (normalize session reducer record).2)
    (hnk : n ≤ k) (hrun : agentRun lines n = agentRun lines k)
    (h : I (reduced session (lines.take n))) : I (reduced session (lines.take k)) := by
  have hsplit : lines.take k = lines.take n ++ (lines.drop n).take (k - n) := by
    rw [← List.take_add, Nat.add_sub_cancel' hnk]
  have hnone : LiveLine.record .agentStart ∉ (lines.drop n).take (k - n) := by
    rw [agentRun, agentRun, hsplit, List.count_append] at hrun
    exact List.count_eq_zero.1 (by omega)
  rw [hsplit, reduced_append]
  refine List.foldlRecOn _ _ h fun reducer hr line hline => ?_
  cases line with
  | blank | invalid => exact hr
  | record record => exact hI reducer record hr fun hrec => hnone (hrec ▸ hline)

theorem agentRun_mono (hnk : n ≤ k) : agentRun lines n ≤ agentRun lines k :=
  (List.take_sublist_take_left hnk).count_le _

theorem Settles.lt (h : Settles session lines n) : n < lines.length := by
  obtain ⟨record, hn, -⟩ := h
  exact (List.getElem?_eq_some_iff.1 hn).1

theorem Settles.settled (h : Settles session lines n) :
    (reduced session (lines.take (n + 1))).Settled := by
  obtain ⟨record, hn, -, he⟩ := h
  rw [List.take_add_one, hn]
  exact (reduced_snoc ..).symm ▸ (settled_of_event he).2

theorem Settles.not_failed (h : Settles session lines n) :
    (reduced session (lines.take n)).terminal ≠ .harnessFailed := by
  obtain ⟨record, -, -, he⟩ := h
  exact (settled_of_event he).1

theorem Settles.run (h : Settles session lines n) : agentRun lines (n + 1) = agentRun lines n := by
  obtain ⟨record, hn, hs, -⟩ := h
  have hne : LiveLine.record .agentStart ∉ (lines[n]?).toList := by
    rw [hn]
    rintro (⟨_⟩ | ⟨_, ⟨⟩⟩)
    exact absurd hs (by decide)
  rw [agentRun, List.take_add_one, List.count_append, List.count_eq_zero.2 hne]
  rfl

theorem Settles.stays (h : Settles session lines n) (hnk : n < k)
    (hrun : agentRun lines n = agentRun lines k) : (reduced session (lines.take k)).Settled :=
  within_run (fun _ _ hr hrec => hr.keeps hrec) hnk (h.run.trans hrun) h.settled

theorem Settles.run_ne_of_failed (h : Settles session lines n)
    (hk : (reduced session (lines.take k)).terminal = .harnessFailed) :
    agentRun lines k ≠ agentRun lines n := by
  intro hrun
  rcases Nat.lt_or_ge n k with hnk | hkn
  · rcases h.stays hnk hrun.symm with ⟨ht, -⟩ | ht <;> exact absurd (hk.symm.trans ht) (by decide)
  · exact h.not_failed (within_run (I := fun reducer => reducer.terminal = .harnessFailed)
      (fun _ _ hr hrec => failed_keeps hr hrec) hkn hrun hk)

theorem Settles.run_ne_of_active (h : Settles session lines n) (hnk : n < k)
    (hk : (reduced session (lines.take k)).terminal = .active) :
    agentRun lines k ≠ agentRun lines n := by
  intro hrun
  rcases h.stays hnk hrun.symm with ⟨ht, -⟩ | ht <;> exact absurd (hk.symm.trans ht) (by decide)

end

/-! ## One poll -/

section
variable {session : SessionRef} {now : Timestamp}

/-- An event of a record among `lines`; if it is a harness failure, the reducer's own. -/
def LiveEvent.FromLine (session : SessionRef) (lines : List LiveLine) (p : LiveEvent) : Prop :=
  ∃ i, p.source = .line i ∧ i < lines.length ∧
    (p.event.kind = harnessFailure →
      (reduced session (lines.take (i + 1))).terminal = .harnessFailed)

/-- A batch that has consumed the first lines of the file, `lines`. -/
structure Batch.Consumed (session : SessionRef) (lines : List LiveLine) (batch : Batch) :
    Prop where
  offset : batch.cursor.offset = lines.length
  reducer : Agrees batch.cursor.reducer (reduced session lines)
  events : ∀ p ∈ batch.events, p.FromLine session lines

theorem LiveEvent.FromLine.append {lines : List LiveLine} {p : LiveEvent}
    (h : p.FromLine session lines) (rest : List LiveLine) : p.FromLine session (lines ++ rest) := by
  obtain ⟨i, hi, hlt, hf⟩ := h
  refine ⟨i, hi, by simp only [List.length_append]; omega, fun hk => ?_⟩
  rw [List.take_append_of_le_length hlt]
  exact hf hk

theorem Batch.Consumed.feed {lines : List LiveLine} {batch batch' : Batch} {line : LiveLine}
    (h : batch.Consumed session lines) (hb : batch.feed session now line = .ok batch') :
    batch'.Consumed session (lines ++ [line]) := by
  have hold : ∀ p ∈ batch.events, p.FromLine session (lines ++ [line]) :=
    fun p hp => (h.events p hp).append _
  cases line with
  | blank =>
    obtain rfl := Except.ok.inj hb
    refine ⟨by simp [h.offset], ?_, hold⟩
    rw [reduced_snoc]
    exact h.reducer
  | invalid => exact nomatch hb
  | record record =>
    have hred : Agrees (normalize session batch.cursor.reducer record).2
        (reduced session (lines ++ [.record record])) := by
      rw [reduced_snoc]
      exact h.reducer.after
    have hoff : batch.cursor.offset + 1 = (lines ++ [LiveLine.record record]).length := by
      simp [h.offset]
    simp only [Batch.feed] at hb
    split at hb <;> obtain rfl := Except.ok.inj hb
    case h_1 state kind he =>
      refine ⟨hoff, hred, fun p hp => ?_⟩
      rcases List.mem_append.1 hp with hp | hp
      · exact hold p hp
      · obtain rfl := List.mem_singleton.1 hp
        refine ⟨_, rfl, by omega, fun hk => ?_⟩
        rw [hoff, List.take_length, reduced_snoc]
        obtain rfl : kind = harnessFailure := hk
        exact h.reducer.failure he
    all_goals exact ⟨hoff, hred, hold⟩

theorem Batch.Consumed.feeds {rest : List LiveLine} :
    ∀ {lines : List LiveLine} {batch batch' : Batch}, batch.Consumed session lines →
      rest.foldlM (Batch.feed session now) batch = .ok batch' →
      batch'.Consumed session (lines ++ rest) := by
  induction rest with
  | nil =>
    intro lines batch batch' h hb
    obtain rfl := Except.ok.inj hb
    simpa using h
  | cons line rest ih =>
    intro lines batch batch' h hb
    rw [List.foldlM_cons] at hb
    obtain ⟨mid, hmid, hrest⟩ := bind_eq_ok.1 hb
    have := ih (h.feed hmid) hrest
    rwa [List.append_assoc] at this

/-- What a poll that starts at a line of the file makes of the rest: the events of its records,
and at most the failure of a process that is gone. -/
theorem readEvents_spec {cursor : JsonlCursor} {exited : Bool} {file : List LiveLine}
    {batch : Batch} (h : readEvents session now cursor exited file = .ok (some batch))
    (hc : Agrees cursor.reducer (reduced session (file.take cursor.offset))) :
    batch.cursor.offset = file.length ∧ Agrees batch.cursor.reducer (reduced session file) ∧
      ∀ p ∈ batch.events, p.FromLine session file ∨
        p.source = .exit ∧ exited ∧ (reduced session file).terminal = .active := by
  simp only [readEvents] at h
  split at h
  · exact nomatch h
  rename_i hoff
  split at h
  · exact nomatch Except.ok.inj h
  obtain ⟨last, hlast, hbatch⟩ := bind_eq_ok.1 h
  have hstart : Batch.Consumed session (file.take cursor.offset) { cursor := cursor } :=
    ⟨by simp only [List.length_take]; omega, hc, fun p hp => nomatch hp⟩
  have hend := hstart.feeds hlast
  rw [List.take_append_drop] at hend
  split at hbatch <;> obtain rfl := Option.some.inj (pure_eq_ok.1 hbatch)
  · rename_i hgone
    simp only [Bool.and_eq_true, decide_eq_true_eq] at hgone
    refine ⟨hend.offset, .inr rfl, fun p hp => ?_⟩
    rcases List.mem_append.1 hp with hp | hp
    · exact .inl (hend.events p hp)
    · obtain rfl := List.mem_singleton.1 hp
      refine .inr ⟨rfl, hgone.1.1, ?_⟩
      rcases hend.reducer with heq | hfail
      · exact heq ▸ hgone.2
      · exact absurd (hgone.2.symm.trans hfail) (by decide)
  · exact ⟨hend.offset, hend.reducer, fun p hp => .inl (hend.events p hp)⟩

end

/-! ## Every interleaving -/

namespace LiveSession

variable {α : Type} {session : SessionRef} {seen : α → LiveLine} {w w' : LiveSession α}
  {act : Act α} {n : Nat}

def output (seen : α → LiveLine) (w : LiveSession α) : List LiveLine := w.stdout.map seen

theorem file_eq : w.file seen = (w.output seen).take w.copied := List.map_take

/-- Pi only adds lines, and none after it exited; the pump only adds to the file. -/
structure Extends (w w' : LiveSession α) : Prop where
  stdout : ∃ more, w'.stdout = w.stdout ++ more
  copied : w.copied ≤ w'.copied
  exited : w.exited → w'.exited ∧ w'.stdout = w.stdout

theorem Extends.of_eq (ho : w'.stdout = w.stdout) (hc : w'.copied = w.copied)
    (he : w'.exited = w.exited) : Extends w w' :=
  ⟨⟨[], by simp [ho]⟩, hc.ge, fun h => ⟨he.trans h, ho⟩⟩

theorem next_extends (h : w.next session seen act = some w') : Extends w w' := by
  cases act with
  | write line =>
    simp only [next] at h
    split at h
    · exact nomatch h
    · rename_i hex
      obtain rfl := Option.some.inj h
      exact ⟨⟨_, rfl⟩, Nat.le_refl _, fun he => absurd he hex⟩
  | exit =>
    obtain rfl := Option.some.inj h
    exact ⟨⟨[], by simp⟩, Nat.le_refl _, fun _ => ⟨rfl, rfl⟩⟩
  | copy =>
    simp only [next] at h
    split at h
    · obtain rfl := Option.some.inj h
      exact ⟨⟨[], by simp⟩, Nat.le_succ _, fun he => ⟨he, rfl⟩⟩
    · exact nomatch h
  | openPoll | sample | read | save | abandon =>
    simp only [next] at h
    repeat' split at h
    all_goals
      first
        | (obtain rfl := Option.some.inj h; exact .of_eq rfl rfl rfl)
        | exact nomatch h

/-- A position in the file whose reduction a cursor holds. -/
def Tracks (session : SessionRef) (seen : α → LiveLine) (w : LiveSession α)
    (cursor : JsonlCursor) : Prop :=
  cursor.offset ≤ w.copied ∧
    Agrees cursor.reducer (reduced session ((w.output seen).take cursor.offset))

/-- The process is gone, and what it settled with is in the file. -/
def Gone (session : SessionRef) (seen : α → LiveLine) (w : LiveSession α) : Prop :=
  w.exited ∧ ∀ n, Settles session (w.output seen) n → n < w.copied

/-- Where an event comes from, in a form no later step changes. -/
def Justified (session : SessionRef) (seen : α → LiveLine) (w : LiveSession α) (p : LiveEvent) :
    Prop :=
  (∃ i, p.source = .line i ∧ i < w.copied ∧
    (p.event.kind = harnessFailure →
      (reduced session ((w.output seen).take (i + 1))).terminal = .harnessFailed)) ∨
  (p.source = .exit ∧ w.exited ∧ ∃ k ≤ w.copied,
    (reduced session ((w.output seen).take k)).terminal = .active ∧
      ∀ n, Settles session (w.output seen) n → n < k)

def PollSound (session : SessionRef) (seen : α → LiveLine) (w : LiveSession α) : Poll → Prop
  | .opened cursor => Tracks session seen w cursor
  | .sampled cursor exited => Tracks session seen w cursor ∧ (exited → Gone session seen w)
  | .reduced batch =>
    Tracks session seen w batch.cursor ∧ ∀ p ∈ batch.events, Justified session seen w p

structure Sound (session : SessionRef) (seen : α → LiveLine) (w : LiveSession α) : Prop where
  copied : w.copied ≤ w.stdout.length
  cursor : Tracks session seen w w.cursor
  polls : ∀ {i poll}, w.polls i = some poll → PollSound session seen w poll
  returned : ∀ p ∈ w.returned, Justified session seen w p

/-! What a later session has in common with an earlier one. -/

theorem Extends.take_output (h : Extends w w') (hc : w.copied ≤ w.stdout.length)
    (hn : n ≤ w.copied) : (w'.output seen).take n = (w.output seen).take n := by
  obtain ⟨more, hmore⟩ := h.stdout
  rw [output, output, hmore, List.map_append,
    List.take_append_of_le_length (by simp only [List.length_map]; omega)]

theorem Tracks.extend {cursor : JsonlCursor} (ht : Tracks session seen w cursor)
    (h : Extends w w') (hc : w.copied ≤ w.stdout.length) : Tracks session seen w' cursor :=
  ⟨ht.1.trans h.copied, by rw [h.take_output hc ht.1]; exact ht.2⟩

theorem Gone.extend (hg : Gone session seen w) (h : Extends w w') : Gone session seen w' := by
  obtain ⟨hex, hout⟩ := h.exited hg.1
  refine ⟨hex, fun n hn => (hg.2 n ?_).trans_le h.copied⟩
  rwa [output, hout] at hn

theorem Justified.extend {p : LiveEvent} (hj : Justified session seen w p) (h : Extends w w')
    (hc : w.copied ≤ w.stdout.length) : Justified session seen w' p := by
  rcases hj with ⟨i, hp, hi, hf⟩ | ⟨hp, hex, k, hk, hact, hset⟩
  · refine .inl ⟨i, hp, hi.trans_le h.copied, fun hkind => ?_⟩
    rw [h.take_output hc hi]
    exact hf hkind
  · obtain ⟨hex', hout⟩ := h.exited hex
    refine .inr ⟨hp, hex', k, hk.trans h.copied, ?_, ?_⟩
    · rw [h.take_output hc hk]
      exact hact
    · rwa [output, hout]

theorem PollSound.extend {poll : Poll} (hp : PollSound session seen w poll) (h : Extends w w')
    (hc : w.copied ≤ w.stdout.length) : PollSound session seen w' poll := by
  cases poll with
  | opened cursor => exact Tracks.extend hp h hc
  | sampled cursor exited => exact ⟨hp.1.extend h hc, fun he => (hp.2 he).extend h⟩
  | reduced batch => exact ⟨hp.1.extend h hc, fun p hpe => (hp.2 p hpe).extend h hc⟩

theorem Sound.extend (hs : Sound session seen w) (h : Extends w w')
    (hc : w'.copied ≤ w'.stdout.length) (hcursor : w'.cursor = w.cursor)
    (hpolls : w'.polls = w.polls) (hret : w'.returned = w.returned) : Sound session seen w' where
  copied := hc
  cursor := hcursor ▸ hs.cursor.extend h hs.copied
  polls := fun hp => (hs.polls (hpolls ▸ hp)).extend h hs.copied
  returned := fun p hp => (hs.returned p (hret ▸ hp)).extend h hs.copied

theorem Sound.setPoll (hs : Sound session seen w) {i : PollId} {poll : Option Poll}
    (hp : ∀ q, poll = some q → PollSound session seen w q) :
    Sound session seen (w.setPoll i poll) where
  copied := hs.copied
  cursor := hs.cursor
  returned := hs.returned
  polls := by
    intro j q hq
    simp only [LiveSession.setPoll] at hq
    split at hq
    · exact hp q hq
    · exact hs.polls hq

theorem Tracks.reads {cursor : JsonlCursor} {exited : Bool} {now : Timestamp} {batch : Batch}
    (ht : Tracks session seen w cursor) (hc : w.copied ≤ w.stdout.length)
    (hg : exited → Gone session seen w)
    (h : readEvents session now cursor exited (w.file seen) = .ok (some batch)) :
    PollSound session seen w (.reduced batch) := by
  have hlen : (w.file seen).length = w.copied := by simp [file, hc]
  have htake : ∀ {k}, k ≤ w.copied → (w.file seen).take k = (w.output seen).take k := by
    intro k hk
    rw [file_eq, List.take_take, Nat.min_eq_left hk]
  obtain ⟨hoff, hred, hev⟩ := readEvents_spec h (by rw [htake ht.1]; exact ht.2)
  refine ⟨⟨(hoff.trans hlen).le, ?_⟩, fun p hp => ?_⟩
  · rwa [hoff, hlen, ← file_eq]
  rcases hev p hp with ⟨i, hsrc, hi, hf⟩ | ⟨hsrc, hex, hact⟩
  · rw [hlen] at hi
    rw [htake hi] at hf
    exact .inl ⟨i, hsrc, hi, hf⟩
  · obtain ⟨hgone, hset⟩ := hg hex
    exact .inr ⟨hsrc, hgone, _, Nat.le_refl _, file_eq ▸ hact, hset⟩

/-- A poll that finds the process gone does so when the settle record is in the file. -/
def PumpAhead (session : SessionRef) (seen : α → LiveLine) (w : LiveSession α) : Act α → Prop
  | .sample _ registered =>
    registered → w.exited → ∀ n, Settles session (w.output seen) n → n < w.copied
  | _ => True

/-- The pump is through with what Pi wrote whenever a process is sampled. -/
def CaughtUp (w : LiveSession α) : Act α → Prop
  | .sample _ _ => w.copied = w.stdout.length
  | _ => True

instance : Decidable (CaughtUp w act) := by
  cases act <;> unfold CaughtUp <;> infer_instance

theorem CaughtUp.pumpAhead (h : CaughtUp w act) : PumpAhead session seen w act := by
  cases act with
  | sample i registered =>
    intro _ _ n hn
    have hlt := hn.lt
    rw [output, List.length_map] at hlt
    exact hlt.trans_eq h.symm
  | _ => trivial

theorem Sound.next (hs : Sound session seen w) (hok : PumpAhead session seen w act)
    (h : w.next session seen act = some w') : Sound session seen w' := by
  have hext := next_extends h
  cases act with
  | write line =>
    simp only [LiveSession.next] at h
    split at h
    · exact nomatch h
    · obtain rfl := Option.some.inj h
      exact hs.extend hext (hs.copied.trans (by simp)) rfl rfl rfl
  | exit =>
    obtain rfl := Option.some.inj h
    exact hs.extend hext hs.copied rfl rfl rfl
  | copy =>
    simp only [LiveSession.next] at h
    split at h
    · rename_i hlt
      obtain rfl := Option.some.inj h
      exact hs.extend hext hlt rfl rfl rfl
    · exact nomatch h
  | openPoll i =>
    simp only [LiveSession.next] at h
    split at h
    · obtain rfl := Option.some.inj h
      refine hs.setPoll fun q hq => ?_
      obtain rfl := Option.some.inj hq
      exact hs.cursor
    · exact nomatch h
  | sample i registered =>
    simp only [LiveSession.next] at h
    split at h
    · rename_i cursor hpoll
      obtain rfl := Option.some.inj h
      refine hs.setPoll fun q hq => ?_
      obtain rfl := Option.some.inj hq
      refine ⟨hs.polls hpoll, fun hex => ?_⟩
      obtain ⟨hreg, hex⟩ := (Bool.and_eq_true ..).mp hex
      exact ⟨hex, hok hreg hex⟩
    · exact nomatch h
  | read i now =>
    simp only [LiveSession.next] at h
    split at h
    · rename_i cursor exited hpoll
      split at h <;> obtain rfl := Option.some.inj h
      · rename_i batch hread
        refine hs.setPoll fun q hq => ?_
        obtain rfl := Option.some.inj hq
        obtain ⟨ht, hg⟩ := hs.polls hpoll
        exact Tracks.reads ht hs.copied hg hread
      all_goals exact hs.setPoll fun q hq => nomatch hq
    · exact nomatch h
  | save i =>
    simp only [LiveSession.next] at h
    split at h
    · rename_i batch hpoll
      obtain rfl := Option.some.inj h
      obtain ⟨ht, hev⟩ := hs.polls hpoll
      have hend : Sound session seen (w.setPoll i none) := hs.setPoll fun q hq => nomatch hq
      refine ⟨hs.copied, ht, hend.polls, fun p hp => ?_⟩
      rcases List.mem_append.1 hp with hp | hp
      · exact hs.returned p hp
      · exact hev p hp
    · exact nomatch h
  | abandon i =>
    obtain rfl := Option.some.inj h
    exact hs.setPoll fun q hq => nomatch hq

theorem Sound.spawned (earlier : List α) : Sound session seen (spawned earlier) where
  copied := Nat.le_refl _
  cursor := ⟨Nat.zero_le _, .inl rfl⟩
  polls := fun hp => nomatch hp
  returned := fun _ hp => nomatch hp

theorem Justified.run_ne {p : LiveEvent} (hj : Justified session seen w p)
    (hc : w.copied ≤ w.stdout.length) (hn : Settles session (w.output seen) n)
    (hk : p.event.kind = harnessFailure) :
    p.source.run (w.output seen) ≠ agentRun (w.output seen) n := by
  rcases hj with ⟨i, hp, -, hf⟩ | ⟨hp, -, k, hkc, hact, hset⟩
  · rw [hp]
    exact hn.run_ne_of_failed (hf hk)
  · rw [hp]
    intro hrun
    -- no run starts between the settle record and the end of the output
    have hlen : k ≤ (w.output seen).length := by
      simp only [output, List.length_map]
      omega
    refine hn.run_ne_of_active (hset n hn) hact (le_antisymm ?_ ?_)
    · exact (agentRun_mono hlen).trans hrun.le
    · exact agentRun_mono (hset n hn).le

/-- In every interleaving of Pi, the pump and the polls in which a poll finds the process gone only
once the settle record is in the file: a run of the agent that Pi settled is not reported as a
harness failure. -/
theorem no_false_harness_failure (session : SessionRef) (seen : α → LiveLine) (earlier : List α)
    (h : Reaches (fun w act w' => w.next session seen act = some w') (PumpAhead session seen)
      (spawned earlier) w)
    (hn : Settles session (w.output seen) n) {p : LiveEvent} (hp : p ∈ w.returned)
    (hrun : p.source.run (w.output seen) = agentRun (w.output seen) n) :
    p.event.kind ≠ .executionFailed .harnessFailed := by
  have hs : Sound session seen w :=
    h.invariant (fun _ _ _ hs hok hst => hs.next hok hst) (Sound.spawned earlier)
  exact fun hk => (hs.returned p hp).run_ne hs.copied hn hk hrun

end LiveSession

namespace Sample

def piSession : SessionRef := ⟨⟨"s"⟩, "/session", ⟨"e"⟩, "/workspace"⟩

def settledRun : List PiRecord :=
  [.agentStart, .messageEnd { role := some "assistant", stopReason := some "stop" }, .agentSettled]

/-- Pi writes it and exits, the pump copies `n` lines, and a poll follows. -/
def polledAfter (n : Nat) : List (LiveSession.Act PiRecord) :=
  settledRun.map .write ++ [.exit] ++ List.replicate n .copy ++
    [.openPoll 0, .sample 0 true, .read 0 5, .save 0]

theorem settledRun_settles : Settles piSession (settledRun.map .record) 2 :=
  ⟨.agentSettled, rfl, rfl, by decide⟩

end Sample

open LiveSession Sample in
theorem no_false_harness_failure_sample : ∃ w : LiveSession PiRecord,
    Reaches (fun w act w' => w.next piSession .record act = some w') (PumpAhead piSession .record)
      (spawned []) w ∧
    w.stdout = settledRun ∧ w.exited ∧ w.returned.length = 2 ∧
    ∀ p ∈ w.returned, p.source.run (w.output .record) = agentRun (w.output .record) 2 →
      p.event.kind ≠ .executionFailed .harnessFailed := by
  have hrun : (follow (next piSession .record) CaughtUp (spawned []) (polledAfter 3)).map
      (fun w => (w.stdout, w.exited, w.returned.length)) = some (settledRun, true, 2) := by decide
  obtain ⟨w, hw, heq⟩ := Option.map_eq_some_iff.1 hrun
  obtain ⟨hout, hexit, hlen⟩ : w.stdout = settledRun ∧ w.exited = true ∧ w.returned.length = 2 := by
    simpa using heq
  have hreach : Reaches (fun w act w' => w.next piSession .record act = some w')
      (PumpAhead piSession .record) (spawned []) w :=
    (reaches_of_follow hw).mono fun _ _ h => h.pumpAhead
  refine ⟨w, hreach, hout, hexit, hlen, fun p hp hr => ?_⟩
  have hset : Settles piSession (w.output .record) 2 := by
    rw [output, hout]
    exact settledRun_settles
  exact no_false_harness_failure _ _ _ hreach hset hp hr

open LiveSession Sample in
/-- A poll samples the exited process and reads the file while the settle record is still in the
pipe. -/
theorem pump_behind : ∃ w : LiveSession PiRecord,
    Reaches (fun w act w' => w.next piSession .record act = some w') (fun _ _ => True)
      (spawned []) w ∧
    Settles piSession (w.output .record) 2 ∧ w.exited ∧ ∃ p ∈ w.returned,
      p.source.run (w.output .record) = agentRun (w.output .record) 2 ∧
        p.event.kind = .executionFailed .harnessFailed := by
  have hrun : (follow (next piSession .record) (fun _ _ => True) (spawned []) (polledAfter 2)).map
      (fun w => (w.stdout, w.exited, w.returned.map fun p => (p.source, p.event.kind))) =
      some (settledRun, true, [(.line 0, .agentStarted ⟨"s"⟩), (.exit, harnessFailure)]) := by
    decide
  obtain ⟨w, hw, heq⟩ := Option.map_eq_some_iff.1 hrun
  simp only [Prod.mk.injEq] at heq
  obtain ⟨hout, hexit, hret⟩ := heq
  have hlines : w.output .record = settledRun.map .record := by rw [output, hout]
  have hmem : (EventSource.exit, harnessFailure) ∈
      w.returned.map fun p => (p.source, p.event.kind) := by
    rw [hret]
    decide
  obtain ⟨p, hp, hpe⟩ := List.mem_map.1 hmem
  obtain ⟨hsrc, hkind⟩ := Prod.mk.inj hpe
  refine ⟨w, reaches_of_follow hw, hlines ▸ settledRun_settles, hexit, p, hp, ?_, hkind⟩
  rw [hsrc, hlines]
  decide

end Orchestrator
