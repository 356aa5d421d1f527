import Orchestrator.Harness.Sessions

/-!
# What a restart finds again

The cursor of a poll is on disk before any of its events is committed, and a poll never returns an
event its cursor is past (`Behind`). So what the worker has in hand when it dies is not returned by
any later poll. The file of a session is found exactly when no file that sorts before it has the
session's id in its name or its first line; the id of a session is part of the ids of its forks.
-/

namespace Orchestrator

open Txn

/-! ## Events in hand -/

section Events
variable {session : SessionRef} {now : Timestamp}

theorem feed_sources {batch batch' : Batch} {line : LiveLine}
    (h : batch.feed session now line = .ok batch') :
    batch'.cursor.offset = batch.cursor.offset + 1 ∧
      ∀ p ∈ batch'.events, p ∈ batch.events ∨ p.source = .line batch.cursor.offset := by
  cases line with
  | blank =>
    obtain rfl := Except.ok.inj h
    exact ⟨rfl, fun p hp => .inl hp⟩
  | invalid => exact nomatch h
  | record record =>
    simp only [Batch.feed] at h
    split at h <;> obtain rfl := Except.ok.inj h
    · refine ⟨rfl, fun p hp => ?_⟩
      rcases List.mem_append.1 hp with hp | hp
      · exact .inl hp
      · exact .inr (by rw [List.mem_singleton.1 hp])
    all_goals exact ⟨rfl, fun p hp => .inl hp⟩

theorem feeds_sources {lines : List LiveLine} {batch batch' : Batch}
    (h : lines.foldlM (Batch.feed session now) batch = .ok batch') :
    batch'.cursor.offset = batch.cursor.offset + lines.length ∧ ∀ p ∈ batch'.events,
      p ∈ batch.events ∨ ∃ i, p.source = .line i ∧ batch.cursor.offset ≤ i ∧
        i < batch'.cursor.offset := by
  induction lines generalizing batch with
  | nil =>
    obtain rfl := Except.ok.inj h
    exact ⟨rfl, fun p hp => .inl hp⟩
  | cons line lines ih =>
    rw [List.foldlM_cons] at h
    obtain ⟨mid, hmid, hrest⟩ := bind_eq_ok.1 h
    obtain ⟨hoffset, hevents⟩ := feed_sources hmid
    obtain ⟨hlength, hrest⟩ := ih hrest
    refine ⟨by simp only [List.length_cons]; omega, fun p hp => ?_⟩
    rcases hrest p hp with hp | ⟨i, hi, hle, hlt⟩
    · rcases hevents p hp with hp | hp
      · exact .inl hp
      · exact .inr ⟨_, hp, le_rfl, by omega⟩
    · exact .inr ⟨i, hi, by omega, hlt⟩

/-- The same event: of the same line, or the exit seen at the same end of the file. -/
def PolledEvent.Same (p q : PolledEvent) : Prop :=
  p.live.source = q.live.source ∧ (p.live.source = .exit → p.upTo = q.upTo)

def PolledEvent.Behind (cursor : JsonlCursor) (p : PolledEvent) : Prop :=
  match p.live.source with
  | .line i => i < cursor.offset
  | .exit => p.upTo < cursor.offset ∨ p.upTo = cursor.offset ∧ cursor.reducer.terminal ≠ .active

theorem PolledEvent.Same.behind {cursor : JsonlCursor} {p q : PolledEvent} (h : p.Same q)
    (hp : p.Behind cursor) : q.Behind cursor := by
  unfold Behind at hp ⊢
  rw [← h.1]
  cases hsource : p.live.source with
  | line i => simpa [hsource] using hp
  | exit => simpa [hsource, h.2 hsource] using hp

theorem PolledEvent.Behind.mono {c c' : JsonlCursor} {p : PolledEvent} (h : p.Behind c)
    (hle : c.offset ≤ c'.offset) (hsame : c'.offset = c.offset → c.reducer.terminal ≠ .active →
      c'.reducer.terminal ≠ .active) : p.Behind c' := by
  unfold Behind at h ⊢
  cases hsource : p.live.source with
  | line i =>
    simp only [hsource] at h ⊢
    omega
  | exit =>
    simp only [hsource] at h ⊢
    rcases h with hlt | ⟨heq, hactive⟩
    · exact .inl (by omega)
    · rcases Nat.lt_or_ge c.offset c'.offset with hlt | hge
      · exact .inl (by omega)
      · exact .inr ⟨by omega, hsame (by omega) hactive⟩

theorem readEvents_behind {cursor : JsonlCursor} {exited : Bool} {file : List LiveLine}
    {batch : Batch} (h : readEvents session now cursor exited file = .ok (some batch)) :
    (∀ p : PolledEvent, p.Behind cursor → p.Behind batch.cursor) ∧ ∀ p ∈ batch.events,
      ¬PolledEvent.Behind cursor ⟨batch.cursor.offset, p⟩ ∧
        PolledEvent.Behind batch.cursor ⟨batch.cursor.offset, p⟩ := by
  simp only [readEvents] at h
  split at h
  · exact nomatch h
  split at h
  · exact nomatch Except.ok.inj h
  obtain ⟨last, hlast, hbatch⟩ := bind_eq_ok.1 h
  obtain ⟨hlength, hevents⟩ := feeds_sources hlast
  replace hlength : last.cursor.offset = cursor.offset + (file.drop cursor.offset).length := hlength
  -- without a new line the reducer is as it was
  have hsame : last.cursor.offset = cursor.offset → last.cursor = cursor := by
    intro heq
    have hnil : file.drop cursor.offset = [] := List.eq_nil_of_length_eq_zero (by omega)
    rw [hnil] at hlast
    exact (Except.ok.inj hlast) ▸ rfl
  have hline : ∀ p ∈ last.events, ∀ n (c : JsonlCursor), c.offset = last.cursor.offset →
      ¬PolledEvent.Behind cursor ⟨n, p⟩ ∧ PolledEvent.Behind c ⟨n, p⟩ := by
    intro p hp n c hc
    rcases hevents p hp with hp | ⟨i, hi, hle, hlt⟩
    · exact nomatch hp
    · have hle : cursor.offset ≤ i := hle
      simp only [PolledEvent.Behind, hi]
      omega
  split at hbatch <;> obtain rfl := Option.some.inj (pure_eq_ok.1 hbatch)
  · rename_i hgone
    simp only [Bool.and_eq_true, decide_eq_true_eq] at hgone
    have hoffset : (last.reportExit session now).cursor.offset = last.cursor.offset := rfl
    refine ⟨fun p hp => hp.mono (by omega) fun _ _ => nofun, fun p hp => ?_⟩
    rcases List.mem_append.1 hp with hp | hp
    · exact hline p hp _ _ rfl
    · obtain rfl := List.mem_singleton.1 hp
      refine ⟨?_, .inr ⟨rfl, nofun⟩⟩
      rintro (hlt | ⟨heq, hactive⟩)
      · have hlt : last.cursor.offset < cursor.offset := hlt
        omega
      · exact hactive hgone.1.2
  · refine ⟨fun p hp => hp.mono (by omega) fun heq hactive => ?_, fun p hp => hline p hp _ _ rfl⟩
    rw [hsame heq]
    exact hactive

end Events

namespace Delivery

variable {session : SessionRef} {d d' : Delivery} {p : PolledEvent}

theorem Step.cases (h : Step session d d') :
    (∃ now exited batch, readEvents session now d.cursor exited d.file = .ok (some batch) ∧
      d'.cursor = batch.cursor ∧ d'.inHand = batch.events.map (⟨batch.cursor.offset, ·⟩)) ∨
    d'.cursor = d.cursor ∧ ∀ q ∈ d'.inHand, q ∈ d.inHand := by
  obtain ⟨act, h⟩ := h
  cases act with
  | append line | process exited | crash =>
    obtain rfl := Option.some.inj h
    simp
  | record =>
    simp only [next] at h
    split at h
    · exact nomatch h
    · rename_i q rest hrest
      obtain rfl := Option.some.inj h
      exact .inr ⟨rfl, fun r hr => hrest ▸ .tail _ hr⟩
  | poll now registered =>
    simp only [next] at h
    split at h
    · split at h <;> obtain rfl := Option.some.inj h
      · rename_i batch hread
        exact .inl ⟨now, _, batch, hread, rfl, rfl⟩
      all_goals exact .inr ⟨rfl, fun _ hq => hq⟩
    · exact nomatch h

theorem behind_run (h : Relation.ReflTransGen (Step session) d d')
    (hd : ∀ q ∈ d.inHand, q.Behind d.cursor) : ∀ q ∈ d'.inHand, q.Behind d'.cursor := by
  induction h with
  | refl => exact hd
  | tail _ hst ih =>
    rcases hst.cases with ⟨_, _, batch, hread, hcursor, hhand⟩ | ⟨hcursor, hhand⟩
    · intro q hq
      rw [hhand] at hq
      obtain ⟨r, hr, rfl⟩ := List.mem_map.1 hq
      exact hcursor ▸ ((readEvents_behind hread).2 r hr).2
    · exact fun q hq => hcursor ▸ ih q (hhand q hq)

theorem not_returned_again (h : Relation.ReflTransGen (Step session) d d')
    (hp : p.Behind d.cursor) (hnone : d.inHand = []) : ∀ q ∈ d'.inHand, ¬p.Same q := by
  have hboth : p.Behind d'.cursor ∧ ∀ q ∈ d'.inHand, ¬p.Same q := by
    induction h with
    | refl => exact ⟨hp, by simp [hnone]⟩
    | tail _ hst ih =>
      rcases hst.cases with ⟨_, _, batch, hread, hcursor, hhand⟩ | ⟨hcursor, hhand⟩
      · refine ⟨hcursor ▸ (readEvents_behind hread).1 p ih.1, fun q hq hsame => ?_⟩
        rw [hhand] at hq
        obtain ⟨r, hr, rfl⟩ := List.mem_map.1 hq
        exact ((readEvents_behind hread).2 r hr).1 (hsame.behind ih.1)
      · exact ⟨hcursor ▸ ih.1, fun q hq => ih.2 q (hhand q hq)⟩
  exact hboth.2

/-- After a crash some later poll returns the event. -/
def Redelivered (session : SessionRef) (d : Delivery) (p : PolledEvent) : Prop :=
  ∃ d', Relation.ReflTransGen (Step session) { d with inHand := [] } d' ∧ ∃ q ∈ d'.inHand, p.Same q

/-- A crash loses nothing exactly when everything polled was committed. -/
theorem crash_loses_nothing_iff (session : SessionRef) {d : Delivery}
    (h : Relation.ReflTransGen (Step session) {} d) :
    (∀ p ∈ d.inHand, d.Redelivered session p) ↔ d.inHand = [] := by
  constructor
  · intro hall
    refine List.eq_nil_iff_forall_not_mem.2 fun p hp => ?_
    obtain ⟨d', hrun, q, hq, hsame⟩ := hall p hp
    have hbehind : p.Behind d.cursor := behind_run h (fun q hq => absurd hq List.not_mem_nil) p hp
    exact not_returned_again (d := { d with inHand := [] }) hrun hbehind rfl q hq hsame
  · intro hnone
    exact fun p hp => absurd (hnone ▸ hp) List.not_mem_nil

theorem reached_of_foldlM (acts : List Act) (h : acts.foldlM (next session) d = some d') :
    Relation.ReflTransGen (Step session) d d' := by
  induction acts generalizing d with
  | nil => exact Option.some.inj h ▸ .refl
  | cons act acts ih =>
    obtain ⟨mid, hmid, hrest⟩ := Option.bind_eq_some_iff.1 h
    exact .head ⟨act, hmid⟩ (ih hrest)

namespace Sample

def conversation : SessionRef := ⟨⟨"e"⟩, "/s", ⟨"e"⟩, "/w"⟩

def acts : List Act :=
  [.append (.record .agentStart), .append (.record (.messageEnd { role := some "assistant" })),
    .append (.record .agentSettled), .poll 7 true]

def settled : Delivery := (acts.foldlM (next conversation) {}).getD {}

theorem reached_settled : Relation.ReflTransGen (Step conversation) {} settled :=
  reached_of_foldlM acts (by decide +kernel)

theorem reached_recorded :
    Relation.ReflTransGen (Step conversation) {} { settled with
      inHand := [], recorded := settled.inHand } :=
  reached_settled.trans (reached_of_foldlM [.record, .record] (by decide +kernel))

end Sample

open Sample in
/-- The worker dies before it has recorded `ReviewReady`. -/
theorem crash_loses_review_ready : Relation.ReflTransGen (Step conversation) {} settled ∧
    ∃ p ∈ settled.inHand, p.live.event.kind = .reviewReady ∧
      ¬settled.Redelivered conversation p := by
  refine ⟨reached_settled, ⟨3, .line 2, liveEvent conversation 7 .reviewReady .reviewReady⟩,
    by decide +kernel, rfl, ?_⟩
  rintro ⟨d', hrun, q, hq, hsame⟩
  refine not_returned_again (d := { settled with inHand := [] }) hrun ?_ rfl q hq hsame
  show 2 < settled.cursor.offset
  decide +kernel

open Sample in
/-- Once both events are recorded, there is nothing left to lose. -/
theorem crash_loses_nothing_iff_sample :
    let d : Delivery := { settled with inHand := [], recorded := settled.inHand }
    ∀ p ∈ d.inHand, d.Redelivered conversation p :=
  (crash_loses_nothing_iff conversation reached_recorded).2 rfl

end Delivery

/-! ## The file of a session -/

/-- A conversation directory of execution `e`: which native file is of which session. -/
structure Conversation (e : String) (dir : List SessionFile) where
  names : (dir.map SessionFile.name).Nodup
  owner : SessionFile → Option String
  native : ∀ {f s}, f ∈ dir → owner f = some s →
    f.candidate = true ∧ SessionOf e s ∧ holdsText f.name s = true
  one : ∀ {f g s}, f ∈ dir → g ∈ dir → owner f = some s → owner g = some s → f = g

/-- The file of a session is found unless one that sorts before it is taken for it. -/
theorem session_file_found_iff {e : String} {dir : List SessionFile} (c : Conversation e dir)
    {f : SessionFile} {s : String} (hf : f ∈ dir) (hs : c.owner f = some s) :
    findSessionFile dir s = some f ↔
      ∀ g ∈ dir, g.candidate = true → g.name < f.name → g.isFor s = false := by
  obtain ⟨hcandidate, _, hname⟩ := c.native hf hs
  have hfor : f.isFor s = true := by rw [SessionFile.isFor, hname, Bool.true_or]
  let before : SessionFile → SessionFile → Prop := fun f g => f.name ≤ g.name
  have hperm := List.perm_insertionSort before (dir.filter SessionFile.candidate)
  have hsorted := List.pairwise_insertionSort before (dir.filter SessionFile.candidate)
  have hnames : (((dir.filter SessionFile.candidate).insertionSort before).map
      SessionFile.name).Nodup :=
    (hperm.map _).nodup_iff.2 ((List.filter_sublist.map _).nodup c.names)
  have hmem : ∀ {g}, g ∈ (dir.filter SessionFile.candidate).insertionSort before ↔
      g ∈ dir ∧ g.candidate = true := fun {g} => hperm.mem_iff.trans List.mem_filter
  unfold findSessionFile
  rw [List.find?_eq_some_iff_append]
  generalize (dir.filter SessionFile.candidate).insertionSort before = files at *
  constructor
  · rintro ⟨_, first, rest, rfl, hfirst⟩ g hg hgc hlt
    rcases List.mem_append.1 (hmem.2 ⟨hg, hgc⟩) with hg | hg
    · simpa using hfirst g hg
    · rcases List.mem_cons.1 hg with rfl | hg
      · exact absurd hlt (lt_irrefl _)
      · have hle := (List.pairwise_cons.1 (List.pairwise_append.1 hsorted).2.1).1 g hg
        exact absurd hlt (not_lt.2 hle)
  · intro hnone
    obtain ⟨first, rest, rfl⟩ := List.append_of_mem (hmem.2 ⟨hf, hcandidate⟩)
    refine ⟨hfor, first, rest, rfl, fun g hg => ?_⟩
    have hle : g.name ≤ f.name := (List.pairwise_append.1 hsorted).2.2 g hg f (.head _)
    have hne : g.name ≠ f.name := by
      rw [List.map_append] at hnames
      exact (List.nodup_append.1 hnames).2.2 _ (List.mem_map_of_mem hg) _ (.head _)
    obtain ⟨hgd, hgc⟩ := hmem.1 (List.mem_append_left _ hg)
    simp [hnone g hgd hgc (lt_of_le_of_ne hle hne)]

namespace Sample

def own : SessionFile := { name := "e.jsonl", firstId := some "e" }

def forked : SessionFile := { name := "e-fork-1.jsonl", firstId := some "e-fork-1" }

def directory : Conversation "e" [own, forked] where
  names := by decide
  owner f := f.firstId
  native := by
    intro f s hf hs
    rcases List.mem_pair.1 hf with rfl | rfl <;> obtain rfl := Option.some.inj hs
    · exact ⟨by decide, .start, by decide⟩
    · exact ⟨by decide, .fork 1 .start, by decide⟩
  one := by
    intro f g s hf hg hs ht
    rcases List.mem_pair.1 hf with rfl | rfl <;> rcases List.mem_pair.1 hg with rfl | rfl
    all_goals first | rfl | exact nomatch hs.trans ht.symm

end Sample

open Sample in
/-- The file of the fork sorts before that of the session, and has its id in its name. -/
theorem fork_found_instead : directory.owner own = some "e" ∧
    findSessionFile [own, forked] "e" = some forked := by
  decide +kernel

open Sample in
theorem session_file_found_iff_sample : findSessionFile [own, forked] "e-fork-1" = some forked := by
  refine (session_file_found_iff directory (List.mem_pair.2 (.inr rfl)) rfl).2 fun g hg _ hlt => ?_
  rcases List.mem_pair.1 hg with rfl | rfl
  · decide +kernel
  · exact absurd hlt (lt_irrefl _)

end Orchestrator
