import Orchestrator.Lib.Gapless
import Orchestrator.Persistence.EventLog
import Orchestrator.Persistence.Proof.Rows

/-!
# The event log has no gaps

Whoever inserts into an execution's events holds its advisory lock until the transaction ends
(`Sound`), so nobody else's numbers can come in between: what is committed of an execution and what
the lock's holder added are together numbered `1, 2, …, n`. A rollback drops numbers from the end
only, before anybody else read them.

The transactions of `Persistence.Executions` append with `Store.append`, at once. `committed_replays`
says that a log the interleaved statements produce is the one `Store.append` builds from the same
events in commit order; `publishes_committed`, that the callers use nothing else.
-/

namespace Orchestrator

/-- The execution an unfinished append of a connection is for. -/
def AppendStage.Concerns (id : ExecutionId) : AppendStage → Prop
  | .idle => False
  | .locked event => event.executionId = id
  | .numbered event _ => event.executionId = id

namespace EventLog

variable {κ : Type} {hash : ExecutionId → κ} {log log' : EventLog κ} {c d : Connection}
  {e : ExecutionId} {act : Act}

def numbers (rows : List EventRow) : List Nat := rows.map fun r => r.sequence

def writtenOf (log : EventLog κ) (c : Connection) (id : ExecutionId) : List EventRow :=
  (log.written c).filter fun r => r.executionId = id

theorem visible_eq (log : EventLog κ) (c : Connection) (id : ExecutionId) :
    log.visible c id = log.committedOf id ++ log.writtenOf c id :=
  List.filter_append ..

theorem mem_written {r : EventRow} : r ∈ log.written c ↔ (c, r) ∈ log.uncommitted := by
  simp only [written, List.mem_map, List.mem_filter, decide_eq_true_eq]
  constructor
  · rintro ⟨⟨_, _⟩, ⟨hp, rfl⟩, rfl⟩
    exact hp
  · exact fun h => ⟨_, ⟨h, rfl⟩, rfl⟩

theorem written_close_self : (log.close c).written c = [] := by
  simp [written, close, setStage, List.filter_filter]

theorem written_close_other (h : d ≠ c) : (log.close c).written d = log.written d := by
  have hand : ∀ p : Connection × EventRow,
      (decide (p.1 = d) && decide (p.1 ≠ c)) = decide (p.1 = d) := by
    intro p
    by_cases hp : p.1 = d
    · simp [hp, h]
    · simp [hp]
  simp only [written, close, List.filter_filter, hand]

theorem written_snoc (r : EventRow) :
    written { log with uncommitted := log.uncommitted ++ [(c, r)] } d =
      log.written d ++ if c = d then [r] else [] := by
  by_cases h : c = d <;> simp [written, List.filter_append, h]

/-! ## The lock guards the numbers -/

structure Sound (hash : ExecutionId → κ) (log : EventLog κ) : Prop where
  /-- Rows of an open transaction are under its lock, -/
  guarded : ∀ {c r}, (c, r) ∈ log.uncommitted → log.holder (hash r.executionId) = some c
  /-- and so is an append on its way. -/
  staged : ∀ {c e}, (log.stage c).Concerns e → log.holder (hash e) = some c
  /-- A number that was read still comes next. -/
  current : ∀ {c event n}, log.stage c = .numbered event n →
    n = (log.visible c event.executionId).length + 1
  /-- Every transaction sees a gapless numbering. -/
  gapless : ∀ c e, Gapless (numbers (log.visible c e))

theorem visible_length (h : Gapless (numbers (log.visible c e))) :
    nextSequence (log.visible c e) = (log.visible c e).length + 1 := by
  have hmax := h.foldl_max
  rw [numbers, List.length_map] at hmax
  rw [nextSequence, hmax]

theorem Sound.committed (h : Sound hash log) (e : ExecutionId) :
    Gapless (numbers (log.committedOf e)) := by
  have hvis := h.gapless 0 e
  rw [visible_eq, numbers, List.map_append] at hvis
  exact hvis.left

theorem Sound.writtenOf_eq_nil (h : Sound hash log) (hd : log.holder (hash e) = some d)
    (hne : c ≠ d) : log.writtenOf c e = [] := by
  refine List.filter_eq_nil_iff.2 fun r hr => ?_
  rw [decide_eq_true_eq]
  rintro rfl
  have hc := h.guarded (mem_written.1 hr)
  exact hne (Option.mem_unique hc hd)

theorem sound_initial : Sound hash ({} : EventLog κ) where
  guarded h := nomatch h
  staged h := h.elim
  current h := nomatch h
  gapless _ _ := .nil

theorem stage_setStage (s : AppendStage) :
    (log.setStage c s).stage d = if d = c then s else log.stage d := rfl

theorem Sound.number {event : ExecutionEvent} (h : Sound hash log)
    (hst : log.stage c = .locked event) :
    Sound hash (log.setStage c
      (.numbered event (nextSequence (log.visible c event.executionId)))) := by
  refine ⟨h.guarded, fun {d e} hd => ?_, fun {d event' n} hd => ?_, h.gapless⟩
  · rw [stage_setStage] at hd
    split at hd
    · rename_i hdc
      have hheld : (log.stage c).Concerns e := by
        rw [hst]
        exact hd
      rw [hdc]
      exact h.staged hheld
    · exact h.staged hd
  · rw [stage_setStage] at hd
    split at hd
    · rename_i hdc
      obtain ⟨rfl, rfl⟩ := AppendStage.numbered.inj hd
      rw [hdc]
      exact visible_length (h.gapless c _)
    · exact h.current hd

theorem Sound.insert {event : ExecutionEvent} {n : Nat} (h : Sound hash log)
    (hst : log.stage c = .numbered event n) :
    Sound hash { log.setStage c .idle with
      uncommitted := log.uncommitted ++ [(c, persisted event n)] } := by
  have hheld : log.holder (hash event.executionId) = some c := h.staged (hst ▸ rfl)
  have hn : n = (log.visible c event.executionId).length + 1 := h.current hst
  let log' : EventLog κ := { log.setStage c .idle with
    uncommitted := log.uncommitted ++ [(c, persisted event n)] }
  have hvis : ∀ d e, log'.visible d e =
      log.visible d e ++ if c = d ∧ event.executionId = e then [persisted event n] else [] := by
    intro d e
    have hw : log'.written d = log.written d ++ if c = d then [persisted event n] else [] :=
      written_snoc _
    have hc : log'.committed = log.committed := rfl
    rw [visible, hc, hw, ← List.append_assoc, List.filter_append, visible]
    by_cases hd : c = d <;> by_cases he : event.executionId = e <;>
      simp [hd, he, persisted]
  refine ⟨fun {d r} hr => ?_, fun {d e} hd => ?_, fun {d event' m} hd => ?_, fun d e => ?_⟩
  · rcases List.mem_append.1 hr with hr | hr
    · exact h.guarded hr
    · obtain ⟨rfl, rfl⟩ := Prod.mk.inj (List.mem_singleton.1 hr)
      exact hheld
  · rw [stage_setStage] at hd
    split at hd
    · exact hd.elim
    · exact h.staged hd
  · rw [stage_setStage] at hd
    split at hd
    · exact nomatch hd
    · rename_i hdc
      show m = (log'.visible d event'.executionId).length + 1
      rw [hvis, if_neg fun hcd => hdc hcd.1.symm, List.append_nil]
      exact h.current hd
  · show Gapless (numbers (log'.visible d e))
    rw [hvis]
    split
    · rename_i hde
      obtain ⟨rfl, rfl⟩ := hde
      have hsnoc := (h.gapless c event.executionId).snoc
      rw [numbers, List.length_map, ← hn] at hsnoc
      rw [numbers, List.map_append]
      exact hsnoc
    · rw [List.append_nil]
      exact h.gapless d e

theorem holder_close {k : κ} (h : log.holder k = some d) (hne : d ≠ c) :
    (log.close c).holder k = some d := by
  have hkc : log.holder k ≠ some c := fun hc => hne (Option.mem_unique h hc)
  show (if log.holder k = some c then none else log.holder k) = some d
  rw [if_neg hkc, h]

theorem Sound.guarded_close (h : Sound hash log) {r : EventRow}
    (hr : (d, r) ∈ (log.close c).uncommitted) :
    (log.close c).holder (hash r.executionId) = some d := by
  obtain ⟨hr, hne⟩ := List.mem_filter.1 hr
  exact holder_close (h.guarded hr) (of_decide_eq_true hne)

theorem Sound.staged_close (h : Sound hash log) (hd : ((log.close c).stage d).Concerns e) :
    (log.close c).holder (hash e) = some d := by
  have hst : (log.close c).stage d = if d = c then .idle else log.stage d := rfl
  rw [hst] at hd
  split at hd
  · exact hd.elim
  · exact holder_close (h.staged hd) ‹_›

theorem stage_close_numbered {event : ExecutionEvent} {n : Nat}
    (h : (log.close c).stage d = .numbered event n) : d ≠ c ∧ log.stage d = .numbered event n := by
  have hst : (log.close c).stage d = if d = c then .idle else log.stage d := rfl
  rw [hst] at h
  split at h
  · exact nomatch h
  · exact ⟨‹_›, h⟩

theorem visible_close_other (hne : d ≠ c) : (log.close c).visible d e = log.visible d e := by
  rw [visible, written_close_other hne]
  rfl

theorem Sound.close (h : Sound hash log) (c : Connection) : Sound hash (log.close c) := by
  refine ⟨h.guarded_close, h.staged_close, fun {d event n} hd => ?_, fun d e => ?_⟩
  · obtain ⟨hne, hd⟩ := stage_close_numbered hd
    rw [visible_close_other hne]
    exact h.current hd
  · by_cases hdc : d = c
    · have hvis : (log.close c).visible d e = log.committedOf e := by
        rw [visible, hdc, written_close_self, List.append_nil]
        rfl
      rw [hvis]
      exact h.committed e
    · rw [visible_close_other hdc]
      exact h.gapless d e

theorem Sound.commit (h : Sound hash log) (c : Connection) :
    Sound hash { log.close c with committed := log.committed ++ log.written c } := by
  let log' : EventLog κ := { log.close c with committed := log.committed ++ log.written c }
  have hvis : ∀ d e, log'.visible d e = log.visible c e ++ (log.close c).writtenOf d e :=
    fun d e => List.filter_append ..
  -- where another transaction has the lock, the commit adds nothing
  have hother : ∀ {d e}, d ≠ c → log.holder (hash e) = some d →
      log'.visible d e = log.visible d e := by
    intro d e hne hd
    rw [hvis, visible_eq, visible_eq, h.writtenOf_eq_nil hd hne.symm, List.append_nil, writtenOf,
      written_close_other hne]
    rfl
  refine ⟨h.guarded_close, h.staged_close, fun {d event n} hd => ?_, fun d e => ?_⟩
  · obtain ⟨hne, hd⟩ := stage_close_numbered hd
    have hheld : log.holder (hash event.executionId) = some d := h.staged (hd ▸ rfl)
    show n = (log'.visible d event.executionId).length + 1
    rw [hother hne hheld]
    exact h.current hd
  · show Gapless (numbers (log'.visible d e))
    by_cases hempty : (log.close c).writtenOf d e = []
    · rw [hvis, hempty, List.append_nil]
      exact h.gapless c e
    · obtain ⟨r, hr⟩ := List.exists_mem_of_ne_nil _ hempty
      obtain ⟨hr, hre⟩ := List.mem_filter.1 hr
      obtain ⟨hr, hne⟩ := List.mem_filter.1 (mem_written.1 hr)
      have hheld := h.guarded hr
      rw [of_decide_eq_true hre] at hheld
      rw [hother (of_decide_eq_true hne) hheld]
      exact h.gapless d e

/-! ## One statement -/

variable [DecidableEq κ]

/-- What a statement can do, guards included. -/
inductive Does (hash : ExecutionId → κ) (log : EventLog κ) : Act → EventLog κ → Prop
  | locked {c : Connection} {event : ExecutionEvent} (idle : log.stage c = .idle)
      (free : log.holder (hash event.executionId) = none ∨
        log.holder (hash event.executionId) = some c) :
      Does hash log (.lock c event) { log.setStage c (.locked event) with
        holder := fun k => if k = hash event.executionId then some c else log.holder k }
  | numbered {c : Connection} {event : ExecutionEvent} (stage : log.stage c = .locked event) :
      Does hash log (.number c) (log.setStage c
        (.numbered event (nextSequence (log.visible c event.executionId))))
  | refused {c : Connection} {event : ExecutionEvent} {sequence : Nat}
      (stage : log.stage c = .numbered event sequence) :
      Does hash log (.insert c) (log.close c)
  | inserted {c : Connection} {event : ExecutionEvent} {sequence : Nat}
      (stage : log.stage c = .numbered event sequence) :
      Does hash log (.insert c) { log.setStage c .idle with
        uncommitted := log.uncommitted ++ [(c, persisted event sequence)] }
  | committed {c : Connection} (idle : log.stage c = .idle) :
      Does hash log (.commit c)
        { log.close c with committed := log.committed ++ log.written c }
  | dropped {c : Connection} : Does hash log (.rollback c) (log.close c)

theorem does_of_next (h : log.next hash act = some log') : Does hash log act log' := by
  cases act with
  | lock c event =>
    simp only [next, Option.ite_none_right_eq_some, Option.some.injEq] at h
    obtain ⟨⟨hidle, hfree⟩, rfl⟩ := h
    exact .locked hidle hfree
  | number c =>
    simp only [next] at h
    split at h
    · obtain rfl := Option.some.inj h
      exact .numbered ‹_›
    · exact nomatch h
  | insert c =>
    simp only [next] at h
    split at h
    · split at h
      · exact nomatch h
      · split at h <;> obtain rfl := Option.some.inj h
        · exact .refused ‹_›
        · exact .inserted ‹_›
    · exact nomatch h
  | commit c =>
    simp only [next, Option.ite_none_right_eq_some, Option.some.injEq] at h
    obtain ⟨hidle, rfl⟩ := h
    exact .committed hidle
  | rollback c =>
    obtain rfl := Option.some.inj h
    exact .dropped

theorem Sound.lock {event : ExecutionEvent} (h : Sound hash log)
    (hfree : log.holder (hash event.executionId) = none ∨
      log.holder (hash event.executionId) = some c) :
    Sound hash { log.setStage c (.locked event) with
      holder := fun k => if k = hash event.executionId then some c else log.holder k } := by
  -- a lock somebody holds is either another one or was `c`'s before
  have hkeep : ∀ {k d}, log.holder k = some d →
      (if k = hash event.executionId then some c else log.holder k) = some d := by
    intro k d hk
    split
    · rename_i heq
      rcases hfree with hnone | hown
      · rw [heq, hnone] at hk
        exact nomatch hk
      · rw [heq, hown] at hk
        exact hk
    · exact hk
  refine ⟨fun hr => hkeep (h.guarded hr), fun {d e} hst => ?_, fun {d _ _} hst => ?_, h.gapless⟩
  · rw [stage_setStage] at hst
    split at hst
    · rename_i hdc
      have he : event.executionId = e := hst
      show (if hash e = _ then some c else _) = some d
      rw [he, if_pos rfl, hdc]
    · exact hkeep (h.staged hst)
  · rw [stage_setStage] at hst
    split at hst
    · exact nomatch hst
    · exact h.current hst

theorem Sound.step (h : Sound hash log) (hstep : log.next hash act = some log') :
    Sound hash log' := by
  cases does_of_next hstep with
  | locked _ hfree => exact h.lock hfree
  | numbered hst => exact h.number hst
  | refused => exact h.close _
  | inserted hst => exact h.insert hst
  | committed => exact h.commit _
  | dropped => exact h.close _

/-- A log some interleaving of transactions produces. -/
def Reachable (hash : ExecutionId → κ) (log : EventLog κ) : Prop :=
  Reaches (fun a act b => a.next hash act = some b) (fun _ _ => True) {} log

theorem sound_of_reachable (h : Reachable hash log) : Sound hash log :=
  h.invariant (fun _ _ _ ha _ hst => ha.step hst) sound_initial

theorem committed_grows (h : log.next hash act = some log') : log.committed <+: log'.committed := by
  cases does_of_next h with
  | committed => exact List.prefix_append ..
  | _ => exact List.prefix_rfl

theorem reachable_of_nexts {acts : List Act} (h : log.nexts hash acts = some log')
    (hlog : log.Reachable hash) : log'.Reachable hash := by
  induction acts generalizing log with
  | nil => exact Option.some.inj h ▸ hlog
  | cons act acts ih =>
    obtain ⟨log₁, hstep, hrest⟩ := Option.bind_eq_some_iff.1 h
    exact ih hrest (hlog.snoc trivial hstep)

/-! ## Readers -/

/-- The durable log of an execution, as a reader gets it. -/
def durable (log : EventLog κ) (id : ExecutionId) : List ExecutionEvent :=
  (log.committedOf id).map fun r => { r.payload with sequence := r.sequence }

omit [DecidableEq κ] in
theorem Sound.latestSequence (h : Sound hash log) (e : ExecutionId) :
    log.latestSequence e = (log.committedOf e).length := by
  have hmax := (h.committed e).foldl_max
  rw [numbers, List.length_map] at hmax
  exact hmax

omit [DecidableEq κ] in
theorem Sound.ordered (h : Sound hash log) (e : ExecutionId) :
    (log.committedOf e).Pairwise fun a b => a.sequence ≤ b.sequence :=
  List.pairwise_map.1 (h.committed e).pairwise

omit [DecidableEq κ] in
theorem Sound.sinceBatch_eq (h : Sound hash log) (e : ExecutionId) (after limit : Nat) :
    log.sinceBatch e after limit = ((log.durable e).drop after).take limit := by
  have hsort : ((log.committedOf e).filter fun r => after < r.sequence).insertionSort
      (fun a b => a.sequence ≤ b.sequence) =
        (log.committedOf e).filter fun r => after < r.sequence :=
    ((h.ordered e).filter _).insertionSort_eq
  rw [EventLog.sinceBatch, hsort, Gapless.filter_lt (h.committed e), durable, ← List.map_drop,
    ← List.map_take]

omit [DecidableEq κ] in
theorem Sound.durable_sequences (h : Sound hash log) (e : ExecutionId) :
    (log.durable e).map (fun event => event.sequence) = List.range' 1 (log.durable e).length := by
  have hgap := h.committed e
  rw [Gapless, numbers, List.length_map] at hgap
  rw [durable, List.map_map, List.length_map]
  exact hgap

theorem durable_prefix (h : log.next hash act = some log') (e : ExecutionId) :
    log.durable e <+: log'.durable e :=
  ((committed_grows h).filter _).map _

omit [DecidableEq κ] in
theorem Sound.sinceBatch (h : Sound hash log) (e : ExecutionId) (after limit : Nat) :
    (log.sinceBatch e after limit).map (fun event => event.sequence) =
      List.range' (after + 1) (min limit (log.latestSequence e - after)) := by
  rw [h.sinceBatch_eq, List.map_take, List.map_drop, h.durable_sequences, h.latestSequence, durable,
    List.length_map, List.drop_range', Gapless.take_range', Nat.mul_one, Nat.add_comm 1 after]

end EventLog

open EventLog in
/-- Whatever transactions interleave, the committed events of an execution are numbered `1, …, n`; a
statement that sees one number sees all below it, and a batch read continues where the cursor is. -/
theorem event_log_gapless {κ : Type} [DecidableEq κ] {hash : ExecutionId → κ} {log : EventLog κ}
    (h : log.Reachable hash) (e : ExecutionId) :
    numbers (log.committedOf e) = List.range' 1 (log.committedOf e).length ∧
      (∀ c j k, k ∈ numbers (log.visible c e) → 1 ≤ j → j ≤ k → j ∈ numbers (log.visible c e)) ∧
      (∀ j k, k ∈ numbers (log.committedOf e) → 1 ≤ j → j ≤ k → j ∈ numbers (log.committedOf e)) ∧
      ∀ after limit, (log.sinceBatch e after limit).map (fun event => event.sequence) =
        List.range' (after + 1) (min limit (log.latestSequence e - after)) := by
  have hs := sound_of_reachable h
  refine ⟨?_, fun c j k hk hj hle => ?_, fun j k hk hj hle => ?_, hs.sinceBatch e⟩
  · have hc := hs.committed e
    rw [Gapless, numbers, List.length_map] at hc
    exact hc
  · have hv := hs.gapless c e
    exact hv.mem_iff.2 ⟨hj, hle.trans (hv.mem_iff.1 hk).2⟩
  · have hc := hs.committed e
    exact hc.mem_iff.2 ⟨hj, hle.trans (hc.mem_iff.1 hk).2⟩

namespace Sample

def noted (id : ExecutionId) : ExecutionEvent :=
  { executionId := id, sequence := 0, at_ := 0, state := .cancelled, kind := .executionCancelled }

/-- Two executions under one lock: connection 0 appends and rolls back, connection 1 has to wait for
that and then appends to both. -/
def contended (e₁ e₂ : ExecutionId) : List EventLog.Act :=
  [.lock 0 (noted e₁), .number 0, .insert 0, .rollback 0, .lock 1 (noted e₁), .number 1, .insert 1,
    .lock 1 (noted e₂), .number 1, .insert 1, .lock 1 (noted e₁), .number 1, .insert 1, .commit 1]

end Sample

open EventLog in
theorem event_log_gapless_sample : ∃ log : EventLog Unit, log.Reachable (fun _ => ()) ∧
    (log.committedOf ⟨"e1"⟩).length = 2 ∧ numbers (log.committedOf ⟨"e1"⟩) = [1, 2] := by
  have hrun : (nexts (fun _ => ()) {} (Sample.contended ⟨"e1"⟩ ⟨"e2"⟩)).map
      (fun log => (log.committedOf ⟨"e1"⟩).length) = some 2 := by decide
  obtain ⟨log, hlog, hlen⟩ := Option.map_eq_some_iff.1 hrun
  have hreach : log.Reachable fun _ => () := reachable_of_nexts hlog .refl
  obtain ⟨hnum, -⟩ := event_log_gapless hreach ⟨"e1"⟩
  rw [hlen] at hnum
  exact ⟨log, hreach, hlen, hnum⟩

/-! ## The transactions of the store -/

namespace EventLog

variable {κ : Type} [DecidableEq κ] {hash : ExecutionId → κ} {log log' : EventLog κ} {act : Act}

/-- The row carries its own key in its payload. -/
def Faithful (r : EventRow) : Prop := r = persisted r.payload r.sequence

theorem faithful_persisted (event : ExecutionEvent) (n : Nat) : Faithful (persisted event n) := rfl

def rows (log : EventLog κ) : List EventRow := log.committed ++ log.uncommitted.map fun p => p.2

omit [DecidableEq κ] in
theorem rows_close {c : Connection} {r : EventRow} (h : r ∈ (log.close c).rows) : r ∈ log.rows := by
  rcases List.mem_append.1 h with h | h
  · exact List.mem_append_left _ h
  · obtain ⟨p, hp, rfl⟩ := List.mem_map.1 h
    exact List.mem_append_right _ (List.mem_map_of_mem (List.mem_filter.1 hp).1)

theorem faithful_step (h : ∀ r ∈ log.rows, Faithful r) (hstep : log.next hash act = some log') :
    ∀ r ∈ log'.rows, Faithful r := by
  intro r hr
  cases does_of_next hstep with
  | locked | numbered => exact h r hr
  | refused | dropped => exact h r (rows_close hr)
  | inserted =>
    rw [rows, List.map_append, ← List.append_assoc] at hr
    rcases List.mem_append.1 hr with hr | hr
    · exact h r hr
    · obtain rfl := List.mem_singleton.1 hr
      exact faithful_persisted ..
  | committed =>
    rcases List.mem_append.1 hr with hr | hr
    · rcases List.mem_append.1 hr with hr | hr
      · exact h r (List.mem_append_left _ hr)
      · exact h r (List.mem_append_right _ (List.mem_map_of_mem (mem_written.1 hr)))
    · exact h r (rows_close (List.mem_append_right _ hr))

theorem faithful_of_reachable (h : log.Reachable hash) : ∀ r ∈ log.committed, Faithful r := by
  have hrows : ∀ r ∈ log.rows, Faithful r :=
    h.invariant (I := fun log => ∀ r ∈ log.rows, Faithful r)
      (fun _ _ _ ha _ hst => faithful_step ha hst) (fun _ hr => nomatch hr)
  exact fun r hr => hrows r (List.mem_append_left _ hr)

/-- The store after the events of some rows are appended one after the other. -/
def replay (rows : List EventRow) : Store :=
  rows.foldl (fun s r => (s.append r.payload).2) Store.initial

theorem replay_events {rows : List EventRow}
    (hnum : ∀ e, Gapless (numbers (rows.filter fun r => r.executionId = e)))
    (hrows : ∀ r ∈ rows, Faithful r) : (replay rows).events.rows = rows := by
  induction rows using List.reverseRecOn with
  | nil => rfl
  | append_singleton rows r ih =>
    have hleft : ∀ e, Gapless (numbers (rows.filter fun r => r.executionId = e)) := by
      intro e
      have happ := hnum e
      rw [List.filter_append, numbers, List.map_append] at happ
      exact happ.left
    have hprev := ih hleft fun x hx => hrows x (List.mem_append_left _ hx)
    have hr : Faithful r := hrows r (by simp)
    have hid : r.payload.executionId = r.executionId := (congrArg EventRow.executionId hr).symm
    -- the number `append` takes is the one the row has
    have hseq : ((replay rows).append r.payload).1 = r.sequence := by
      have hown := hnum r.executionId
      have hlast : (rows ++ [r]).filter (fun x => x.executionId = r.executionId) =
          rows.filter (fun x => x.executionId = r.executionId) ++ [r] := by
        rw [List.filter_append]
        simp
      rw [hlast, numbers, List.map_append, Gapless, List.length_append,
        List.map_singleton, List.length_singleton, List.range'_1_concat] at hown
      obtain ⟨hinit, hnext⟩ := List.append_inj' hown rfl
      have hmax := (hleft r.executionId).foldl_max
      show nextSequence ((replay rows).events.rows.filter
        fun x => x.executionId = r.payload.executionId) = r.sequence
      rw [hprev, hid, nextSequence]
      rw [numbers] at hmax
      rw [hmax, (List.cons.inj hnext).1, Nat.add_comm]
    rw [replay, List.foldl_append, List.foldl_cons, List.foldl_nil, ← replay, Store.events_append,
      hprev, hseq]
    exact congrArg (fun x => rows ++ [x]) hr.symm

/-- The log that interleaved statements produce is the one `Store.append` builds from the same events
in commit order. -/
theorem committed_replays (h : log.Reachable hash) :
    (replay log.committed).events.rows = log.committed :=
  replay_events (sound_of_reachable h).committed (faithful_of_reachable h)

theorem committed_replays_sample : ∃ log : EventLog Unit, log.committed.length = 3 ∧
    (replay log.committed).events.rows = log.committed := by
  have hrun : (nexts (fun _ => ()) {} (Sample.contended ⟨"e1"⟩ ⟨"e2"⟩)).map
      (fun log => log.committed.length) = some 3 := by decide
  obtain ⟨log, hlog, hlen⟩ := Option.map_eq_some_iff.1 hrun
  exact ⟨log, hlen, committed_replays (reachable_of_nexts hlog .refl)⟩

end EventLog

namespace Store

open EventLog

variable {s s' : Store} {now : Timestamp}

/-- A transaction appends at most one event, numbered after those of its execution. -/
theorem publishes_committed {β : Type} {call : StoreCall β} (h : Committed now s call s') :
    s'.events.rows = s.events.rows ∨ ∃ event, s'.events.rows = s.events.rows ++
      [persisted event (nextSequence (s.eventsOf event.executionId))] := by
  cases writes_committed h with
  | nothing _ log | row _ _ log _ => exact .inl (congrArg _ log)
  | told _ _ _ _ log | late _ _ log => exact .inr ⟨_, (congrArg _ log).trans (events_append ..)⟩

/-- The log only grows, whatever calls are made, and an execution's events are numbered 1, 2, … -/
theorem log_append_only (ls ls' : List Label) (e : ExecutionId) :
    (after initial ls).events.rows <+: (after initial (ls ++ ls')).events.rows ∧
      Gapless (numbers ((after initial ls).eventsOf e)) := by
  constructor
  · have hrun : Reaches Orchestrator.Step anyCall (after initial ls) (after initial (ls ++ ls')) := by
      rw [after, after, List.foldl_append]
      exact reaches_after (fun _ _ => trivial) _ ls'
    refine hrun.invariant (I := fun t => (after initial ls).events.rows <+: t.events.rows) ?_
      List.prefix_rfl
    intro t l t' ht _ hst
    rcases hst.cases with rfl | hc
    · exact ht
    rcases publishes_committed hc with hev | ⟨event, hev⟩
    · rwa [hev]
    · rw [hev]
      exact ht.trans (List.prefix_append ..)
  · have hinitial : Gapless (numbers (initial.eventsOf e)) := .nil
    refine (reachable_after ls).invariant (I := fun s => Gapless (numbers (s.eventsOf e))) ?_ hinitial
    intro s l s' hs _ hst
    rcases hst.cases with rfl | hc
    · exact hs
    rcases publishes_committed hc with hev | ⟨event, hev⟩
    · rw [eventsOf, hev]
      exact hs
    rw [eventsOf, hev, List.filter_append, ← eventsOf]
    by_cases he : event.executionId = e
    · subst he
      have hsnoc := hs.snoc
      have hmax := hs.foldl_max
      simp only [numbers] at hmax hsnoc
      simpa [numbers, persisted, nextSequence, hmax] using hsnoc
    · simpa [persisted, he] using hs

end Store
end Orchestrator
