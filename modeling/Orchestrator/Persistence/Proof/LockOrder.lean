import Orchestrator.Persistence.Locking

/-!
# The order in which the operations take their locks

For every operation of `Persistence.Locking`: which rows it may lock (`Operation.MayLock`), which it
may wait for when it has locked others (`Operation.Late`), and in which order (`Operation.Then`).
Almost every operation locks the row of its execution first (`Operation.covered`), and then rows
that nobody locks without it (`LockRow.under`). `Operation.clashes` are the exceptions that do not
go together.
-/

namespace Orchestrator

open Locks Locks.Locker Relational

/-! ## What the statements of an operation lock -/

def LockRow.under : LockRow → Option ExecutionId
  | .reservation e | .attempt e _ | .authority e | .cancellation e => some e
  | .execution _ | .worker _ | .control _ => none

namespace Operation

/-- The execution an operation locks first, or refuses. -/
def subject : Operation → Option ExecutionId
  | .commitRetainedAndReleaseCapacity e _ | .fenceLostAttempt e _ | .finalizeCleanup e _
  | .requestCancellation e | .completeCancellation e _ => some e
  | .recordProgress x .. | .completeControl _ x _ => some x.id
  | _ => none

/-- The execution an operation looks at, with its cleanup authority and nothing else. -/
def inspects : Operation → Option ExecutionId
  | .transitionCleanup e .. | .fenceForCleanup e _ | .resolve e | .attachmentSnapshot e => some e
  | _ => none

def recovers : Operation → Option WorkerId
  | .recoverUnreachable w => some w
  | _ => none

def returns : Operation → Bool
  | .release _ | .commitRetainedAndReleaseCapacity .. | .finalizeCleanup .. => true
  | _ => false

def reserves : Operation → Bool
  | .reserveNext .. => true
  | _ => false

def mode : Operation → LockMode
  | .attachmentSnapshot _ => .share
  | _ => .exclusive

/-- The two operations take locks in opposite orders. -/
def clashes : Operation → Operation → Bool
  | .recoverUnreachable _, op => op.returns
  | op, .recoverUnreachable _ => op.returns
  | .release e, .commitRetainedAndReleaseCapacity e' _ => e = e'
  | .commitRetainedAndReleaseCapacity e' _, .release e => e = e'
  | _, _ => false

def MayLock (op : Operation) : LockRow → Prop
  | .reservation e => op = .release e ∨ op.subject = some e ∨ op.recovers.isSome
  | .attempt e _ | .cancellation e => op.subject = some e ∨ op.recovers.isSome
  | .authority e => op.subject = some e ∨ op.recovers.isSome ∨ op.inspects = some e
  | _ => True

/-- The operation may wait for the row when it has locked others. -/
def Late (op : Operation) : LockRow → Prop
  | .execution _ => op.recovers.isSome
  | .worker _ => op.returns = true
  | .reservation e => op.subject = some e ∨ op.recovers.isSome
  | .control _ => op.returns = false ∧ op.recovers = none ∧ op.reserves = false
  | _ => op.reserves = false

/-- The operation may lock `r` when it has locked the first row. -/
def Then (op : Operation) : LockRow → LockRow → Prop
  | .worker _, r => op.recovers.isSome ∨ op.reserves = true ∨
      ∃ e a, op = .commitRetainedAndReleaseCapacity e a ∧ r = .reservation e
  | .control m, r => (∃ n, r = .control n ∧ m < n) ∨ r.under.isSome ∧ ∀ e, r ≠ .reservation e
  | .authority _, _ => op.inspects = none
  | _, _ => True

variable {op op' : Operation} {e : ExecutionId} {st : LockStatement} {s : Store} {r : LockRow}

theorem clashes_comm (op op' : Operation) : op.clashes op' = op'.clashes op := by
  cases op <;> cases op' <;> rfl

end Operation

namespace LockStatement

variable {s : Store} {r r' : LockRow} {found : Store → Bool} {id : Store → Option WorkerId}
  {e : ExecutionId}

@[simp] theorem mem_row : r' ∈ (row r found).rows s ↔ found s = true ∧ r' = r := by
  simp only [row]
  split <;> simp [*]

@[simp] theorem mem_demand : r' ∈ (demand r found).rows s ↔ found s = true ∧ r' = r := mem_row

theorem of_mem_worker (h : r ∈ (worker id).rows s) : ∃ w, r = .worker w := by
  simp only [worker, Option.mem_toList, Option.map_eq_some_iff] at h
  obtain ⟨x, _, rfl⟩ := h
  exact ⟨x.id, rfl⟩

theorem of_mem_demandWorker (h : r ∈ (demandWorker id).rows s) : ∃ w, r = .worker w := of_mem_worker h

theorem of_mem_controls (h : r ∈ (controls e).rows s) : ∃ n, r = .control n := by
  simp only [controls, List.mem_map] at h
  obtain ⟨n, _, rfl⟩ := h
  exact ⟨n, rfl⟩

variable {x : Execution} {w : WorkerId} {Q : LockRow → LockRow → Prop}

theorem of_mem_settled (h : r ∈ (settled x).rows s) : ∃ n, r = .control n := by
  simp only [settled] at h
  split at h
  · exact of_mem_controls h
  · exact nomatch h

theorem of_mem_claim (h : r ∈ (claim w).rows s) : ∃ e, r = .execution e := by
  simp only [claim] at h
  split at h
  · obtain ⟨x, _, rfl⟩ := List.mem_map.1 h
    exact ⟨x.id, rfl⟩
  · exact nomatch h

theorem mem_reserved : r ∈ (reserved w).rows s ↔
    ∃ x ∈ s.reservationsOf w, r = .execution x.executionId ∨ r = .reservation x.executionId := by
  simp [reserved]

theorem of_mem_recovered (h : r ∈ (recovered w).rows s) : ∃ x ∈ s.reservationsOf w,
    r = .attempt x.executionId x.attemptId ∨ r = .authority x.executionId := by
  simp only [recovered, List.mem_flatMap] at h
  obtain ⟨x, hx, h⟩ := h
  refine ⟨x, hx, ?_⟩
  split at h
  · rcases List.mem_cons.1 h with rfl | h
    · exact .inl rfl
    · split at h
      · exact .inr (List.mem_singleton.1 h)
      · cases h
  · cases h

theorem of_mem_pended {a : AttemptId} (h : r ∈ (pended e a).rows s) :
    r = .authority e ∨ r = .attempt e a := by
  simp only [pended] at h
  split at h <;> split at h <;> simp at h
  · exact .inl h
  · exact h

theorem of_mem_attempt {p : Store → AttemptId → Bool}
    (h : r ∈ (attempt x p).rows s) : ∃ a, r = .attempt x.id a := by
  simp only [attempt, List.mem_map] at h
  obtain ⟨a, _, rfl⟩ := h
  exact ⟨a, rfl⟩

theorem of_mem_controlled {requestId : Nat} (h : r ∈ (controlled requestId).rows s) :
    ∃ e, r = .execution e := by
  simp only [controlled, Option.mem_toList, Option.map_eq_some_iff] at h
  obtain ⟨c, _, rfl⟩ := h
  exact ⟨c.executionId, rfl⟩

theorem controls_ascending (e : ExecutionId) (s : Store) :
    ((controls e).rows s).Pairwise fun r' r => ∃ m n, r' = .control m ∧ r = .control n ∧ m < n := by
  simp only [controls]
  rw [List.pairwise_map]
  have hsub : ((s.controls.rows.filter fun c => c.executionId = e && c.phase.pending).map
      fun c => c.requestId).Nodup := (List.filter_sublist.map _).nodup s.controls.nodup
  have hsorted := List.pairwise_insertionSort (· ≤ ·)
    ((s.controls.rows.filter fun c => c.executionId = e && c.phase.pending).map fun c => c.requestId)
  have hnodup := (List.perm_insertionSort (· ≤ ·) _).nodup_iff.2 hsub
  refine (hsorted.and hnodup).imp ?_
  rintro m n ⟨hle, hne⟩
  exact ⟨m, n, rfl, rfl, lt_of_le_of_ne hle hne⟩

theorem pairwise_row : ((row r found).rows s).Pairwise Q := by
  simp only [row]
  split <;> simp

theorem pairwise_demand : ((demand r found).rows s).Pairwise Q :=
  pairwise_row

theorem pairwise_worker : ((worker id).rows s).Pairwise Q := by
  simp only [worker]
  cases Option.map (fun r => LockRow.worker r.id) ((id s).bind fun w => s.workers.find? w) <;> simp

theorem pairwise_demandWorker : ((demandWorker id).rows s).Pairwise Q := pairwise_worker

theorem pairwise_attempt {p : Store → AttemptId → Bool} : ((attempt x p).rows s).Pairwise Q := by
  simp only [attempt]
  cases x.attemptId.filter fun a => p s a <;> simp

theorem pairwise_controlled {requestId : Nat} : ((controlled requestId).rows s).Pairwise Q := by
  simp only [controlled]
  cases Option.map (fun c => LockRow.execution c.executionId) (s.controls.find? requestId) <;> simp

end LockStatement

namespace Operation

open LockStatement

variable {op : Operation} {st : LockStatement} {s : Store} {r : LockRow}

theorem mode_eq (h : st ∈ op.statements) : st.mode = op.mode := by
  cases op <;> simp only [statements, cleanup, List.mem_cons, List.not_mem_nil, or_false] at h <;>
    rcases h with rfl | rfl | rfl | rfl | rfl <;> rfl

theorem single (op : Operation) : ∀ st ∈ op.statements.head?, ∀ s, (st.rows s).length ≤ 1 := by
  intro st hst s
  cases op <;> simp only [statements, cleanup, List.head?_cons, Option.mem_def,
    Option.some.injEq] at hst <;> subst hst
  case beginControl r _ _ => cases s.controls.find? r <;> simp [controlled, *]
  all_goals
    simp only [execution, demand, row]
    split <;> simp

attribute [local grind →] of_mem_worker of_mem_demandWorker of_mem_controls of_mem_settled of_mem_claim
  of_mem_recovered of_mem_pended of_mem_attempt of_mem_controlled
attribute [local grind =] mem_row mem_demand mem_reserved

theorem mayLock (h : st ∈ op.statements) (hr : r ∈ st.rows s) : op.MayLock r := by
  cases op <;>
    simp only [statements, cleanup, execution, List.mem_cons, List.not_mem_nil, or_false] at h <;>
    rcases h with rfl | rfl | rfl | rfl | rfl <;> grind [MayLock, subject, recovers, inspects]

theorem inspects_rows {e : ExecutionId} (hop : op.inspects = some e) (h : st ∈ op.statements)
    (hr : r ∈ st.rows s) : r = .execution e ∨ r = .authority e := by
  cases op <;> simp only [inspects, Option.some.injEq, reduceCtorEq] at hop <;> subst hop <;>
    simp only [statements, cleanup, execution, List.mem_cons, List.not_mem_nil, or_false] at h <;>
    rcases h with rfl | rfl <;> grind

theorem late (op : Operation) : Splits op.statements fun done st =>
    st.skipLocked = false → ∀ s, ∀ r ∈ st.rows s, done = [] ∨ op.Late r := by
  cases op <;>
    simp only [statements, cleanup, execution, splits_cons, splits_nil, and_true, true_or,
      implies_true, true_and, reduceCtorEq, false_or] <;>
    grind [Late, subject, recovers, returns, reserves, claim]

theorem pairwise_controls {e : ExecutionId} : ((controls e).rows s).Pairwise op.Then := by
  refine (controls_ascending e s).imp ?_
  rintro _ _ ⟨m, n, rfl, rfl, hlt⟩
  exact .inl ⟨n, rfl, hlt⟩

theorem pairwise_settled {x : Execution} : ((settled x).rows s).Pairwise op.Then := by
  simp only [settled]
  split
  · exact pairwise_controls
  · exact .nil

theorem pairwise_of_plain {l : List LockRow} (hop : op.inspects = none)
    (h : ∀ r ∈ l, (∃ e, r = .execution e) ∨ r.under.isSome) : l.Pairwise op.Then := by
  refine List.pairwise_of_forall_mem_list fun r' hr' r _ => ?_
  rcases h r' hr' with ⟨e, rfl⟩ | hunder
  · trivial
  · cases r' with
    | reservation | attempt | cancellation => trivial
    | authority => exact hop
    | execution | worker | control => exact nomatch hunder

theorem follows (op : Operation) : Follows op.Then op.statements := by
  have hclaim : ∀ w a s, ((claim w).rows s).Pairwise (reserveNext w a).Then := fun w a s =>
    pairwise_of_plain rfl fun r hr => .inl (of_mem_claim hr)
  have hreserved : ∀ w s, ((reserved w).rows s).Pairwise (recoverUnreachable w).Then := fun w s =>
    pairwise_of_plain rfl fun r hr => by
      obtain ⟨x, _, rfl | rfl⟩ := mem_reserved.1 hr
      · exact .inl ⟨_, rfl⟩
      · exact .inr rfl
  have hrecovered : ∀ w s, ((recovered w).rows s).Pairwise (recoverUnreachable w).Then := fun w s =>
    pairwise_of_plain rfl fun r hr => by
      obtain ⟨x, _, rfl | rfl⟩ := of_mem_recovered hr <;> exact .inr rfl
  have hpended : ∀ e a s, ((pended e a).rows s).Pairwise (fenceLostAttempt e a).Then :=
    fun e a s => pairwise_of_plain rfl fun r hr => by
      obtain rfl | rfl := of_mem_pended hr <;> exact .inr rfl
  cases op <;>
    simp only [Follows, statements, cleanup, execution, splits_cons, splits_nil, and_true,
      List.forall_mem_cons, List.not_mem_nil, false_implies, implies_true, pairwise_row,
      pairwise_demand, pairwise_worker, pairwise_demandWorker, pairwise_attempt, pairwise_controlled, pairwise_controls,
      pairwise_settled, hclaim, hreserved, hrecovered, hpended, true_and]
  case commitRetainedAndReleaseCapacity e a =>
    -- the one operation that locks something after a worker, and it is its reservation
    have hretained : ∀ {id found s' s}, ∀ r' ∈ (demandWorker id).rows s', ∀ r ∈
        (row (.reservation e) found).rows s, (commitRetainedAndReleaseCapacity e a).Then r' r := by
      intro id found s' s r' hr' r hr
      obtain ⟨w, rfl⟩ := of_mem_demandWorker hr'
      obtain ⟨_, rfl⟩ := mem_row.1 hr
      exact .inr (.inr ⟨e, a, rfl, rfl⟩)
    refine ⟨?_, ⟨?_, ?_⟩, ⟨?_, ?_, ?_⟩, ?_, ?_, ?_, fun _ _ => hretained⟩ <;>
      grind [Then, LockRow.under, inspects]
  all_goals grind [Then, LockRow.under, recovers, reserves, inspects]

end Operation

namespace Operation

variable {op : Operation} {l l' : Locker Store LockRow} {e : ExecutionId} {w : WorkerId}
  {r : LockRow} {m : LockMode}

theorem covered (h : Tracked op.statements l) (hop : op.subject = some e)
    (hne : r ≠ .execution e) (hr : (∃ m, (r, m) ∈ l.held) ∨ r ∈ l.wanted) :
    (.execution e, .exclusive) ∈ l.held := by
  obtain ⟨found, others, hplan⟩ : ∃ found others,
      op.statements = LockStatement.demand (.execution e) found :: others := by
    cases op <;> simp only [subject, Option.some.injEq, reduceCtorEq] at hop <;> subst hop <;>
      exact ⟨_, _, rfl⟩
  exact h.first hplan rfl rfl (fun s r hr => (LockStatement.mem_demand.1 hr).2) hne hr

theorem worker_held (h : Tracked (recoverUnreachable w).statements l) (hne : r ≠ .worker w)
    (hr : (∃ m, (r, m) ∈ l.held) ∨ r ∈ l.wanted) : (.worker w, .exclusive) ∈ l.held :=
  h.first rfl rfl rfl (fun _ _ hr => (LockStatement.mem_demand.1 hr).2) hne hr

theorem inspected (h : Tracked op.statements l) (hop : op.inspects = some e)
    (hr : .authority e ∈ l.wanted) (hheld : (r, m) ∈ l.held) : (.execution e, op.mode) ∈ l.held := by
  have hthen := h.follows op.follows hheld hr
  obtain ⟨st, hst, hm, s, hrow⟩ := h.of_held hheld
  rw [mode_eq hst] at hm
  -- what comes before the authority is the execution
  have hexec : r = .execution e := by
    refine (inspects_rows hop hst hrow).resolve_right ?_
    rintro rfl
    have hnone : op.inspects = none := hthen
    exact absurd (hop.symm.trans hnone) (by simp)
  rwa [hexec, hm] at hheld

end Operation

end Orchestrator
