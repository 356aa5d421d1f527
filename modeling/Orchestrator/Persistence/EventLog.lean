import Orchestrator.Persistence.Schema

/-!
# The event log, statement by statement

`append_in_transaction` is three statements: take the transaction-scoped advisory lock of the
execution, read `MAX(sequence) + 1`, insert the row. Every caller (`append_once`,
`create_idempotent`, `transition_with_event`, `record_progress`, `complete_control`,
`request_cancellation`, `complete_cancellation`, `finalize_cleanup`) runs them inside its own
transaction, among statements that do not touch `execution_events`, and commits or rolls back later.

`EventLog.next` is one statement, commit or rollback on one connection; the connections interleave
freely. Isolation is `READ COMMITTED`: a statement sees what is committed when it starts and what its
own transaction wrote. `hash` stands for `hashtextextended(id, 0)`: executions may share a lock.
-/

namespace Orchestrator

/-- A database connection; it runs one transaction after another. -/
abbrev Connection := Nat

/-- How far the running `append_in_transaction` of a connection is. -/
inductive AppendStage where
  | idle
  | locked (event : ExecutionEvent)
  | numbered (event : ExecutionEvent) (sequence : Nat)
deriving DecidableEq, Repr

structure EventLog (κ : Type) where
  committed : List EventRow := []
  /-- Rows of open transactions, with the connection that inserted them. -/
  uncommitted : List (Connection × EventRow) := []
  /-- Who holds an advisory lock. -/
  holder : κ → Option Connection := fun _ => none
  stage : Connection → AppendStage := fun _ => .idle

namespace EventLog

variable {κ : Type}

def committedOf (log : EventLog κ) (id : ExecutionId) : List EventRow :=
  log.committed.filter fun r => r.executionId = id

def written (log : EventLog κ) (c : Connection) : List EventRow :=
  (log.uncommitted.filter fun p => p.1 = c).map fun p => p.2

def visible (log : EventLog κ) (c : Connection) (id : ExecutionId) : List EventRow :=
  (log.committed ++ log.written c).filter fun r => r.executionId = id

/-- `SELECT COALESCE(MAX(sequence), 0) + 1`. -/
def nextSequence (rows : List EventRow) : Nat := (rows.map fun r => r.sequence).foldl max 0 + 1

/-- The row `append_in_transaction` inserts. -/
def persisted (event : ExecutionEvent) (sequence : Nat) : EventRow :=
  ⟨event.executionId, sequence, { event with sequence }⟩

/-- Both rows have the same primary key. -/
def clashes (r : EventRow) (x : EventRow) : Bool :=
  x.executionId = r.executionId && x.sequence = r.sequence

def setStage (log : EventLog κ) (c : Connection) (stage : AppendStage) : EventLog κ :=
  { log with stage := fun d => if d = c then stage else log.stage d }

/-- The transaction of `c` is over: its rows are gone, its locks are free. -/
def close (log : EventLog κ) (c : Connection) : EventLog κ :=
  { log.setStage c .idle with
    uncommitted := log.uncommitted.filter fun p => p.1 ≠ c
    holder := fun k => if log.holder k = some c then none else log.holder k }

inductive Act where
  /-- `SELECT pg_advisory_xact_lock(…)`: `append_in_transaction(event)` starts. -/
  | lock (c : Connection) (event : ExecutionEvent)
  /-- `SELECT COALESCE(MAX(sequence), 0) + 1 …`. -/
  | number (c : Connection)
  /-- `INSERT INTO execution_events …`: `append_in_transaction` returns. -/
  | insert (c : Connection)
  | commit (c : Connection)
  /-- The caller refuses, a statement fails or the connection is lost. -/
  | rollback (c : Connection)
deriving DecidableEq, Repr

variable [DecidableEq κ]

/-- One statement; `none` where it has to wait or does not come next. -/
def next (hash : ExecutionId → κ) (log : EventLog κ) : Act → Option (EventLog κ)
  | .lock c event =>
    let k := hash event.executionId
    if log.stage c = .idle ∧ (log.holder k = none ∨ log.holder k = some c) then
      some { log.setStage c (.locked event) with
        holder := fun k' => if k' = k then some c else log.holder k' }
    else none
  | .number c =>
    match log.stage c with
    | .locked event =>
      some (log.setStage c (.numbered event (nextSequence (log.visible c event.executionId))))
    | _ => none
  | .insert c =>
    match log.stage c with
    | .numbered event sequence =>
      let row := persisted event sequence
      -- a row of an open transaction with this key: the insert waits for that transaction
      if log.uncommitted.any (fun p => p.1 ≠ c && clashes row p.2) then none
      -- a unique violation: `?` returns and the dropped transaction rolls back
      else if (log.committed ++ log.written c).any (clashes row) then some (log.close c)
      else some { log.setStage c .idle with uncommitted := log.uncommitted ++ [(c, row)] }
    | _ => none
  | .commit c =>
    if log.stage c = .idle then
      some { log.close c with committed := log.committed ++ log.written c }
    else none
  | .rollback c => some (log.close c)

def nexts (hash : ExecutionId → κ) (log : EventLog κ) : List Act → Option (EventLog κ)
  | [] => some log
  | a :: acts => (log.next hash a).bind fun log' => log'.nexts hash acts

omit [DecidableEq κ] in
/-- `since_batch`: one statement of its own. -/
def sinceBatch (log : EventLog κ) (id : ExecutionId) (after limit : Nat) : List ExecutionEvent :=
  let rows := ((log.committedOf id).filter fun r => after < r.sequence).insertionSort
    fun a b => a.sequence ≤ b.sequence
  (rows.take limit).map fun r => { r.payload with sequence := r.sequence }

omit [DecidableEq κ] in
def latestSequence (log : EventLog κ) (id : ExecutionId) : Nat :=
  ((log.committedOf id).map fun r => r.sequence).foldl max 0

end EventLog
end Orchestrator
