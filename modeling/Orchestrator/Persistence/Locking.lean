import Orchestrator.Lib.Locks
import Orchestrator.Persistence.Calls
import Orchestrator.Persistence.EventLog

/-!
# Store transactions, lock by lock

Every transaction of the store as the sequence of row locks it takes (`Operation.statements`):
`SELECT … FOR UPDATE`, `UPDATE` and `DELETE` lock exclusively, `FOR SHARE` shares, all locks are kept
until the transaction ends. Which rows a statement finds is read off the database when it starts;
what it reads is protected by the locks taken before, so later commits do not change it.

Left out are statements on rows the transaction has locked already, and inserts: a new row is not
visible to others before the commit, its key is protected by the lock on the execution, and foreign
keys point to rows that are locked. The `ON CONFLICT … DO UPDATE` of a cleanup authority locks the
row if there is one. The advisory lock of the event log comes after every row lock.

`Database.next` interleaves such transactions; a transaction that finishes commits what
`StoreCall.exec` says, and any transaction may roll back at any time.
-/

namespace Orchestrator

open Locks Relational

inductive LockRow where
  | execution (id : ExecutionId)
  | worker (id : WorkerId)
  | reservation (id : ExecutionId)
  | attempt (id : ExecutionId) (attempt : AttemptId)
  | authority (id : ExecutionId)
  | cancellation (id : ExecutionId)
  | control (requestId : Nat)
deriving DecidableEq, Repr

inductive Operation where
  | reserveNext (w : WorkerId) (a : AttemptId)
  | release (id : ExecutionId)
  | commitRetainedAndReleaseCapacity (id : ExecutionId) (a : AttemptId)
  | recoverUnreachable (w : WorkerId)
  | fenceLostAttempt (id : ExecutionId) (a : AttemptId)
  | finalizeCleanup (id : ExecutionId) (a : AttemptId)
  | recordProgress (execution : Execution) (event : ExecutionEvent) (requestRetention : Bool)
  | requestCancellation (id : ExecutionId)
  | completeCancellation (id : ExecutionId) (a : AttemptId)
  | beginControl (requestId : Nat) (w : WorkerId) (a : AttemptId)
  | completeControl (requestId : Nat) (execution : Execution) (event : ExecutionEvent)
  | transitionCleanup (id : ExecutionId) (expected next : CleanupDisposition)
      (handles : CleanupHandles)
  | fenceForCleanup (id : ExecutionId) (handles : CleanupHandles)
  | resolve (id : ExecutionId)
  | attachmentSnapshot (id : ExecutionId)
deriving DecidableEq, Repr

namespace Store

/-- The unfinished attempt `(e, a)`, when it is of worker `w`. -/
def openAttempt (s : Store) (e : ExecutionId) (a : AttemptId) (w : Option WorkerId) : Bool :=
  (s.attemptOf e a).any fun t => some t.workerId = w && t.finishedAt.isNone

/-- `reserve_next` goes on to the queue: the worker is ready and has a free slot. -/
def claims (s : Store) (w : WorkerId) : Bool :=
  (s.workers.find? w).any fun r => r.state = .ready && r.proofIsComplete &&
    (s.usage w).slots < r.capabilities.maxConcurrentExecutions

def finalizable (s : Store) (e : ExecutionId) (a : AttemptId) : Option CleanupAuthority :=
  (s.authorityOf e a).filter fun c =>
    c.phase = .storageReleased || c.phase = .reservationReleased

/-- The reservation `finalize_cleanup` gives back. -/
def returnable (s : Store) (e : ExecutionId) (a : AttemptId) : Option ReservationRow :=
  if (s.finalizable e a).any fun c => c.phase = .storageReleased then s.reservationOf e a else none

end Store

abbrev LockStatement := Statement Store LockRow

namespace LockStatement

/-- A statement on one row, which it may not find. -/
def row (r : LockRow) (found : Store → Bool) : LockStatement where
  rows s := if found s then [r] else []

/-- The same, followed by `ok_or_else(…)?`. -/
def demand (r : LockRow) (found : Store → Bool) : LockStatement :=
  { row r found with required := true }

/-- A statement on the row of a worker that was read before. -/
def worker (id : Store → Option WorkerId) : LockStatement where
  rows s := (((id s).bind fun w => s.workers.find? w).map fun r => LockRow.worker r.id).toList

/-- The same, followed by `ok_or_else(…)?`. -/
def demandWorker (id : Store → Option WorkerId) : LockStatement :=
  { worker id with required := true }

/-- `SELECT … FROM executions WHERE id = $1 FOR UPDATE`. -/
def execution (id : ExecutionId) : LockStatement :=
  demand (.execution id) fun s => (s.executions.find? id).isSome

/-- `lock_controls_for_execution`: the pending controls, `ORDER BY request_id`. -/
def controls (id : ExecutionId) : LockStatement where
  rows s := (((s.controls.rows.filter fun c => c.executionId = id && c.phase.pending).map
    fun c => c.requestId).insertionSort (· ≤ ·)).map LockRow.control

/-- `reserve_next` locks what it can of the queue. -/
def claim (w : WorkerId) : LockStatement where
  rows s := if s.claims w then (s.queue []).map fun r => LockRow.execution r.id else []
  skipLocked := true

def reserved (w : WorkerId) : LockStatement where
  rows s := (s.reservationsOf w).flatMap fun r =>
    [LockRow.execution r.executionId, .reservation r.executionId]

/-- The loop of `recover_unreachable` over these rows: close the attempt, then pend its cleanup. -/
def recovered (w : WorkerId) : LockStatement where
  rows s := (s.reservationsOf w).flatMap fun r =>
    if s.openAttempt r.executionId r.attemptId (some w) then
      LockRow.attempt r.executionId r.attemptId ::
        if (s.authorities.find? r.executionId).isSome then [LockRow.authority r.executionId] else []
    else []

/-- The attempt `fence_lost_attempt` closes is still open. -/
def fenceable (e : ExecutionId) (a : AttemptId) (s : Store) : Bool :=
  s.openAttempt e a ((s.executions.find? e).bind fun x => x.workerId)

/-- `fence_lost_attempt` pends the cleanup; of an attempt that was closed before, it locks the
authority and the attempt (`FOR UPDATE OF c, a`). -/
def pended (e : ExecutionId) (a : AttemptId) : LockStatement where
  rows s :=
    if fenceable e a s then
      if (s.authorities.find? e).isSome then [LockRow.authority e] else []
    else if (s.authorityOf e a).isSome && (s.attemptOf e a).isSome then
      [LockRow.authority e, .attempt e a]
    else []

/-- Progress to a terminal state makes the controls stale. -/
def settled (x : Execution) : LockStatement where
  rows s := if x.state.isTerminal then (controls x.id).rows s else []

/-- The attempt named by an execution, where `p` holds of it. -/
def attempt (x : Execution) (p : Store → AttemptId → Bool) : LockStatement where
  rows s := (x.attemptId.filter fun a => p s a).toList.map fun a => LockRow.attempt x.id a

def controlled (requestId : Nat) : LockStatement where
  rows s := ((s.controls.find? requestId).map fun c => LockRow.execution c.executionId).toList
  required := true

/-- The two locking statements the cleanup operations begin with; only the second must find a row. -/
def cleanup (id : ExecutionId) : List LockStatement :=
  [row (.execution id) fun s => (s.executions.find? id).isSome,
    demand (.authority id) fun s => (s.authorities.find? id).isSome]

end LockStatement

open LockStatement in
/-- The row locks of a transaction, statement by statement. -/
def Operation.statements : Operation → List LockStatement
  | .reserveNext w _ =>
    [demand (.worker w) fun s => (s.workers.find? w).isSome,
      claim w]
  | .release e =>
    [row (.reservation e) fun s => (s.reservations.find? e).isSome,
      worker fun s => (s.reservations.find? e).map fun r => r.workerId]
  | .commitRetainedAndReleaseCapacity e a =>
    [execution e,
      demand (.authority e) fun s => (s.authorityOf e a).isSome,
      demand (.attempt e a) fun s => (s.authorityOf e a).any fun c =>
        (s.attemptOf e a).any fun t => t.workerId = c.workerId,
      demandWorker fun s => (s.authorityOf e a).map fun c => c.workerId,
      row (.reservation e) fun s => (s.reservationOf e a).isSome]
  | .recoverUnreachable w =>
    [demand (.worker w) fun s => (s.workers.find? w).isSome,
      reserved w,
      recovered w]
  | .fenceLostAttempt e a =>
    -- the first two are one statement, `FOR UPDATE OF e, r`
    [demand (.execution e) fun s => (s.executions.find? e).any fun x =>
        x.attemptId = some a && (s.reservationOf e a).isSome,
      demand (.reservation e) fun s => (s.reservationOf e a).isSome,
      row (.attempt e a) (fenceable e a),
      pended e a]
  | .finalizeCleanup e a =>
    [execution e,
      demand (.authority e) fun s => (s.finalizable e a).isSome,
      demand (.attempt e a) fun s => (s.attemptOf e a).isSome,
      row (.reservation e) fun s => (s.returnable e a).isSome,
      worker fun s => (s.returnable e a).map fun r => r.workerId]
  | .recordProgress x _ requestRetention =>
    [execution x.id,
      settled x,
      { attempt x fun s a => s.openAttempt x.id a x.workerId with required := true },
      row (.authority x.id) fun s => requestRetention &&
        (x.attemptId.bind fun a => x.workerId.bind fun w => s.retentionRow x.id a w).isSome]
  | .requestCancellation e =>
    [execution e,
      controls e,
      row (.cancellation e) fun s => s.cancellationPending e && (s.executions.find? e).any fun x =>
        x.state = .queued && x.workerId.isNone && x.attemptId.isNone]
  | .completeCancellation e a =>
    [execution e,
      demand (.cancellation e) fun s => s.cancellationPending e,
      row (.attempt e a) fun s => (s.attemptOf e a).isSome]
  | .beginControl r _ _ =>
    [controlled r,
      demand (.control r) fun s => (s.controls.find? r).isSome]
  | .completeControl r x _ =>
    [execution x.id,
      demand (.control r) fun s => (s.controls.find? r).isSome,
      -- a control of another execution is refused before this statement
      attempt x fun s a => ((s.controls.find? r).any fun c => c.executionId = x.id) &&
        (s.attemptOf x.id a).any fun t => t.finishedAt.isNone]
  | .transitionCleanup e .. => cleanup e
  | .fenceForCleanup e _ => cleanup e
  | .resolve e => cleanup e
  | .attachmentSnapshot e =>
    [{ execution e with mode := .share },
      { row (.authority e) fun s => (s.authorities.find? e).isSome with mode := .share }]

/-- The store call an operation is; `skipped` are the queued executions that were locked. -/
def Operation.label (now : Timestamp) (skipped : List ExecutionId) : Operation → Option Label
  | .reserveNext w a => some ⟨_, .reserveNext w a skipped, now⟩
  | .release e => some ⟨_, .release e, now⟩
  | .commitRetainedAndReleaseCapacity e a => some ⟨_, .commitRetainedAndReleaseCapacity e a, now⟩
  | .recoverUnreachable w => some ⟨_, .recoverUnreachable w, now⟩
  | .fenceLostAttempt e a => some ⟨_, .fenceLostAttempt e a, now⟩
  | .finalizeCleanup e a => some ⟨_, .finalizeCleanup e a, now⟩
  | .recordProgress x event retention => some ⟨_, .recordProgress x event retention, now⟩
  | .requestCancellation e => some ⟨_, .requestCancellation e, now⟩
  | .completeCancellation e a => some ⟨_, .completeCancellation e a, now⟩
  | .beginControl r w a => some ⟨_, .beginControl r w a, now⟩
  | .completeControl r x event => some ⟨_, .completeControl r x event, now⟩
  | .transitionCleanup e expected next handles =>
    some ⟨_, .transitionCleanup e expected next handles, now⟩
  | .fenceForCleanup e handles => some ⟨_, .fenceForCleanup e handles, now⟩
  | .resolve e => some ⟨_, .resolve e, now⟩
  | .attachmentSnapshot _ => none

/-- An open transaction. -/
structure Session where
  connection : Connection
  operation : Operation
  locker : Locker Store LockRow

/-- The store with the transactions that are open on it. -/
structure Database where
  store : Store
  sessions : Table Session fun x => x.connection := .empty

namespace Database

inductive Act where
  | begin (c : Connection) (operation : Operation)
  /-- Take the next lock or start the next statement. -/
  | advance (c : Connection)
  | commit (c : Connection) (now : Timestamp)
  /-- A check refuses, a statement fails or the connection is lost. -/
  | rollback (c : Connection)
deriving DecidableEq, Repr

/-- No other transaction keeps `c` from the lock. -/
def free (db : Database) (c : Connection) (r : LockRow) (m : LockMode) : Bool :=
  db.sessions.rows.all fun x => x.connection = c || !x.locker.blocks r m

/-- What the operation writes: of the queue, `SKIP LOCKED` left the executions that are not held. -/
def effect (s : Store) (now : Timestamp) (x : Session) : Store :=
  let skipped := (s.executions.rows.map fun r => r.id).filter fun e =>
    !x.locker.held.contains (.execution e, .exclusive)
  match x.operation.label now skipped with
  | some l => (l.call.exec l.now s).2
  | none => s

/-- One step of one transaction; `none` where it cannot be made. -/
def next (db : Database) : Act → Option Database
  | .begin c operation =>
    if (db.sessions.find? c).isSome then none
    else some { db with sessions := db.sessions.put ⟨c, operation, { todo := operation.statements }⟩ }
  | .advance c => do
    let x ← db.sessions.find? c
    let locker ← x.locker.advance db.store (db.free c)
    pure { db with sessions := db.sessions.put { x with locker } }
  | .commit c now => do
    let x ← db.sessions.find? c
    if x.locker.finished then
      pure { store := effect db.store now x, sessions := db.sessions.erase c }
    else none
  | .rollback c => some { db with sessions := db.sessions.erase c }

def nexts (db : Database) : List Act → Option Database
  | [] => some db
  | a :: acts => (db.next a).bind fun db' => db'.nexts acts

def locker (db : Database) (c : Connection) : Option (Locker Store LockRow) :=
  (db.sessions.find? c).map fun x => x.locker

/-- Some transactions wait for each other in a circle. -/
def Deadlock (db : Database) : Prop := Deadlocked db.locker

end Database
end Orchestrator
