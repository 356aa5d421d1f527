import Orchestrator.Lib.Program
import Orchestrator.Persistence.Calls

/-!
# Worker liveness

The controller's side of worker liveness (`orchestrator-api/src/workers.rs`): a registration or a
heartbeat decides the worker's state from its health report (`own_liveness`), and the reaper turns
silence into recovery. The reaper is not one transaction: it marks, then recovers worker by worker,
and anything may commit in between.
-/

namespace Orchestrator

open Prog

/-- `HEARTBEAT_DEADLINE_SECONDS`, in microseconds. -/
def heartbeatDeadline : Int := 90 * 1000000

/-- `own_liveness`: only a proven and healthy worker is `READY`. -/
def ownLiveness (now : Timestamp) (worker : WorkerRegistration) : WorkerRegistration :=
  { worker with
    lastHeartbeat := now
    state := if worker.proofIsComplete ∧ worker.capabilities.healthErrors = [] then .ready
      else .offline }

def recoverEach (ids : List WorkerId) : ExceptT StoreError (Prog StoreCall) Unit :=
  forEach ids fun w => do
    let _ ← attempt (.recoverUnreachable w)

def reapStale (now : Timestamp) : ExceptT StoreError (Prog StoreCall) (List WorkerId) := do
  let stale ← attempt (.markStaleBefore (now - heartbeatDeadline))
  recoverEach stale
  pure stale

def recoverStranded : ExceptT StoreError (Prog StoreCall) (List WorkerId) := do
  let workers ← attempt .listWorkers
  let unreachable := (workers.filter fun w => w.state = .unreachable).map fun w => w.id
  recoverEach unreachable
  pure unreachable

def reap (now : Timestamp) : ExceptT StoreError (Prog StoreCall) Unit := do
  let _ ← reapStale now
  let _ ← recoverStranded

/-- A call, made at whatever time. -/
def StoreCall.Sem {β : Type} (c : StoreCall β) (s : Store) (b : β) (s' : Store) : Prop :=
  ∃ now, c.exec now s = (b, s')

def StoreCall.beats {β : Type} : StoreCall β → Bool
  | .register _ | .heartbeat _ => true
  | _ => false

def unbeaten : Store → Label → Prop := fun _ l => l.call.beats = false

def quiet (s s' : Store) : Prop := ∃ l, unbeaten s l ∧ Step s l s'

/-! ## What the reaper is for -/

namespace Store

/-- `w` owns a reservation whose attempt is unfinished. -/
def holdsUnfinished (s : Store) (w : WorkerId) : Bool :=
  s.reservations.rows.any fun r => r.workerId = w &&
    (s.attempts.find? r.attemptId).any fun t => t.finishedAt.isNone

/-- No worker that was silent since `deadline` owns an unfinished reservation. -/
def DeadFenced (s : Store) (deadline : Timestamp) : Prop :=
  ∀ w x, s.workers.find? w = some x → x.lastHeartbeat < deadline → s.holdsUnfinished w = false

/-- No `OFFLINE` worker that was silent since `deadline` owns an unfinished reservation. -/
def OfflineIdle (s : Store) (deadline : Timestamp) : Prop :=
  ∀ w x, s.workers.find? w = some x → x.lastHeartbeat < deadline → x.state = .offline →
    s.holdsUnfinished w = false

end Store
end Orchestrator
