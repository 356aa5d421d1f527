import Orchestrator.Persistence.Schema

/-!
# Workers

`PgWorkerStore` (`workers.rs`): registration, heartbeats and the marking of silent workers. The
controller owns `running_executions`: registration starts it at zero and a re-registration or a
heartbeat leaves it alone.
-/

namespace Orchestrator

open Txn Relational

/-- Capabilities that belong to inference, not to execution. -/
def inferenceCapability (capability : String) : Bool :=
  let lower := Text.toAsciiLowercase capability.toList
  decide ("gpu".toList <:+: lower) || decide ("vram".toList <:+: lower) ||
    decide ("model".toList <:+: lower)

def WorkerRegistration.validate (worker : WorkerRegistration) : Except StoreError Unit := do
  let c := worker.capabilities
  ensure (c.cpu ≠ 0 ∧ 1024 ≤ c.memoryMib ∧ c.diskGib ≠ 0 ∧ c.maxConcurrentExecutions ≠ 0 ∧
      c.maxConcurrentExecutions ≤ 64)
    (.conflict "worker capabilities are outside accepted bounds")
  ensure (!c.capabilities.any inferenceCapability)
    (.conflict "inference capabilities do not belong in worker registration")
  ensure c.healthErrorsAreSanitized
    (.conflict "worker capability health failures are not sanitized")
  ensure (worker.state = .ready → worker.proofIsComplete ∧ c.healthErrors = [])
    (.conflict
      "Ready worker lacks a complete capability proof or reports capability health failures")

namespace Store

/-- The columns a registration or heartbeat overwrites. -/
def advertised (old new : WorkerRegistration) : WorkerRegistration :=
  { old with
    capabilities := new.capabilities, capabilityProof := new.capabilityProof, state := new.state,
    lastHeartbeat := new.lastHeartbeat }

def register (worker : WorkerRegistration) : Transaction Unit := fun s => do
  worker.validate
  match s.workers.find? worker.id with
  | none => pure ((), { s with workers := s.workers.put { worker with runningExecutions := 0 } })
  | some old => pure ((), { s with workers := s.workers.put (advertised old worker) })

def heartbeat (worker : WorkerRegistration) : Transaction WorkerRegistration := fun s => do
  worker.validate
  let old ← require (s.workers.find? worker.id) (.notFound worker.id.value)
  pure (advertised old worker, { s with workers := s.workers.put (advertised old worker) })

/-- `state IN ('READY', 'DRAINING') AND last_heartbeat < deadline`. -/
def stale (deadline : Timestamp) (w : WorkerRegistration) : Bool :=
  (w.state = .ready || w.state = .draining) && w.lastHeartbeat < deadline

def markStaleBefore (deadline : Timestamp) : Transaction (List WorkerId) := fun s =>
  .ok ((s.workers.rows.filter (stale deadline)).map fun w => w.id,
    { s with
      workers := s.workers.update (stale deadline) (fun w => { w with state := .unreachable })
        fun _ => rfl })

/-- `WorkerStore::list`, `ORDER BY id`. -/
def listWorkers (s : Store) : List WorkerRegistration :=
  s.workers.rows.insertionSort fun a b => a.id.value ≤ b.id.value

end Store
end Orchestrator
