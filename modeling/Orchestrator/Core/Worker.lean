import Orchestrator.Core.Execution

/-!
# Workers and placement

Worker registrations (`worker.rs`) and the one placement rule of the system,
`workerFitsWithReservations` (`orchestrator-scheduler`). Machine integers are unbounded naturals
here; `saturating_sub` on unsigned integers is the truncated subtraction of `Nat`.
-/

namespace Orchestrator

structure WorkerCapabilities where
  os : String
  arch : String
  cpu : Nat
  memoryMib : Nat
  diskGib : Nat
  runtimes : List RuntimeKind := []
  capabilities : List String := []
  toolchains : List (String × String) := []
  maxConcurrentExecutions : Nat := 2
  healthErrors : List String := []
deriving DecidableEq, Repr

def sanitizedHealthErrors : List String :=
  ["storage-capability-unavailable", "docker-capability-unavailable",
    "worker-configuration-invalid", "worker-preparation-unavailable", "disk-pressure-bytes",
    "disk-pressure-inodes"]

def WorkerCapabilities.healthErrorsAreSanitized (c : WorkerCapabilities) : Bool :=
  c.healthErrors.length ≤ 2 && c.healthErrors.all (sanitizedHealthErrors.contains ·)

inductive WorkerState where
  | ready | draining | unreachable | offline
deriving DecidableEq, Repr

def WorkerState.text : WorkerState → String
  | ready => "READY"
  | draining => "DRAINING"
  | unreachable => "UNREACHABLE"
  | offline => "OFFLINE"

/-- Storage and Docker-bind proof required before a worker may advertise `READY`. -/
structure WorkerCapabilityProof where
  storageBackend : String
  storagePoolIdentity : String
  dockerDaemonId : String
  dockerVerifier : String
  dockerMethodVersion : String
deriving DecidableEq, Repr

def WorkerCapabilityProof.isComplete (p : WorkerCapabilityProof) : Bool :=
  [p.storageBackend, p.storagePoolIdentity, p.dockerDaemonId, p.dockerVerifier,
    p.dockerMethodVersion].all fun value => !(Text.trim value.toList).isEmpty

structure WorkerRegistration where
  id : WorkerId
  capabilities : WorkerCapabilities
  state : WorkerState
  runningExecutions : Nat
  lastHeartbeat : Timestamp
  capabilityProof : Option WorkerCapabilityProof := none
deriving DecidableEq, Repr

def WorkerRegistration.proofIsComplete (w : WorkerRegistration) : Bool :=
  w.capabilityProof.any (·.isComplete)

/-! ## Placement -/

structure ReservedResources where
  slots : Nat
  cpu : Nat
  memoryMib : Nat
  diskGib : Nat
deriving DecidableEq, Repr

def canonicalArch (arch : String) : List Char :=
  let lower := Text.toAsciiLowercase (Text.trim arch.toList)
  if lower = "amd64".toList ∨ lower = "x86_64".toList then "x86_64".toList
  else if lower = "arm64".toList ∨ lower = "aarch64".toList then "aarch64".toList
  else lower

def archMatches (want have_ : String) : Bool := canonicalArch want = canonicalArch have_

def workerFitsWithReservations (worker : WorkerRegistration) (req : RuntimeRequirement)
    (reserved : ReservedResources) : Bool :=
  if worker.state ≠ .ready ∨ !worker.proofIsComplete ∨
      worker.capabilities.maxConcurrentExecutions ≤ reserved.slots then false
  else if req.os.any fun os =>
      Text.toAsciiLowercase os.toList ≠ Text.toAsciiLowercase worker.capabilities.os.toList then false
  else if req.arch.any fun arch => !archMatches arch worker.capabilities.arch then false
  else if !req.toolchains.all fun (name, version) =>
      worker.capabilities.toolchains.lookup name == some version then false
  else if worker.capabilities.cpu - reserved.cpu < req.cpu ∨
      worker.capabilities.memoryMib - reserved.memoryMib < req.memoryMib ∨
      worker.capabilities.diskGib - reserved.diskGib < req.diskGib then false
  else if !worker.capabilities.runtimes.contains req.kind then false
  else req.capabilities.all (worker.capabilities.capabilities.contains ·)

/-- What a positive answer says about room: the saturating differences cannot hide an overcommitted
worker, because every requirement is positive. -/
theorem room_of_workerFits {worker : WorkerRegistration} {req : RuntimeRequirement}
    {reserved : ReservedResources} (h : workerFitsWithReservations worker req reserved = true)
    (hcpu : 0 < req.cpu) (hmem : 0 < req.memoryMib) (hdisk : 0 < req.diskGib) :
    reserved.slots < worker.capabilities.maxConcurrentExecutions ∧
      reserved.cpu + req.cpu ≤ worker.capabilities.cpu ∧
      reserved.memoryMib + req.memoryMib ≤ worker.capabilities.memoryMib ∧
      reserved.diskGib + req.diskGib ≤ worker.capabilities.diskGib := by
  unfold workerFitsWithReservations at h
  split at h
  · cases h
  rename_i hslots
  simp only [not_or, not_le] at hslots
  have hroom : ¬ (worker.capabilities.cpu - reserved.cpu < req.cpu ∨
      worker.capabilities.memoryMib - reserved.memoryMib < req.memoryMib ∨
      worker.capabilities.diskGib - reserved.diskGib < req.diskGib) := by
    intro hlack
    simp [hlack] at h
  simp only [not_or, not_lt] at hroom
  exact ⟨hslots.2.2, by omega, by omega, by omega⟩

end Orchestrator
