import Orchestrator.Lib.Threads
import Orchestrator.Storage.Allocation

/-!
# Release, its tombstone and Ready leases

`ExecutionStorage::release`, `ack_release` and `acquire_ready_lease`
(`execution-storage/src/manager.rs`), beside the allocation they belong to. A release writes a
tombstone that holds the receipt, then takes the storage down as `cleanup_identity` does; the
acknowledgment removes the tombstone. A consumer of the storage holds a shared lock on the lease file
of the execution, a release holds it exclusively. The lease file is created once and never unlinked,
so that there is one lock for an execution; a lock goes with the call, or the process, that took it.

A tombstone is known by the receipt that its text was written from.
-/

namespace Orchestrator.ExecutionStorage.Exact

open Prog

/-! ## Calls -/

/-- What a release and a consumer do beside the storage itself. -/
inductive LeaseCall : Type → Type
  | readTombstone : LeaseCall (Except StorageError (Option AllocationReceipt))
  | createTombstone (receipt : AllocationReceipt) : LeaseCall (Except StorageError Unit)
  | removeTombstone : LeaseCall (Except StorageError Unit)
  /-- Whether the execution has no lifecycle hold. -/
  | holdsEmpty : LeaseCall (Except StorageError Bool)
  | openReadyLease : LeaseCall (Except StorageError Unit)
  | tryLockExclusive : LeaseCall (Except StorageError Unit)
  | tryLockShared : LeaseCall (Except StorageError Unit)
  /-- The consumer has its lease. -/
  | granted (receipt : AllocationReceipt) : LeaseCall (Except StorageError Unit)
  /-- The consumer drops its lease. -/
  | dropped : LeaseCall (Except StorageError Unit)

inductive ReleaseCall (β : Type) where
  | storage (c : Call β)
  | lease (c : LeaseCall β)

abbrev ReleaseM := ExceptT StorageError (Prog ReleaseCall)

/-- A program of the storage itself. -/
def onStorage {α : Type} (t : M α) : ReleaseM α := ExceptT.mk (t.run.embed .storage)

/-! ## Release -/

def releaseTombstoneName (id : ExecutionId) : Except StorageError String := do
  Txn.ensure (¬(id.value.isEmpty ∨ '/' ∈ id.value.toList ∨ ['.', '.'] <:+: id.value.toList))
    (.identityMismatch "release tombstone execution id is unsafe")
  pure s!"{id}.json"

/-- Whether the tombstone says that this receipt is released, and nothing contradicts it. -/
def alreadyReleased (receipt : AllocationReceipt) :
    Option AllocationReceipt → ReleaseM Bool
  | none => pure false
  | some existing => do
    refuse (existing ≠ receipt)
      (.identityMismatch "release tombstone belongs to another allocation receipt")
    let absent ← attempt (.storage .mountpointAbsent)
    if absent then do
      let state ← attempt (.storage (.state receipt.backend receipt.reservedBytes))
      pure (state = .absent)
    else pure false

/-- What `release` does once it holds the lease file exclusively. -/
def releaseLocked (m : Manager) (p : Place) (receipt : AllocationReceipt)
    (tombstone : Option AllocationReceipt) : ReleaseM Unit := do
  let j ← onStorage p.readJournal
  let state ← onStorage (authenticateCleanupAuthority m p receipt j)
  refuse (j.phase = .ready ∧ state ≠ .mounted) (.identityMismatch "ready backend is not mounted")
  provided (tombstone = none) (attempt (.lease (.createTombstone receipt)))
  provided (j.phase = .ready) (onStorage (p.writeJournal (.releasing receipt .mounted)))
  onStorage (cleanupIdentity p receipt.backend receipt.reservedBytes (some receipt))

def release (m : Manager) (receipt : AllocationReceipt) : ReleaseM Unit := do
  let layout ← unwrap (ExecutionLayout.new m.stateRoot receipt.labels.executionId)
  let _ ← unwrap (releaseTombstoneName receipt.labels.executionId)
  let tombstone ← attempt (.lease .readTombstone)
  let done ← alreadyReleased receipt tombstone
  provided (!done) (do
    let noHolds ← attempt (.lease .holdsEmpty)
    refuse (!noHolds) (.unavailable "execution has an unresolved durable lifecycle hold")
    attempt (.lease .openReadyLease)
    attemptAs (fun e : StorageError =>
      .unavailable s!"execution has an active Ready consumer lease: {e}") (.lease .tryLockExclusive)
    releaseLocked m ⟨receipt.labels.executionId, layout⟩ receipt tombstone)

/-- Whether nothing is left to acknowledge: no tombstone, no backend object and no mountpoint. -/
def alreadyAcknowledged (receipt : AllocationReceipt) :
    Option AllocationReceipt → ReleaseM Bool
  | some _ => pure false
  | none => do
    let state ← attempt (.storage (.state receipt.backend receipt.reservedBytes))
    if state = .absent then attempt (.storage .mountpointAbsent) else pure false

def ackRelease (m : Manager) (receipt : AllocationReceipt) : ReleaseM Unit := do
  let _ ← unwrap (releaseTombstoneName receipt.labels.executionId)
  let actual ← attempt (.lease .readTombstone)
  let _ ← unwrap (ExecutionLayout.new m.stateRoot receipt.labels.executionId)
  let done ← alreadyAcknowledged receipt actual
  provided (!done) (do
    let actual ← demand actual (.identityMismatch "release tombstone is absent")
    refuse (actual ≠ receipt)
      (.identityMismatch "release tombstone belongs to another allocation receipt")
    let state ← attempt (.storage (.state receipt.backend receipt.reservedBytes))
    refuse (state ≠ .absent)
      (.identityMismatch "cannot acknowledge a release while its backend is present")
    let absent ← attempt (.storage .mountpointAbsent)
    refuse (!absent) (.identityMismatch
      "cannot acknowledge a release while its allocation path is present")
    attempt (.lease .removeTombstone))

/-! ## Ready leases -/

def verifyReadyAllocation (m : Manager) (receipt : AllocationReceipt) : M Unit := do
  let layout ← unwrap (ExecutionLayout.new m.stateRoot receipt.labels.executionId)
  unwrap (receipt.validate receipt.labels layout)
  let j ← Place.readJournal ⟨receipt.labels.executionId, layout⟩
  refuse (j.phase ≠ .ready ∨ j.receipt ≠ some receipt) (.identityMismatch
    "allocation receipt does not exactly match a durable Ready journal")
  validateBackendConfig m j
  let state ← attempt (.state receipt.backend receipt.reservedBytes)
  refuse (state ≠ .mounted) (.identityMismatch "ready backend is not mounted")
  let bind ← attempt (.verifyBind layout.root)
  refuse (bind ≠ receipt.dockerBind)
    (.identityMismatch "Docker bind proof changed since allocation")
  -- the executions directory, the mountpoint and its pin
  attempt .verify

def acquireReadyLease (m : Manager) (receipt : AllocationReceipt) : ReleaseM Unit := do
  let _ ← unwrap (ExecutionLayout.new m.stateRoot receipt.labels.executionId)
  attempt (.lease .openReadyLease)
  attemptAs (fun e : StorageError =>
    .unavailable s!"execution Ready allocation is changing: {e}") (.lease .tryLockShared)
  onStorage (verifyReadyAllocation m receipt)

/-- A consumer: it acquires a lease, and drops it at some time. -/
def consume (m : Manager) (receipt : AllocationReceipt) : ReleaseM Unit := do
  acquireReadyLease m receipt
  attempt (.lease (.granted receipt))
  attempt (.lease .dropped)

/-! ## What calls do -/

/-- The storage of one execution on one host, and who uses it. Processes are numbered. -/
structure Host where
  mountpoint : Bool
  journal : Option PhaseJournal
  volumes : BackendIdentity → BackendState
  tombstone : Option AllocationReceipt
  /-- Who has locked the lease file exclusively. -/
  exclusive : Option Nat := none
  /-- Who has locked the lease file with others. -/
  shared : List Nat := []
  /-- Who has which lease. -/
  leases : List (Nat × AllocationReceipt) := []
  /-- Who is allocating. -/
  allocating : List Nat := []
  /-- What the backend was asked to unmount or remove, the newest first. -/
  issued : List BackendIdentity := []

namespace Host

/-- What the storage's own calls see of the host. -/
def disk (h : Host) : Disk where
  mountpoint := h.mountpoint
  journal := h.journal
  tombstone := h.tombstone.isSome
  volumes := h.volumes

def put (h : Host) (d : Disk) : Host :=
  { h with mountpoint := d.mountpoint, journal := d.journal, volumes := d.volumes }

/-- Note that an unmount or a removal was issued. -/
def issue {β : Type} (c : Call β) (h : Host) : Host :=
  match c with
  | .unmount id | .remove id => { h with issued := id :: h.issued }
  | _ => h

/-- Process `i` ends, or what it was doing does. -/
def leave (h : Host) (i : Nat) : Host :=
  { h with
    exclusive := if h.exclusive = some i then none else h.exclusive
    shared := h.shared.filter (· ≠ i)
    leases := h.leases.filter (·.1 ≠ i)
    allocating := h.allocating.filter (· ≠ i) }

end Host

/-- What a call of process `i` may answer, and what it leaves. -/
def LeaseCall.Does (i : Nat) : {β : Type} → LeaseCall β → Host → β → Host → Prop
  | _, .readTombstone, h, r, h' => h' = h ∧ ∀ t, r = .ok t → t = h.tombstone
  | _, .createTombstone receipt, h, .ok (), h' =>
    h.tombstone = none ∧ h' = { h with tombstone := some receipt }
  | _, .removeTombstone, h, .ok (), h' => h' = { h with tombstone := none }
  | _, .tryLockExclusive, h, .ok (), h' =>
    h.exclusive = none ∧ h.shared = [] ∧ h' = { h with exclusive := some i }
  | _, .tryLockShared, h, .ok (), h' =>
    h.exclusive = none ∧ h' = { h with shared := i :: h.shared }
  | _, .granted receipt, h, r, h' =>
    r = .ok () ∧ h' = { h with leases := (i, receipt) :: h.leases }
  | _, .dropped, h, r, h' => r = .ok () ∧ h' = h.leave i
  | _, _, h, _, h' => h' = h

def ReleaseCall.Does (i : Nat) {β : Type} (c : ReleaseCall β) (h : Host) (r : β) (h' : Host) :
    Prop :=
  match c with
  | .storage c => ∃ token d, c.Does token h.disk r d ∧ h' = (h.put d).issue c
  | .lease c => c.Does i h r h'

/-! ## Processes -/

def forget {α : Type} (t : ReleaseM α) : Prog ReleaseCall Unit := t.run >>= fun _ => .pure ()

/-- Processes that work on the storage of execution `e` under one state root. An allocation begins
where `ok` holds of the host. -/
def processes (root : String) (e : ExecutionId) (ok : Host → Prop) :
    System ReleaseCall Host Nat Unit where
  sem i := ReleaseCall.Does i
  begins i t h h' :=
    (∃ m request, m.stateRoot = root ∧ request.labels.executionId = e ∧ ok h ∧
      t = forget (onStorage (allocate m request)) ∧
      h' = { h with allocating := i :: h.allocating }) ∨
    (h' = h ∧ ∃ m receipt, m.stateRoot = root ∧ receipt.labels.executionId = e ∧
      (t = forget (release m receipt) ∨ t = forget (ackRelease m receipt) ∨
        t = forget (consume m receipt)))
  returns i _ h h' := h' = h.leave i
  dies i h h' := h' = h.leave i

end Orchestrator.ExecutionStorage.Exact
