import Orchestrator.Lib.Triple
import Orchestrator.Persistence.Schema

/-!
# Execution storage

`ExecutionStorage` (`execution-storage/src/manager.rs`): every execution gets a filesystem of its
own, a backend volume mounted on the execution's directory. A phase journal beside it says how far
an allocation or a release has come, so that a later process can finish or undo it, and a release
leaves a tombstone until the controller has acknowledged it.

An `Allocation` is all the host has of one execution's storage. The manager's functions are programs
over the effects they have on it, one call for each filesystem, journal or backend command, so that
a crash falls between any two of them. Records (journal, tombstone) and the mountpoint directory are
written atomically; a backend command that reports an error may still have taken effect. Checks that
only authenticate (pinned directories, bind proofs, backend configuration, identities) are `verify`
calls, which may fail and change nothing.
-/

namespace Orchestrator

open Prog

inductive StorageError where
  | invalidRequest (message : String)
  | unavailable (message : String)
  | identityMismatch (message : String)
  | journal (message : String)
  | command (message : String)
  | dockerCapability (message : String)
  | cleanup (message : String)
deriving DecidableEq, Repr

def StorageError.text : StorageError → String
  | invalidRequest m => s!"invalid storage request: {m}"
  | unavailable m => s!"storage capability unavailable: {m}"
  | identityMismatch m => s!"storage identity mismatch: {m}"
  | journal m => s!"storage journal error: {m}"
  | command m => s!"storage command failed: {m}"
  | dockerCapability m => s!"Docker capability unavailable: {m}"
  | cleanup m => s!"storage cleanup failed: {m}"

instance : ToString StorageError := ⟨StorageError.text⟩

/-! ## What the host holds -/

inductive BackendState where
  | mounted | unmounted | absent
deriving DecidableEq, Repr

inductive ReleasePhase where
  | mounted | unmounted | objectAbsent
deriving DecidableEq, Repr

/-- `PhaseJournal`; an allocating journal records whether the backend object is identified yet. -/
inductive PhaseJournal where
  | allocating (labels : OwnershipLabels) (reservedBytes : Nat) (identified : Bool)
  | ready (receipt : AllocationReceipt)
  | releasing (receipt : AllocationReceipt) (phase : ReleasePhase)
deriving DecidableEq, Repr

namespace PhaseJournal

def labels : PhaseJournal → OwnershipLabels
  | allocating labels _ _ => labels
  | ready receipt | releasing receipt _ => receipt.labels

def reservedBytes : PhaseJournal → Nat
  | allocating _ bytes _ => bytes
  | ready receipt | releasing receipt _ => receipt.reservedBytes

/-- Durable Ready or Releasing authority for exactly `receipt`. -/
def authorizes (receipt : AllocationReceipt) : PhaseJournal → Bool
  | allocating .. => false
  | ready r | releasing r _ => r = receipt

def isReady : PhaseJournal → Bool
  | ready _ => true
  | _ => false

/-- The journal of an allocation that is begun or complete and not being released. -/
def live : PhaseJournal → Bool
  | allocating .. | ready _ => true
  | releasing .. => false

end PhaseJournal

/-- The storage of one execution on one host. -/
structure Allocation where
  mountpoint : Bool := false
  backend : BackendState := .absent
  journal : Option PhaseJournal := none
  tombstone : Option AllocationReceipt := none
deriving DecidableEq, Repr

namespace Allocation

/-- Storage that was allocated and is not released: a mountpoint, a backend object, or a journal of
an allocation. -/
def left (a : Allocation) : Bool :=
  a.mountpoint || a.backend ≠ .absent || a.journal.any PhaseJournal.live

end Allocation

/-- One effect on an allocation. -/
inductive StorageChange where
  | createMountpoint | removeMountpoint
  | writeJournal (journal : PhaseJournal) | removeJournal
  | createBackend | mountBackend | unmountBackend | removeBackend
  | writeTombstone (receipt : AllocationReceipt) | removeTombstone
deriving DecidableEq, Repr

namespace StorageChange

def apply : StorageChange → Allocation → Allocation
  | createMountpoint, a => { a with mountpoint := true }
  | removeMountpoint, a => { a with mountpoint := false }
  | writeJournal j, a => { a with journal := some j }
  | removeJournal, a => { a with journal := none }
  | createBackend, a => { a with backend := .unmounted }
  | mountBackend, a => { a with backend := .mounted }
  | unmountBackend, a => { a with backend := .unmounted }
  | removeBackend, a => { a with backend := .absent }
  | writeTombstone r, a => { a with tombstone := some r }
  | removeTombstone, a => { a with tombstone := none }

/-- A backend command: it may have taken effect although it reports an error. -/
def torn : StorageChange → Bool
  | createBackend | mountBackend | unmountBackend | removeBackend => true
  | _ => false

end StorageChange

/-! ## Calls -/

inductive StorageOp : Type → Type
  | readTombstone : StorageOp (Except StorageError (Option AllocationReceipt))
  | journalExists : StorageOp (Except StorageError Bool)
  | readJournal : StorageOp (Except StorageError PhaseJournal)
  /-- `backend.state`. -/
  | backendState : StorageOp (Except StorageError BackendState)
  /-- `backend.discover`: is there an object with the journal's ownership token? -/
  | discover : StorageOp (Except StorageError Bool)
  | pathAbsent : StorageOp (Except StorageError Bool)
  /-- `probe`: the bytes the backend can reserve. -/
  | probe (bytes : Nat) : StorageOp (Except StorageError Nat)
  /-- `lifecycle_holds.list`: is there a durable hold? -/
  | held : StorageOp (Except StorageError Bool)
  /-- An authentication. -/
  | verify : StorageOp (Except StorageError Unit)
  | change (u : StorageChange) : StorageOp (Except StorageError Unit)

/-- A call, and whether it is `rollback_allocation` that makes it. -/
structure StorageCall (β : Type) where
  op : StorageOp β
  undoing : Bool

namespace StorageOp

def succeeded : {β : Type} → StorageOp β → β → Bool
  | _, .readTombstone, r => r.isOk
  | _, .journalExists, r => r.isOk
  | _, .readJournal, r => r.isOk
  | _, .backendState, r => r.isOk
  | _, .discover, r => r.isOk
  | _, .pathAbsent, r => r.isOk
  | _, .probe _, r => r.isOk
  | _, .held, r => r.isOk
  | _, .verify, r => r.isOk
  | _, .change _, r => r.isOk

/-- What a call may answer, and what it leaves. -/
def Does : {β : Type} → StorageOp β → Allocation → β → Allocation → Prop
  | _, .readTombstone, a, r, a' => a' = a ∧ ∀ t, r = .ok t → t = a.tombstone
  | _, .journalExists, a, r, a' => a' = a ∧ ∀ b, r = .ok b → b = a.journal.isSome
  | _, .readJournal, a, r, a' => a' = a ∧ ∀ j, r = .ok j → a.journal = some j
  | _, .backendState, a, r, a' => a' = a ∧ ∀ b, r = .ok b → b = a.backend
  | _, .discover, a, r, a' => a' = a ∧ ∀ b, r = .ok b → b = decide (a.backend ≠ .absent)
  | _, .pathAbsent, a, r, a' => a' = a ∧ ∀ b, r = .ok b → b = !a.mountpoint
  | _, .probe _, a, _, a' => a' = a
  | _, .held, a, _, a' => a' = a
  | _, .verify, a, _, a' => a' = a
  | _, .change u, a, r, a' =>
    match r with
    | .ok () => a' = u.apply a
    | .error _ => a' = a ∨ u.torn ∧ a' = u.apply a

/-- The answer of a host on which every call succeeds. -/
def exec : {β : Type} → StorageOp β → Allocation → β × Allocation
  | _, .readTombstone, a => (.ok a.tombstone, a)
  | _, .journalExists, a => (.ok a.journal.isSome, a)
  | _, .readJournal, a => (Txn.require a.journal (.journal "no such journal"), a)
  | _, .backendState, a => (.ok a.backend, a)
  | _, .discover, a => (.ok (decide (a.backend ≠ .absent)), a)
  | _, .pathAbsent, a => (.ok (!a.mountpoint), a)
  | _, .probe bytes, a => (.ok bytes, a)
  | _, .held, a => (.ok false, a)
  | _, .verify, a => (.ok (), a)
  | _, .change u, a => (.ok (), u.apply a)

theorem does_exec {β : Type} (op : StorageOp β) (a : Allocation) :
    op.Does a (op.exec a).1 (op.exec a).2 := by
  cases op
  case readJournal =>
    refine ⟨rfl, fun j hj => ?_⟩
    exact Txn.require_eq_ok.1 hj
  case change => exact rfl
  case probe | held | verify => exact rfl
  all_goals exact ⟨rfl, fun _ h => (Except.ok.inj h).symm⟩

end StorageOp

/-- Calls as the host answers them. -/
def StorageCall.Does {β : Type} (c : StorageCall β) (a : Allocation) (r : β) (a' : Allocation) :
    Prop :=
  c.op.Does a r a'

/-- Calls as the host answers them when no call of a rollback fails. -/
def StorageCall.Tidy {β : Type} (c : StorageCall β) (a : Allocation) (r : β) (a' : Allocation) :
    Prop :=
  c.op.Does a r a' ∧ (c.undoing = true → c.op.succeeded r = true)

abbrev StorageM := ExceptT StorageError (Prog StorageCall)

namespace ExecutionStorage

/-- A call made by the manager itself, or while it rolls an allocation back. -/
def call {α : Type} (undoing : Bool) (op : StorageOp (Except StorageError α)) : StorageM α :=
  attempt ⟨op, undoing⟩

def change (undoing : Bool) (u : StorageChange) : StorageM Unit := call undoing (.change u)

/-! ## Layout -/

def diskGibToBytes (diskGib : Nat) : Except StorageError Nat := do
  Txn.ensure (diskGib ≠ 0) (.invalidRequest "disk_gib must be greater than zero")
  Txn.ensure (diskGib * 2 ^ 30 < 2 ^ 64) (.invalidRequest "disk_gib overflows bytes")
  pure (diskGib * 2 ^ 30)

def safeComponent (c : Char) : Bool := c.isLower || c.isDigit || c = '-'

def validateExecutionId (id : ExecutionId) : Except StorageError Unit :=
  Txn.ensure (1 ≤ id.value.utf8ByteSize ∧ id.value.utf8ByteSize ≤ 63 ∧
      (id.value.toList.head?.any fun c => c.isLower || c.isDigit) ∧
      id.value.toList.all safeComponent)
    (.invalidRequest s!"execution_id is not a safe path component: {id}")

end ExecutionStorage

/-- `ExecutionLayout`: where the storage of an execution is mounted. -/
structure ExecutionLayout where
  root : String
  repository : String
  session : String
deriving DecidableEq, Repr

def ExecutionLayout.new (stateRoot : String) (id : ExecutionId) :
    Except StorageError ExecutionLayout := do
  ExecutionStorage.validateExecutionId id
  let root := s!"{stateRoot}/executions/{id}"
  pure { root, repository := s!"{root}/repository", session := s!"{root}/session" }

namespace ExecutionStorage

/-! ## Steps -/

def removeReleasedMountpoint (undoing : Bool) : StorageM Unit := do
  call undoing .verify
  let absent ← call undoing .pathAbsent
  provided (!absent) (change undoing .removeMountpoint)

def noteRelease (undoing : Bool) (receipt : Option AllocationReceipt) (phase : ReleasePhase) :
    StorageM Unit :=
  whenSome receipt fun r => change undoing (.writeJournal (.releasing r phase))

def unmountExact (undoing : Bool) (receipt : Option AllocationReceipt) (state : BackendState) :
    StorageM BackendState :=
  if state = .mounted then do
    change undoing .unmountBackend
    let state ← call undoing .backendState
    refuse (state ≠ .unmounted) (.identityMismatch "backend remained mounted after exact unmount")
    noteRelease undoing receipt .unmounted
    pure state
  else pure state

def removeExact (undoing : Bool) (receipt : Option AllocationReceipt) (state : BackendState) :
    StorageM BackendState :=
  if state = .unmounted then do
    change undoing .removeBackend
    let state ← call undoing .backendState
    refuse (state ≠ .absent) (.identityMismatch "backend object remained after exact removal")
    noteRelease undoing receipt .objectAbsent
    pure state
  else pure state

def cleanupIdentity (undoing : Bool) (receipt : Option AllocationReceipt) : StorageM Unit := do
  let state ← call undoing .backendState
  let state ← unmountExact undoing receipt state
  let state ← removeExact undoing receipt state
  refuse (state ≠ .absent) (.identityMismatch "backend cleanup reached an unknown state")
  removeReleasedMountpoint undoing
  change undoing .removeJournal

def discardAllocation (undoing : Bool) : StorageM Unit := do
  removeReleasedMountpoint undoing
  change undoing .removeJournal

def authenticateCleanupAuthority (receipt : AllocationReceipt) (journal : PhaseJournal) :
    StorageM BackendState := do
  call false .verify
  refuse (!journal.authorizes receipt) (.identityMismatch
    "cleanup receipt does not exactly match durable Ready/Releasing authority")
  call false .verify
  let state ← call false .backendState
  let absent ← call false .pathAbsent
  refuse (absent ∧ state ≠ .absent) (.identityMismatch
    "cleanup allocation path disappeared while its backend remains")
  pure state

/-- Is there a backend object? Without a recorded identity it is looked for. -/
def findObject (undoing identified : Bool) : StorageM Bool :=
  if identified then pure true else call undoing .discover

/-! ## Allocation -/

def undoAllocation (labels : OwnershipLabels) (reservedBytes : Nat) (identified : Bool) :
    StorageM Unit := do
  let found ← findObject true identified
  if found then do
    call true .verify
    change true (.writeJournal (.allocating labels reservedBytes true))
    cleanupIdentity true none
  else discardAllocation true

def rollbackAllocation {α : Type} (labels : OwnershipLabels) (reservedBytes : Nat)
    (identified : Bool) (cause : StorageError) : StorageM α := do
  let undone ← observe (undoAllocation labels reservedBytes identified)
  match undone with
  | .ok () => throw cause
  | .error cleanup =>
    throw (.cleanup s!"allocation failed: {cause}; rollback failed: {cleanup}")

def recoverExisting (labels : OwnershipLabels) (reservedBytes : Nat) : StorageM Unit := do
  let journal ← call false .readJournal
  refuse (journal.labels ≠ labels ∨ journal.reservedBytes ≠ reservedBytes) (.identityMismatch
    "existing journal belongs to a different allocation request")
  call false .verify
  match journal with
  | .ready _ => throw (.identityMismatch "execution storage is already allocated")
  | .releasing receipt _ => do
    let _ ← authenticateCleanupAuthority receipt journal
    cleanupIdentity false (some receipt)
  | .allocating _ _ identified => do
    let found ← findObject false identified
    if found then do
      call false .verify
      provided (!identified)
        (change false (.writeJournal (.allocating labels reservedBytes true)))
      cleanupIdentity false none
    else discardAllocation false

def createMountpoint (layout : ExecutionLayout) : StorageM Unit := do
  call false .verify
  let absent ← call false .pathAbsent
  refuse (!absent) (.identityMismatch s!"execution mountpoint already exists: {layout.root}")
  change false .createMountpoint

def openJournal (labels : OwnershipLabels) (reservedBytes : Nat) : StorageM Unit := do
  let created ← observe (change false (.writeJournal (.allocating labels reservedBytes false)))
  match created with
  | .ok () => pure ()
  | .error e => do
    let _ ← (observe (removeReleasedMountpoint true) : StorageM (Except StorageError Unit))
    throw e

def requireMounted : StorageM Unit := do
  let state ← call false .backendState
  refuse (state ≠ .mounted) (.identityMismatch "prepared backend is not mounted")

/-- From the created backend object to the Ready journal. -/
def establish (layout : ExecutionLayout) (labels : OwnershipLabels) (reservedBytes : Nat) :
    StorageM AllocationReceipt := do
  call false .verify
  change false (.writeJournal (.allocating labels reservedBytes true))
  -- `backend.prepare` and the check of the prepared identity
  call false .verify
  change false (.writeJournal (.allocating labels reservedBytes true))
  call false .verify
  change false .mountBackend
  requireMounted
  call false .verify
  requireMounted
  -- the bind proof and the layout directories
  call false .verify
  let receipt := { labels, reservedBytes, mountPath := layout.root }
  change false (.writeJournal (.ready receipt))
  pure receipt

/-- Create the backend object and establish the allocation, or roll everything back. -/
def buildBackend (layout : ExecutionLayout) (labels : OwnershipLabels) (reservedBytes : Nat) :
    StorageM AllocationReceipt := do
  let created ← observe (change false .createBackend)
  match created with
  | .error e => rollbackAllocation labels reservedBytes false e
  | .ok () => do
    let established ← observe (establish layout labels reservedBytes)
    match established with
    | .error e => rollbackAllocation labels reservedBytes true e
    | .ok receipt => pure receipt

def allocate (stateRoot : String) (labels : OwnershipLabels) (diskGib : Nat) :
    StorageM AllocationReceipt := do
  let reservedBytes ← ExceptT.mk (.pure (diskGibToBytes diskGib))
  let layout ← ExceptT.mk (.pure (ExecutionLayout.new stateRoot labels.executionId))
  let tombstone ← call false .readTombstone
  refuse tombstone.isSome
    (.unavailable "prior physical release is awaiting durable acknowledgment")
  let journaled ← call false .journalExists
  provided journaled (recoverExisting labels reservedBytes)
  let reservable ← call false (.probe reservedBytes)
  refuse (reservable < reservedBytes)
    (.unavailable s!"backend can reserve {reservable} bytes, need {reservedBytes}")
  createMountpoint layout
  openJournal labels reservedBytes
  buildBackend layout labels reservedBytes

/-! ## Release -/

/-- Release under the durable authority that `journal` is. -/
def releaseAuthorized (receipt : AllocationReceipt) (tombstoned : Bool) : StorageM Unit := do
  let held ← call false .held
  refuse held (.unavailable "execution has an unresolved durable lifecycle hold")
  -- the exclusive lock against Ready leases
  call false .verify
  let journal ← call false .readJournal
  let state ← authenticateCleanupAuthority receipt journal
  refuse (journal.isReady ∧ state ≠ .mounted) (.identityMismatch "ready backend is not mounted")
  provided (!tombstoned) (change false (.writeTombstone receipt))
  provided journal.isReady (change false (.writeJournal (.releasing receipt .mounted)))
  cleanupIdentity false (some receipt)

def objectAbsent : StorageM Bool := do
  let state ← call false .backendState
  pure (state = .absent)

/-- The mountpoint and the backend object are both gone. -/
def physicallyAbsent : StorageM Bool := do
  let absent ← call false .pathAbsent
  if absent then objectAbsent else pure false

def release (receipt : AllocationReceipt) : StorageM Unit := do
  let tombstone ← call false .readTombstone
  refuse (tombstone.isSome ∧ tombstone ≠ some receipt) (.identityMismatch
    "release tombstone belongs to another allocation receipt")
  if tombstone.isSome then do
    let gone ← physicallyAbsent
    if gone then pure () else releaseAuthorized receipt true
  else releaseAuthorized receipt false

/-- Nothing awaits acknowledgment and nothing is there. -/
def releasedAlready (tombstone : Option AllocationReceipt) : StorageM Bool :=
  if tombstone = none then do
    let gone ← objectAbsent
    if gone then call false .pathAbsent else pure false
  else pure false

def ackRelease (receipt : AllocationReceipt) : StorageM Unit := do
  let tombstone ← call false .readTombstone
  let settled ← releasedAlready tombstone
  if settled then pure () else do
    let actual ← demand tombstone (.identityMismatch "release tombstone is absent")
    refuse (actual ≠ receipt) (.identityMismatch
      "release tombstone belongs to another allocation receipt")
    let state ← call false .backendState
    refuse (state ≠ .absent) (.identityMismatch
      "cannot acknowledge a release while its backend is present")
    let absent ← call false .pathAbsent
    refuse (!absent) (.identityMismatch
      "cannot acknowledge a release while its allocation path is present")
    change false .removeTombstone

end ExecutionStorage
end Orchestrator
