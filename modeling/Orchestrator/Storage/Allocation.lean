import Orchestrator.Storage.Manager

/-!
# Allocation, with the identities it works on

`ExecutionStorage::allocate` (`execution-storage/src/manager.rs`) once more, this time with the
backend objects it names: an object is known by a `BackendIdentity`, which carries the ownership
token of the call that created it, and every unmount and removal is issued for one identity. The
journal, the receipt and their checks are those of `model.rs`.

The programs make one call for each effect of the journal directory, the mountpoint, the storage
backend and the Docker verifier. The checks that only authenticate directories (pins, layout
directories, the Ready lease) are `verify` calls. What the calls do is said twice: by `Does`, where
the backend and the verifier behave as they like, and by `WorkingBackend.exec`, where everything
works.
-/

namespace Orchestrator.ExecutionStorage.Exact

open Prog

/-! ## Identities -/

inductive BackendIdentity where
  | apfs (container containerUuid volume volumeName volumeUuid ownershipToken : String)
  | lvm (volumeGroup volumeGroupUuid logicalVolume logicalVolumeUuid filesystemUuid
      ownershipToken : String)
deriving DecidableEq, Repr

namespace BackendIdentity

def ownershipToken : BackendIdentity → String
  | apfs _ _ _ _ _ token | lvm _ _ _ _ _ token => token

/-- The fields `validate` checks, by the names its errors give them. -/
def fields : BackendIdentity → List (String × String)
  | apfs container containerUuid volume volumeName volumeUuid token =>
    [("APFS container", container), ("APFS container UUID", containerUuid),
      ("APFS volume", volume), ("APFS volume name", volumeName), ("APFS volume UUID", volumeUuid),
      ("ownership token", token)]
  | lvm group groupUuid volume volumeUuid filesystemUuid token =>
    [("LVM volume group", group), ("LVM volume group UUID", groupUuid),
      ("LVM logical volume", volume), ("LVM logical volume UUID", volumeUuid),
      ("filesystem UUID", filesystemUuid), ("ownership token", token)]

def validate (id : BackendIdentity) : Except StorageError Unit :=
  match id.fields.find? fun field => field.2.isEmpty with
  | some (name, _) => .error (.identityMismatch s!"{name} is empty")
  | none => .ok ()

def validateCreated : BackendIdentity → Except StorageError Unit
  | lvm group groupUuid volume volumeUuid _ token =>
    Txn.ensure ([group, groupUuid, volume, volumeUuid, token].all fun value => !value.isEmpty)
      (.identityMismatch "created LVM identity is incomplete")
  | id => id.validate

def validPreparedTransition : BackendIdentity → BackendIdentity → Bool
  | created@(apfs ..), prepared@(apfs ..) => created = prepared
  | lvm group groupUuid volume volumeUuid filesystemUuid token,
      lvm group' groupUuid' volume' volumeUuid' filesystemUuid' token' =>
    filesystemUuid.isEmpty && !filesystemUuid'.isEmpty && group = group' &&
      groupUuid = groupUuid' && volume = volume' && volumeUuid = volumeUuid' && token = token'
  | _, _ => false

/-- The backend object an identity names: formatting a logical volume does not make it another. -/
def object : BackendIdentity → BackendIdentity
  | lvm group groupUuid volume volumeUuid _ token => lvm group groupUuid volume volumeUuid "" token
  | id => id

end BackendIdentity

structure BackendCapability where
  backend : String
  poolIdentity : String
  reservableBytes : Nat
deriving DecidableEq, Repr

structure DockerBindCapability where
  daemonId : String
  verifier : String
  methodVersion : String
deriving DecidableEq, Repr

def DockerBindCapability.validate (c : DockerBindCapability) : Except StorageError Unit :=
  Txn.ensure (!c.daemonId.isEmpty ∧ !c.verifier.isEmpty ∧ !c.methodVersion.isEmpty)
    (.unavailable "Docker bind capability lacks daemon or verifier identity")

structure DockerBindProof where
  daemonId : String
  verifier : String
  methodVersion : String
  sourcePath : String
  filesystemId : String
deriving DecidableEq, Repr

/-! ## Receipt and journal -/

def allocationApiVersion : String := "autospec.dev/execution-storage/v1alpha1"

structure AllocationReceipt where
  apiVersion : String
  labels : OwnershipLabels
  reservedBytes : Nat
  mountPath : String
  backendKind : String
  backendKey : String
  poolIdentity : String
  backend : BackendIdentity
  dockerBind : DockerBindProof
deriving DecidableEq, Repr

def AllocationReceipt.validate (r : AllocationReceipt) (labels : OwnershipLabels)
    (layout : ExecutionLayout) : Except StorageError Unit := do
  Txn.ensure (r.apiVersion = allocationApiVersion) (.identityMismatch
    s!"allocation API version {r.apiVersion} is not {allocationApiVersion}")
  Txn.ensure (r.labels = labels)
    (.identityMismatch "ownership labels differ from the requested execution")
  Txn.ensure (r.mountPath = layout.root)
    (.identityMismatch s!"receipt mount {r.mountPath} is not {layout.root}")
  Txn.ensure (r.reservedBytes ≠ 0 ∧ !r.backendKind.isEmpty ∧ !r.backendKey.isEmpty ∧
      !r.poolIdentity.isEmpty)
    (.identityMismatch "reserved byte count is zero")
  r.backend.validate
  Txn.ensure (!r.dockerBind.daemonId.isEmpty ∧ !r.dockerBind.verifier.isEmpty ∧
      !r.dockerBind.methodVersion.isEmpty ∧ r.dockerBind.sourcePath = r.mountPath ∧
      !r.dockerBind.filesystemId.isEmpty)
    (.identityMismatch "Docker bind proof does not match the allocation")

inductive AllocationPhase where
  | allocating | ready | releasing
deriving DecidableEq, Repr

structure PhaseJournal where
  apiVersion : String := allocationApiVersion
  phase : AllocationPhase
  labels : OwnershipLabels
  reservedBytes : Nat
  mountPath : String
  backendKind : String
  backendKey : String
  poolIdentity : String
  ownershipToken : String
  backend : Option BackendIdentity := none
  receipt : Option AllocationReceipt := none
  releasePhase : Option ReleasePhase := none
deriving DecidableEq, Repr

namespace PhaseJournal

def withBackendIdentity (j : PhaseJournal) (backend : BackendIdentity) : PhaseJournal :=
  { j with backend := some backend }

def fromReceipt (phase : AllocationPhase) (r : AllocationReceipt) : PhaseJournal where
  phase
  labels := r.labels
  reservedBytes := r.reservedBytes
  mountPath := r.mountPath
  backendKind := r.backendKind
  backendKey := r.backendKey
  poolIdentity := r.poolIdentity
  ownershipToken := r.backend.ownershipToken
  backend := some r.backend
  receipt := some r

def ready (r : AllocationReceipt) : PhaseJournal := fromReceipt .ready r

def releasing (r : AllocationReceipt) (phase : ReleasePhase) : PhaseJournal :=
  { fromReceipt .releasing r with releasePhase := some phase }

/-- The recorded identity is complete, for the phase, and carries the journal's token. -/
def validateBackend (j : PhaseJournal) : Except StorageError Unit :=
  match j.backend with
  | none => .ok ()
  | some backend => do
    if j.phase = .allocating then backend.validateCreated else backend.validate
    Txn.ensure (backend.ownershipToken = j.ownershipToken)
      (.identityMismatch "journal ownership token differs from backend identity")

/-- The phase has the receipt and the release phase it needs. -/
def validatePhase (j : PhaseJournal) (layout : ExecutionLayout) : Except StorageError Unit :=
  match j.phase, j.backend, j.receipt, j.releasePhase with
  | .allocating, _, none, none => .ok ()
  | .ready, some backend, some receipt, none
  | .releasing, some backend, some receipt, some _ =>
    if backend = receipt.backend then receipt.validate j.labels layout
    else .error (.identityMismatch "journal phase and receipt presence disagree")
  | _, _, _, _ => .error (.identityMismatch "journal phase and receipt presence disagree")

/-- `validate`, for the journal of execution `id`. -/
def validate (j : PhaseJournal) (id : ExecutionId) (layout : ExecutionLayout) :
    Except StorageError Unit := do
  Txn.ensure (j.apiVersion = allocationApiVersion ∧ j.labels.executionId = id ∧
      j.mountPath = layout.root ∧ j.reservedBytes ≠ 0 ∧ !j.backendKind.isEmpty ∧
      !j.backendKey.isEmpty ∧ !j.poolIdentity.isEmpty ∧ !j.ownershipToken.isEmpty)
    (.identityMismatch "journal identity does not match its deterministic path")
  j.validateBackend
  j.validatePhase layout

end PhaseJournal

structure AllocationRequest where
  labels : OwnershipLabels
  diskGib : Nat
deriving DecidableEq, Repr

/-- What the manager is configured with: `key` is the backend's name for an execution's storage. -/
structure Manager where
  stateRoot : String
  key : OwnershipLabels → String
  cleanupDaemonId : String

/-! ## Calls -/

inductive Call : Type → Type
  | readTombstone : Call (Except StorageError Bool)
  | journalExists : Call (Except StorageError Bool)
  | readJournal : Call (Except StorageError PhaseJournal)
  | createJournal (journal : PhaseJournal) : Call (Except StorageError Unit)
  | writeJournal (journal : PhaseJournal) : Call (Except StorageError Unit)
  | removeJournal : Call (Except StorageError Unit)
  | mountpointAbsent : Call (Except StorageError Bool)
  | createMountpoint : Call (Except StorageError Unit)
  | removeMountpoint : Call (Except StorageError Unit)
  /-- An authentication. -/
  | verify : Call (Except StorageError Unit)
  /-- The token of the call that asks: the clock, a counter and the process. -/
  | ownershipToken : Call (Except StorageError String)
  | probeBackend (bytes : Nat) : Call (Except StorageError BackendCapability)
  | probeDocker : Call (Except StorageError DockerBindCapability)
  | verifyBind (root : String) : Call (Except StorageError DockerBindProof)
  | discover (token : String) (bytes : Nat) : Call (Except StorageError (Option BackendIdentity))
  | create (labels : OwnershipLabels) (token : String) (bytes : Nat) :
      Call (Except StorageError BackendIdentity)
  | prepare (id : BackendIdentity) (bytes : Nat) : Call (Except StorageError BackendIdentity)
  | mount (id : BackendIdentity) (bytes : Nat) : Call (Except StorageError Unit)
  | state (id : BackendIdentity) (bytes : Nat) : Call (Except StorageError BackendState)
  | unmount (id : BackendIdentity) : Call (Except StorageError Unit)
  | remove (id : BackendIdentity) : Call (Except StorageError Unit)

abbrev M := ExceptT StorageError (Prog Call)

/-! ## Journal and mountpoint -/

/-- The execution a program works for, and where its storage is. -/
structure Place where
  id : ExecutionId
  layout : ExecutionLayout
deriving DecidableEq, Repr

namespace Place

def createJournal (p : Place) (j : PhaseJournal) : M Unit := do
  unwrap (j.validate p.id p.layout)
  attempt (.createJournal j)

def writeJournal (p : Place) (j : PhaseJournal) : M Unit := do
  unwrap (j.validate p.id p.layout)
  attempt (.writeJournal j)

def readJournal (p : Place) : M PhaseJournal := do
  let j ← attempt .readJournal
  unwrap (j.validate p.id p.layout)
  pure j

def createMountpoint (p : Place) : M Unit := do
  attempt .verify
  let absent ← attempt .mountpointAbsent
  refuse (!absent)
    (.identityMismatch s!"execution mountpoint already exists: {p.layout.root}")
  attempt .createMountpoint

end Place

/-! ## Removal -/

/-- Record the progress of a release; there is none to record without a receipt. -/
def noteRelease (p : Place) (receipt : Option AllocationReceipt) (phase : ReleasePhase) : M Unit :=
  whenSome receipt fun r => p.writeJournal (.releasing r phase)

/-- The first half of `cleanup_identity`. -/
def unmountExact (p : Place) (id : BackendIdentity) (bytes : Nat)
    (receipt : Option AllocationReceipt) (state : BackendState) : M BackendState :=
  if state = .mounted then do
    attempt (.unmount id)
    let state ← attempt (.state id bytes)
    refuse (state ≠ .unmounted) (.identityMismatch "backend remained mounted after exact unmount")
    noteRelease p receipt .unmounted
    pure state
  else pure state

/-- The second half of `cleanup_identity`. -/
def removeExact (p : Place) (id : BackendIdentity) (bytes : Nat)
    (receipt : Option AllocationReceipt) (state : BackendState) : M BackendState :=
  if state = .unmounted then do
    attempt (.remove id)
    let state ← attempt (.state id bytes)
    refuse (state ≠ .absent) (.identityMismatch "backend object remained after exact removal")
    noteRelease p receipt .objectAbsent
    pure state
  else pure state

/-- The mountpoint and then the journal. -/
def discardAllocation : M Unit := do
  attempt .removeMountpoint
  attempt .removeJournal

def cleanupIdentity (p : Place) (id : BackendIdentity) (bytes : Nat)
    (receipt : Option AllocationReceipt) : M Unit := do
  let state ← attempt (.state id bytes)
  let state ← unmountExact p id bytes receipt state
  let state ← removeExact p id bytes receipt state
  refuse (state ≠ .absent) (.identityMismatch "backend cleanup reached an unknown state")
  discardAllocation

/-- The recorded identity, or one that is looked for under the journal's token. -/
def identify (token : String) (bytes : Nat) (recorded : Option BackendIdentity) :
    M (Option BackendIdentity) :=
  match recorded with
  | some id => pure (some id)
  | none => attempt (.discover token bytes)

/-! ## Recovery -/

def validateBackendConfig (m : Manager) (j : PhaseJournal) : M Unit := do
  let configured ← attempt (.probeBackend 0)
  refuse (¬(j.backendKind = configured.backend ∧ j.backendKey = m.key j.labels ∧
      j.poolIdentity = configured.poolIdentity))
    (.identityMismatch "existing journal backend configuration or pool identity changed")

def authenticateCleanupAuthority (m : Manager) (p : Place) (receipt : AllocationReceipt)
    (j : PhaseJournal) : M BackendState := do
  unwrap (receipt.validate receipt.labels p.layout)
  refuse (j.receipt ≠ some receipt ∨ j.phase = .allocating) (.identityMismatch
    "cleanup receipt does not exactly match durable Ready/Releasing authority")
  validateBackendConfig m j
  refuse (m.cleanupDaemonId ≠ receipt.dockerBind.daemonId) (.identityMismatch
    "Docker daemon identity differs from the durable bind proof")
  attempt .verify
  let state ← attempt (.state receipt.backend receipt.reservedBytes)
  let absent ← attempt .mountpointAbsent
  refuse (absent ∧ state ≠ .absent) (.identityMismatch
    "cleanup allocation path disappeared while its backend remains")
  pure state

/-- `recover_existing`, for an allocation that was begun and not completed. -/
def recoverAllocating (p : Place) (j : PhaseJournal) : M Unit := do
  let identity ← identify j.ownershipToken j.reservedBytes j.backend
  match identity with
  | some id => do
    refuse (id.ownershipToken ≠ j.ownershipToken)
      (.identityMismatch "discovered backend ownership token changed")
    provided (j.backend = none) (p.writeJournal (j.withBackendIdentity id))
    cleanupIdentity p id j.reservedBytes none
  | none => discardAllocation

/-- `recover_existing`, for a release that was begun and not completed. -/
def recoverReleasing (m : Manager) (p : Place) (j : PhaseJournal) : M Unit := do
  let receipt ← demand j.receipt (.identityMismatch "releasing journal lacks receipt")
  let _ ← authenticateCleanupAuthority m p receipt j
  cleanupIdentity p receipt.backend receipt.reservedBytes (some receipt)

/-- Finish what an earlier process left of this request. -/
def recoverExisting (m : Manager) (p : Place) (request : AllocationRequest) (bytes : Nat) :
    M Unit := do
  let j ← p.readJournal
  refuse (j.labels ≠ request.labels ∨ j.reservedBytes ≠ bytes) (.identityMismatch
    "existing journal belongs to a different allocation request")
  validateBackendConfig m j
  match j.phase with
  | .ready => throw (.identityMismatch "execution storage is already allocated")
  | .releasing => recoverReleasing m p j
  | .allocating => recoverAllocating p j

/-! ## Rollback -/

/-- The cleanup of `rollback_allocation`. -/
def undoAllocation (p : Place) (j : PhaseJournal) (identity : Option BackendIdentity) : M Unit := do
  let identity ← identify j.ownershipToken j.reservedBytes identity
  match identity with
  | some id => do
    refuse (id.ownershipToken ≠ j.ownershipToken)
      (.identityMismatch "rollback discovery returned a foreign ownership token")
    p.writeJournal (j.withBackendIdentity id)
    cleanupIdentity p id j.reservedBytes none
  | none => discardAllocation

def rollbackAllocation {α : Type} (p : Place) (j : PhaseJournal)
    (identity : Option BackendIdentity) (cause : StorageError) : M α := do
  let undone ← observe (undoAllocation p j identity)
  match undone with
  | .ok () => throw cause
  | .error cleanup =>
    throw (.cleanup s!"allocation failed: {cause}; rollback failed: {cleanup}")

/-- `t`, and `rollback_allocation` with this journal and identity when it fails. -/
def orRollback {α : Type} (p : Place) (j : PhaseJournal) (identity : Option BackendIdentity)
    (t : M α) : M α := do
  let done ← observe t
  match done with
  | .ok a => pure a
  | .error cause => rollbackAllocation p j identity cause

/-! ## Allocation -/

/-- `probe`: the capabilities of the backend and of the Docker verifier. -/
def probe (bytes : Nat) : M (BackendCapability × DockerBindCapability) := do
  let backend ← attempt (.probeBackend bytes)
  let docker ← attemptAs (fun e => .dockerCapability e.text) .probeDocker
  unwrap (docker.validate.mapError fun e => .dockerCapability e.text)
  pure (backend, docker)

def requireMounted (id : BackendIdentity) (bytes : Nat) : M Unit := do
  let state ← attempt (.state id bytes)
  refuse (state ≠ .mounted) (.identityMismatch "prepared backend is not mounted")

/-- From the mounted backend object to the Ready journal. -/
def publish (m : Manager) (p : Place) (request : AllocationRequest) (bytes : Nat)
    (backend : BackendCapability) (docker : DockerBindCapability) (prepared : BackendIdentity) :
    M AllocationReceipt := do
  requireMounted prepared bytes
  -- the mounted root
  attempt .verify
  requireMounted prepared bytes
  attempt .verify
  let dockerBind ← attempt (.verifyBind p.layout.root)
  attempt .verify
  refuse (dockerBind.daemonId ≠ docker.daemonId ∨ dockerBind.verifier ≠ docker.verifier ∨
      dockerBind.methodVersion ≠ docker.methodVersion)
    (.identityMismatch "Docker bind verifier contract changed after capability probe")
  -- the layout directories
  attempt .verify
  let receipt : AllocationReceipt :=
    { apiVersion := allocationApiVersion
      labels := request.labels
      reservedBytes := bytes
      mountPath := p.layout.root
      backendKind := backend.backend
      backendKey := m.key request.labels
      poolIdentity := backend.poolIdentity
      backend := prepared
      dockerBind }
  unwrap (receipt.validate request.labels p.layout)
  -- the layout directories once more, and the Ready lease
  attempt .verify
  p.writeJournal (.ready receipt)
  pure receipt

/-- Create the allocating journal; the mountpoint goes again when that fails. -/
def openJournal (p : Place) (j : PhaseJournal) : M Unit := do
  let created ← observe (p.createJournal j)
  match created with
  | .ok () => pure ()
  | .error e => do
    let _ ← (observe (attempt .removeMountpoint) : M (Except StorageError Unit))
    throw e

/-- From the allocating journal to the Ready journal, or back to nothing. -/
def build (m : Manager) (p : Place) (request : AllocationRequest) (bytes : Nat)
    (backend : BackendCapability) (docker : DockerBindCapability) (allocating : PhaseJournal) :
    M AllocationReceipt := do
  let token := allocating.ownershipToken
  let created ← orRollback p allocating none (attempt (.create request.labels token bytes))
  orRollback p allocating (some created) (refuse (created.ownershipToken ≠ token)
    (.identityMismatch "created backend ownership token differs from the journal"))
  orRollback p allocating (some created) (p.writeJournal (allocating.withBackendIdentity created))
  let prepared ← orRollback p allocating (some created) (attempt (.prepare created bytes))
  -- the only rollback before the prepared journal that is not given the created identity
  orRollback p allocating (some prepared) (refuse (!created.validPreparedTransition prepared)
    (.identityMismatch
      "prepared backend identity changed outside the filesystem UUID transition"))
  let preparedJournal := allocating.withBackendIdentity prepared
  orRollback p allocating (some prepared) (p.writeJournal preparedJournal)
  orRollback p preparedJournal (some prepared) (attempt .verify)
  orRollback p preparedJournal (some prepared) (attempt (.mount prepared bytes))
  orRollback p preparedJournal (some prepared) (publish m p request bytes backend docker prepared)

def allocatingJournal (m : Manager) (p : Place) (request : AllocationRequest) (bytes : Nat)
    (backend : BackendCapability) (token : String) : PhaseJournal where
  phase := .allocating
  labels := request.labels
  reservedBytes := bytes
  mountPath := p.layout.root
  backendKind := backend.backend
  backendKey := m.key request.labels
  poolIdentity := backend.poolIdentity
  ownershipToken := token

/-- What comes before the first effect of the allocation itself. -/
def prepareGround (m : Manager) (p : Place) (request : AllocationRequest) (bytes : Nat) :
    M (BackendCapability × DockerBindCapability) := do
  let tombstone ← attempt .readTombstone
  refuse tombstone (.unavailable "prior physical release is awaiting durable acknowledgment")
  let journaled ← attempt .journalExists
  provided journaled (recoverExisting m p request bytes)
  let capability ← probe bytes
  refuse (capability.1.reservableBytes < bytes) (.unavailable
    s!"backend can reserve {capability.1.reservableBytes} bytes, need {bytes}")
  pure capability

/-- `allocate`, for a request whose size and place are known. -/
def allocateAt (m : Manager) (p : Place) (request : AllocationRequest) (bytes : Nat) :
    M AllocationReceipt := do
  let capability ← prepareGround m p request bytes
  p.createMountpoint
  let token ← attempt .ownershipToken
  let allocating := allocatingJournal m p request bytes capability.1 token
  openJournal p allocating
  build m p request bytes capability.1 capability.2 allocating

def allocate (m : Manager) (request : AllocationRequest) : M AllocationReceipt := do
  let bytes ← unwrap (diskGibToBytes request.diskGib)
  let layout ← unwrap (ExecutionLayout.new m.stateRoot request.labels.executionId)
  allocateAt m ⟨request.labels.executionId, layout⟩ request bytes

/-! ## What calls do -/

/-- The storage of one execution on one host: `volumes` says of every backend object whether it
exists. -/
structure Disk where
  mountpoint : Bool
  journal : Option PhaseJournal
  tombstone : Bool
  volumes : BackendIdentity → BackendState

/-- What a call may answer, and what it leaves, when `token` is the token of the call. The backend
and the verifier answer what they like, and do to the backend's objects what they like, except that
the state of an object is told as it is. A local effect may be refused, and then has not happened;
an existing mountpoint directory can be removed. -/
def Call.Does (token : String) : {β : Type} → Call β → Disk → β → Disk → Prop
  | _, .readTombstone, d, r, d' => d' = d ∧ ∀ b, r = .ok b → b = d.tombstone
  | _, .journalExists, d, r, d' => d' = d ∧ ∀ b, r = .ok b → b = d.journal.isSome
  | _, .readJournal, d, r, d' => d' = d ∧ ∀ j, r = .ok j → d.journal = some j
  | _, .createJournal j, d, r, d' | _, .writeJournal j, d, r, d' =>
    match r with
    | .ok () => d' = { d with journal := some j }
    | .error _ => d' = d
  | _, .removeJournal, d, r, d' =>
    match r with
    | .ok () => d' = { d with journal := none }
    | .error _ => d' = d
  | _, .mountpointAbsent, d, r, d' => d' = d ∧ ∀ b, r = .ok b → b = !d.mountpoint
  | _, .createMountpoint, d, r, d' =>
    match r with
    | .ok () => d' = { d with mountpoint := true }
    | .error _ => d' = d
  | _, .removeMountpoint, d, r, d' => r = .ok () ∧ d' = { d with mountpoint := false }
  | _, .verify, d, _, d' => d' = d
  | _, .ownershipToken, d, r, d' => r = .ok token ∧ d' = d
  | _, .state id _, d, r, d' => d' = d ∧ ∀ s, r = .ok s → s = d.volumes id.object
  | _, .probeBackend _, d, _, d' | _, .probeDocker, d, _, d' | _, .verifyBind _, d, _, d'
  | _, .discover _ _, d, _, d' | _, .create _ _ _, d, _, d' | _, .prepare _ _, d, _, d'
  | _, .mount _ _, d, _, d' | _, .unmount _, d, _, d' | _, .remove _, d, _, d' =>
    ∃ volumes, d' = { d with volumes }

/-! ### Where everything works -/

/-- A backend and a Docker verifier that do what they are asked. -/
structure WorkingBackend where
  capability : BackendCapability
  docker : DockerBindCapability
  filesystemId : String
  /-- The object `create` makes under a token. -/
  mint : String → BackendIdentity
  /-- The identity of an object that `prepare` has formatted. -/
  format : BackendIdentity → BackendIdentity
  kind_known : capability.backend.isEmpty = false
  pool_known : capability.poolIdentity.isEmpty = false
  docker_valid : docker.validate = .ok ()
  filesystem_known : filesystemId.isEmpty = false
  mint_token : ∀ token, (mint token).ownershipToken = token
  mint_complete : ∀ token, token.isEmpty = false → (mint token).validateCreated = .ok ()
  format_valid : ∀ token, (mint token).validPreparedTransition (format (mint token)) = true
  format_complete : ∀ token, token.isEmpty = false → (format (mint token)).validate = .ok ()

namespace Disk

def set (d : Disk) (id : BackendIdentity) (state : BackendState) : Disk :=
  { d with volumes := Function.update d.volumes id.object state }

/-- A command that takes an object from one state to another. -/
def shift (d : Disk) (id : BackendIdentity) (before after : BackendState) :
    Except StorageError Unit × Disk :=
  if d.volumes id.object = before then (.ok (), d.set id after)
  else (.error (.command "backend object is not in the state the command needs"), d)

end Disk

/-- The answer of a host on which everything works. -/
def WorkingBackend.exec (B : WorkingBackend) (token : String) :
    {β : Type} → Call β → Disk → β × Disk
  | _, .readTombstone, d => (.ok d.tombstone, d)
  | _, .journalExists, d => (.ok d.journal.isSome, d)
  | _, .readJournal, d => (Txn.require d.journal (.journal "no such journal"), d)
  | _, .createJournal j, d =>
    if d.journal.isSome then (.error (.journal "journal already exists"), d)
    else (.ok (), { d with journal := some j })
  | _, .writeJournal j, d =>
    if d.journal.isSome then (.ok (), { d with journal := some j })
    else (.error (.journal "no such journal"), d)
  | _, .removeJournal, d =>
    if d.journal.isSome then (.ok (), { d with journal := none })
    else (.error (.journal "no such journal"), d)
  | _, .mountpointAbsent, d => (.ok !d.mountpoint, d)
  | _, .createMountpoint, d => (.ok (), { d with mountpoint := true })
  | _, .removeMountpoint, d => (.ok (), { d with mountpoint := false })
  | _, .verify, d => (.ok (), d)
  | _, .ownershipToken, d => (.ok token, d)
  | _, .probeBackend _, d => (.ok B.capability, d)
  | _, .probeDocker, d => (.ok B.docker, d)
  | _, .verifyBind root, d =>
    (.ok ⟨B.docker.daemonId, B.docker.verifier, B.docker.methodVersion, root, B.filesystemId⟩, d)
  | _, .discover token _, d =>
    (.ok (if d.volumes (B.mint token).object = .absent then none else some (B.mint token)), d)
  | _, .create _ token _, d =>
    if d.volumes (B.mint token).object = .absent then
      (.ok (B.mint token), d.set (B.mint token) .unmounted)
    else (.error (.command "backend object already exists"), d)
  | _, .prepare id _, d =>
    if d.volumes id.object = .unmounted then (.ok (B.format id), d)
    else (.error (.identityMismatch "backend object disappeared before prepare"), d)
  | _, .mount id _, d => d.shift id .unmounted .mounted
  | _, .state id _, d => (.ok (d.volumes id.object), d)
  | _, .unmount id, d => d.shift id .mounted .unmounted
  | _, .remove id, d => d.shift id .unmounted .absent

end Orchestrator.ExecutionStorage.Exact
