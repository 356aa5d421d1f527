import Orchestrator.Lib.Paths
import Orchestrator.Storage.Allocation

/-!
# The mounts of the agent container

`validate_container_capability` and `validate_mount_sources` (`harness-pi/src/lib.rs`): what the
harness asks of the container that it starts Pi in. The sources of the mounts are canonical, as every
issuer of a capability makes them, and so are the directories they are compared with. Every error is a
`HarnessError::Start`; its text is kept.
-/

namespace Orchestrator

open Paths

structure VerifiedBindMount where
  source : Path
  target : String
  writable : Bool
deriving DecidableEq, Repr

structure VerifiedAgentContainer where
  containerId : String
  daemonId : String
  labels : OwnershipLabels
  mounts : List VerifiedBindMount
deriving DecidableEq, Repr

/-- What the host's file system answers: `canonicalize` with the text of its error. -/
structure HostFiles where
  canonicalize : String → Except String Path
  isManagedBuildCacheDir : Path → Bool

def ExecutionLayout.conversation (layout : ExecutionLayout) : String :=
  s!"{layout.session}/conversation"

def containerWorktree : String := "/workspace"
def containerSession : String := "/session"
def containerBuildCache : String := "/sccache"
def dockerSocket : String := "/var/run/docker.sock"

/-- The check of one mount, after those with the given targets. -/
def mountRefused (files : HostFiles) (root sessionRoot conversation : Path) (targets : List String)
    (mount : VerifiedBindMount) : Bool :=
  let sharedBuildCache := mount.target = containerBuildCache ∧ mount.writable ∧
    files.isManagedBuildCacheDir mount.source
  (¬root <+: mount.source ∧ ¬sharedBuildCache) ∨ mount.target ∈ targets ∨
    (sessionRoot <+: mount.source ∧ mount.source ≠ conversation) ∨ mount.target = dockerSocket ∨
    mount.source = ["var", "run", "docker.sock"]

/-- The loop of `validate_mount_sources`, with the targets it has seen. -/
def validateMountSources (files : HostFiles) (root sessionRoot conversation : Path) :
    List String → List VerifiedBindMount → Except String Unit
  | _, [] => .ok ()
  | targets, mount :: mounts =>
    if mountRefused files root sessionRoot conversation targets mount then
      .error "agent container capability exposes an unverified host path"
    else validateMountSources files root sessionRoot conversation (mount.target :: targets) mounts

/-- `fs::canonicalize` of a directory of the layout. -/
def HostFiles.proven (files : HostFiles) (purpose path : String) : Except String Path :=
  (files.canonicalize path).mapError fun error =>
    s!"canonicalize {purpose} for container proof: {error}"

def validateContainerCapability (files : HostFiles) (container : VerifiedAgentContainer)
    (receipt : ExecutionStorage.Exact.AllocationReceipt) (layout : ExecutionLayout) :
    Except String Unit := do
  Txn.ensure (!container.containerId.isEmpty ∧
      container.daemonId = receipt.dockerBind.daemonId ∧ container.labels = receipt.labels)
    "agent container capability does not match allocation identity"
  let root ← files.proven "execution root" layout.root
  let repository ← files.proven "worktree" layout.repository
  let sessionRoot ← files.proven "private session root" layout.session
  let conversation ← files.proven "conversation" layout.conversation
  let workspace := container.mounts.countP fun mount =>
    mount.target = containerWorktree ∧ mount.source = repository ∧ mount.writable
  let session := container.mounts.countP fun mount =>
    mount.target = containerSession ∧ mount.source = conversation ∧ mount.writable
  Txn.ensure (workspace = 1 ∧ session = 1)
    "agent container capability lacks exact writable execution binds"
  validateMountSources files root sessionRoot conversation [] container.mounts

end Orchestrator
