import Orchestrator.Lib.Paths
import Orchestrator.Storage.Manager

/-!
# The mounts of a provisioned agent

`runtime-docker/src/provision.rs`: the volumes that an image declares are validated, and
`provision_inner` puts the mounts of the agent container together from the fixed writable
directories, the image volumes, the cargo target, the execution's own binds and the shared build
cache. The host side (directories that are created, made writable or looked up) is a parameter: it
answers, or fails with an error of its own.
-/

namespace Orchestrator

open Paths

inductive RuntimeError where
  | unavailable (reason : String)
  | provisioning (reason : String)
  | resourceLimit (reason : String)
  | cleanup (reason : String)
deriving DecidableEq, Repr

def RuntimeError.text : RuntimeError → String
  | unavailable reason => s!"runtime unavailable: {reason}"
  | provisioning reason => s!"provisioning failed: {reason}"
  | resourceLimit reason => s!"resource limit rejected: {reason}"
  | cleanup reason => s!"cleanup failed: {reason}"

instance : ToString RuntimeError := ⟨RuntimeError.text⟩

structure Mount where
  source : String
  target : String
  readOnly : Bool := false
deriving DecidableEq, Repr

/-- `ImageInspect`: the volumes of its configuration are the keys of a map. -/
structure ImageInspect where
  volumes : List String := []
  distinct : volumes.Nodup := by decide

structure HostDirectories where
  ensureRealDirectory (path : String) (create : Bool) (purpose : String) : Except RuntimeError Unit
  makeContainerWritable (path : String) : Except RuntimeError Unit
  /-- `fs::canonicalize`, as UTF-8. -/
  canonicalize (path : String) : Except RuntimeError String
  /-- The credential is an exact regular file under the credential root. -/
  exactCredential (layout : ExecutionLayout) (path : String) : Except RuntimeError String
  /-- The key directory is created and marked as in use. -/
  claimBuildCache (root key : String) (id : ExecutionId) : Except RuntimeError Unit

namespace Provision

variable (host : HostDirectories)

def containerWorktree : String := "/workspace"
def containerSession : String := "/session"
def containerCredential : String := "/autospec-credential"
def containerCargoTarget : String := "/cargo-target"
def containerBuildCache : String := "/sccache"
def buildCacheCapability : String := "rust-build-cache"

def bindMount (source target : String) : Except RuntimeError Mount := do
  let source ← host.canonicalize source
  pure { source, target }

/-! ## Image volumes -/

def imageVolumeTargets (image : ImageInspect) : List String :=
  image.volumes.insertionSort (· ≤ ·)

/-- The first components that an image volume may not have. -/
def reservedComponents : List String := ["workspace", "session", "cargo-target"]

def validateImageVolume (target : String) : Except RuntimeError Unit :=
  if !target.startsWith '/' then
    .error (.resourceLimit s!"image volume target is not an absolute container path: {target}")
  else match resolve [] (split target) with
    | none =>
      .error (.resourceLimit s!"image volume target escapes the container root: {target}")
    | some components =>
      if components.head?.all (· ∈ reservedComponents) then
        .error (.resourceLimit
          s!"image volume target collides with reserved agent mount: {target}")
      else .ok ()

def validateReservedImageVolumes (images : List ImageInspect) : Except RuntimeError Unit :=
  (images.flatMap imageVolumeTargets).forM validateImageVolume

/-! ## The mounts -/

/-- The writable directories of every container, by purpose and target. -/
def fixedMounts : List (String × String) :=
  [("home", "/home/autospec"), ("tmp", "/tmp"), ("var-tmp", "/var/tmp"), ("run", "/run")]

def hexComponent (text : String) : String :=
  let digit (n : Nat) : Char := Nat.digitChar n
  String.ofList (text.toUTF8.toList.flatMap fun byte =>
    [digit (byte.toNat / 16), digit (byte.toNat % 16)])

/-- A directory below `scope`, made and bound to `target`. -/
def writableMount (source target purpose : String) : Except RuntimeError Mount := do
  host.ensureRealDirectory source true purpose
  host.makeContainerWritable source
  bindMount host source target

/-- The loop over the image volumes, with the targets so far. -/
def imageVolumeMounts (imageRoot : String) :
    List String → List String → Except RuntimeError (List Mount)
  | _, [] => .ok []
  | targets, target :: more =>
    if target ∈ targets then imageVolumeMounts imageRoot targets more
    else do
      let mount ← writableMount host s!"{imageRoot}/{hexComponent target}" target
        "image volume directory"
      let mounts ← imageVolumeMounts imageRoot (target :: targets) more
      pure (mount :: mounts)

def validateSafeComponent (value purpose : String) : Except RuntimeError Unit :=
  Txn.ensure (!value.isEmpty ∧ value.toList.all fun c => c.isAlphanum || c = '-' || c = '_')
    (.provisioning s!"invalid {purpose}: {value}")

def writableContainerMounts (runtimeRoot scope : String) (image : ImageInspect) :
    Except RuntimeError (List Mount) := do
  validateSafeComponent scope "container storage scope"
  host.ensureRealDirectory runtimeRoot false "execution runtime root"
  let scopeRoot := s!"{runtimeRoot}/{scope}"
  host.ensureRealDirectory scopeRoot true "container storage root"
  let fixed ← fixedMounts.mapM fun (purpose, target) =>
    writableMount host s!"{scopeRoot}/{purpose}" target "container writable directory"
  let imageRoot := s!"{scopeRoot}/image-volumes"
  host.ensureRealDirectory imageRoot true "image volume root"
  let volumes ← imageVolumeMounts host imageRoot (fixedMounts.map Prod.snd)
    (imageVolumeTargets image)
  pure (fixed ++ volumes)

def cargoTargetMount (runtimeRoot : String) : Except RuntimeError Mount := do
  host.ensureRealDirectory runtimeRoot false "execution runtime root"
  let scopeRoot := s!"{runtimeRoot}/agent"
  host.ensureRealDirectory scopeRoot true "container storage root"
  writableMount host s!"{scopeRoot}/cargo-target" containerCargoTarget "cargo target directory"

def executionBindMounts (layout : ExecutionLayout) (credential : Option String) :
    Except RuntimeError (List Mount) := do
  let workspace ← bindMount host layout.repository containerWorktree
  let session ← bindMount host s!"{layout.session}/conversation" containerSession
  match credential with
  | none => pure [workspace, session]
  | some credential => do
    let canonical ← host.exactCredential layout credential
    let mount ← bindMount host canonical containerCredential
    pure [workspace, session, { mount with readOnly := true }]

/-- `plan_build_cache`; `key` is that of the image and the lockfile. -/
def planBuildCache (root : Option String) (requirement : RuntimeRequirement) (key : String)
    (id : ExecutionId) : Except RuntimeError (Option Mount) :=
  if buildCacheCapability ∉ requirement.capabilities then .ok none
  else match root with
    | none => .error (.provisioning
        s!"capability {buildCacheCapability} requires a configured build cache")
    | some root => do
      host.claimBuildCache root key id
      let mount ← bindMount host s!"{root}/sccache/{key}" containerBuildCache
      pure (some mount)

/-- The mounts that `provision_inner` gives the agent container. -/
def agentMounts (layout : ExecutionLayout) (credential cacheRoot : Option String)
    (requirement : RuntimeRequirement) (key : String) (id : ExecutionId) (image : ImageInspect) :
    Except RuntimeError (List Mount) := do
  let executionMounts ← executionBindMounts host layout credential
  let writable ← writableContainerMounts host s!"{layout.root}/runtime" "agent" image
  let cargoTarget ← cargoTargetMount host s!"{layout.root}/runtime"
  let buildCache ← planBuildCache host cacheRoot requirement key id
  pure (writable ++ [cargoTarget] ++ executionMounts ++ buildCache.toList)

end Provision

end Orchestrator
