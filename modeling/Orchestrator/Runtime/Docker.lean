import Mathlib.Data.Finset.Dedup
import Mathlib.Data.Finset.Insert
import Orchestrator.Runtime.Mounts

/-!
# Provisioning on the Docker daemon, and adopting what is there

`provision_inner` (`runtime-docker/src/provision.rs`, `services.rs`) creates the network and the
containers of an execution. After a restart of the worker, `docker_container_capability`
(`orchestrator-worker/src/system.rs`) lists what carries the labels of the execution and compares it
with what the manifest asks for.

The programs make one call for each request to the daemon. A daemon has containers, networks and
volumes, each with its labels; what containers run and what they are attached to is left out. Every
check that changes nothing (of the storage, of mounts, of the daemon) is a `verify` call.
-/

namespace Orchestrator

open Prog Provision

/-! ## The daemon -/

structure Container where
  id : String
  name : String
  labels : Labels
  running : Bool
deriving DecidableEq, Repr

structure Network where
  name : String
  labels : Labels
deriving DecidableEq, Repr

structure Volume where
  name : String
  labels : Labels
deriving DecidableEq, Repr

structure Daemon where
  containers : List Container := []
  networks : List Network := []
  volumes : List Volume := []
deriving DecidableEq, Repr

/-- `--filter label=autospec.managed=true --filter label=autospec.execution_id=…`. -/
def Labels.of (labels : Labels) (e : ExecutionId) : Bool :=
  labels.lookup "autospec.managed" = some "true" ∧
    labels.lookup "autospec.execution_id" = some e.value

namespace Daemon

def containersOf (d : Daemon) (e : ExecutionId) : List Container :=
  d.containers.filter (·.labels.of e)

def networksOf (d : Daemon) (e : ExecutionId) : List Network := d.networks.filter (·.labels.of e)

def volumesOf (d : Daemon) (e : ExecutionId) : List Volume := d.volumes.filter (·.labels.of e)

end Daemon

inductive DockerCall : Type → Type
  /-- `ensure_image`: inspected, and pulled when it is not there. -/
  | ensureImage (image : String) : DockerCall (Except RuntimeError ImageInspect)
  /-- A check that changes nothing. -/
  | verify : DockerCall (Except RuntimeError Unit)
  | createNetwork (name : String) (labels : Labels) : DockerCall (Except RuntimeError Unit)
  /-- Answered by the id of the new container. -/
  | createContainer (name : String) (labels : Labels) : DockerCall (Except RuntimeError String)
  | connectNetwork (network container : String) : DockerCall (Except RuntimeError Unit)
  /-- `container` is an id or a name. -/
  | startContainer (container : String) : DockerCall (Except RuntimeError Unit)
  | removeContainer (id : String) : DockerCall (Except RuntimeError Unit)
  /-- `cleanup::destroy`, after a failure. -/
  | destroy (labels : OwnershipLabels) : DockerCall (Except RuntimeError Unit)

/-- What a call does that succeeds; a call that fails may leave anything. Names are not given twice,
and a new container has the labels it was asked to have, besides those of its image. -/
def DockerCall.Does : {β : Type} → DockerCall β → Daemon → β → Daemon → Prop
  | _, .ensureImage _, d, .ok _, d' | _, .verify, d, .ok (), d'
  | _, .connectNetwork _ _, d, .ok (), d' => d' = d
  | _, .createNetwork name labels, d, .ok (), d' =>
    name ∉ d.networks.map Network.name ∧
      d' = { d with networks := d.networks ++ [{ name, labels }] }
  | _, .createContainer name labels, d, .ok id, d' =>
    name ∉ d.containers.map Container.name ∧ id ∉ d.containers.map Container.id ∧ ∃ image,
      d' = { d with containers :=
        d.containers ++ [{ id, name, labels := labels ++ image, running := false }] }
  | _, .startContainer container, d, .ok (), d' =>
    d' = { d with containers := d.containers.map fun c =>
      { c with running := c.running || c.id = container || c.name = container } }
  | _, .removeContainer id, d, .ok (), d' =>
    d' = { d with containers := d.containers.filter (·.id ≠ id) }
  | _, _, _, _, _ => True

namespace DockerRuntime

def networkName (e : ExecutionId) : String := s!"autospec-{e}"
def agentContainerName (e : ExecutionId) : String := s!"autospec-{e}-agent"
def serviceContainerName (e : ExecutionId) (service : String) : String := s!"autospec-{e}-{service}"
def relayContainerName (e : ExecutionId) : String := s!"autospec-{e}-inferweave-relay"

end DockerRuntime

open DockerRuntime

structure InferenceRelay where
  image : String
  upstream : String
  listenPort : Nat
deriving DecidableEq, Repr

/-- What the worker configures its runtime with. -/
structure DockerRuntime where
  inferenceRelay : Option InferenceRelay := none
  credentials : Option String := none
  buildCache : Option String := none
  agentUser : String := "0:0"
  host : HostDirectories
  /-- `build_cache_key` of the image and the lockfile. -/
  buildCacheKey : String

namespace Provision

/-- What `provision` returns, as far as the daemon is concerned. -/
structure EnvironmentHandle where
  executionId : ExecutionId
  network : String
  agentContainer : String
  agentContainerId : String
  mounts : List Mount
  serviceContainers : List String
deriving DecidableEq, Repr

abbrev DockerM := ExceptT RuntimeError (Prog DockerCall)

/-! ## Provisioning -/

def createServices (labels : OwnershipLabels) : List ServiceRequirement → DockerM (List String)
  | [] => pure []
  | service :: services => do
    let name := serviceContainerName labels.executionId service.name
    attempt .verify
    let _ ← attempt (.createContainer name labels.toMap)
    attempt .verify
    -- the mount sources
    attempt .verify
    let names ← createServices labels services
    pure (name :: names)

def createRelay (labels : OwnershipLabels) : DockerM String := do
  let name := relayContainerName labels.executionId
  let _ ← attempt (.createContainer name labels.toMap)
  attempt (.connectNetwork "bridge" name)
  pure name

def startServices (containers : List String) : DockerM Unit :=
  forEach containers fun name => do
    attempt .verify
    attempt (.startContainer name)

def runTrustedVerifier (id : String) : DockerM Unit := do
  attempt .verify
  attempt .verify
  attempt (.startContainer id)
  attempt .verify

/-- How the outcome of a part is reported. -/
def report (r : Except RuntimeError Unit) : String :=
  match r with
  | .ok () => "ok"
  | .error error => error.text

def verifyWithTrustedContainer (labels : OwnershipLabels) : DockerM Unit := do
  let name := s!"autospec-{labels.executionId}-mount-verifier"
  attempt .verify
  let id ← attempt (.createContainer name labels.toMap)
  let verification ← observe (runTrustedVerifier id)
  let ready ← observe (attempt .verify)
  -- the exact container is listed before it is removed
  let removal ← observe (do
    attempt .verify
    attempt (.removeContainer id))
  match verification, ready, removal with
  | .ok (), .ok (), .ok () => pure ()
  | _, _, _ => throw (.resourceLimit
      (s!"trusted mount verification failed: {report verification}; " ++
        s!"readiness before cleanup: {report ready}; cleanup: {report removal}"))

def serviceImages (services : List ServiceRequirement) : DockerM (List ImageInspect) :=
  collect services fun service => do
    let image ← attempt (.ensureImage service.image)
    pure (some image)

/-- The relay mounts nothing, so its image may not declare volumes. -/
def validateRelayImage (relay : InferenceRelay) : DockerM Unit := do
  let image ← attempt (.ensureImage relay.image)
  refuse (imageVolumeTargets image ≠ []) (.resourceLimit
    s!"inference relay image {relay.image} declares volumes; the relay must be stateless")

def createRelayIfConfigured (runtime : DockerRuntime) (labels : OwnershipLabels) :
    DockerM (Option String) :=
  match runtime.inferenceRelay with
  | none => pure none
  | some _ => do
    let name ← createRelay labels
    pure (some name)

def startAll (runtime : DockerRuntime) (services : List String) (relay : Option String)
    (agentId : String) : DockerM Unit := do
  startServices services
  whenSome relay fun name => attempt (.startContainer name)
  attempt .verify
  attempt (.startContainer agentId)
  provided (runtime.agentUser ≠ "0:0") (attempt .verify)
  -- the capability
  attempt .verify

def provisionInner (runtime : DockerRuntime) (labels : OwnershipLabels)
    (requirement : RuntimeRequirement) (services : List ServiceRequirement)
    (layout : ExecutionLayout) : DockerM EnvironmentHandle := do
  let image ← demand requirement.image
    (.provisioning "runtime image is required for Docker provisioning")
  let imageInspect ← attempt (.ensureImage image)
  let images ← serviceImages services
  whenSome runtime.inferenceRelay validateRelayImage
  unwrap (validateReservedImageVolumes (imageInspect :: images))
  let mounts ← unwrap (agentMounts runtime.host layout runtime.credentials runtime.buildCache
    requirement runtime.buildCacheKey labels.executionId imageInspect)
  attempt .verify
  attempt (.createNetwork (networkName labels.executionId) labels.toMap)
  let serviceContainers ← createServices labels services
  let relayContainer ← createRelayIfConfigured runtime labels
  attempt .verify
  let agentId ← attempt (.createContainer (agentContainerName labels.executionId) labels.toMap)
  attempt .verify
  attempt .verify
  verifyWithTrustedContainer labels
  startAll runtime serviceContainers relayContainer agentId
  pure
    { executionId := labels.executionId
      network := networkName labels.executionId
      agentContainer := agentContainerName labels.executionId
      agentContainerId := agentId
      mounts
      serviceContainers }

def provision (runtime : DockerRuntime) (labels : OwnershipLabels)
    (requirement : RuntimeRequirement) (services : List ServiceRequirement)
    (layout : ExecutionLayout) : DockerM EnvironmentHandle := do
  attempt .verify
  let provisioned ← observe (provisionInner runtime labels requirement services layout)
  match provisioned with
  | .ok handle => pure handle
  | .error error => do
    let rollback ← observe (attempt (.destroy labels))
    match rollback with
    | .ok () => throw error
    | .error rollback => throw (.provisioning
        s!"execution_id={labels.executionId}: {error}; rollback failed: {rollback}")

end Provision

/-! ## Adoption -/

namespace Adoption

/-- The containers that the manifest asks for. -/
def expectedContainers (e : ExecutionId) (services : List ServiceRequirement) : Finset String :=
  (agentContainerName e :: services.map fun s => serviceContainerName e s.name).toFinset

def checkContainerSet (d : Daemon) (e : ExecutionId) (services : List ServiceRequirement) :
    Except String Unit :=
  let all := ((d.containersOf e).map Container.name).toFinset
  let running := (((d.containersOf e).filter (·.running)).map Container.name).toFinset
  Txn.ensure (all = expectedContainers e services ∧ running = expectedContainers e services)
    "durable runtime container set is incomplete, stopped, or contains extras"

def checkNetworkSet (d : Daemon) (e : ExecutionId) : Except String Unit :=
  Txn.ensure (((d.networksOf e).map Network.name).toFinset = {networkName e})
    "durable runtime network set differs from the manifest"

def checkVolumeSet (d : Daemon) (e : ExecutionId) : Except String Unit :=
  Txn.ensure ((d.volumesOf e).map Volume.name = [])
    "durable runtime contains unexpected Docker volumes"

/-- Every container has the labels of the receipt, and no others. -/
def checkContainerLabels (d : Daemon) (labels : OwnershipLabels) : Except String Unit :=
  (d.containersOf labels.executionId).forM fun c =>
    Txn.ensure (c.labels.Perm labels.toMap)
      s!"durable runtime container {c.name} has foreign or incomplete labels"

def checkNetworkLabels (d : Daemon) (labels : OwnershipLabels) : Except String Unit :=
  (d.networksOf labels.executionId).forM fun n =>
    Txn.ensure (n.labels.Perm labels.toMap)
      "durable runtime network has foreign or incomplete labels"

/-- The inventory of `docker_container_capability`, after the agent container itself. -/
def checkInventory (d : Daemon) (labels : OwnershipLabels) (services : List ServiceRequirement) :
    Except String Unit := do
  checkContainerSet d labels.executionId services
  checkContainerLabels d labels
  checkNetworkSet d labels.executionId
  checkNetworkLabels d labels
  checkVolumeSet d labels.executionId

end Adoption

end Orchestrator
