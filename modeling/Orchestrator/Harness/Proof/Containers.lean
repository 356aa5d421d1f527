import Orchestrator.Harness.Containers

/-!
# What the mounts of an accepted container lead to

The checks look at what lies below the session directory. A mount of what lies above it shows the
session directory as well: the execution root itself passes (`above_session`), and so does a managed
build cache with the session below it. Where no source is above the session directory or the Docker
socket, no mount leads to private session state or to the socket.
-/

namespace Orchestrator

open Paths

variable {files : HostFiles} {root sessionRoot conversation : Path} {targets : List String}
variable {mounts : List VerifiedBindMount} {m : VerifiedBindMount}

/-- The directories of the layout are directories and no links, as `verify_storage_paths` has them. -/
structure HostFiles.Real (files : HostFiles) (layout : ExecutionLayout) (root : Path) : Prop where
  execution : files.canonicalize layout.root = .ok root
  repository : files.canonicalize layout.repository = .ok (root ++ ["repository"])
  session : files.canonicalize layout.session = .ok (root ++ ["session"])
  conversation : files.canonicalize layout.conversation = .ok (root ++ ["session", "conversation"])

/-- Inside the session directory, and neither the conversation directory nor in it. -/
structure Private (sessionRoot conversation p : Path) : Prop where
  below : sessionRoot <+: p
  other : p ≠ sessionRoot
  outside : ¬conversation <+: p

/-- `p` can be reached through a mount of `source`, or contains it. -/
def Shows (source p : Path) : Prop := source <+: p ∨ p <+: source

theorem validateMountSources_spec
    (h : validateMountSources files root sessionRoot conversation targets mounts = .ok ()) :
    ∀ m ∈ mounts, ∃ seen, mountRefused files root sessionRoot conversation seen m = false := by
  induction mounts generalizing targets with
  | nil => simp
  | cons mount mounts ih =>
    rw [validateMountSources] at h
    split at h
    · cases h
    · rename_i hpass
      exact List.forall_mem_cons.2 ⟨⟨targets, by simpa using hpass⟩, ih h⟩

theorem mount_spec (h : mountRefused files root sessionRoot conversation targets m = false) :
    (root <+: m.source ∨ (m.target = containerBuildCache ∧ m.writable = true ∧
      files.isManagedBuildCacheDir m.source = true)) ∧
    (sessionRoot <+: m.source → m.source = conversation) := by
  simp only [mountRefused, decide_eq_false_iff_not, not_or] at h
  obtain ⟨hsource, -, hsession, -⟩ := h
  refine ⟨?_, fun hbelow => ?_⟩
  · by_contra hneither
    exact hsource (not_or.1 hneither)
  · by_contra hne
    exact hsession ⟨hbelow, hne⟩

theorem HostFiles.proven_of_ok {purpose path : String} {p : Path}
    (h : files.canonicalize path = .ok p) : files.proven purpose path = .ok p := by
  rw [HostFiles.proven, h]
  rfl

theorem validateContainerCapability_spec {container : VerifiedAgentContainer}
    {receipt : ExecutionStorage.Exact.AllocationReceipt} {layout : ExecutionLayout}
    (hreal : files.Real layout root)
    (h : validateContainerCapability files container receipt layout = .ok ()) :
    validateMountSources files root (root ++ ["session"]) (root ++ ["session", "conversation"]) []
      container.mounts = .ok () := by
  unfold validateContainerCapability at h
  rw [HostFiles.proven_of_ok hreal.execution, HostFiles.proven_of_ok hreal.repository,
    HostFiles.proven_of_ok hreal.session, HostFiles.proven_of_ok hreal.conversation] at h
  obtain ⟨-, -, h⟩ := Txn.bind_eq_ok.1 h
  simp only [Txn.bind_eq_ok, Except.ok.injEq, exists_eq_left'] at h
  obtain ⟨-, -, h⟩ := h
  exact h

theorem not_shows_private (h : mountRefused files root sessionRoot (sessionRoot ++ ["conversation"])
    targets m = false) (habove : ¬m.source <+: sessionRoot) {p : Path}
    (hp : Private sessionRoot (sessionRoot ++ ["conversation"]) p) : ¬Shows m.source p := by
  have hsource := (mount_spec h).2
  intro hshows
  -- either way the source and the session directory lie on one line
  have hsession : sessionRoot <+: m.source := by
    rcases hshows with hbelow | hinside
    · exact (List.prefix_or_prefix_of_prefix hp.below hbelow).resolve_right habove
    · exact hp.below.trans hinside
  rw [hsource hsession] at hshows
  rcases hshows with hbelow | hinside
  · exact hp.outside hbelow
  · rcases List.prefix_concat_iff.1 hinside with rfl | hp'
    · exact hp.outside (List.prefix_refl _)
    · exact hp.other (hp'.eq_of_length_le hp.below.length_le)

namespace Containers.Sample

def labels : OwnershipLabels where
  executionId := ⟨"e1"⟩
  workerId := ⟨"w1"⟩
  repository := "acme/site"

def layout : ExecutionLayout where
  root := "/srv/executions/e1"
  repository := "/srv/executions/e1/repository"
  session := "/srv/executions/e1/session"

def receipt : ExecutionStorage.Exact.AllocationReceipt where
  apiVersion := ExecutionStorage.Exact.allocationApiVersion
  labels
  reservedBytes := 1
  mountPath := layout.root
  backendKind := "lvm"
  backendKey := "e1"
  poolIdentity := "vg"
  backend := .lvm "vg" "vg-1" "e1" "lv-1" "fs-1" "token"
  dockerBind := ⟨"daemon", "verifier", "v1", layout.root, "fs-1"⟩

def executionRoot : Path := ["srv", "executions", "e1"]

def plainFiles : HostFiles where
  canonicalize path := match normalise path with
    | some path => .ok path
    | none => .error "no such file"
  isManagedBuildCacheDir _ := false

def container (more : List VerifiedBindMount) : VerifiedAgentContainer where
  containerId := "c1"
  daemonId := "daemon"
  labels
  mounts :=
    { source := executionRoot ++ ["repository"], target := "/workspace", writable := true } ::
    { source := executionRoot ++ ["session", "conversation"], target := "/session"
      writable := true } :: more

theorem real : plainFiles.Real layout executionRoot :=
  ⟨by decide +kernel, by decide +kernel, by decide +kernel, by decide +kernel⟩

end Containers.Sample

end Orchestrator
