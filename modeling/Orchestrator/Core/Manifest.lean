import Mathlib.Data.List.Infix
import Orchestrator.Lib.Txn

/-!
# Identifiers and the execution manifest

The identifiers every plane shares (`ids.rs`), and `ExecutionManifest` with the validation a manifest
passes before anything is stored (`manifest.rs`). Identifiers are texts under distinct types, as in
the source, so an attempt cannot be passed where an execution is expected. Text predicates work on
the list of characters; the regular expression `^[a-z0-9][a-z0-9-]*$` is `capabilityPattern`.
-/

namespace Orchestrator

open Txn

/-- Orchestrator-owned execution identifier. -/
structure ExecutionId where
  value : String
deriving DecidableEq, Repr

/-- Identifier for one attempt within an execution. -/
structure AttemptId where
  value : String
deriving DecidableEq, Repr

/-- Agent-harness session identifier. -/
structure SessionId where
  value : String
deriving DecidableEq, Repr

/-- Identifier of a registered execution worker. -/
structure WorkerId where
  value : String
deriving DecidableEq, Repr

instance : ToString ExecutionId := ⟨ExecutionId.value⟩
instance : ToString AttemptId := ⟨AttemptId.value⟩
instance : ToString SessionId := ⟨SessionId.value⟩
instance : ToString WorkerId := ⟨WorkerId.value⟩

/-- Microseconds since the epoch. -/
abbrev Timestamp := Int

/-! ## Text -/

namespace Text

/-- Unicode `White_Space`, what Rust's `str::trim` strips. -/
def isWhitespace (c : Char) : Bool :=
  let n := c.toNat
  (9 ≤ n && n ≤ 13) || n == 0x20 || n == 0x85 || n == 0xA0 || n == 0x1680 ||
    (0x2000 ≤ n && n ≤ 0x200A) || n == 0x2028 || n == 0x2029 || n == 0x202F || n == 0x205F ||
    n == 0x3000

def trim (s : List Char) : List Char :=
  ((s.dropWhile isWhitespace).reverse.dropWhile isWhitespace).reverse

def toAsciiLowercase (s : List Char) : List Char := s.map Char.toLower

/-- `str::split_once`: the parts around the first `c`. -/
def splitOnce (c : Char) (s : List Char) : Option (List Char × List Char) :=
  if c ∈ s then some (s.takeWhile (· ≠ c), (s.dropWhile (· ≠ c)).tail) else none

/-- Both parts of `split_once` are there and not empty. -/
def splitsOnce (c : Char) (s : List Char) : Bool :=
  match splitOnce c s with
  | some (a, b) => !a.isEmpty && !b.isEmpty
  | none => false

end Text

/-! ## The manifest -/

inductive Role where
  | implementation | review | documentation | uiReview | integrationTest | interactive
deriving DecidableEq, Repr

inductive HarnessKind where
  | pi | openCode | codex
deriving DecidableEq, Repr

inductive RuntimeKind where
  | docker | podman | apptainer
deriving DecidableEq, Repr

inductive PersistenceMode where
  /-- Torn down when the execution reaches a terminal state. -/
  | ephemeral
  /-- Session and worktree survive so a human can attach later. -/
  | resumable
deriving DecidableEq, Repr

structure TaskReference where
  projectId : String
  issueId : String
  taskId : Option String := none
deriving DecidableEq, Repr

structure RepositoryReference where
  /-- `owner/name`. -/
  repo : String
  baseRef : String
  baseSha : Option String := none
  branch : Option String := none
deriving DecidableEq, Repr

structure ModelPolicy where
  provider : String := "inferweave"
  preferred : List String := []
  alternatives : List String := []
  fallbackClass : Option String := none
deriving DecidableEq, Repr

structure AgentAssignment where
  harness : HarnessKind
  modelPolicy : ModelPolicy
deriving DecidableEq, Repr

/-- Capability-shaped placement requirements. -/
structure RuntimeRequirement where
  kind : RuntimeKind := .docker
  image : Option String := none
  os : Option String := none
  arch : Option String := none
  cpu : Nat := 2
  memoryMib : Nat := 4096
  diskGib : Nat := 20
  capabilities : List String := []
  toolchains : List (String × String) := []
deriving DecidableEq, Repr

structure ServiceRequirement where
  name : String
  image : String
  env : List (String × String) := []
deriving DecidableEq, Repr

/-- The contract between planning and agent execution; never interpreted here. -/
structure TaskPacket where
  goal : String
  acceptanceCriteria : List String := []
  nonGoals : List String := []
  relevantContext : List String := []
  requiredTests : List String := []
  roleSkill : Option String := none
deriving DecidableEq, Repr

structure ExecutionManifest where
  apiVersion : String
  role : Role
  task : Option TaskReference := none
  repository : RepositoryReference
  agent : AgentAssignment
  runtime : RuntimeRequirement := {}
  services : List ServiceRequirement := []
  persistence : PersistenceMode := .ephemeral
  taskPacket : Option TaskPacket := none
deriving DecidableEq, Repr

/-! ## Validation -/

def manifestApiVersion : String := "autospec.dev/v1alpha1"

/-- `^[a-z0-9][a-z0-9-]*$`. -/
def capabilityPattern (s : String) : Bool :=
  let word c := c.isLower || c.isDigit
  match s.toList with
  | [] => false
  | c :: cs => word c && cs.all fun d => word d || d == '-'

/-- Exactly `owner/name`: one `/` with text on both sides. -/
def validateRepository (repository : String) : Except String Unit :=
  ensure (repository.toList.count '/' = 1 ∧ Text.splitsOnce '/' repository.toList)
    "repository.repo must be exactly owner/name"

/-- What follows the last `/`, or everything. -/
def finalComponent (image : List Char) : List Char := (image.reverse.takeWhile (· ≠ '/')).reverse

def validateImage (image field : String) : Except String Unit :=
  ensure (Text.splitsOnce ':' (finalComponent image.toList) ∨ Text.splitsOnce '@' image.toList)
    s!"{field} must include a tag or digest: {image}"

def validateServiceName (name : String) : Except String Unit :=
  ensure (capabilityPattern name) s!"invalid service name: {name}"

def validateRuntime (runtime : RuntimeRequirement) : Except String Unit := do
  ensure (runtime.cpu ≠ 0) "runtime cpu must be greater than zero"
  ensure (256 ≤ runtime.memoryMib) "runtime memoryMib must be at least 256"
  ensure (runtime.diskGib ≠ 0) "runtime diskGib must be greater than zero"
  match runtime.image with
  | some image => validateImage image "runtime image"
  | none => pure ()
  runtime.capabilities.forM fun capability =>
    ensure (capabilityPattern capability) s!"invalid runtime capability: {capability}"

/-- `ExecutionManifest::validate`; the error is the text of `CoreError::InvalidManifest`. -/
def ExecutionManifest.validate (m : ExecutionManifest) : Except String Unit := do
  ensure (m.apiVersion = manifestApiVersion)
    s!"apiVersion must be {manifestApiVersion}, got {m.apiVersion}"
  validateRepository m.repository.repo
  validateRuntime m.runtime
  m.services.forM fun service => do
    validateServiceName service.name
    validateImage service.image "service image"

theorem ExecutionManifest.resources_pos {m : ExecutionManifest} (h : m.validate = .ok ()) :
    0 < m.runtime.cpu ∧ 0 < m.runtime.memoryMib ∧ 0 < m.runtime.diskGib := by
  simp only [validate, validateRuntime, bind_eq_ok, ensure_eq_ok] at h
  obtain ⟨_, _, _, _, _, ⟨_, hcpu, _, hmem, _, hdisk, _⟩, _⟩ := h
  exact ⟨by omega, by omega, by omega⟩

end Orchestrator
