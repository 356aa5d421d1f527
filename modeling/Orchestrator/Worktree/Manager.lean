import Orchestrator.Worktree.Calls

/-!
# Creating the repository of an execution

`GitWorktreeManager` (`git-worktree/src/manager.rs`): `createIn` clones the mirror of a repository into
the directory of an execution, checks a new branch out and writes the owner record, under the lock of
the mirror and that of the branch; `recoverInterruptedCreate` undoes what a crash has left of it. Both
locks are dropped when `createIn` returns; `ensureMirror` drops its lock itself.
-/

namespace Orchestrator

/-- The identity of the file system on a backend object. -/
def ExecutionStorage.Exact.BackendIdentity.filesystemId :
    ExecutionStorage.Exact.BackendIdentity → String
  | apfs _ _ _ _ volumeUuid _ => volumeUuid
  | lvm _ _ _ _ filesystemUuid _ => filesystemUuid

namespace GitWorktree

open Prog

structure Manager where
  cacheRoot : String
  cloneBase : String

abbrev M := ExceptT WorktreeError (Prog Call)

/-! ## Texts -/

def gitError (error : String → WorktreeError) : IoError → WorktreeError
  | .full => .storageFull (toString IoError.full)
  | cause => error (toString cause)

def createIoError : IoError → WorktreeError := gitError .create

def reason {ε : Type} [ToString ε] (error : String → WorktreeError) (cause : ε) : WorktreeError :=
  error (toString cause)

def isSafeComponent (component : String) : Bool :=
  component ≠ "" && component ≠ "." && component ≠ ".." &&
    !(['_', '_'] <:+: component.toList) &&
    component.toList.all fun c => c.isAlphanum || c = '-' || c = '_' || c = '.'

/-- The owner and the name of a repository. -/
def canonicalRepository (repo : String) : Except WorktreeError (String × String) :=
  match Paths.split repo with
  | [owner, name] =>
    if isSafeComponent owner ∧ owner.toList.getLast? ≠ some '_' ∧ isSafeComponent name ∧
        name.toList.head? ≠ some '_' then
      .ok (owner, name)
    else .error (.invalidRepository repo)
  | _ => .error (.invalidRepository repo)

def normalizedRepositoryName (repo : String) : Except WorktreeError String :=
  (canonicalRepository repo).map fun (owner, name) => s!"{owner}__{name}"

def validateExecutionId (id : ExecutionId) : Except WorktreeError Unit :=
  Txn.ensure (id.value ≠ "" ∧ id.value.utf8ByteSize ≤ 63 ∧
      (id.value.toList.head?.any fun c => c.isLower || c.isDigit) ∧
      id.value.toList.all fun c => c.isLower || c.isDigit || c = '-')
    (.create s!"invalid execution_id: {id}")

def hexComponent (value : String) : String :=
  String.ofList (value.toUTF8.data.toList.flatMap fun byte =>
    [Nat.digitChar (byte.toNat / 16), Nat.digitChar (byte.toNat % 16)])

/-- The directory of the mirror with this normalized name. -/
def mirrorPath (cacheRoot name : String) : String := s!"{cacheRoot}/mirrors/{name}.git"

/-- Its lock file: `with_extension("git.lock")` replaces the `git`. -/
def mirrorLock (cacheRoot name : String) : String := s!"{cacheRoot}/mirrors/{name}.git.lock"

def branchLock (cacheRoot name branch : String) : String :=
  s!"{cacheRoot}/mirrors/{name}.branch-{hexComponent branch}.lock"

def pathText (path : Paths.Path) : String := "/" ++ "/".intercalate path

namespace Manager

variable (m : Manager)

def executionRoot (e : ExecutionId) : String := s!"{m.cacheRoot}/executions/{e}"

def repositoryPath (e : ExecutionId) : String := s!"{m.executionRoot e}/repository"

def entryPath (e : ExecutionId) : Entry → String
  | .repository => m.repositoryPath e
  | .git .commondir => s!"{m.repositoryPath e}/.git/commondir"
  | .git .directory => s!"{m.repositoryPath e}/.git"
  | .git .objects => s!"{m.repositoryPath e}/.git/objects"
  | .git .refs => s!"{m.repositoryPath e}/.git/refs"
  | .git .index => s!"{m.repositoryPath e}/.git/index"
  | .git .alternates => s!"{m.repositoryPath e}/.git/objects/info/alternates"
  | .owner => s!"{m.repositoryPath e}/.autospec-owner.json"
  | .temporary => s!"{m.repositoryPath e}/.autospec-owner.json.tmp"

def cloneLocator (repo : String) : Except WorktreeError String :=
  (canonicalRepository repo).map fun (owner, name) => s!"{m.cloneBase}/{owner}/{name}.git"

/-! ## Checks of a repository -/

/-- Nothing stands at the path. -/
def requireAbsent (found : WorktreeError) (c : Call (Except IoError Kind)) : M Unit := do
  let inspected ← observe (attempt c)
  match inspected with
  | .error .notFound => pure ()
  | .ok _ => throw found
  | .error error => throw (.ownership (toString error))

def requireDirectory (e : ExecutionId) (purpose : String) (entry : Entry) : M Unit := do
  let kind ← attemptAs (reason .ownership) (.inspect e entry)
  refuse (kind ≠ .directory)
    (.ownership s!"{purpose} is not a real directory: {m.entryPath e entry}")

def requireIndex (e : ExecutionId) : M Unit := do
  let inspected ← observe (attempt (.inspect e (.git .index)))
  match inspected with
  | .ok .file => pure ()
  | .ok _ => throw (.ownership s!"Git index is not a real file: {m.entryPath e (.git .index)}")
  | .error .notFound => pure ()
  | .error error => throw (.ownership (toString error))

def forbidAlternates (e : ExecutionId) (c : Call (Except IoError Kind)) : M Unit :=
  requireAbsent (.ownership
    s!"alternate object database is forbidden: {m.entryPath e (.git .alternates)}") c

def verifyGitStoragePreflight (e : ExecutionId) : M Unit := do
  requireAbsent (.ownership
    s!"linked Git common directory is forbidden: {m.entryPath e (.git .commondir)}")
    (.inspect e (.git .commondir))
  m.requireDirectory e "repository" .repository
  m.requireDirectory e "Git directory" (.git .directory)
  m.requireDirectory e "object database" (.git .objects)
  m.requireDirectory e "refs directory" (.git .refs)
  m.requireIndex e
  m.forbidAlternates e (.inspect e (.git .alternates))

/-- What git reports for the query is in the repository. -/
def requireInside (e : ExecutionId) (root : Paths.Path) (query : GitQuery) : M Unit := do
  m.verifyGitStoragePreflight e
  let path ← attemptAs (gitError .ownership) (.gitPath e query)
  refuse (¬root <+: path) (.ownership s!"Git path escapes repository root: {pathText path}")

def verifyRepositoryStorage (e : ExecutionId) : M Unit := do
  m.verifyGitStoragePreflight e
  let root ← attemptAs (reason .ownership) (.canonicalize e)
  let top ← attemptAs (gitError .ownership) (.toplevel e)
  refuse (top ≠ root)
    (.ownership s!"Git work tree {pathText top} is not repository root {pathText root}")
  forEach [.gitDir, .commonDir, .objects, .refs, .index] (m.requireInside e root)
  m.verifyGitStoragePreflight e
  m.forbidAlternates e (.inspectAlternates e)

/-- `verify_repository_selector`, for the deterministic layout: its root is a directory. -/
def verifyRepositorySelector (e : ExecutionId) : M Unit := do
  let kind ← attemptAs (reason .ownership) (.inspectRoot e)
  refuse (kind ≠ .directory)
    (.ownership s!"execution root is not a real directory: {m.executionRoot e}")

/-! ## Intents and the rollback -/

def readCreateIntent (e : ExecutionId) : M (Option CreateIntent) :=
  attemptAs (reason .create) (.readIntent e)

def writeCreateIntent (e : ExecutionId) (intent : CreateIntent) (replace : Bool) : M Unit :=
  attemptAs (reason .create) (.writeIntent e intent replace)

def removeCreateIntent (e : ExecutionId) : M Unit := attemptAs (reason .create) (.removeIntent e)

def emptyRepository (e : ExecutionId) : ExceptT String (Prog Call) Unit := do
  let empty ← attemptAs toString (.isEmpty e)
  provided (!empty) (do
    attemptAs toString (.removeRepository e)
    attemptAs toString (.createRepositoryRoot e))

def rollbackIndependentRepository (e : ExecutionId) : ExceptT String (Prog Call) Unit := do
  let inspected ← observe (attempt (.inspect e .repository))
  match inspected with
  | .error .notFound => attemptAs toString (.createRepositoryRoot e)
  | .ok .directory => emptyRepository e
  | .ok _ => throw s!"repository rollback target is not a real directory: {m.repositoryPath e}"
  | .error error => throw (toString error)

def rollbackAs (error : String → WorktreeError) (e : ExecutionId) : M Unit := do
  let rolled ← observe (m.rollbackIndependentRepository e)
  unwrap (rolled.mapError error)

/-! ## The owner record -/

def rejectExisting (e : ExecutionId) (entry : Entry) : M Unit := do
  let inspected ← observe (attempt (.inspect e entry))
  match inspected with
  | .error .notFound => pure ()
  | .ok _ => throw (.create s!"ownership metadata path already exists: {m.entryPath e entry}")
  | .error error => throw (createIoError error)

/-- The record under the temporary name, then under its own. -/
def publishOwnerRecord (e : ExecutionId) (record : OwnerRecord) : M Unit := do
  attemptAs createIoError (.createTemporary e)
  attemptAs createIoError (.writeTemporary e record)
  attemptAs createIoError (.perform (.checkpoint .ownerTemporaryWritten e))
  attemptAs createIoError (.perform (.syncTemporary e))
  attemptAs createIoError (.perform (.checkpoint .ownerTemporarySynced e))
  attemptAs createIoError (.renameTemporary e)
  attemptAs createIoError (.perform (.checkpoint .ownerRenamed e))
  attemptAs createIoError (.perform (.syncRepository e))

def writeOwnerRecord (e : ExecutionId) (record : OwnerRecord) : M Unit := do
  m.rejectExisting e .owner
  m.rejectExisting e .temporary
  let published ← observe (publishOwnerRecord e record)
  match published with
  | .ok () => pure ()
  | .error error => do
    let _ ← (observe (attempt (.removeTemporary e)) : M (Except IoError Unit))
    throw error

/-! ## Who owns a branch -/

def recordedRepository (record : OwnerRecord) : Option String :=
  record.labels.lookup "autospec.repository"

/-- The owner that a record names, once it is seen to be one of this repository and branch. -/
def matchingOwner (repo branch : String) (e : ExecutionId) (record : OwnerRecord) :
    M (Option ExecutionId) :=
  if recordedRepository record ≠ some repo ∨ record.branch ≠ branch then pure none
  else do
    m.verifyGitStoragePreflight e
    let current ← attemptAs (gitError .create) (.currentBranch e)
    refuse (current ≠ record.branch) (.ownership
      s!"recorded branch {record.branch} does not match checkout {current} at {m.repositoryPath e}")
    pure ((record.labels.lookup "autospec.execution_id").map .mk)

/-- A record that cannot be read is passed over. -/
def recordedOwner (repo branch : String) (e : ExecutionId) : M (Option ExecutionId) := do
  let read ← observe (attempt (.readOwner e))
  match read with
  | .error _ => pure none
  | .ok record => m.matchingOwner repo branch e record

def ownerIn (repo branch : String) (e : ExecutionId) : M (Option ExecutionId) := do
  let root ← attemptAs (reason .create) (.inspectRoot e)
  refuse (root ≠ .directory) (.ownership s!"execution root is not a real directory: {m.executionRoot e}")
  let inspected ← observe (attempt (.inspect e .repository))
  match inspected with
  | .error .notFound => pure none
  | .error error => throw (.create (toString error))
  | .ok .directory => m.recordedOwner repo branch e
  | .ok _ => throw (.ownership s!"repository entry is not a real directory: {m.repositoryPath e}")

def firstOwner (repo branch : String) :
    List (Except IoError ExecutionId) → M (Option ExecutionId)
  | [] => pure none
  | entry :: entries => do
    let e ← unwrap (entry.mapError (reason .create))
    let owner ← m.ownerIn repo branch e
    match owner with
    | some owner => pure (some owner)
    | none => firstOwner repo branch entries

def branchOwner (repo branch : String) : M (Option ExecutionId) := do
  let listed ← observe (attempt .readExecutions)
  match listed with
  | .error .notFound => pure none
  | .error error => throw (.create (toString error))
  | .ok entries => m.firstOwner repo branch entries

/-! ## Creation -/

/-- A lock that is dropped when the body has ended, however it ended. -/
def locked (path : String) (body : M Unit) : M Unit := do
  attemptAs (reason .mirror) (.lock path)
  let result ← observe body
  let _ ← (observe (attempt (.unlock path)) : M (Except IoError Unit))
  unwrap result

def refreshMirror (name locator : String) : M Unit := do
  attemptAs (reason .mirror) (.perform .mirrorRoot)
  let inspected ← observe (attempt (.perform (.inspectMirror name)))
  match inspected with
  | .ok () => do
    attemptAs (reason .mirror) (.perform (.verifyMirror name locator))
    attemptAs (gitError .mirror) (.perform (.updateMirror name))
    attemptAs (reason .mirror) (.perform (.verifyMirror name locator))
  | .error .notFound => do
    attemptAs (gitError .mirror) (.perform (.cloneMirror name locator))
    attemptAs (reason .mirror) (.perform (.verifyMirror name locator))
  | .error error => throw (.mirror (toString error))

/-- `ensure_mirror`: the normalized name of the mirror. -/
def ensureMirror (repo : String) : M String := do
  attemptAs (reason .mirror) (.perform .mirrorRoot)
  let locator ← unwrap (m.cloneLocator repo)
  let name ← unwrap (normalizedRepositoryName repo)
  locked (mirrorLock m.cacheRoot name) (refreshMirror name locator)
  pure name

/-- The intent asks for the same repository. -/
def intentMatches (intent : CreateIntent) (labels : OwnershipLabels)
    (repo baseRef branch : String) : Bool :=
  intent.labels = labels.toMap && intent.repository = repo && intent.baseRef = baseRef &&
    intent.branch = branch && intent.repositoryPath = m.repositoryPath labels.executionId

/-- What an interrupted creation has left is undone; its commit is checked out again. -/
def resume (labels : OwnershipLabels) (repo baseRef branch : String) (intent : CreateIntent) :
    M String := do
  refuse (!m.intentMatches intent labels repo baseRef branch)
    (.ownership "create intent does not match requested execution")
  m.rollbackAs .create labels.executionId
  attemptAs (reason .ownership) (.perform (.refreshStorage labels.executionId))
  pure intent.baseSha

def recoveredBase (labels : OwnershipLabels) (repo baseRef branch : String) :
    Option CreateIntent → M (Option String)
  | none => pure none
  | some intent => do
    let sha ← m.resume labels repo baseRef branch intent
    pure (some sha)

def baseSha (name baseRef : String) : Option String → M String
  | some sha => do
    attemptAs (gitError .create) (.perform (.findCommit name sha))
    pure sha
  | none => attemptAs (gitError .create) (.revParse name baseRef)

def verifyReady (e : ExecutionId) (storage : Receipt) : M Unit := do
  attemptAs (reason .ownership) (.verifyReady storage)
  attemptAs (reason .ownership) (.perform (.verifyStorage e))

/-- From the written intent to the owner record. -/
def setUp (e : ExecutionId) (name locator : String) (storage : Receipt)
    (intent : CreateIntent) : M Unit := do
  attemptAs (reason .create) (.perform .mirrorRoot)
  attemptAs (reason .create) (.perform (.verifyMirror name locator))
  verifyReady e storage
  attemptAs createIoError (.cloneRepository e name)
  attemptAs createIoError (.perform (.checkpoint .cloneObjectPack e))
  m.verifyRepositoryStorage e
  attemptAs (reason .ownership) (.perform (.verifyStorage e))
  writeCreateIntent e { intent with phase := .cloned } true
  attemptAs (gitError .create) (.perform (.setOrigin e locator))
  attemptAs (gitError .create) (.checkout e intent.branch intent.baseSha)
  attemptAs createIoError (.perform (.checkpoint .checkoutIndex e))
  writeCreateIntent e { intent with phase := .checkedOut } true
  m.verifyRepositoryStorage e
  attemptAs (reason .ownership) (.perform (.verifyStorage e))
  m.writeOwnerRecord e ⟨intent.labels, intent.baseSha, intent.branch⟩

/-- A failed setup is rolled back, and the intent removed. -/
def abandon (e : ExecutionId) (error : WorktreeError) : M Unit := do
  let rolled ← observe (m.rollbackIndependentRepository e)
  match rolled with
  | .error rollback => throw (.create s!"{error}; rollback failed: {rollback}")
  | .ok () => do
    let removed ← observe (removeCreateIntent e)
    match removed with
    | .ok () => throw error
    | .error removal => throw (.create s!"{error}; remove create intent failed: {removal}")

def orAbandon (e : ExecutionId) (setup : M Unit) : M Unit := do
  let done ← observe setup
  match done with
  | .ok () => pure ()
  | .error error => m.abandon e error

/-- What `create_in` does under the locks of the mirror and of the branch. -/
def createLocked (labels : OwnershipLabels) (repo baseRef branch name locator : String)
    (storage : Receipt) (recovered : Option String) : M Worktree := do
  let e := labels.executionId
  let owner ← m.branchOwner repo branch
  match owner with
  | some owner => throw (.locked owner)
  | none => do
    let sha ← baseSha name baseRef recovered
    let empty ← attemptAs (reason .create) (.isEmpty e)
    refuse (!empty) (.create s!"repository root is not empty: {m.repositoryPath e}")
    let intent : CreateIntent :=
      { labels := labels.toMap, repository := repo, baseRef, baseSha := sha, branch
        repositoryPath := m.repositoryPath e, phase := .cloning }
    writeCreateIntent e intent recovered.isSome
    m.orAbandon e (m.setUp e name locator storage intent)
    removeCreateIntent e
    pure { executionId := e, path := m.repositoryPath e, branch, baseSha := sha, repository := repo }

/-- The checks before anything is touched. -/
def checkCreation (labels : OwnershipLabels) (repo branch : String) (storage : Receipt) :
    M Unit := do
  unwrap (validateExecutionId labels.executionId)
  refuse (labels.repository ≠ repo)
    (.ownership s!"repository label {labels.repository} does not match {repo}")
  attemptAs (gitError .create) (.perform (.checkRefFormat branch))
  let layout ← unwrap ((ExecutionLayout.new m.cacheRoot labels.executionId).mapError
    (reason .ownership))
  unwrap ((storage.validate labels layout).mapError (reason .ownership))
  refuse (storage.dockerBind.filesystemId ≠ storage.backend.filesystemId)
    (.ownership "storage backend and bind-proof filesystem identities differ")
  m.verifyRepositorySelector labels.executionId
  verifyReady labels.executionId storage

def createIn (labels : OwnershipLabels) (repo baseRef branch : String)
    (storage : Receipt) : M Worktree := do
  m.checkCreation labels repo branch storage
  let intent ← readCreateIntent labels.executionId
  let recovered ← m.recoveredBase labels repo baseRef branch intent
  let name ← m.ensureMirror repo
  attemptAs (reason .create) (.lock (mirrorLock m.cacheRoot name))
  attemptAs (reason .create) (.perform .mirrorRoot)
  let locator ← unwrap (m.cloneLocator repo)
  attemptAs (reason .create) (.perform (.verifyMirror name locator))
  attemptAs (reason .mirror) (.lock (branchLock m.cacheRoot name branch))
  m.createLocked labels repo baseRef branch name locator storage recovered

/-! ## Recovery -/

def undoIntent (labels : OwnershipLabels) (intent : CreateIntent) : M Unit := do
  let e := labels.executionId
  m.verifyRepositorySelector e
  refuse (intent.labels ≠ labels.toMap ∨ intent.repositoryPath ≠ m.repositoryPath e ∨
      intent.repository ≠ labels.repository)
    (.ownership "create intent does not match exact execution labels and root")
  m.rollbackAs .cleanup e
  let removed ← observe (removeCreateIntent e)
  unwrap (removed.mapError (reason .cleanup))

def recoverInterruptedCreate (labels : OwnershipLabels) (path : String) : M Unit := do
  let e := labels.executionId
  unwrap (validateExecutionId e)
  refuse (path ≠ m.repositoryPath e) (.ownership
    s!"interrupted create path {path} is not exact expected path {m.repositoryPath e}")
  let intent ← readCreateIntent e
  whenSome intent (m.undoIntent labels)

end Manager

end GitWorktree

end Orchestrator
