import Orchestrator.Worktree.Manager

/-!
# Destroying the repository of an execution

`git-worktree/src/cleanup.rs`: `destroy` removes the repository of a worktree after it has written a
journal of what it is about to remove, `ackDestroy` removes the journal once the directory is gone.
`processes` is any number of processes that create, destroy, acknowledge and recover on one state root,
beside agents and the execution storage.
-/

namespace Orchestrator.GitWorktree

open Prog

def OwnerRecord.names (record : OwnerRecord) (w : Worktree) : Bool :=
  record.labels.lookup "autospec.managed" = some "true" &&
    record.labels.lookup "autospec.execution_id" = some w.executionId.value &&
    record.baseSha = w.baseSha && record.branch = w.branch &&
    record.labels.lookup "autospec.repository" = some w.repository

namespace Manager

variable (m : Manager)

def verifyJournal (w : Worktree) (journal : CleanupJournal) : Except WorktreeError Unit :=
  Txn.ensure (journal.worktreePath = w.path ∧ journal.worktreePath = m.repositoryPath w.executionId ∧
      journal.owner.names w)
    (.ownership s!"cleanup journal does not match {w.executionId}")

def verifyPath (w : Worktree) : M Unit := do
  let inspected ← observe (attempt (.inspect w.executionId .repository))
  refuse (¬(w.path = m.repositoryPath w.executionId ∧ inspected = .ok .directory))
    (.ownership w.path)

def verifiedOwner (w : Worktree) : M OwnerRecord := do
  let record ← attemptAs (reason .cleanup) (.readOwner w.executionId)
  refuse (!record.names w) (.ownership w.path)
  pure record

def currentBranch (e : ExecutionId) : M String := do
  m.verifyGitStoragePreflight e
  attemptAs (gitError .cleanup) (.currentBranch e)

/-- The branch that is checked out is the recorded one. -/
def requireBranch (e : ExecutionId) (branch : String) : M Unit := do
  let current ← m.currentBranch e
  refuse (current ≠ branch) (.ownership
    s!"recorded branch {branch} does not match checkout {current} at {m.repositoryPath e}")

def readCleanupJournal (e : ExecutionId) : M (Option CleanupJournal) :=
  attemptAs (reason .cleanup) (.readJournal e)

def writeCleanupJournal (e : ExecutionId) (journal : CleanupJournal) : M Unit :=
  attemptAs (reason .cleanup) (.createJournal e journal)

/-- The journal that a first call of `destroy` is to write. -/
def newJournal (w : Worktree) : M CleanupJournal := do
  m.verifyPath w
  m.verifyRepositoryStorage w.executionId
  let owner ← verifiedOwner w
  m.requireBranch w.executionId owner.branch
  pure { owner, worktreePath := w.path }

/-- The journal, and whether it is to be written. -/
def journalFor (w : Worktree) : Option CleanupJournal → M (CleanupJournal × Bool)
  | some journal => do
    unwrap (m.verifyJournal w journal)
    pure (journal, false)
  | none => do
    let journal ← m.newJournal w
    pure (journal, true)

def removeRepository (e : ExecutionId) (branch : String) : M Unit := do
  m.verifyRepositoryStorage e
  m.requireBranch e branch
  attemptAs (reason .cleanup) (.removeRepository e)

def removeRepositoryIfPresent (e : ExecutionId) (branch : String) : M Unit := do
  let inspected ← observe (attempt (.inspect e .repository))
  match inspected with
  | .error .notFound => pure ()
  | .error error => throw (.cleanup (toString error))
  | .ok .directory => m.removeRepository e branch
  | .ok _ =>
    throw (.ownership s!"repository path is not a real directory: {m.repositoryPath e}")

def destroy (w : Worktree) : M Unit := do
  let existing ← readCleanupJournal w.executionId
  let (journal, needsWrite) ← m.journalFor w existing
  let repository ← demand (recordedRepository journal.owner)
    (.ownership "owner record missing autospec.repository")
  let name ← unwrap (normalizedRepositoryName repository)
  attemptAs (reason .cleanup) (.lock (branchLock m.cacheRoot name w.branch))
  provided needsWrite (writeCleanupJournal w.executionId journal)
  m.removeRepositoryIfPresent w.executionId journal.owner.branch

def authenticateAbsence (e : ExecutionId) (present : WorktreeError) : M Unit := do
  let inspected ← observe (attempt (.inspect e .repository))
  match inspected with
  | .error .notFound => pure ()
  | .error error => throw (.cleanup
      s!"cannot authenticate repository absence at {m.repositoryPath e}: {error}")
  | .ok _ => throw present

def ackDestroy (w : Worktree) : M Unit := do
  let e := w.executionId
  let existing ← readCleanupJournal e
  match existing with
  | none => do
    refuse (w.path ≠ m.repositoryPath e) (.ownership s!"cleanup tombstone is absent for {e}")
    m.authenticateAbsence e (.ownership s!"cleanup tombstone is absent for {e}")
  | some journal => do
    unwrap (m.verifyJournal w journal)
    m.authenticateAbsence e (.cleanup
      s!"cannot acknowledge cleanup while repository exists: {m.repositoryPath e}")
    attemptAs (reason .cleanup) (.removeJournal e)

end Manager

/-! ## Processes -/

inductive Outcome where
  | created (result : Except WorktreeError Worktree)
  | ended (result : Except WorktreeError Unit)
  | acted

/-- What a process may run. -/
inductive Task where
  | createIn (labels : OwnershipLabels) (repo baseRef branch : String) (storage : Receipt)
  | destroy (w : Worktree)
  | ackDestroy (w : Worktree)
  | recoverInterruptedCreate (labels : OwnershipLabels) (path : String)
  | act

/-- A run of a program that returns nothing. -/
def ending (t : M Unit) : Prog Call Outcome := t.run >>= fun r => .pure (.ended r)

def Task.program (m : Manager) : Task → Prog Call Outcome
  | .createIn labels repo baseRef branch storage =>
    (m.createIn labels repo baseRef branch storage).run >>= fun r => .pure (.created r)
  | .destroy w => ending (m.destroy w)
  | .ackDestroy w => ending (m.ackDestroy w)
  | .recoverInterruptedCreate labels path => ending (m.recoverInterruptedCreate labels path)
  | .act => ask .act >>= fun _ => .pure .acted

def processes (W : World) (cacheRoot : String) : System Call Root Nat Outcome where
  sem := Call.Does W
  begins _ t s s' := (∃ (m : Manager) (task : Task), m.cacheRoot = cacheRoot ∧ t = task.program m) ∧
    s' = s
  returns i _ s s' := s' = s.release i
  dies i s s' := s' = s.release i

end Orchestrator.GitWorktree
