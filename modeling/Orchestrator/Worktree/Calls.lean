import Orchestrator.Lib.Paths
import Orchestrator.Lib.Threads
import Orchestrator.Storage.Allocation

/-!
# The repositories of executions, their files and their locks

`git-worktree` keeps a repository directory for each execution under one state root, an intent while
the repository is created and a journal while it is destroyed. Its programs make one call for each
operation on these files, on git, on the file locks and on the storage verifier. This module has the
calls and says what each of them does to the state root (`Call.Does`).

Every call may fail. A clone, a checkout or a recursive removal that fails has done any part of its
work, and a metadata record whose write or removal fails may have been written or removed. What git
answers about a repository is part of its contents, since an agent may write everything in it. Paths
are compared by their text.
-/

namespace Orchestrator.GitWorktree

open Prog Paths

abbrev Receipt := ExecutionStorage.Exact.AllocationReceipt

/-! ## Records -/

inductive WorktreeError where
  | mirror (reason : String)
  | create (reason : String)
  | storageFull (reason : String)
  | locked (owner : ExecutionId)
  | cleanup (reason : String)
  | invalidRepository (repo : String)
  | ownership (reason : String)
deriving DecidableEq, Repr

def WorktreeError.text : WorktreeError → String
  | mirror reason => s!"mirror update failed: {reason}"
  | create reason => s!"worktree creation failed: {reason}"
  | storageFull reason => s!"execution storage is full: {reason}"
  | locked owner => s!"worktree is locked by {owner}"
  | cleanup reason => s!"cleanup failed: {reason}"
  | invalidRepository repo => s!"invalid repository reference: {repo}"
  | ownership reason => s!"worktree ownership verification failed: {reason}"

instance : ToString WorktreeError := ⟨WorktreeError.text⟩

/-- An error of a file operation or of git; both tell when the device is full. -/
inductive IoError where
  | notFound
  | full
  | other (reason : String)
deriving DecidableEq, Repr

instance : ToString IoError where
  toString
    | .notFound => "No such file or directory (os error 2)"
    | .full => "No space left on device (os error 28)"
    | .other reason => reason

structure Worktree where
  executionId : ExecutionId
  path : String
  branch : String
  baseSha : String
  repository : String
deriving DecidableEq, Repr

structure OwnerRecord where
  labels : Labels
  baseSha : String
  branch : String
deriving DecidableEq, Repr

inductive CreatePhase where
  | cloning | cloned | checkedOut
deriving DecidableEq, Repr

structure CreateIntent where
  labels : Labels
  repository : String
  baseRef : String
  baseSha : String
  branch : String
  repositoryPath : String
  phase : CreatePhase
deriving DecidableEq, Repr

structure CleanupJournal where
  owner : OwnerRecord
  worktreePath : String
deriving DecidableEq, Repr

/-! ## Calls -/

/-- What `symlink_metadata` calls a file. -/
inductive Kind where
  | directory | file | other
deriving DecidableEq, Repr

/-- What stands at a path. -/
inductive Stat where
  | missing
  | present (kind : Kind)
  | unreachable
deriving DecidableEq, Repr

/-- The paths under `.git` that are looked at. -/
inductive GitEntry where
  | commondir | directory | objects | refs | index | alternates
deriving DecidableEq, Repr

/-- The paths of a repository that are looked at. -/
inductive Entry where
  | repository
  | git (entry : GitEntry)
  | owner
  | temporary
deriving DecidableEq, Repr

/-- What `rev-parse` is asked for. -/
inductive GitQuery where
  | gitDir | commonDir | objects | refs | index
deriving DecidableEq, Repr

/-- `WorktreeFilesystemPoint`. -/
inductive Checkpoint where
  | cloneObjectPack | checkoutIndex | ownerTemporaryWritten | ownerTemporarySynced | ownerRenamed
deriving DecidableEq, Repr

/-- Operations that change nothing of what is modelled. -/
inductive Operation where
  /-- `git check-ref-format --branch`. -/
  | checkRefFormat (branch : String)
  /-- `secure_mirror_root` and `MirrorRoot::verify`. -/
  | mirrorRoot
  | inspectMirror (name : String)
  /-- `verify_mirror_repository`. -/
  | verifyMirror (name cloneLocator : String)
  | updateMirror (name : String)
  | cloneMirror (name cloneLocator : String)
  /-- `git cat-file -e`. -/
  | findCommit (name sha : String)
  /-- `verify_live_storage` and `VerifiedExecutionStorage::verify`. -/
  | verifyStorage (e : ExecutionId)
  /-- `refresh_after_exact_recovery`. -/
  | refreshStorage (e : ExecutionId)
  /-- `git remote set-url origin`. -/
  | setOrigin (e : ExecutionId) (cloneLocator : String)
  | checkpoint (point : Checkpoint) (e : ExecutionId)
  | syncTemporary (e : ExecutionId)
  | syncRepository (e : ExecutionId)
deriving DecidableEq, Repr

inductive Call : Type → Type
  | perform (o : Operation) : Call (Except IoError Unit)
  /-- Waits for the lock. -/
  | lock (path : String) : Call (Except IoError Unit)
  | unlock (path : String) : Call (Except IoError Unit)
  | verifyReady (receipt : Receipt) : Call (Except StorageError Unit)
  /-- `git rev-parse --verify` in a mirror. -/
  | revParse (name baseRef : String) : Call (Except IoError String)
  | readIntent (e : ExecutionId) : Call (Except IoError (Option CreateIntent))
  | writeIntent (e : ExecutionId) (intent : CreateIntent) (replace : Bool) :
      Call (Except IoError Unit)
  | removeIntent (e : ExecutionId) : Call (Except IoError Unit)
  | readJournal (e : ExecutionId) : Call (Except IoError (Option CleanupJournal))
  | createJournal (e : ExecutionId) (journal : CleanupJournal) : Call (Except IoError Unit)
  | removeJournal (e : ExecutionId) : Call (Except IoError Unit)
  /-- The entries of the executions root, by their names. -/
  | readExecutions : Call (Except IoError (List (Except IoError ExecutionId)))
  | inspectRoot (e : ExecutionId) : Call (Except IoError Kind)
  | inspect (e : ExecutionId) (entry : Entry) : Call (Except IoError Kind)
  | isEmpty (e : ExecutionId) : Call (Except IoError Bool)
  | canonicalize (e : ExecutionId) : Call (Except IoError Path)
  /-- `git rev-parse --show-toplevel`, canonical. -/
  | toplevel (e : ExecutionId) : Call (Except IoError Path)
  /-- What `rev-parse` reports, canonical. -/
  | gitPath (e : ExecutionId) (query : GitQuery) : Call (Except IoError Path)
  /-- `symlink_metadata` of the alternates that git reports. -/
  | inspectAlternates (e : ExecutionId) : Call (Except IoError Kind)
  /-- `git branch --show-current`. -/
  | currentBranch (e : ExecutionId) : Call (Except IoError String)
  | readOwner (e : ExecutionId) : Call (Except IoError OwnerRecord)
  | cloneRepository (e : ExecutionId) (name : String) : Call (Except IoError Unit)
  /-- `git checkout -b`. -/
  | checkout (e : ExecutionId) (branch sha : String) : Call (Except IoError Unit)
  | createTemporary (e : ExecutionId) : Call (Except IoError Unit)
  | writeTemporary (e : ExecutionId) (record : OwnerRecord) : Call (Except IoError Unit)
  | renameTemporary (e : ExecutionId) : Call (Except IoError Unit)
  | removeTemporary (e : ExecutionId) : Call (Except IoError Unit)
  | removeRepository (e : ExecutionId) : Call (Except IoError Unit)
  | createRepositoryRoot (e : ExecutionId) : Call (Except IoError Unit)
  /-- Something that an agent or the execution storage does. -/
  | act : Call (Except IoError Unit)

/-! ## The state root -/

/-- What `.autospec-owner.json` or its temporary may hold. -/
inductive OwnerFile where
  | record (r : OwnerRecord)
  | unparsable
deriving DecidableEq, Repr

/-- What is in a repository directory, and what git answers there. -/
structure Contents where
  owner : Option OwnerFile := none
  temporary : Option OwnerFile := none
  entry : GitEntry → Stat := fun _ => .missing
  toplevel : Option Path := none
  reported : GitQuery → Option Path := fun _ => none
  alternates : Stat := .missing
  head : Option String := none
  others : List String := []

namespace Contents

/-- `read_dir` has no entry. -/
def isEmpty (c : Contents) : Bool :=
  c.owner.isNone && c.temporary.isNone && c.entry .directory = .missing && c.others.isEmpty

/-- What a removal has left of the contents; git may answer anything there. -/
structure Part (c c' : Contents) : Prop where
  owner : c'.owner = c.owner ∨ c'.owner = none
  temporary : c'.temporary = c.temporary ∨ c'.temporary = none
  entry : ∀ x, c'.entry x = c.entry x ∨ c'.entry x = .missing
  others : c'.others ⊆ c.others

end Contents

inductive Node where
  | directory (contents : Contents)
  | other

/-- The files that a commit has at the two paths of the owner record. -/
structure Tracked where
  owner : Option OwnerFile := none
  temporary : Option OwnerFile := none

/-- What does not change: the receipt that the storage verifier accepts for an execution, and what
the commits contain. -/
structure World where
  receipt : ExecutionId → Option Receipt
  tracked : String → Tracked

structure Root where
  repository : ExecutionId → Option Node
  /-- What stands in the executions root. -/
  entries : List ExecutionId
  listed : ∀ e, (repository e).isSome → e ∈ entries
  /-- The directory in which the repository stands. -/
  root : ExecutionId → Stat := fun _ => .present .directory
  canonical : ExecutionId → Path := fun e => ["executions", e.value, "repository"]
  intent : ExecutionId → Option CreateIntent := fun _ => none
  journal : ExecutionId → Option CleanupJournal := fun _ => none
  /-- Who holds a lock file. -/
  lock : String → Option Nat := fun _ => none
  /-- Whether an attempt to read the owner file would succeed. -/
  readable : ExecutionId → Bool := fun _ => true

namespace Root

def contents (s : Root) (e : ExecutionId) : Option Contents :=
  match s.repository e with
  | some (.directory c) => some c
  | _ => none

def ownerFile (s : Root) (e : ExecutionId) : Option OwnerFile := (s.contents e).bind Contents.owner

def temporary (s : Root) (e : ExecutionId) : Option OwnerFile :=
  (s.contents e).bind Contents.temporary

/-- The owner record in the directory of an execution. -/
def record (s : Root) (e : ExecutionId) : Option OwnerRecord :=
  match s.ownerFile e with
  | some (.record r) => some r
  | _ => none

def stat (s : Root) (e : ExecutionId) : Entry → Stat
  | .repository =>
    match s.repository e with
    | some (.directory _) => .present .directory
    | some .other => .present .other
    | none => .missing
  | .git x =>
    match s.repository e with
    | some (.directory c) => c.entry x
    | some .other => .unreachable
    | none => .missing
  | .owner => if (s.ownerFile e).isSome then .present .file else .missing
  | .temporary => if (s.temporary e).isSome then .present .file else .missing

def put (s : Root) (e : ExecutionId) (c : Contents) : Root :=
  { s with
    repository := Function.update s.repository e (some (.directory c))
    entries := s.entries.insert e
    listed := fun e' he' => by
      by_cases h : e' = e
      · simp [h]
      · rw [Function.update_of_ne h] at he'
        exact List.mem_insert_of_mem (s.listed e' he') }

def drop (s : Root) (e : ExecutionId) : Root :=
  { s with
    repository := Function.update s.repository e none
    listed := fun e' he' => by
      by_cases h : e' = e
      · simp [h] at he'
      · rw [Function.update_of_ne h] at he'
        exact s.listed e' he' }

def setIntent (s : Root) (e : ExecutionId) (intent : Option CreateIntent) : Root :=
  { s with intent := Function.update s.intent e intent }

def setJournal (s : Root) (e : ExecutionId) (journal : Option CleanupJournal) : Root :=
  { s with journal := Function.update s.journal e journal }

def setLock (s : Root) (path : String) (holder : Option Nat) : Root :=
  { s with lock := Function.update s.lock path holder }

/-- The locks go when their holder returns or dies. -/
def release (s : Root) (i : Nat) : Root :=
  { s with lock := fun path => if s.lock path = some i then none else s.lock path }

section
variable (s : Root) (e e' : ExecutionId) (c : Contents)

@[simp] theorem contents_put_self : (s.put e c).contents e = some c := by
  simp [contents, put]

@[simp] theorem contents_put_of_ne {e e' : ExecutionId} (h : e' ≠ e) :
    (s.put e c).contents e' = s.contents e' := by
  simp [contents, put, Function.update_of_ne h]

@[simp] theorem contents_drop_self : (s.drop e).contents e = none := by
  simp [contents, drop]

@[simp] theorem contents_drop_of_ne {e e' : ExecutionId} (h : e' ≠ e) :
    (s.drop e).contents e' = s.contents e' := by
  simp [contents, drop, Function.update_of_ne h]

end

/-- What an agent and the execution storage may do: everything but write owner files. -/
structure Outside (s s' : Root) : Prop where
  owner : ∀ e, s'.ownerFile e = s.ownerFile e ∨ s'.ownerFile e = none
  temporary : ∀ e, s'.temporary e = s.temporary e ∨ s'.temporary e = none
  intent : s'.intent = s.intent
  journal : s'.journal = s.journal
  lock : s'.lock = s.lock

end Root

/-- What an inspection tells. -/
def Stat.Answers (stat : Stat) : Except IoError Kind → Prop
  | .ok kind => stat = .present kind
  | .error .notFound => stat = .missing
  | .error _ => True

/-- What a call of process `i` may answer, and what it leaves. -/
def Call.Does (W : World) (i : Nat) : {β : Type} → Call β → Root → β → Root → Prop
  | _, .lock path, s, .ok (), s' => s.lock path = none ∧ s' = s.setLock path (some i)
  | _, .unlock path, s, _, s' => s' = if s.lock path = some i then s.setLock path none else s
  | _, .verifyReady receipt, s, .ok (), s' =>
    s' = s ∧ W.receipt receipt.labels.executionId = some receipt
  | _, .readIntent e, s, .ok intent, s' => s' = s ∧ s.intent e = intent
  | _, .writeIntent e intent replace, s, .ok (), s' =>
    (s.intent e).isSome = replace ∧ s' = s.setIntent e (some intent)
  | _, .writeIntent e intent replace, s, .error _, s' =>
    s' = s ∨ (s.intent e).isSome = replace ∧ s' = s.setIntent e (some intent)
  | _, .removeIntent e, s, .ok (), s' => s' = s.setIntent e none
  | _, .removeIntent e, s, .error _, s' => s' = s ∨ s' = s.setIntent e none
  | _, .readJournal e, s, .ok journal, s' => s' = s ∧ s.journal e = journal
  | _, .createJournal e journal, s, .ok (), s' =>
    s.journal e = none ∧ s' = s.setJournal e (some journal)
  | _, .createJournal e journal, s, .error _, s' =>
    s' = s ∨ s.journal e = none ∧ s' = s.setJournal e (some journal)
  | _, .removeJournal e, s, .ok (), s' => s' = s.setJournal e none
  | _, .removeJournal e, s, .error _, s' => s' = s ∨ s' = s.setJournal e none
  | _, .readExecutions, s, .ok entries, s' => s' = s ∧ ∀ e, (s.repository e).isSome →
      .ok e ∈ entries ∨ ∃ error, .error error ∈ entries
  | _, .readExecutions, s, .error .notFound, s' => s' = s ∧ ∀ e, s.repository e = none
  | _, .inspectRoot e, s, r, s' => s' = s ∧ (s.root e).Answers r
  | _, .inspect e entry, s, r, s' => s' = s ∧ (s.stat e entry).Answers r
  | _, .isEmpty e, s, .ok b, s' => s' = s ∧ ∃ c, s.contents e = some c ∧ b = c.isEmpty
  | _, .canonicalize e, s, .ok path, s' => s' = s ∧ path = s.canonical e
  | _, .toplevel e, s, .ok path, s' => s' = s ∧ ∃ c, s.contents e = some c ∧ c.toplevel = some path
  | _, .gitPath e query, s, .ok path, s' =>
    s' = s ∧ ∃ c, s.contents e = some c ∧ c.reported query = some path
  | _, .inspectAlternates e, s, r, s' =>
    s' = s ∧ ((s.contents e).elim .missing Contents.alternates).Answers r
  | _, .currentBranch e, s, .ok branch, s' =>
    s' = s ∧ ∃ c, s.contents e = some c ∧ c.head = some branch
  | _, .readOwner e, s, .ok record, s' => s' = s ∧ s.record e = some record ∧ s.readable e
  | _, .readOwner e, s, .error _, s' => s' = s ∧ (s.record e = none ∨ !s.readable e)
  -- git makes the directory when it is not there
  | _, .cloneRepository e _, s, .ok (), s' =>
    ∃ c, c.owner = s.ownerFile e ∧ c.temporary = s.temporary e ∧ s' = s.put e c
  | _, .cloneRepository e _, s, .error _, s' => s' = s ∨
    ∃ c, c.owner = s.ownerFile e ∧ c.temporary = s.temporary e ∧ s' = s.put e c
  | _, .checkout e branch sha, s, .ok (), s' => ∃ c c', s.contents e = some c ∧
      c'.owner = (W.tracked sha).owner.or c.owner ∧
      c'.temporary = (W.tracked sha).temporary.or c.temporary ∧ c'.head = some branch ∧
      s' = s.put e c'
  | _, .checkout e _ sha, s, .error _, s' => s' = s ∨ ∃ c c', s.contents e = some c ∧
      (c'.owner = c.owner ∨ c'.owner = (W.tracked sha).owner.or c.owner) ∧
      (c'.temporary = c.temporary ∨ c'.temporary = (W.tracked sha).temporary.or c.temporary) ∧
      s' = s.put e c'
  | _, .createTemporary e, s, .ok (), s' => ∃ c, s.contents e = some c ∧ c.temporary = none ∧
      s' = s.put e { c with temporary := some .unparsable }
  -- the file that was created may have been removed since
  | _, .writeTemporary e record, s, .ok (), s' => s.temporary e = none ∧ s' = s ∨
    ∃ c, s.contents e = some c ∧ c.temporary.isSome ∧
      s' = s.put e { c with temporary := some (.record record) }
  | _, .writeTemporary e record, s, .error _, s' => s' = s ∨
    ∃ c, s.contents e = some c ∧ c.temporary.isSome ∧
      s' = s.put e { c with temporary := some (.record record) }
  | _, .renameTemporary e, s, .ok (), s' => ∃ c f, s.contents e = some c ∧
      c.temporary = some f ∧ s' = s.put e { c with owner := some f, temporary := none }
  | _, .removeTemporary e, s, .ok (), s' =>
    ∃ c, s.contents e = some c ∧ s' = s.put e { c with temporary := none }
  | _, .removeRepository e, s, .ok (), s' => s' = s.drop e
  | _, .removeRepository e, s, .error _, s' => s' = s ∨ s' = s.drop e ∨
      ∃ c c', s.contents e = some c ∧ c.Part c' ∧ s' = s.put e c'
  | _, .createRepositoryRoot e, s, .ok (), s' => s.repository e = none ∧ s' = s.put e {}
  | _, .act, s, _, s' => s.Outside s'
  | _, _, s, _, s' => s' = s

/-! ## When everything works -/

def Stat.reply : Stat → Except IoError Kind
  | .missing => .error .notFound
  | .present kind => .ok kind
  | .unreachable => .error (.other "Not a directory (os error 20)")

def answer {α : Type} : Option α → Except IoError α
  | some a => .ok a
  | none => .error (.other "not there")

/-- A fresh clone in the directory with this canonical path. -/
def Contents.cloned (root : Path) : Contents where
  entry
    | .directory | .objects | .refs => .present .directory
    | .commondir | .index | .alternates => .missing
  toplevel := some root
  reported
    | .gitDir | .commonDir => some (root ++ [".git"])
    | .objects => some (root ++ [".git", "objects"])
    | .refs => some (root ++ [".git", "refs"])
    | .index => some (root ++ [".git", "index"])
  head := some "main"
  others := []

/-- A change of the contents of `e`, where there are any that it suits. -/
def Root.change (s : Root) (e : ExecutionId) (f : Contents → Option Contents) :
    Except IoError Unit × Root :=
  match (s.contents e).bind f with
  | some c => (.ok (), s.put e c)
  | none => (.error (.other "not there"), s)

/-- What a call of process `i` answers and leaves when it works; a held lock is waited for. -/
def Call.exec (W : World) (i : Nat) : {β : Type} → Call β → Root → Option (β × Root)
  | _, .perform _, s => some (.ok (), s)
  | _, .lock path, s =>
    if s.lock path = none then some (.ok (), s.setLock path (some i)) else none
  | _, .unlock path, s =>
    some (.ok (), if s.lock path = some i then s.setLock path none else s)
  | _, .verifyReady receipt, s =>
    some (if W.receipt receipt.labels.executionId = some receipt then .ok ()
      else .error (.identityMismatch "no Ready allocation"), s)
  | _, .revParse _ baseRef, s => some (.ok baseRef, s)
  | _, .readIntent e, s => some (.ok (s.intent e), s)
  | _, .writeIntent e intent replace, s =>
    some (if (s.intent e).isSome = replace then (.ok (), s.setIntent e (some intent))
      else (.error (.other "metadata record already exists"), s))
  | _, .removeIntent e, s => some (.ok (), s.setIntent e none)
  | _, .readJournal e, s => some (.ok (s.journal e), s)
  | _, .createJournal e journal, s =>
    some (if s.journal e = none then (.ok (), s.setJournal e (some journal))
      else (.error (.other "metadata record already exists"), s))
  | _, .removeJournal e, s => some (.ok (), s.setJournal e none)
  | _, .readExecutions, s => some (.ok (s.entries.map .ok), s)
  | _, .inspectRoot e, s => some ((s.root e).reply, s)
  | _, .inspect e entry, s => some ((s.stat e entry).reply, s)
  | _, .isEmpty e, s => some (answer ((s.contents e).map Contents.isEmpty), s)
  | _, .canonicalize e, s => some (.ok (s.canonical e), s)
  | _, .toplevel e, s => some (answer ((s.contents e).bind Contents.toplevel), s)
  | _, .gitPath e query, s => some (answer ((s.contents e).bind (Contents.reported · query)), s)
  | _, .inspectAlternates e, s =>
    some (((s.contents e).elim .missing Contents.alternates).reply, s)
  | _, .currentBranch e, s => some (answer ((s.contents e).bind Contents.head), s)
  | _, .readOwner e, s => some (answer (if s.readable e then s.record e else none), s)
  | _, .cloneRepository e _, s =>
    some (.ok (), s.put e { Contents.cloned (s.canonical e) with
      owner := s.ownerFile e, temporary := s.temporary e })
  | _, .checkout e branch sha, s => some (s.change e fun c => some { c with
      owner := (W.tracked sha).owner.or c.owner
      temporary := (W.tracked sha).temporary.or c.temporary
      entry := Function.update c.entry .index (.present .file)
      head := some branch })
  | _, .createTemporary e, s => some (s.change e fun c =>
      if c.temporary = none then some { c with temporary := some .unparsable } else none)
  | _, .writeTemporary e record, s =>
    some (if s.temporary e = none then (.ok (), s)
      else s.change e fun c => some { c with temporary := some (.record record) })
  | _, .renameTemporary e, s => some (s.change e fun c =>
      c.temporary.map fun f => { c with owner := some f, temporary := none })
  | _, .removeTemporary e, s => some (s.change e fun c => some { c with temporary := none })
  | _, .removeRepository e, s => some (.ok (), s.drop e)
  | _, .createRepositoryRoot e, s =>
    some (if (s.repository e).isNone then (.ok (), s.put e {})
      else (.error (.other "File exists (os error 17)"), s))
  | _, .act, s => some (.ok (), s)

theorem Stat.answers_reply (stat : Stat) : stat.Answers stat.reply := by
  cases stat <;> trivial

theorem Call.does_exec {W : World} {i : Nat} {β : Type} (c : Call β) (s : Root) :
    (c.exec W i s).elim True fun r => c.Does W i s r.1 r.2 := by
  have hchange : ∀ {e f r}, s.change e f = r →
      (∃ c c', s.contents e = some c ∧ f c = some c' ∧ r = (.ok (), s.put e c')) ∨
        r = (.error (.other "not there"), s) := by
    rintro e f _ rfl
    unfold Root.change
    split
    · next c' hc' =>
      obtain ⟨c, hc, hf⟩ := Option.bind_eq_some_iff.1 hc'
      exact .inl ⟨c, c', hc, hf, rfl⟩
    · exact .inr rfl
  cases c with
  | perform o | unlock path | revParse name baseRef | removeIntent e | removeJournal e
  | removeRepository e => exact rfl
  | lock path =>
    simp only [Call.exec]
    split
    · exact ⟨‹_›, rfl⟩
    · trivial
  | verifyReady receipt =>
    simp only [Call.exec, Option.elim]
    split
    · exact ⟨rfl, ‹_›⟩
    · exact rfl
  | readIntent e | readJournal e | canonicalize e => exact ⟨rfl, rfl⟩
  | writeIntent e intent replace | createJournal e journal =>
    simp only [Call.exec, Option.elim]
    split
    · exact ⟨‹_›, rfl⟩
    · exact .inl rfl
  | readExecutions => exact ⟨rfl, fun e he => .inl (List.mem_map_of_mem (s.listed e he))⟩
  | inspectRoot e | inspect e entry | inspectAlternates e => exact ⟨rfl, Stat.answers_reply _⟩
  | isEmpty e =>
    simp only [Call.exec, Option.elim]
    cases hc : s.contents e with
    | none => exact rfl
    | some c => exact ⟨rfl, c, hc, rfl⟩
  | toplevel e | gitPath e query | currentBranch e =>
    simp only [Call.exec, Option.elim]
    cases hc : (s.contents e).bind _ with
    | none => exact rfl
    | some path => exact ⟨rfl, Option.bind_eq_some_iff.1 hc⟩
  | readOwner e =>
    simp only [Call.exec, Option.elim]
    split
    · cases hrecord : s.record e with
      | none => exact ⟨rfl, .inl hrecord⟩
      | some record => exact ⟨rfl, hrecord, ‹_›⟩
    · next hunread => exact ⟨rfl, .inr (by simpa using hunread)⟩
  | cloneRepository e name => exact ⟨_, rfl, rfl, rfl⟩
  | checkout e branch sha =>
    simp only [Call.exec, Option.elim]
    generalize hs : s.change e _ = r
    obtain ⟨c, _, hc, ⟨⟩, rfl⟩ | rfl := hchange hs
    · exact ⟨c, _, hc, rfl, rfl, rfl, rfl⟩
    · exact .inl rfl
  | createTemporary e =>
    simp only [Call.exec, Option.elim]
    generalize hs : s.change e _ = r
    obtain ⟨c, _, hc, hf, rfl⟩ | rfl := hchange hs
    · split at hf
      · obtain rfl := Option.some.inj hf
        exact ⟨c, hc, ‹_›, rfl⟩
      · cases hf
    · exact rfl
  | writeTemporary e record =>
    simp only [Call.exec, Option.elim]
    split
    · exact .inl ⟨‹_›, rfl⟩
    · next hsome =>
      generalize hs : s.change e _ = r
      obtain ⟨c, _, hc, ⟨⟩, rfl⟩ | rfl := hchange hs
      · have htemporary : s.temporary e = c.temporary := by simp [Root.temporary, hc]
        exact .inr ⟨c, hc, Option.isSome_iff_ne_none.2 (htemporary ▸ hsome), rfl⟩
      · exact .inl rfl
  | renameTemporary e =>
    simp only [Call.exec, Option.elim]
    generalize hs : s.change e _ = r
    obtain ⟨c, _, hc, hf, rfl⟩ | rfl := hchange hs
    · obtain ⟨f, htemporary, rfl⟩ := Option.map_eq_some_iff.1 hf
      exact ⟨c, f, hc, htemporary, rfl⟩
    · exact rfl
  | removeTemporary e =>
    simp only [Call.exec, Option.elim]
    generalize hs : s.change e _ = r
    obtain ⟨c, _, hc, ⟨⟩, rfl⟩ | rfl := hchange hs
    · exact ⟨c, hc, rfl⟩
    · exact rfl
  | createRepositoryRoot e =>
    simp only [Call.exec, Option.elim]
    split
    · exact ⟨Option.isNone_iff_eq_none.1 ‹_›, rfl⟩
    · exact rfl
  | act => exact ⟨fun _ => .inl rfl, fun _ => .inl rfl, rfl, rfl, rfl⟩

theorem Call.exec_does {W : World} {i : Nat} {β : Type} (c : Call β) (s : Root) (b : β) (s' : Root)
    (h : c.exec W i s = some (b, s')) : c.Does W i s b s' := by
  have hdoes := c.does_exec (W := W) (i := i) s
  rwa [h] at hdoes

end Orchestrator.GitWorktree
