import Orchestrator.Worktree.Proof.Owners

/-!
# When destroying a worktree completes

`destroy` reads, in the directory it is to remove, whether this is the repository it knows: the git
storage (`Sound`), the owner record and the branch that is checked out. A state in which these checks
pass is `Removable`. From such a state a call of `destroy` that works ends with the directory gone, and
one that fails or is cut off leaves a state that is removable, unless it was cut off inside the
recursive removal. In every other state each call is refused and leaves everything as it is.
-/

namespace Orchestrator.GitWorktree

open Prog

/-! ## What is checked -/

/-- What `verifyGitStoragePreflight` looks at. -/
structure Preflight (t : Root) (e : ExecutionId) : Prop where
  commondir : t.stat e (.git .commondir) = .missing
  repository : t.stat e .repository = .present .directory
  directory : t.stat e (.git .directory) = .present .directory
  objects : t.stat e (.git .objects) = .present .directory
  refs : t.stat e (.git .refs) = .present .directory
  index : t.stat e (.git .index) = .present .file ∨ t.stat e (.git .index) = .missing
  alternates : t.stat e (.git .alternates) = .missing

/-- What `verifyRepositoryStorage` looks at. -/
structure Sound (t : Root) (e : ExecutionId) : Prop where
  preflight : Preflight t e
  toplevel : (t.contents e).bind Contents.toplevel = some (t.canonical e)
  inside : ∀ query, ∃ path, (t.contents e).bind (Contents.reported · query) = some path ∧
    t.canonical e <+: path
  alternates : (t.contents e).elim .missing Contents.alternates = .missing

def OnBranch (w : Worktree) (t : Root) : Prop :=
  (t.contents w.executionId).bind Contents.head = some w.branch

/-- The directory is as `createIn` made it, in what `destroy` looks at. -/
structure Intact (w : Worktree) (t : Root) : Prop where
  sound : Sound t w.executionId
  owner : ∃ r, t.record w.executionId = some r ∧ r.names w = true
  branch : OnBranch w t

/-- The directory is gone, or what `destroy` looks at under a journal is as it was. -/
def Erasable (w : Worktree) (t : Root) : Prop :=
  t.repository w.executionId = none ∨ Sound t w.executionId ∧ OnBranch w t

/-- The checks of `destroy` pass. -/
def Removable (m : Manager) (w : Worktree) (t : Root) : Prop :=
  t.journal w.executionId = none ∧ Intact w t ∨
    ∃ j, t.journal w.executionId = some j ∧ m.verifyJournal w j = .ok () ∧ Erasable w t

section Same
variable {s t : Root} {e : ExecutionId} {w : Worktree}

theorem contents_congr (h : s.repository e = t.repository e) : s.contents e = t.contents e := by
  simp only [Root.contents, h]

theorem stat_congr (h : s.repository e = t.repository e) (entry : Entry) :
    s.stat e entry = t.stat e entry := by
  cases entry with
  | repository | git x => simp only [Root.stat, h]
  | owner => rw [Root.stat, Root.stat, Root.ownerFile, Root.ownerFile, contents_congr h]
  | temporary => rw [Root.stat, Root.stat, Root.temporary, Root.temporary, contents_congr h]

theorem Preflight.congr (h : s.repository e = t.repository e) (hp : Preflight t e) :
    Preflight s e := by
  obtain ⟨h₁, h₂, h₃, h₄, h₅, h₆, h₇⟩ := hp
  simp only [← stat_congr h] at h₁ h₂ h₃ h₄ h₅ h₆ h₇
  exact ⟨h₁, h₂, h₃, h₄, h₅, h₆, h₇⟩

theorem Sound.congr (h : s.repository e = t.repository e) (hc : s.canonical e = t.canonical e)
    (hs : Sound t e) : Sound s e where
  preflight := hs.preflight.congr h
  toplevel := by rw [contents_congr h, hc, hs.toplevel]
  inside := by rw [contents_congr h, hc]; exact hs.inside
  alternates := by rw [contents_congr h, hs.alternates]

theorem OnBranch.congr (h : s.repository w.executionId = t.repository w.executionId)
    (hb : OnBranch w t) : OnBranch w s := by
  rwa [OnBranch, contents_congr h]

theorem Erasable.congr (h : s.repository w.executionId = t.repository w.executionId)
    (hc : s.canonical w.executionId = t.canonical w.executionId) (he : Erasable w t) :
    Erasable w s :=
  he.imp h.trans fun ⟨hs, hb⟩ => ⟨hs.congr h hc, hb.congr h⟩

end Same

/-! ## Attempts -/

/-- Reading the owner files may begin to fail, or cease to. -/
def flickers (s s' : Root) : Prop := ∃ readable, s' = { s with readable }

/-- A recursive removal that fails has removed nothing or everything. -/
def Call.Whole : {β : Type} → Call β → Root → Root → Prop
  | _, .removeRepository e, s, s' => s' = s ∨ s' = s.drop e
  | _, _, _, _ => True

/-- What a call may do, where `whole` says whether removals are cut off in the middle. -/
def Call.DoesWhole (whole : Bool) (W : World) (i : Nat) {β : Type} (c : Call β) (s : Root) (b : β)
    (s' : Root) : Prop :=
  c.Does W i s b s' ∧ (whole = true → c.Whole s s')

/-- One call of `destroy`, to its end or cut off. -/
def Attempt (whole : Bool) (m : Manager) (w : Worktree) (s s' : Root) : Prop :=
  ∃ W i s₁, (Dies (Call.DoesWhole whole W i) flickers (m.destroy w).run s s₁ ∨
    ∃ r, Runs (Call.DoesWhole whole W i) flickers (m.destroy w).run s r s₁) ∧ s' = s₁.release i

/-- Some repetition of `destroy` returns with the directory gone. -/
def Completes (m : Manager) (w : Worktree) (s : Root) : Prop :=
  ∃ s', Relation.ReflTransGen (Attempt false m w) s s' ∧ ∃ W i t,
    Runs (Call.Does W i) flickers (m.destroy w).run s' (.ok ()) t ∧ t.repository w.executionId = none

def Returned (m : Manager) (w : Worktree) : Prop :=
  ∃ (W : World) (i : Nat) (env : Root → Root → Prop) (labels : OwnershipLabels)
    (repo baseRef branch : String) (storage : Receipt) (s s' : Root),
    Runs (Call.Does W i) env (m.createIn labels repo baseRef branch storage).run s (.ok w) s'

/-- The path and the repository of a worktree are those of its execution. -/
structure Exact (m : Manager) (w : Worktree) : Prop where
  path : w.path = m.repositoryPath w.executionId
  repository : ∃ name, normalizedRepositoryName w.repository = .ok name

section Returned
variable {m : Manager} {w : Worktree} {W : World} {i : Nat} {env : Root → Root → Prop}
  {s s' : Root}

theorem runs_unwrap {α ε : Type} {r : Except ε α} {a : α}
    (h : Runs (Call.Does W i) env (unwrap r).run s (.ok a) s') : r = .ok a := by
  cases h with
  | done _ => rfl

theorem runs_createLocked {labels : OwnershipLabels} {repo baseRef branch name locator : String}
    {storage : Receipt} {recovered : Option String}
    (h : Runs (Call.Does W i) env
      (m.createLocked labels repo baseRef branch name locator storage recovered).run s (.ok w) s') :
    w.path = m.repositoryPath w.executionId ∧ w.repository = repo := by
  obtain ⟨owner, s₁, _, h⟩ := runs_bind_ok.1 h
  cases owner with
  | some owner => cases h
  | none =>
    obtain ⟨_, _, _, h⟩ := runs_bind_ok.1 h
    obtain ⟨_, _, _, h⟩ := runs_bind_ok.1 h
    obtain ⟨_, _, _, h⟩ := runs_bind_ok.1 h
    obtain ⟨_, _, _, h⟩ := runs_bind_ok.1 h
    obtain ⟨_, _, _, h⟩ := runs_bind_ok.1 h
    obtain ⟨_, _, _, h⟩ := runs_bind_ok.1 h
    cases h with
    | done _ => exact ⟨rfl, rfl⟩

theorem runs_ensureMirror {repo name : String}
    (h : Runs (Call.Does W i) env (m.ensureMirror repo).run s (.ok name) s') :
    normalizedRepositoryName repo = .ok name := by
  obtain ⟨_, _, _, h⟩ := runs_bind_ok.1 h
  obtain ⟨_, _, _, h⟩ := runs_bind_ok.1 h
  obtain ⟨name', _, hname, h⟩ := runs_bind_ok.1 h
  obtain ⟨_, _, _, h⟩ := runs_bind_ok.1 h
  cases h with
  | done _ => exact runs_unwrap hname

theorem Returned.exact (h : Returned m w) : Exact m w := by
  obtain ⟨W, i, env, labels, repo, baseRef, branch, storage, s, s', h⟩ := h
  obtain ⟨_, _, _, h⟩ := runs_bind_ok.1 h
  obtain ⟨_, _, _, h⟩ := runs_bind_ok.1 h
  obtain ⟨_, _, _, h⟩ := runs_bind_ok.1 h
  obtain ⟨name, _, hname, h⟩ := runs_bind_ok.1 h
  obtain ⟨_, _, _, h⟩ := runs_bind_ok.1 h
  obtain ⟨_, _, _, h⟩ := runs_bind_ok.1 h
  obtain ⟨_, _, _, h⟩ := runs_bind_ok.1 h
  obtain ⟨_, _, _, h⟩ := runs_bind_ok.1 h
  obtain ⟨_, _, _, h⟩ := runs_bind_ok.1 h
  obtain ⟨hpath, hrepo⟩ := runs_createLocked h
  exact ⟨hpath, name, hrepo ▸ runs_ensureMirror hname⟩

end Returned

/-! ## A call that works -/

section Plays
variable {m : Manager} {w : Worktree} {W : World} {i : Nat} {s : Root} {e : ExecutionId}

variable {entry : Entry} {j : CleanupJournal} {c : Call (Except IoError Kind)} {s s' : Root}
  {i : Nat} {W : World}

theorem plays_requireAbsent {found : WorktreeError} (h : s.stat e entry = .missing) :
    Plays (Call.exec W i) (Manager.requireAbsent found (.inspect e entry)) s (.ok ()) s := by
  have hexec : (Call.inspect e entry).exec W i s = some (.error .notFound, s) := by
    simp [Call.exec, h, Stat.reply]
  exact Plays.bind (Plays.observe (Plays.attempt hexec)) (Plays.pure ())

theorem plays_requireDirectory {purpose : String} (h : s.stat e entry = .present .directory) :
    Plays (Call.exec W i) (m.requireDirectory e purpose entry) s (.ok ()) s := by
  have hexec : (Call.inspect e entry).exec W i s = some (.ok .directory, s) := by
    simp [Call.exec, h, Stat.reply]
  exact Plays.bind (Plays.attemptAs hexec) (Plays.refuse (by simp))

theorem plays_requireIndex
    (h : s.stat e (.git .index) = .present .file ∨ s.stat e (.git .index) = .missing) :
    Plays (Call.exec W i) (m.requireIndex e) s (.ok ()) s := by
  rcases h with h | h
  · have hexec : (Call.inspect e (.git .index)).exec W i s = some (.ok .file, s) := by
      simp [Call.exec, h, Stat.reply]
    exact Plays.bind (Plays.observe (Plays.attempt hexec)) (Plays.pure ())
  · have hexec : (Call.inspect e (.git .index)).exec W i s = some (.error .notFound, s) := by
      simp [Call.exec, h, Stat.reply]
    exact Plays.bind (Plays.observe (Plays.attempt hexec)) (Plays.pure ())

theorem plays_preflight (h : Preflight s e) :
    Plays (Call.exec W i) (m.verifyGitStoragePreflight e) s (.ok ()) s :=
  Plays.bind (plays_requireAbsent h.commondir) <|
    Plays.bind (plays_requireDirectory h.repository) <|
    Plays.bind (plays_requireDirectory h.directory) <|
    Plays.bind (plays_requireDirectory h.objects) <|
    Plays.bind (plays_requireDirectory h.refs) <|
    Plays.bind (plays_requireIndex h.index) (plays_requireAbsent h.alternates)

theorem plays_verifyRepositoryStorage (h : Sound s e) :
    Plays (Call.exec W i) (m.verifyRepositoryStorage e) s (.ok ()) s := by
  have htop : (Call.toplevel e).exec W i s = some (.ok (s.canonical e), s) := by
    simp [Call.exec, h.toplevel, answer]
  have halternates : (Call.inspectAlternates e).exec W i s = some (.error .notFound, s) := by
    simp [Call.exec, h.alternates, Stat.reply]
  refine Plays.bind (plays_preflight h.preflight) ?_
  refine Plays.bind (Plays.attemptAs rfl) ?_
  refine Plays.bind (Plays.attemptAs htop) ?_
  refine Plays.bind (Plays.refuse (by simp)) ?_
  refine Plays.bind (Plays.forEach fun query _ => ?_) ?_
  · obtain ⟨path, hreported, hinside⟩ := h.inside query
    have hpath : (Call.gitPath e query).exec W i s = some (.ok path, s) := by
      simp [Call.exec, hreported, answer]
    refine Plays.bind (plays_preflight h.preflight) ?_
    exact Plays.bind (Plays.attemptAs hpath) (Plays.refuse (not_not.2 hinside))
  refine Plays.bind (plays_preflight h.preflight) ?_
  exact Plays.bind (Plays.observe (Plays.attempt halternates)) (Plays.pure ())

theorem plays_requireBranch (h : Preflight s w.executionId) (hbranch : OnBranch w s) :
    Plays (Call.exec W i) (m.requireBranch w.executionId w.branch) s (.ok ()) s := by
  have hcurrent : (Call.currentBranch w.executionId).exec W i s = some (.ok w.branch, s) := by
    unfold OnBranch at hbranch
    simp [Call.exec, hbranch, answer]
  exact Plays.bind (Plays.bind (plays_preflight h) (Plays.attemptAs hcurrent))
    (Plays.refuse (by simp))

theorem OwnerRecord.names_branch {r : OwnerRecord} (h : r.names w = true) : r.branch = w.branch := by
  simp only [OwnerRecord.names, Bool.and_eq_true, decide_eq_true_eq] at h
  exact h.1.2

theorem OwnerRecord.names_repository {r : OwnerRecord} (h : r.names w = true) :
    Manager.recordedRepository r = some w.repository := by
  simp only [OwnerRecord.names, Bool.and_eq_true, decide_eq_true_eq] at h
  exact h.2

theorem plays_newJournal (hw : Exact m w) (h : Intact w s)
    (hreadable : s.readable w.executionId = true) :
    ∃ j : CleanupJournal, j.owner.names w = true ∧ j.worktreePath = w.path ∧
      Plays (Call.exec W i) (m.newJournal w) s (.ok j) s := by
  obtain ⟨r, hrecord, hnames⟩ := h.owner
  have hinspect : (Call.inspect w.executionId .repository).exec W i s =
      some (.ok .directory, s) := by
    simp [Call.exec, h.sound.preflight.repository, Stat.reply]
  have hread : (Call.readOwner w.executionId).exec W i s = some (.ok r, s) := by
    simp [Call.exec, hreadable, hrecord, answer]
  refine ⟨⟨r, w.path⟩, hnames, rfl, ?_⟩
  refine Plays.bind (Plays.bind (Plays.observe (Plays.attempt hinspect))
    (Plays.refuse (by simp [hw.path]))) ?_
  refine Plays.bind (plays_verifyRepositoryStorage h.sound) ?_
  refine Plays.bind (Plays.bind (Plays.attemptAs hread)
    (Plays.bind (Plays.refuse (by simp [hnames])) (Plays.pure r))) ?_
  have hbranch := plays_requireBranch (m := m) (W := W) (i := i) h.sound.preflight h.branch
  rw [← OwnerRecord.names_branch hnames] at hbranch
  exact Plays.bind hbranch (Plays.pure _)

theorem plays_removeRepositoryIfPresent (h : Erasable w s) :
    ∃ t, Plays (Call.exec W i) (m.removeRepositoryIfPresent w.executionId w.branch) s (.ok ()) t ∧
      t.repository w.executionId = none := by
  rcases h with habsent | ⟨hsound, hbranch⟩
  · have hinspect : (Call.inspect w.executionId .repository).exec W i s =
        some (.error .notFound, s) := by
      simp [Call.exec, Root.stat, habsent, Stat.reply]
    exact ⟨s, Plays.bind (Plays.observe (Plays.attempt hinspect)) (Plays.pure ()), habsent⟩
  · have hinspect : (Call.inspect w.executionId .repository).exec W i s =
        some (.ok .directory, s) := by
      simp [Call.exec, hsound.preflight.repository, Stat.reply]
    refine ⟨s.drop w.executionId, Plays.bind (Plays.observe (Plays.attempt hinspect)) ?_,
      by simp [Root.drop]⟩
    refine Plays.bind (plays_verifyRepositoryStorage hsound) ?_
    exact Plays.bind (plays_requireBranch hsound.preflight hbranch) (Plays.attemptAs rfl)

theorem verifyJournal_ok : m.verifyJournal w j = .ok () ↔
    j.worktreePath = w.path ∧ j.worktreePath = m.repositoryPath w.executionId ∧
      j.owner.names w = true :=
  Txn.ensure_eq_ok

theorem plays_underJournal (hw : Exact m w) (hj : j.owner.names w = true)
    (needsWrite : Bool) (hfree : ∀ path, s.lock path = none)
    (hwrite : needsWrite = true → s.journal w.executionId = none)
    (h : Erasable w s) :
    ∃ t, Plays (Call.exec W i) (do
        let repository ← demand (Manager.recordedRepository j.owner)
          (.ownership "owner record missing autospec.repository")
        let name ← unwrap (normalizedRepositoryName repository)
        attemptAs (reason .cleanup) (.lock (branchLock m.cacheRoot name w.branch))
        provided needsWrite (Manager.writeCleanupJournal w.executionId j)
        m.removeRepositoryIfPresent w.executionId j.owner.branch) s (.ok ()) t ∧
      t.repository w.executionId = none := by
  obtain ⟨name, hname⟩ := hw.repository
  have hlock : (Call.lock (branchLock m.cacheRoot name w.branch)).exec W i s =
      some (.ok (), s.setLock (branchLock m.cacheRoot name w.branch) (some i)) := by
    simp [Call.exec, hfree]
  rw [OwnerRecord.names_repository hj, OwnerRecord.names_branch hj]
  cases needsWrite with
  | false =>
    obtain ⟨t, hplays, habsent⟩ := plays_removeRepositoryIfPresent (m := m) (W := W) (i := i)
      (s := s.setLock (branchLock m.cacheRoot name w.branch) (some i)) (h.congr (t := s) rfl rfl)
    refine ⟨t, ?_, habsent⟩
    refine Plays.bind (Plays.pure w.repository) ?_
    refine Plays.bind (a := name) (congrArg (fun r => (some r, s)) hname) ?_
    exact Plays.bind (Plays.attemptAs hlock) (Plays.bind (Plays.not_provided (by decide)) hplays)
  | true =>
    obtain ⟨t, hplays, habsent⟩ := plays_removeRepositoryIfPresent (m := m) (W := W) (i := i)
      (s := (s.setLock (branchLock m.cacheRoot name w.branch) (some i)).setJournal
        w.executionId (some j)) (h.congr (t := s) rfl rfl)
    refine ⟨t, ?_, habsent⟩
    refine Plays.bind (Plays.pure w.repository) ?_
    refine Plays.bind (a := name) (congrArg (fun r => (some r, s)) hname) ?_
    have hcreate : (Call.createJournal w.executionId j).exec W i
        (s.setLock (branchLock m.cacheRoot name w.branch) (some i)) = some (.ok (),
          (s.setLock (branchLock m.cacheRoot name w.branch) (some i)).setJournal w.executionId
            (some j)) := by
      simp [Call.exec, Root.setLock, hwrite rfl]
    refine Plays.bind (Plays.attemptAs hlock) ?_
    exact Plays.bind (Plays.provided rfl (Plays.attemptAs hcreate)) hplays

theorem plays_destroy (hw : Exact m w) (h : Removable m w s) (hfree : ∀ path, s.lock path = none)
    (hreadable : s.readable w.executionId = true) :
    ∃ t, Plays (Call.exec W i) (m.destroy w) s (.ok ()) t ∧ t.repository w.executionId = none := by
  rcases h with ⟨hnone, hintact⟩ | ⟨j, hj, hverified, hrest⟩
  · obtain ⟨j, hnames, _, hnew⟩ := plays_newJournal (W := W) (i := i) hw hintact hreadable
    obtain ⟨t, hplays, habsent⟩ := plays_underJournal (W := W) (i := i) hw hnames
      true hfree (fun _ => hnone) (.inr ⟨hintact.sound, hintact.branch⟩)
    refine ⟨t, Plays.bind (Plays.attemptAs rfl) ?_, habsent⟩
    rw [hnone]
    exact Plays.bind (Plays.bind hnew (Plays.pure (j, true))) hplays
  · obtain ⟨t, hplays, habsent⟩ := plays_underJournal (W := W) (i := i) hw
      (verifyJournal_ok.1 hverified).2.2 false hfree nofun hrest
    refine ⟨t, Plays.bind (Plays.attemptAs rfl) ?_, habsent⟩
    rw [hj]
    exact Plays.bind (Plays.bind (a := ()) (congrArg (fun r => (some r, s)) hverified)
      (Plays.pure (j, false))) hplays

end Plays

/-! ## Calls that may fail -/

/-- A state with the directory and the journal of `t`, where only process `i` holds locks. -/
structure Agrees (i : Nat) (e : ExecutionId) (t s : Root) : Prop where
  repository : s.repository e = t.repository e
  journal : s.journal e = t.journal e
  canonical : s.canonical e = t.canonical e
  lock : ∀ path, s.lock path = none ∨ s.lock path = some i

/-- Process `i` calls `destroy`. -/
def attempting (whole : Bool) (W : World) (i : Nat) (safe : Root → Prop) : Setting Call Root where
  sem := Call.DoesWhole whole W i
  env := flickers
  safe := safe

section Attempts
variable {whole : Bool} {W : World} {i : Nat} {safe : Root → Prop} {e : ExecutionId}
  {t s s' : Root} {hsafe : ∀ s, Agrees i e t s → safe s} {β ε ε' : Type} {m : Manager}
  {w : Worktree}

/-- Nothing has changed since `t`. -/
def seeing (whole : Bool) (W : World) (t : Root) (hsafe : ∀ s, Agrees i e t s → safe s) :
    Assertion (attempting whole W i safe) where
  holds s := Agrees i e t s
  stable := by
    rintro s s' ⟨readable, rfl⟩ ⟨hrepository, hjournal, hcanonical, hlock⟩
    exact ⟨hrepository, hjournal, hcanonical, hlock⟩
  within := hsafe _

theorem triple_look {c : Call β} {R : β → Prop}
    (h : ∀ {s b s'}, Agrees i e t s → c.Does W i s b s' → s' = s ∧ R b) :
    Triple (seeing whole W t hsafe) (ask c) fun b => (seeing whole W t hsafe).and (R b) :=
  .ask fun s b s' hs hsem => by
    obtain ⟨rfl, hR⟩ := h hs hsem.1
    exact ⟨hs, hR⟩

theorem triple_lookAs {f : ε → ε'} {c : Call (Except ε β)} {R : β → Prop}
    (h : ∀ {s b s'}, Agrees i e t s → c.Does W i s b s' → s' = s ∧ ∀ a, b = .ok a → R a) :
    (seeing whole W t hsafe).Learns (attemptAs f c) R :=
  Triple.bind (triple_look h) fun b => match b with
    | .ok a => fun _ hs => ⟨hs.1, hs.2 a rfl⟩
    | .error _ => fun _ hs => hs.1

theorem triple_inspect {stat : Stat} {E : Assertion (attempting whole W i safe)}
    (h : ∀ {s b s'}, Agrees i e t s → c.Does W i s b s' → s' = s ∧ stat.Answers b) :
    TripleE (seeing whole W t hsafe) (observe (attempt c) : ExceptT ε' (Prog Call) _)
      (fun r => (seeing whole W t hsafe).and (stat.Answers r)) E :=
  Triple.bind (triple_look h) fun _ => fun _ hs => hs

theorem looks_inspect {b : Except IoError Kind}
    (hs : Agrees i e t s) (h : (Call.inspect e entry).Does W i s b s') :
    s' = s ∧ (t.stat e entry).Answers b :=
  ⟨h.1, stat_congr hs.repository entry ▸ h.2⟩

theorem triple_requireAbsent {found : WorktreeError} (stat : Stat)
    (h : ∀ {s b s'}, Agrees i e t s → c.Does W i s b s' → s' = s ∧ stat.Answers b) :
    (seeing whole W t hsafe).Learns (Manager.requireAbsent found c) fun _ => stat = .missing := by
  refine .bind (triple_inspect h) fun r => ?_
  match r with
  | .error .notFound => exact .pure fun _ hs => hs
  | .error .full | .error (.other _) | .ok _ => exact .throw fun _ hs => hs.1

theorem triple_requireDirectory {purpose : String} :
    (seeing whole W t hsafe).Learns (m.requireDirectory e purpose entry)
      fun _ => t.stat e entry = .present .directory := by
  refine .learn (triple_lookAs (R := fun kind => t.stat e entry = .present kind)
    fun hs hdoes => ?_) fun kind hkind => ?_
  · obtain ⟨hsame, hanswers⟩ := looks_inspect hs hdoes
    refine ⟨hsame, fun a ha => ?_⟩
    subst ha
    exact hanswers
  · refine .guard (fun s hs hdirectory => ⟨hs, ?_⟩) fun s hs _ => hs
    rw [hkind, not_not.1 hdirectory]

theorem triple_requireIndex : (seeing whole W t hsafe).Learns (m.requireIndex e)
      fun _ => t.stat e (.git .index) = .present .file ∨ t.stat e (.git .index) = .missing := by
  refine .bind (triple_inspect looks_inspect) fun r => ?_
  match r with
  | .error .notFound => exact .pure fun _ hs => ⟨hs.1, .inr hs.2⟩
  | .error .full | .error (.other _) | .ok .directory | .ok .other => exact .throw fun _ hs => hs.1
  | .ok .file => exact .pure fun _ hs => ⟨hs.1, .inl hs.2⟩

theorem triple_preflight : (seeing whole W t hsafe).Learns (m.verifyGitStoragePreflight e)
      fun _ => Preflight t e := by
  refine .learn (triple_requireAbsent _ looks_inspect) fun _ hcommondir => ?_
  refine .learn triple_requireDirectory fun _ hrepository => ?_
  refine .learn triple_requireDirectory fun _ hdirectory => ?_
  refine .learn triple_requireDirectory fun _ hobjects => ?_
  refine .learn triple_requireDirectory fun _ hrefs => ?_
  refine .learn triple_requireIndex fun _ hindex => ?_
  exact (triple_requireAbsent _ looks_inspect).post fun _ _ hs =>
    ⟨hs.1, ⟨hcommondir, hrepository, hdirectory, hobjects, hrefs, hindex, hs.2⟩⟩

theorem triple_forEach {γ : Type} {f : γ → ExceptT ε (Prog Call) Unit} {R : γ → Prop} {l : List γ}
    (h : ∀ a, (seeing whole W t hsafe).Learns (f a) fun _ => R a) :
    (seeing whole W t hsafe).Learns (forEach l f) fun _ => ∀ a ∈ l, R a := by
  induction l with
  | nil => exact fun _ hs => ⟨hs, nofun⟩
  | cons a l ih =>
    refine .learn (h a) fun _ ha => ?_
    exact ih.post fun _ _ hs => ⟨hs.1, List.forall_mem_cons.2 ⟨ha, hs.2⟩⟩

theorem triple_requireInside {query : GitQuery} :
    (seeing whole W t hsafe).Learns (m.requireInside e (t.canonical e) query)
      fun _ => ∃ path, (t.contents e).bind (Contents.reported · query) = some path ∧
        t.canonical e <+: path := by
  refine .learn triple_preflight fun _ _ => ?_
  refine .learn (triple_lookAs (R := fun path =>
    (t.contents e).bind (Contents.reported · query) = some path) fun {s b s'} hs hdoes => ?_)
    fun path hpath => ?_
  · cases b with
    | error _ => exact ⟨hdoes, nofun⟩
    | ok path =>
      obtain ⟨hsame, hreported⟩ := hdoes
      refine ⟨hsame, fun a ha => ?_⟩
      obtain rfl := Except.ok.inj ha
      rw [← contents_congr hs.repository]
      exact Option.bind_eq_some_iff.2 hreported
  · exact .guard (fun s hs hinside => ⟨hs, path, hpath, not_not.1 hinside⟩) fun s hs _ => hs

theorem triple_verifyRepositoryStorage :
    (seeing whole W t hsafe).Learns (m.verifyRepositoryStorage e) fun _ => Sound t e := by
  refine .learn triple_preflight fun _ hpreflight => ?_
  refine .learn (triple_lookAs (R := fun root => root = t.canonical e)
    fun {s b s'} hs hdoes => ?_) fun root hroot => ?_
  · cases b with
    | error _ => exact ⟨hdoes, nofun⟩
    | ok root => exact ⟨hdoes.1, fun a ha => Except.ok.inj ha ▸ hdoes.2.trans hs.canonical⟩
  subst hroot
  refine .learn (triple_lookAs (R := fun top =>
    (t.contents e).bind Contents.toplevel = some top) fun {s b s'} hs hdoes => ?_)
    fun top htop => ?_
  · cases b with
    | error _ => exact ⟨hdoes, nofun⟩
    | ok top =>
      refine ⟨hdoes.1, fun a ha => ?_⟩
      obtain rfl := Except.ok.inj ha
      rw [← contents_congr hs.repository]
      exact Option.bind_eq_some_iff.2 hdoes.2
  refine .learn (.refuse fun _ hs _ => hs) fun _ hsame => ?_
  refine .learn (triple_forEach fun query => triple_requireInside) fun _ hinside => ?_
  refine .learn triple_preflight fun _ _ => ?_
  refine (triple_requireAbsent ((t.contents e).elim .missing Contents.alternates)
    fun hs hdoes => ?_).post fun _ _ hs => ⟨hs.1, ?_⟩
  · obtain ⟨hsame, hanswers⟩ := hdoes
    rw [contents_congr hs.repository] at hanswers
    exact ⟨hsame, hanswers⟩
  · have htoplevel : top = t.canonical e := not_not.1 hsame
    refine ⟨hpreflight, htoplevel ▸ htop, fun query => hinside query ?_, hs.2⟩
    cases query <;> simp

theorem triple_requireBranch {branch : String} :
    (seeing whole W t hsafe).Learns (m.requireBranch e branch)
      fun _ => (t.contents e).bind Contents.head = some branch := by
  refine .bind (.bind triple_preflight fun _ => .of_and fun _ =>
    triple_lookAs (R := fun current => (t.contents e).bind Contents.head = some current)
      fun {s b s'} hs hdoes => ?_) fun current => .of_and fun hcurrent => ?_
  · cases b with
    | error _ => exact ⟨hdoes, nofun⟩
    | ok current =>
      refine ⟨hdoes.1, fun a ha => ?_⟩
      obtain rfl := Except.ok.inj ha
      rw [← contents_congr hs.repository]
      exact Option.bind_eq_some_iff.2 hdoes.2
  · refine .guard (fun s hs hsame => ⟨hs, ?_⟩) fun s hs _ => hs
    rw [hcurrent, not_not.1 hsame]

theorem triple_lock {f : IoError → ε'} {path : String} :
    (seeing whole W t hsafe).KeptBy (attemptAs f (.lock path)) := by
  refine .attemptAs (fun s _ s' hs hsem => ?_) fun s _ s' hs hsem => ?_
  · obtain ⟨_, hlocked⟩ := hsem.1
    subst hlocked
    refine ⟨hs.repository, hs.journal, hs.canonical, fun path' => ?_⟩
    by_cases hpath : path' = path
    · exact .inr (by simp [Root.setLock, hpath])
    · simpa [Root.setLock, hpath] using hs.lock path'
  · have hsame : s' = s := hsem.1
    exact hsame ▸ hs

end Attempts

/-! ## Refused calls -/

section Refused
variable {whole : Bool} {W : World} {i : Nat} {safe : Root → Prop} {m : Manager} {w : Worktree}
  {t : Root} {hsafe : ∀ s, Agrees i w.executionId t s → safe s}

theorem record_congr {s t : Root} {e : ExecutionId} (h : s.repository e = t.repository e) :
    s.record e = t.record e := by
  rw [Root.record, Root.record, Root.ownerFile, Root.ownerFile, contents_congr h]

theorem triple_verifiedOwner : (seeing whole W t hsafe).Learns (Manager.verifiedOwner w)
      fun r => t.record w.executionId = some r ∧ r.names w = true := by
  refine .learn (triple_lookAs (R := fun r => t.record w.executionId = some r)
    fun {s b s'} hs hdoes => ?_) fun r hr => ?_
  · cases b with
    | error _ => exact ⟨hdoes.1, nofun⟩
    | ok r =>
      refine ⟨hdoes.1, fun a ha => ?_⟩
      obtain rfl := Except.ok.inj ha
      rw [← record_congr hs.repository]
      exact hdoes.2.1
  · refine .learn (.refuse fun _ hs _ => hs) fun _ hnames => ?_
    exact .pure fun _ hs => ⟨hs, hr, by simpa using hnames⟩

theorem triple_verifyPath : (seeing whole W t hsafe).Learns (m.verifyPath w)
      fun _ => w.path = m.repositoryPath w.executionId := by
  refine .learn (triple_inspect looks_inspect) fun r _ => ?_
  exact .guard (fun s hs hpath => ⟨hs, (not_not.1 hpath).1⟩) fun s hs _ => hs

theorem triple_newJournal : (seeing whole W t hsafe).Learns (m.newJournal w)
      fun j => Intact w t ∧ m.verifyJournal w j = .ok () := by
  refine .learn triple_verifyPath fun _ hpath => ?_
  refine .learn triple_verifyRepositoryStorage fun _ hsound => ?_
  refine .learn triple_verifiedOwner fun r ⟨hr, hnames⟩ => ?_
  refine .learn triple_requireBranch fun _ hbranch => ?_
  refine .pure fun _ hs => ⟨hs, ⟨hsound, ⟨r, hr, hnames⟩, ?_⟩, ?_⟩
  · rw [OwnerRecord.names_branch hnames] at hbranch
    exact hbranch
  · exact verifyJournal_ok.2 ⟨rfl, hpath, hnames⟩

theorem triple_readCleanupJournal :
    (seeing whole W t hsafe).Learns (Manager.readCleanupJournal w.executionId)
      fun existing => t.journal w.executionId = existing :=
  triple_lookAs fun {s b s'} hs hdoes => by
    cases b with
    | error _ => exact ⟨hdoes, nofun⟩
    | ok existing =>
      refine ⟨hdoes.1, fun a ha => ?_⟩
      obtain rfl := Except.ok.inj ha
      exact hs.journal.symm.trans hdoes.2

/-- The journal that `destroy` goes by: the one that is there, or one that is to be written. -/
def Found (m : Manager) (w : Worktree) (t : Root) (found : CleanupJournal × Bool) : Prop :=
  m.verifyJournal w found.1 = .ok () ∧
    (found.2 = true ∧ t.journal w.executionId = none ∧ Intact w t ∨
      found.2 = false ∧ t.journal w.executionId = some found.1)

theorem triple_journalFor {existing : Option CleanupJournal}
    (hexisting : t.journal w.executionId = existing) :
    (seeing whole W t hsafe).Learns (m.journalFor w existing) (Found m w t) := by
  cases existing with
  | none =>
    refine .learn triple_newJournal fun j ⟨hintact, hj⟩ => ?_
    exact .pure fun _ hs => ⟨hs, hj, .inl ⟨rfl, hexisting, hintact⟩⟩
  | some j =>
    refine .bind (.unwrap (Q := fun _ => (seeing whole W t hsafe).and
      (m.verifyJournal w j = .ok ())) (fun _ _ hs hj => ⟨hs, hj⟩) fun _ hs => hs) fun _ =>
        .of_and fun hj => ?_
    exact .pure fun _ hs => ⟨hs, hj, .inr ⟨rfl, hexisting⟩⟩

theorem triple_removeRepositoryIfPresent {branch : String} (hbranch : branch = w.branch)
    {Q E : Assertion (attempting whole W i safe)} (herr : ∀ s, seeing whole W t hsafe s → E s)
    (habsent : t.repository w.executionId = none → ∀ s, seeing whole W t hsafe s → Q s)
    (hremove : Sound t w.executionId → OnBranch w t → TripleE (seeing whole W t hsafe)
      (attemptAs (reason .cleanup) (.removeRepository w.executionId)) (fun _ => Q) E) :
    TripleE (seeing whole W t hsafe) (m.removeRepositoryIfPresent w.executionId branch)
      (fun _ => Q) E := by
  subst hbranch
  refine .bind (triple_inspect looks_inspect) fun r => ?_
  rcases r with (_ | _ | _) | (_ | _ | _)
  case error.notFound =>
    refine .pure fun s hs => habsent ?_ s hs.1
    have hmissing : t.stat w.executionId .repository = .missing := hs.2
    simp only [Root.stat] at hmissing
    split at hmissing
    · cases hmissing
    · cases hmissing
    · assumption
  case ok.directory =>
    refine .of_and fun _ => .seq triple_verifyRepositoryStorage herr fun _ =>
      .of_and fun hsound => ?_
    refine .seq triple_requireBranch herr fun _ => .of_and fun hhead => ?_
    exact hremove hsound hhead
  all_goals exact .throw fun s hs => herr s hs.1

theorem triple_refused (whole : Bool) (W : World) (hsafe : ∀ s, Agrees i w.executionId t s → safe s)
    (hnot : ¬Removable m w t) :
    (seeing whole W t hsafe).Learns (m.destroy w) fun _ => False := by
  refine .learn triple_readCleanupJournal fun existing hexisting => ?_
  refine .learn (triple_journalFor hexisting) fun (j, needsWrite) ⟨hj, hfound⟩ => ?_
  rcases hfound with ⟨_, hnone, hintact⟩ | ⟨hwrite, hsome⟩
  · exact absurd (.inl ⟨hnone, hintact⟩) hnot
  have hwrite' : needsWrite = false := hwrite
  subst hwrite'
  refine .learn (.demand fun _ hs => hs) fun repository _ => ?_
  refine .bind (Q := fun _ => seeing whole W t hsafe)
    (.unwrap (fun _ _ hs _ => hs) fun _ hs => hs) fun name => ?_
  refine .bind triple_lock fun _ => ?_
  refine .bind (Q := fun _ => seeing whole W t hsafe)
    (.provided (fun h => absurd h (by decide)) fun _ _ hs => hs) fun _ => ?_
  have hbranch : j.owner.branch = w.branch :=
    OwnerRecord.names_branch (verifyJournal_ok.1 hj).2.2
  exact triple_removeRepositoryIfPresent hbranch (fun _ hs => hs)
    (fun habsent => absurd (.inr ⟨j, hsome, hj, .inl habsent⟩) hnot)
    fun hsound hhead => absurd (.inr ⟨j, hsome, hj, .inr ⟨hsound, hhead⟩⟩) hnot

end Refused

/-! ## Calls that are cut off -/

section Kept
variable {W : World} {i : Nat} {m : Manager} {w : Worktree} {t s : Root}

/-- A removable state, where only process `i` holds locks. -/
structure Kept (m : Manager) (w : Worktree) (i : Nat) (s : Root) : Prop where
  removable : Removable m w s
  lock : ∀ path, s.lock path = none ∨ s.lock path = some i

theorem kept_of_agrees (ht : Removable m w t) (s : Root) (hs : Agrees i w.executionId t s) :
    Kept m w i s := by
  refine ⟨?_, hs.lock⟩
  rcases ht with ⟨hnone, hintact⟩ | ⟨j, hj, hverified, herasable⟩
  · refine .inl ⟨hs.journal.trans hnone, hintact.sound.congr hs.repository hs.canonical, ?_,
      hintact.branch.congr hs.repository⟩
    rw [record_congr hs.repository]
    exact hintact.owner
  · exact .inr ⟨j, hs.journal.trans hj, hverified, herasable.congr hs.repository hs.canonical⟩

def kept (W : World) (i : Nat) (m : Manager) (w : Worktree) :
    Assertion (attempting true W i (Kept m w i)) where
  holds := Kept m w i
  stable := by
    rintro s s' ⟨readable, rfl⟩ ⟨hremovable, hlock⟩
    exact kept_of_agrees hremovable _ ⟨rfl, rfl, rfl, hlock⟩
  within hs := hs

/-- Under a journal, what is left can be removed by the next call. -/
theorem triple_removal (hj : t.journal w.executionId = some j)
    (hverified : m.verifyJournal w j = .ok ()) (ht : Removable m w t) :
    TripleE (seeing true W t (kept_of_agrees ht))
      (m.removeRepositoryIfPresent w.executionId j.owner.branch)
      (fun _ => kept W i m w) (kept W i m w) := by
  refine triple_removeRepositoryIfPresent
    (OwnerRecord.names_branch (verifyJournal_ok.1 hverified).2.2) (kept_of_agrees ht)
    (fun _ => kept_of_agrees ht) fun _ _ => ?_
  have hdropped : ∀ {s}, Agrees i w.executionId t s → Kept m w i (s.drop w.executionId) :=
    fun hs => ⟨.inr ⟨j, hs.journal.trans hj, hverified, .inl (by simp [Root.drop])⟩, hs.lock⟩
  refine .attemptAs (fun s _ s' hs hsem => ?_) fun s _ s' hs hsem => ?_
  · have hsame : s' = s.drop w.executionId := hsem.1
    exact hsame ▸ hdropped hs
  · rcases hsem.2 rfl with hsame | hgone
    · exact hsame ▸ kept_of_agrees ht s hs
    · exact hgone ▸ hdropped hs

/-- A call in a removable state leaves one, wherever it is cut off outside the removal. -/
theorem triple_kept (ht : Removable m w t) :
    TripleE (seeing true W t (kept_of_agrees ht)) (m.destroy w) (fun _ => kept W i m w)
      (kept W i m w) := by
  have hkept : ∀ s, seeing true W t (kept_of_agrees (i := i) ht) s → kept W i m w s :=
    kept_of_agrees ht
  refine .seq triple_readCleanupJournal hkept fun existing =>
    .of_and fun hexisting => ?_
  refine .seq (triple_journalFor hexisting) hkept fun (j, needsWrite) =>
    .of_and fun hjournal => ?_
  obtain ⟨hj, hfound⟩ := hjournal
  refine .learn (.demand hkept) fun repository _ => ?_
  refine .bind (Q := fun _ => seeing true W t (kept_of_agrees ht))
    (.unwrap (fun _ _ hs _ => hs) hkept) fun name => ?_
  refine .seq triple_lock hkept fun _ => ?_
  rcases hfound with ⟨hwrite, hnone, hintact⟩ | ⟨hwrite, hsome⟩
  · -- the journal is written, and from then on it is gone by
    have ht' : Removable m w (t.setJournal w.executionId (some j)) :=
      .inr ⟨j, by simp [Root.setJournal], hj,
        Erasable.congr (t := t) rfl rfl (.inr ⟨hintact.sound, hintact.branch⟩)⟩
    have hwritten : ∀ {s}, Agrees i w.executionId t s → Agrees i w.executionId
        (t.setJournal w.executionId (some j)) (s.setJournal w.executionId (some j)) :=
      fun hs => ⟨hs.repository, by simp [Root.setJournal], hs.canonical, hs.lock⟩
    refine .bind (Q := fun _ => seeing true W _ (kept_of_agrees ht')) ?_ fun _ =>
      triple_removal (by simp [Root.setJournal]) hj ht'
    refine .provided (fun _ => ?_) fun h => absurd hwrite h
    refine .attemptAs (fun s _ s' hs hsem => ?_) fun s _ s' hs hsem => ?_
    · have hsame := hsem.1.2
      exact hsame ▸ hwritten hs
    · rcases hsem.1 with hsame | ⟨_, hsame⟩
      · exact hsame ▸ kept_of_agrees ht s hs
      · exact hsame ▸ kept_of_agrees ht' _ (hwritten hs)
  · have hwrite' : needsWrite = false := hwrite
    subst hwrite'
    refine .bind (Q := fun _ => seeing true W t (kept_of_agrees ht))
      (.provided (fun h => absurd h (by decide)) fun _ _ hs => hs) fun _ => ?_
    exact triple_removal hsome hj ht

end Kept

/-! ## Repeated calls -/

section Repeated
variable {whole : Bool} {m : Manager} {w : Worktree} {s s' : Root}

theorem release_free (h : ∀ path, s.lock path = none ∨ s.lock path = some i)
    (path : String) : (s.release i).lock path = none := by
  rcases h path with hnone | hmine
  · simp [Root.release, hnone]
  · simp [Root.release, hmine]

theorem Attempt.removable (h : Attempt true m w s s') (hs : Removable m w s)
    (hfree : ∀ path, s.lock path = none) : Removable m w s' ∧ ∀ path, s'.lock path = none := by
  obtain ⟨W, i, s₁, hran, rfl⟩ := h
  have hens := triple_kept (W := W) (i := i) hs s ⟨rfl, rfl, rfl, fun path => .inl (hfree path)⟩
  have hkept : Kept m w i s₁ := by
    rcases hran with hdies | ⟨r, hruns⟩
    · exact hens.of_dies hdies
    · have hend := hens.of_runs hruns
      cases r with
      | ok _ | error _ => exact hend
  have hfree' := release_free hkept.lock
  exact ⟨(kept_of_agrees (i := i) hkept.removable (s₁.release i)
    ⟨rfl, rfl, rfl, fun path => .inl (hfree' path)⟩).removable, hfree'⟩

theorem Attempt.refused (h : Attempt whole m w s s') (hs : ¬Removable m w s)
    (hfree : ∀ path, s.lock path = none) :
    s'.repository w.executionId = s.repository w.executionId ∧ ¬Removable m w s' ∧
      ∀ path, s'.lock path = none := by
  obtain ⟨W, i, s₁, hran, rfl⟩ := h
  have hens := triple_refused whole W (i := i) (fun _ hs => hs) hs s ⟨rfl, rfl, rfl, fun path => .inl (hfree path)⟩
  have hagrees : Agrees i w.executionId s s₁ := by
    rcases hran with hdies | ⟨r, hruns⟩
    · exact hens.of_dies hdies
    · have hend := hens.of_runs hruns
      cases r with
      | ok _ => exact hend.1
      | error _ => exact hend
  have hfree' := release_free hagrees.lock
  refine ⟨hagrees.repository, fun hremovable => hs ?_, hfree'⟩
  exact (kept_of_agrees (i := i) hremovable s ⟨hagrees.repository.symm, hagrees.journal.symm,
    hagrees.canonical.symm, fun path => .inl (hfree path)⟩).removable

theorem refused_repeatedly (h : Relation.ReflTransGen (Attempt false m w) s s')
    (hs : ¬Removable m w s) (hfree : ∀ path, s.lock path = none) :
    s'.repository w.executionId = s.repository w.executionId ∧ ¬Removable m w s' ∧
      ∀ path, s'.lock path = none := by
  induction h with
  | refl => exact ⟨rfl, hs, hfree⟩
  | tail _ hstep ih =>
    obtain ⟨hsame, hnot, hfree'⟩ := hstep.refused ih.2.1 ih.2.2
    exact ⟨hsame.trans ih.1, hnot, hfree'⟩

theorem not_ok_of_refused {r : Except WorktreeError Unit} {t : Root}
    (hs : ¬Removable m w s) (hfree : ∀ path, s.lock path = none)
    (h : Runs (Call.Does W i) flickers (m.destroy w).run s r t) : r ≠ .ok () := by
  have hens := triple_refused false W (i := i) (fun _ hs => hs) hs s ⟨rfl, rfl, rfl, fun path => .inl (hfree path)⟩
  have hruns : Runs (Call.DoesWhole false W i) flickers (m.destroy w).run s r t :=
    h.imp fun _ _ _ _ hdoes => ⟨hdoes, nofun⟩
  rintro rfl
  exact (hens.of_runs hruns).2

end Repeated

/-- From a removable state, whatever earlier calls of `destroy` did short of being cut off inside the
recursive removal, the next call that works removes the directory. In any other state every call
fails, and the directory stays as it is. -/
theorem destroy_completes_iff {m : Manager} {w : Worktree} (hw : Returned m w) {s : Root}
    (hfree : ∀ path, s.lock path = none) :
    (Removable m w s → ∀ s', Relation.ReflTransGen (Attempt true m w) s s' →
      s'.readable w.executionId = true → ∀ W i, ∃ t,
        Plays (Call.exec W i) (m.destroy w) s' (.ok ()) t ∧ t.repository w.executionId = none) ∧
    (¬Removable m w s → ∀ s', Relation.ReflTransGen (Attempt false m w) s s' →
      s'.repository w.executionId = s.repository w.executionId ∧
        ∀ W i r t, Runs (Call.Does W i) flickers (m.destroy w).run s' r t → r ≠ .ok ()) := by
  refine ⟨fun hs s' hattempts hreadable W i => ?_, fun hs s' hattempts => ?_⟩
  · have hkept : Removable m w s' ∧ ∀ path, s'.lock path = none := by
      clear hreadable
      induction hattempts with
      | refl => exact ⟨hs, hfree⟩
      | tail _ hstep ih => exact hstep.removable ih.1 ih.2
    exact plays_destroy hw.exact hkept.1 hkept.2 hreadable
  · obtain ⟨hsame, hnot, hfree'⟩ := refused_repeatedly hattempts hs hfree
    exact ⟨hsame, fun W i r t hruns => not_ok_of_refused hnot hfree' hruns⟩

theorem not_completes {m : Manager} {w : Worktree} {s : Root} (hs : ¬Removable m w s)
    (hfree : ∀ path, s.lock path = none) : ¬Completes m w s := by
  rintro ⟨s', hattempts, W, i, t, hruns, _⟩
  obtain ⟨_, hnot, hfree'⟩ := refused_repeatedly hattempts hs hfree
  exact not_ok_of_refused hnot hfree' hruns rfl

theorem Call.Does.locks {β : Type} {c : Call β} {b : β}
    (h : c.Does W i s b s') (hs : ∀ path, s.lock path = none ∨ s.lock path = some i)
    (path : String) : s'.lock path = none ∨ s'.lock path = some i := by
  have hset : ∀ {p : String} {o : Option Nat}, o = none ∨ o = some i →
      (s.setLock p o).lock path = none ∨ (s.setLock p o).lock path = some i := by
    intro p o ho
    by_cases hp : path = p
    · simpa [Root.setLock, hp] using ho
    · simpa [Root.setLock, hp] using hs path
  cases c with
  | lock p =>
    cases b with
    | ok _ => exact h.2 ▸ hset (.inr rfl)
    | error _ =>
      have hsame : s' = s := h
      exact hsame ▸ hs path
  | unlock p =>
    have hdropped : s' = if s.lock p = some i then s.setLock p none else s := h
    split at hdropped
    · exact hdropped ▸ hset (.inl rfl)
    · exact hdropped ▸ hs path
  | checkout e branch sha =>
    cases b with
    | ok _ => obtain ⟨_, _, _, _, _, _, rfl⟩ := h; exact hs path
    | error _ => obtain rfl | ⟨_, _, _, _, _, rfl⟩ := h <;> exact hs path
  | createTemporary e =>
    cases b with
    | ok _ => obtain ⟨_, _, _, rfl⟩ := h; exact hs path
    | error _ => obtain rfl : s' = s := h; exact hs path
  | writeTemporary e record =>
    cases b with
    | ok _ => obtain ⟨_, rfl⟩ | ⟨_, _, _, rfl⟩ := h <;> exact hs path
    | error _ => obtain rfl | ⟨_, _, _, rfl⟩ := h <;> exact hs path
  | renameTemporary e =>
    cases b with
    | ok _ => obtain ⟨_, _, _, _, rfl⟩ := h; exact hs path
    | error _ => obtain rfl : s' = s := h; exact hs path
  | _ =>
    rw [(Call.Does.fewer h rfl).lock]
    exact hs path

theorem free_after {α : Type} {p : Prog Call α} {a : α}
    (h : Runs (Call.Does W i) alone p s a s') (hs : ∀ path, s.lock path = none) :
    ∀ path, (s'.release i).lock path = none :=
  release_free (h.invariant (I := fun s => ∀ path, s.lock path = none ∨ s.lock path = some i)
    (fun _ _ _ _ _ hI hdoes => hdoes.locks hI) (fun _ _ _ h => h.elim) Only.true
    fun path => .inl (hs path))

namespace Sample

def work : Worktree where
  executionId := ⟨"one"⟩
  path := "/srv/executions/one/repository"
  branch := "work"
  baseSha := "base"
  repository := "org/app"

theorem returned_work : Returned manager work := by
  refine ⟨world, 0, alone, labels "one", "org/app", "base", "work", receipt "one", fresh true, _,
    runs_of_play alone (fun s => s) Call.exec_does ?_⟩
  decide +kernel

def detached : Root := ((owning true).change ⟨"one"⟩ fun c => some { c with head := some "" }).2

/-- The removal is cut off when the objects are gone. -/
def cutExec : {β : Type} → Call β → Root → Option (β × Root)
  | _, .removeRepository e, s =>
    match s.contents e with
    | some c => some (.error (.other "Input/output error (os error 5)"),
        s.put e { c with entry := Function.update c.entry .objects .missing })
    | none => none
  | _, c, s => c.exec world 0 s

theorem cutExec_does {β : Type} (c : Call β) (s : Root) (b : β) (s' : Root)
    (h : cutExec c s = some (b, s')) : c.DoesWhole false world 0 s b s' := by
  refine ⟨?_, nofun⟩
  cases c with
  | removeRepository e =>
    simp only [cutExec] at h
    split at h
    · next c hc =>
      obtain ⟨rfl, rfl⟩ := Prod.mk.inj (Option.some.inj h)
      refine .inr (.inr ⟨c, { c with entry := Function.update c.entry .objects .missing }, hc,
        ⟨.inl rfl, .inl rfl, fun x => ?_, fun _ hx => hx⟩, rfl⟩)
      by_cases hx : x = .objects
      · exact .inr (by simp [hx])
      · exact .inl (by simp [hx])
    · exact nomatch h
  | _ => exact Call.exec_does _ s b s' h

def halfway : Root := ((manager.destroy work).run.play cutExec (owning true)).2.release 0

theorem free_owning : ∀ path, (owning true).lock path = none := by
  obtain ⟨a, ha⟩ : ∃ a, ((create "one" "work" "base").play (Call.exec world 0)
      (fresh true)).1 = some a :=
    Option.isSome_iff_exists.1 (by decide +kernel)
  exact free_after (runs_of_play alone (fun s => s) Call.exec_does ha) fun _ => rfl

theorem removable_owning : Removable manager work (owning true) := by
  by_contra hnot
  have hplay : ((manager.destroy work).run.play (Call.exec world 1) (owning true)).1 =
      some (.ok ()) := by decide +kernel
  exact not_ok_of_refused hnot free_owning
    (runs_of_play flickers (fun s => s) Call.exec_does hplay) rfl

theorem attempt_halfway : Attempt false manager work (owning true) halfway :=
  ⟨world, 0, _, .inl (dies_of_play flickers (fun s => s) cutExec_does _ (owning true)), rfl⟩

theorem free_halfway : ∀ path, halfway.lock path = none := by
  obtain ⟨r, hr⟩ : ∃ r, ((manager.destroy work).run.play cutExec (owning true)).1 = some r :=
    Option.isSome_iff_exists.1 (by decide +kernel)
  have hruns : Runs (Call.Does world 0) alone (manager.destroy work).run (owning true) r _ :=
    runs_of_play alone (fun s => s) (fun c s b s' h => (cutExec_does c s b s' h).1) hr
  exact free_after hruns free_owning

theorem not_removable_detached : ¬Removable manager work detached := by
  obtain ⟨hjournal, hhead⟩ : detached.journal ⟨"one"⟩ = none ∧
      (detached.contents ⟨"one"⟩).bind Contents.head = some "" := by decide +kernel
  rintro (⟨_, hintact⟩ | ⟨j, hj, _⟩)
  · exact absurd (hhead.symm.trans hintact.branch) (by decide)
  · exact nomatch hjournal.symm.trans hj

theorem not_removable_halfway : ¬Removable manager work halfway := by
  obtain ⟨hjournal, hobjects, hthere⟩ : (halfway.journal ⟨"one"⟩).isSome ∧
      halfway.stat ⟨"one"⟩ (.git .objects) = .missing ∧ (halfway.repository ⟨"one"⟩).isSome := by
    decide +kernel
  rintro (⟨hnone, _⟩ | ⟨j, _, _, hgone | ⟨hsound, _⟩⟩)
  · have hnone' : halfway.journal ⟨"one"⟩ = none := hnone
    simp [hnone'] at hjournal
  · have hgone' : halfway.repository ⟨"one"⟩ = none := hgone
    simp [hgone'] at hthere
  · exact nomatch hobjects.symm.trans hsound.preflight.objects

end Sample

open Sample in
/-- After the agent has detached the head, and after a removal that was cut off in the middle, no
repetition of `destroy` returns. -/
theorem destroy_does_not_complete :
    Returned manager work ∧ detached.journal work.executionId = none ∧
      (∀ path, detached.lock path = none) ∧ ¬Completes manager work detached ∧
      (∀ path, (owning true).lock path = none) ∧ Attempt false manager work (owning true) halfway ∧
      ¬Completes manager work halfway := by
  have hdetached : ∀ path, detached.lock path = none := free_owning
  exact ⟨returned_work, by decide +kernel, hdetached,
    not_completes not_removable_detached hdetached, free_owning, attempt_halfway,
    not_completes not_removable_halfway free_halfway⟩

open Sample in
/-- The repository as `createIn` leaves it can be removed. -/
theorem destroy_completes_iff_sample : Removable manager work (owning true) ∧ ∃ t,
      Plays (Call.exec world 1) (manager.destroy work) (owning true) (.ok ()) t ∧
        t.repository work.executionId = none := by
  have hreadable : (owning true).readable ⟨"one"⟩ = true := by decide +kernel
  exact ⟨removable_owning, (destroy_completes_iff returned_work free_owning).1 removable_owning _
    .refl hreadable world 1⟩

end Orchestrator.GitWorktree
