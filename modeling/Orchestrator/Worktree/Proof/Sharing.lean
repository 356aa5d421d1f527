import Orchestrator.Worktree.Cleanup

/-!
# What processes do to the owner files of others

An owner record of a repository, or its temporary, is written only by a process that holds the lock of
the mirror of this repository (`Guar`); the others may only remove records and temporaries (`Shrinks`).
A process that holds the lock keeps every `Fact` that such removals leave true. Most programs make
`quiet` calls, which write no owner file at all.
-/

namespace Orchestrator.GitWorktree

open Prog

/-! ## Owners -/

/-- The directory of `e` contains an owner record of the branch. -/
def Root.Holds (s : Root) (e : ExecutionId) (repo branch : String) : Prop :=
  ∃ r, s.record e = some r ∧ Manager.recordedRepository r = some repo ∧ r.branch = branch

/-- No two directories contain owner records of one branch, and every record names its execution. -/
structure Inv (s : Root) : Prop where
  unique : ∀ {e₁ e₂ repo branch}, s.Holds e₁ repo branch → s.Holds e₂ repo branch → e₁ = e₂
  labelled : ∀ {e r}, s.record e = some r →
    (r.labels.lookup "autospec.execution_id").isSome

/-- Process `i` has the lock of the mirror of the repository. -/
def Root.Mirrors (cacheRoot : String) (s : Root) (i : Nat) (repo : String) : Prop :=
  ∃ name, normalizedRepositoryName repo = .ok name ∧ s.lock (mirrorLock cacheRoot name) = some i

/-- What may be done to the owner files of a repository without its lock. -/
structure Shrinks (W : World) (repo : String) (s s' : Root) : Prop where
  records : ∀ {e r}, s'.record e = some r → Manager.recordedRepository r = some repo →
    s.record e = some r
  temporary : ∀ {e receipt f}, W.receipt e = some receipt → receipt.labels.repository = repo →
    s'.temporary e = some f → s.temporary e = some f

/-- Owner files only go. -/
structure Fewer (s s' : Root) : Prop where
  records : ∀ {e r}, s'.record e = some r → s.record e = some r
  temporary : ∀ {e f}, s'.temporary e = some f → s.temporary e = some f
  lock : s'.lock = s.lock

section Fewer
variable {W : World} {s s' : Root} {e : ExecutionId} {c c' : Contents} {repo branch : String}

theorem Fewer.shrinks (h : Fewer s s') : Shrinks W repo s s' where
  records hr _ := h.records hr
  temporary _ _ hf := h.temporary hf

theorem Fewer.of_eq (h : s' = s) : Fewer s s' where
  records := h ▸ id
  temporary := h ▸ id
  lock := h ▸ rfl

theorem record_of_contents (h : s.contents e = some c) {r : OwnerRecord} :
    s.record e = some r ↔ c.owner = some (.record r) := by
  simp only [Root.record, Root.ownerFile, h, Option.bind_some]
  split <;> simp_all

theorem temporary_of_contents (h : s.contents e = some c) : s.temporary e = c.temporary := by
  simp [Root.temporary, h]

theorem record_put_of_ne {e' : ExecutionId} (h : e' ≠ e) : (s.put e c).record e' = s.record e' := by
  simp [Root.record, Root.ownerFile, h]

theorem temporary_put_of_ne {e' : ExecutionId} (h : e' ≠ e) :
    (s.put e c).temporary e' = s.temporary e' := by
  simp [Root.temporary, h]

theorem Fewer.put (howner : ∀ r, c.owner = some (.record r) → s.record e = some r)
    (htemporary : ∀ f, c.temporary = some f → s.temporary e = some f) : Fewer s (s.put e c) where
  records {e' r} hr := by
    by_cases he : e' = e
    · subst he
      exact howner r ((record_of_contents (by simp)).1 hr)
    · rwa [record_put_of_ne he] at hr
  temporary {e' f} hf := by
    by_cases he : e' = e
    · subst he
      exact htemporary f (temporary_of_contents (s.contents_put_self e' c) ▸ hf)
    · rwa [temporary_put_of_ne he] at hf
  lock := rfl

theorem Fewer.drop : Fewer s (s.drop e) where
  records {e' r} hr := by
    by_cases he : e' = e
    · subst he
      simp [Root.record, Root.ownerFile] at hr
    · simpa [Root.record, Root.ownerFile, he] using hr
  temporary {e' f} hf := by
    by_cases he : e' = e
    · subst he
      simp [Root.temporary] at hf
    · simpa [Root.temporary, he] using hf
  lock := rfl

theorem Root.ownerFile_of_record {r : OwnerRecord} (h : s.ownerFile e = some (.record r)) :
    s.record e = some r := by
  simp [Root.record, h]

theorem Root.record_ownerFile {r : OwnerRecord} (h : s.record e = some r) :
    s.ownerFile e = some (.record r) := by
  unfold Root.record at h
  split at h
  · next hfile => rw [hfile, Option.some.inj h]
  · exact nomatch h

theorem Root.Outside.fewer (h : s.Outside s') : Fewer s s' where
  records {e r} hr := by
    have hfile := Root.record_ownerFile hr
    rcases h.owner e with hsame | hnone
    · exact Root.ownerFile_of_record (hsame ▸ hfile)
    · exact nomatch hnone.symm.trans hfile
  temporary {e f} hf := by
    rcases h.temporary e with hsame | hnone
    · exact hsame ▸ hf
    · exact nomatch hnone.symm.trans hf
  lock := h.lock

theorem Fewer.clone (howner : c.owner = s.ownerFile e) (htemporary : c.temporary = s.temporary e) :
    Fewer s (s.put e c) :=
  .put (fun _ hr => Root.ownerFile_of_record (howner ▸ hr)) fun _ hf => htemporary ▸ hf

theorem Fewer.removed (hc : s.contents e = some c) (hpart : c.Part c') : Fewer s (s.put e c') := by
  refine .put (fun r hr => ?_) fun f hf => ?_
  · rcases hpart.owner with hsame | hnone
    · exact (record_of_contents hc).2 (hsame ▸ hr)
    · exact nomatch hnone.symm.trans hr
  · rcases hpart.temporary with hsame | hnone
    · exact temporary_of_contents hc ▸ hsame ▸ hf
    · exact nomatch hnone.symm.trans hf

end Fewer

/-! ## What the calls keep -/

/-- Calls that write no owner file and leave the locks. -/
def Call.quiet : {β : Type} → Call β → Bool
  | _, .lock _ | _, .unlock _ | _, .checkout .. | _, .createTemporary _ | _, .writeTemporary ..
  | _, .renameTemporary _ => false
  | _, _ => true

theorem Call.Does.fewer {W : World} {i : Nat} {s s' : Root} {β : Type} {c : Call β} {b : β}
    (h : c.Does W i s b s') (hq : c.quiet = true) : Fewer s s' := by
  cases c with
  | lock _ | unlock _ | checkout _ _ _ | createTemporary _ | writeTemporary _ _
  | renameTemporary _ => exact nomatch hq
  | perform o | revParse name ref => cases b <;> exact .of_eq h
  | verifyReady receipt | readIntent e | readJournal e | isEmpty e | canonicalize e | toplevel e
  | gitPath e query | currentBranch e =>
    cases b with
    | ok _ => exact .of_eq h.1
    | error _ => exact .of_eq h
  | writeIntent e intent replace | createJournal e journal =>
    cases b with
    | ok _ => exact h.2 ▸ ⟨id, id, rfl⟩
    | error _ =>
      rcases h with h | ⟨_, h⟩
      · exact .of_eq h
      · exact h ▸ ⟨id, id, rfl⟩
  | removeIntent e | removeJournal e =>
    cases b with
    | ok _ => exact h ▸ ⟨id, id, rfl⟩
    | error _ =>
      rcases h with h | h
      · exact .of_eq h
      · exact h ▸ ⟨id, id, rfl⟩
  | readExecutions =>
    cases b with
    | ok _ => exact .of_eq h.1
    | error error =>
      cases error with
      | notFound => exact .of_eq h.1
      | full | other _ => exact .of_eq h
  | inspectRoot e | inspect e entry | inspectAlternates e => exact .of_eq h.1
  | readOwner e => cases b <;> exact .of_eq h.1
  | cloneRepository e name =>
    cases b with
    | ok _ =>
      obtain ⟨c, howner, htemporary, rfl⟩ := h
      exact .clone howner htemporary
    | error _ =>
      rcases h with h | ⟨c, howner, htemporary, rfl⟩
      · exact .of_eq h
      · exact .clone howner htemporary
  | removeTemporary e =>
    cases b with
    | ok _ =>
      obtain ⟨c, hc, rfl⟩ := h
      exact .put (fun _ hr => (record_of_contents hc).2 hr) nofun
    | error _ => exact .of_eq h
  | removeRepository e =>
    cases b with
    | ok _ => exact h ▸ .drop
    | error _ =>
      rcases h with h | h | ⟨c, c', hc, hpart, rfl⟩
      · exact .of_eq h
      · exact h ▸ .drop
      · exact .removed hc hpart
  | createRepositoryRoot e =>
    cases b with
    | ok _ => exact h.2 ▸ .put nofun nofun
    | error _ => exact .of_eq h
  | act => exact Root.Outside.fewer h

/-- What the steps of a run have to meet: a commit that is checked out has no owner record at the path
of the owner file, and an owner file that is read can be read. -/
def Call.Meets (W : World) : {β : Type} → Call β → Root → Prop
  | _, .checkout _ _ sha, _ => ∀ r, (W.tracked sha).owner ≠ some (.record r)
  | _, .readOwner e, s => s.readable e = true
  | _, _, _ => True

/-- The processes, in runs whose steps meet this. -/
def carefully (W : World) (cacheRoot : String) : System Call Root Nat Outcome :=
  { processes W cacheRoot with sem := fun i _ c s b s' => c.Meets W s ∧ c.Does W i s b s' }

/-! ## Processes -/

section Threads
variable {W : World} {cacheRoot : String} {i j : Nat} {s s' : Root} {repo branch : String}

/-- What a process does to the state root. -/
structure Guar (W : World) (cacheRoot : String) (i : Nat) (s s' : Root) : Prop where
  inv : Inv s → Inv s'
  records : ∀ {e r repo}, s'.record e = some r → Manager.recordedRepository r = some repo →
    s.record e = some r ∨ s.Mirrors cacheRoot i repo
  temporary : ∀ {e receipt f}, W.receipt e = some receipt → s'.temporary e = some f →
    s.temporary e = some f ∨ s.Mirrors cacheRoot i receipt.labels.repository
  locks : ∀ {path j}, j ≠ i → (s'.lock path = some j ↔ s.lock path = some j)

/-- What a process relies on. -/
structure Rely (W : World) (cacheRoot : String) (j : Nat) (s s' : Root) : Prop where
  inv : Inv s → Inv s'
  shrinks : ∀ {repo}, s.Mirrors cacheRoot j repo → Shrinks W repo s s'
  locks : ∀ {path}, s'.lock path = some j ↔ s.lock path = some j

theorem Root.Mirrors.unique (hi : s.Mirrors cacheRoot i repo) (hj : s.Mirrors cacheRoot j repo) :
    i = j := by
  obtain ⟨name, hname, hlock⟩ := hi
  obtain ⟨name', hname', hlock'⟩ := hj
  obtain rfl := Except.ok.inj (hname.symm.trans hname')
  exact Option.mem_unique hlock hlock'

theorem Guar.rely (h : Guar W cacheRoot i s s') (hij : i ≠ j) : Rely W cacheRoot j s s' where
  inv := h.inv
  shrinks hj :=
    { records := fun hr hrepo => (h.records hr hrepo).resolve_right fun hi => hij (hi.unique hj)
      temporary := fun hreceipt hrepo hf =>
        (h.temporary hreceipt hf).resolve_right fun hi => hij (hi.unique (hrepo ▸ hj)) }
  locks := h.locks (Ne.symm hij)

theorem Root.Holds.of_fewer {e : ExecutionId} (h : Fewer s s') (he : s'.Holds e repo branch) :
    s.Holds e repo branch := by
  obtain ⟨r, hr, hrepo, hbranch⟩ := he
  exact ⟨r, h.records hr, hrepo, hbranch⟩

theorem Inv.fewer (h : Inv s) (hfewer : Fewer s s') : Inv s' where
  unique h₁ h₂ := h.unique (h₁.of_fewer hfewer) (h₂.of_fewer hfewer)
  labelled hr := h.labelled (hfewer.records hr)

theorem Fewer.guar (h : Fewer s s') : Guar W cacheRoot i s s' where
  inv hinv := hinv.fewer h
  records hr _ := .inl (h.records hr)
  temporary _ hf := .inl (h.temporary hf)
  locks _ := by rw [h.lock]

theorem guar_of_locks (hrepository : s'.repository = s.repository)
    (hlocks : ∀ {path j}, j ≠ i → (s'.lock path = some j ↔ s.lock path = some j)) :
    Guar W cacheRoot i s s' := by
  have hcontents : s'.contents = s.contents := by
    funext e
    simp [Root.contents, hrepository]
  have hrecord : s'.record = s.record := by
    funext e
    simp [Root.record, Root.ownerFile, hcontents]
  have htemporary : s'.temporary = s.temporary := by
    funext e
    simp [Root.temporary, hcontents]
  have hholds : ∀ {e repo branch}, s'.Holds e repo branch → s.Holds e repo branch := fun h => by
    rwa [Root.Holds, hrecord] at h
  exact ⟨fun hinv => ⟨fun h₁ h₂ => hinv.unique (hholds h₁) (hholds h₂),
    fun hr => hinv.labelled (hrecord ▸ hr)⟩, fun hr _ => .inl (hrecord ▸ hr),
    fun _ hf => .inl (htemporary ▸ hf), hlocks⟩

theorem guar_release : Guar W cacheRoot i s (s.release i) :=
  guar_of_locks rfl fun {path j} hj => by
    simp only [Root.release]
    split
    · next h => simp [h, Ne.symm hj]
    · rfl

theorem guar_lock {path : String} (h : s.lock path = none) :
    Guar W cacheRoot i s (s.setLock path (some i)) :=
  guar_of_locks rfl fun {path' j} hj => by
    by_cases hpath : path' = path
    · subst hpath
      simp [Root.setLock, h, Ne.symm hj]
    · simp [Root.setLock, hpath]

theorem guar_unlock {path : String} (h : s.lock path = some i) :
    Guar W cacheRoot i s (s.setLock path none) :=
  guar_of_locks rfl fun {path' j} hj => by
    by_cases hpath : path' = path
    · subst hpath
      simp [Root.setLock, h, Ne.symm hj]
    · simp [Root.setLock, hpath]

abbrev process (W : World) (cacheRoot : String) (i : Nat) : Contract Call Root :=
  (carefully W cacheRoot).contract (Rely W cacheRoot) (Guar W cacheRoot) i

/-- A process that holds no lock that matters. -/
def running (W : World) (cacheRoot : String) (i : Nat) : Assertion (process W cacheRoot i).setting :=
  (process W cacheRoot i).keeping Inv fun _ _ hrely hs => hrely.inv hs

/-- A fact that stays true as owner files of the repository go. -/
structure Fact (W : World) (repo : String) where
  holds : Root → Prop
  stays : ∀ {s s'}, Shrinks W repo s s' → holds s → holds s'

/-- What a process knows while it holds the lock of the mirror. -/
def held (W : World) (cacheRoot : String) (i : Nat) (repo : String) (P : Fact W repo) :
    Assertion (process W cacheRoot i).setting :=
  (process W cacheRoot i).keeping
    (fun s => s.Mirrors cacheRoot i repo ∧ Inv s ∧ P.holds s) fun s s' hrely hs => by
      obtain ⟨name, hname, hlock⟩ := hs.1
      exact ⟨⟨name, hname, hrely.locks.2 hlock⟩, hrely.inv hs.2.1,
        P.stays (hrely.shrinks hs.1) hs.2.2⟩

variable {P Q E : Fact W repo} {x y : Root × Prop} {β ε ε' : Type}

theorem held_mono (h : ∀ {s}, Inv s → P.holds s → Q.holds s) (x : Root × Prop)
    (hx : held W cacheRoot i repo P x) : held W cacheRoot i repo Q x :=
  ⟨⟨hx.1.1, hx.1.2.1, h hx.1.2.1 hx.1.2.2⟩, hx.2⟩

theorem held_step {c : Call β} {b : β} (hx : held W cacheRoot i repo P x)
    (hsem : (process W cacheRoot i).setting.sem c x b y) (hguar : Guar W cacheRoot i x.1 y.1)
    (hlock : y.1.lock = x.1.lock) (hQ : Q.holds y.1) : held W cacheRoot i repo Q y := by
  obtain ⟨⟨⟨name, hname, hholder⟩, hinv, _⟩, hkept⟩ := hx
  exact ⟨⟨⟨name, hname, hlock ▸ hholder⟩, hguar.inv hinv, hQ⟩, hsem.2 ▸ ⟨hkept, hguar⟩⟩

theorem held_quiet {c : Call β} {b : β} (hq : c.quiet = true) (hx : held W cacheRoot i repo P x)
    (hsem : (process W cacheRoot i).setting.sem c x b y) (hQ : P.holds y.1 → Q.holds y.1) :
    held W cacheRoot i repo Q y := by
  have hfewer : Fewer x.1 y.1 := Call.Does.fewer hsem.1.2 hq
  exact held_step hx hsem hfewer.guar hfewer.lock (hQ (P.stays hfewer.shrinks hx.1.2.2))

theorem triple_quiet {p : ExceptT ε (Prog Call) β} (hp : p.run.Only fun c => c.quiet = true) :
    (held W cacheRoot i repo P).KeptBy p :=
  .of_only hp fun _ _ _ _ hq hx hsem => held_quiet hq hx hsem id

theorem triple_attemptAs {f : ε → ε'} {c : Call (Except ε β)} (hq : c.quiet = true) :
    (held W cacheRoot i repo P).KeptBy (attemptAs f c) :=
  triple_quiet (.attemptAs hq)

/-! ### Quiet programs -/

section Quiet
variable (m : Manager) (e : ExecutionId)

theorem quiet_requireAbsent {found : WorktreeError} {c : Call (Except IoError Kind)}
    (hc : c.quiet = true) : (Manager.requireAbsent found c).run.Only fun c => c.quiet = true :=
  .seq (.observe (.attempt hc)) fun r => match r with
    | .error .notFound | .error .full | .error (.other _) | .ok _ => trivial

theorem quiet_requireDirectory {purpose : String} {entry : Entry} :
    (m.requireDirectory e purpose entry).run.Only fun c => c.quiet = true :=
  .seq (.attemptAs rfl) fun _ => .refuse

theorem quiet_requireIndex : (m.requireIndex e).run.Only fun c => c.quiet = true :=
  .seq (.observe (.attempt rfl)) fun r => match r with
    | .error .notFound | .error .full | .error (.other _) | .ok .directory | .ok .file
    | .ok .other => trivial

theorem quiet_preflight : (m.verifyGitStoragePreflight e).run.Only fun c => c.quiet = true :=
  .seq (quiet_requireAbsent rfl) fun _ =>
    .seq (quiet_requireDirectory m e) fun _ =>
    .seq (quiet_requireDirectory m e) fun _ =>
    .seq (quiet_requireDirectory m e) fun _ =>
    .seq (quiet_requireDirectory m e) fun _ =>
    .seq (quiet_requireIndex m e) fun _ => quiet_requireAbsent rfl

theorem quiet_requireInside {root : Paths.Path} {query : GitQuery} :
    (m.requireInside e root query).run.Only fun c => c.quiet = true :=
  .seq (quiet_preflight m e) fun _ => .seq (.attemptAs rfl) fun _ => .refuse

theorem quiet_verifyRepositoryStorage :
    (m.verifyRepositoryStorage e).run.Only fun c => c.quiet = true :=
  .seq (quiet_preflight m e) fun _ =>
    .seq (.attemptAs rfl) fun _ =>
    .seq (.attemptAs rfl) fun _ =>
    .refuse_bind fun _ =>
      .seq (.forEach (fun _ => quiet_requireInside m e) _) fun _ =>
      .seq (quiet_preflight m e) fun _ => quiet_requireAbsent rfl

theorem quiet_selector : (m.verifyRepositorySelector e).run.Only fun c => c.quiet = true :=
  .seq (.attemptAs rfl) fun _ => .refuse

theorem quiet_emptyRepository : (Manager.emptyRepository e).run.Only fun c => c.quiet = true :=
  .seq (.attemptAs rfl) fun _ => .provided fun _ =>
    .seq (.attemptAs rfl) fun _ => .attemptAs rfl

theorem quiet_rollback :
    (m.rollbackIndependentRepository e).run.Only fun c => c.quiet = true :=
  .seq (.observe (.attempt rfl)) fun r => match r with
    | .error .notFound => .attemptAs rfl
    | .error .full | .error (.other _) | .ok .file | .ok .other => trivial
    | .ok .directory => quiet_emptyRepository e

theorem quiet_rollbackAs {error : String → WorktreeError} :
    (m.rollbackAs error e).run.Only fun c => c.quiet = true :=
  .seq (.observe (quiet_rollback m e)) fun _ => trivial

theorem quiet_rejectExisting {entry : Entry} :
    (m.rejectExisting e entry).run.Only fun c => c.quiet = true :=
  .seq (.observe (.attempt rfl)) fun r => match r with
    | .error .notFound | .error .full | .error (.other _) | .ok _ => trivial

end Quiet

end Threads

end Orchestrator.GitWorktree
