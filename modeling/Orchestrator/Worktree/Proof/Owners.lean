import Orchestrator.Worktree.Proof.Sharing

/-!
# One owner of a branch

What `branchOwner` has found under the lock of the mirror stays true until the owner record is renamed
to its place: no directory contains a record of the branch (`Fact.free`). So a creation that returns is
the only one to own its branch (`one_owner_per_branch`). This asks for two things of the steps of a run
(`Call.Meets`): a commit that is checked out has no owner record of its own at that path, and an owner
record that stands in a directory can be read.
-/

namespace Orchestrator.GitWorktree

open Prog

section Threads
variable {W : World} {cacheRoot : String} {i j : Nat} {s s' : Root} {repo branch : String}
variable {P Q E : Fact W repo} {x y : Root × Prop} {β ε ε' : Type}

/-! ### Looking for an owner -/

theorem Root.Holds.of_shrinks {e : ExecutionId} (h : Shrinks W repo s s')
    (he : s'.Holds e repo branch) : s.Holds e repo branch := by
  obtain ⟨r, hr, hrepo, hbranch⟩ := he
  exact ⟨r, h.records hr hrepo, hrepo, hbranch⟩

/-- Nothing is known. -/
def Fact.any : Fact W repo := ⟨fun _ => True, fun _ _ => trivial⟩

/-- Program `p`, started with the lock of the mirror and `P`, ends in `Q` or fails with the lock. -/
abbrev HeldE (W : World) (cacheRoot : String) (i : Nat) (repo : String) (P : Fact W repo)
    (p : ExceptT ε (Prog Call) β) (Q : β → Assertion (process W cacheRoot i).setting) : Prop :=
  TripleE (held W cacheRoot i repo P) p Q (held W cacheRoot i repo .any)

/-- No directory contains an owner record of the branch. -/
def Fact.free (branch : String) : Fact W repo where
  holds s := ∀ e, ¬s.Holds e repo branch
  stays h hs e he := hs e (he.of_shrinks h)

/-- Owner records of the branch are still to come in the list, or it ends in an error. -/
def Fact.pending (branch : String) (entries : List (Except IoError ExecutionId)) : Fact W repo where
  holds s := ∀ e, s.Holds e repo branch → .ok e ∈ entries ∨ ∃ error, .error error ∈ entries
  stays h hs e he := hs e (he.of_shrinks h)

/-- The owner record of `e`, when it is one of the repository, is the one that was read. -/
def Fact.reading (P : Fact W repo) (e : ExecutionId) (record : OwnerRecord) : Fact W repo where
  holds s := P.holds s ∧
    ∀ r, s.record e = some r → Manager.recordedRepository r = some repo → r = record
  stays h hs := ⟨P.stays h hs.1, fun r hr hrepo => hs.2 r (h.records hr hrepo) hrepo⟩

/-- Only the directory of `e` may contain an owner record of the branch. -/
def Fact.alone (branch : String) (e : ExecutionId) : Fact W repo where
  holds s := ∀ e', e' ≠ e → ¬s.Holds e' repo branch
  stays h hs e' hne he := hs e' hne (he.of_shrinks h)

theorem pending_tail {e : ExecutionId} {entries : List (Except IoError ExecutionId)}
    (h : (Fact.pending branch (.ok e :: entries) : Fact W repo).holds s)
    (he : ¬s.Holds e repo branch) : (Fact.pending branch entries : Fact W repo).holds s := by
  intro e' he'
  rcases h e' he' with hmem | ⟨error, hmem⟩
  · rcases List.mem_cons.1 hmem with heq | hmem
    · obtain rfl := Except.ok.inj heq
      exact absurd he' he
    · exact .inl hmem
  · rcases List.mem_cons.1 hmem with heq | hmem
    · exact nomatch heq
    · exact .inr ⟨error, hmem⟩

/-- What is known when an owner was found, or none in the entries so far. -/
def found (W : World) (cacheRoot : String) (i : Nat) (repo branch : String)
    (entries : List (Except IoError ExecutionId)) :
    Option ExecutionId → Assertion (process W cacheRoot i).setting
  | some _ => held W cacheRoot i repo .any
  | none => held W cacheRoot i repo (.pending branch entries)

/-- The entries that are left once the repository of `e` has been inspected. -/
def unseen (e : ExecutionId) (entries : List (Except IoError ExecutionId)) :
    Except IoError Kind → List (Except IoError ExecutionId)
  | .error .notFound => entries
  | _ => .ok e :: entries

/-- What a listing of the directories says about the branch. -/
def Fact.listed (branch : String) :
    Except IoError (List (Except IoError ExecutionId)) → Fact W repo
  | .ok entries => .pending branch entries
  | .error .notFound => .pending branch []
  | .error _ => .any

section Scan
variable (m : Manager) {e : ExecutionId} {entries : List (Except IoError ExecutionId)}

theorem triple_matchingOwner {record : OwnerRecord}
    (hlabelled : (record.labels.lookup "autospec.execution_id").isSome) :
    HeldE W cacheRoot i repo (.reading (.pending branch (.ok e :: entries)) e record)
      (m.matchingOwner repo branch e record) (found W cacheRoot i repo branch entries) := by
  unfold Manager.matchingOwner
  split
  · next hother =>
    refine .pure (held_mono fun {s} _ hs => pending_tail hs.1 ?_)
    intro ⟨r, hr, hrepo, hbranch⟩
    obtain rfl := hs.2 r hr hrepo
    exact hother.elim (fun h => h hrepo) fun h => h hbranch
  · refine .bind ((triple_quiet (P := .any) (quiet_preflight m e)).pre
      (held_mono fun _ _ => trivial)) fun _ => ?_
    refine .bind (triple_attemptAs rfl) fun _ => ?_
    refine .learn (.refuse fun _ hx _ => hx) fun _ _ => ?_
    obtain ⟨owner, howner⟩ := Option.isSome_iff_exists.1 hlabelled
    rw [howner]
    exact .pure fun _ hx => hx

theorem triple_recordedOwner :
    HeldE W cacheRoot i repo (.pending branch (.ok e :: entries)) (m.recordedOwner repo branch e)
      (found W cacheRoot i repo branch entries) := by
  refine .bind (Q := fun read => match read with
    | .ok record => (held W cacheRoot i repo
        (.reading (.pending branch (.ok e :: entries)) e record)).and
        (record.labels.lookup "autospec.execution_id").isSome
    | .error _ => held W cacheRoot i repo (.pending branch entries)) ?_ fun read => ?_
  · refine Triple.bind (Triple.ask fun x read y hx hsem => ?_) fun read => fun _ hx => hx
    obtain ⟨⟨hreadable, hdoes⟩, _⟩ := id hsem
    cases read with
    | ok record =>
      obtain ⟨hsame, hrecord, _⟩ := hdoes
      refine ⟨held_quiet rfl hx hsem fun hp => ⟨hp, fun r hr _ => ?_⟩,
        hx.1.2.1.labelled hrecord⟩
      rw [hsame, hrecord] at hr
      exact (Option.some.inj hr).symm
    | error error =>
      refine held_quiet rfl hx hsem fun hp => pending_tail hp ?_
      intro ⟨r, hr, _⟩
      obtain ⟨hsame, hnone | hunreadable⟩ := hdoes
      · rw [hsame, hnone] at hr
        exact nomatch hr
      · have hreads : x.1.readable e = true := hreadable
        rw [hreads] at hunreadable
        exact nomatch hunreadable
  · cases read with
    | ok record => exact .of_and fun h => triple_matchingOwner m h
    | error error => exact .pure fun _ hx => hx

theorem triple_ownerIn : HeldE W cacheRoot i repo (.pending branch (.ok e :: entries))
      (m.ownerIn repo branch e) (found W cacheRoot i repo branch entries) := by
  have hany : ∀ x, held W cacheRoot i repo (.pending branch (.ok e :: entries)) x →
      held W cacheRoot i repo .any x := held_mono fun _ _ => trivial
  refine .seq (triple_attemptAs rfl) hany fun root => ?_
  refine .learn (.refuse fun x hx _ => hany x hx) fun _ _ => ?_
  refine .bind (Q := fun inspected =>
    held W cacheRoot i repo (.pending branch (unseen e entries inspected))) ?_ fun inspected => ?_
  · refine Triple.bind (Triple.ask fun x inspected y hx hsem => ?_) fun inspected => fun _ hx => hx
    obtain ⟨⟨_, hsame, hanswer⟩, _⟩ := id hsem
    cases inspected with
    | ok kind => exact held_quiet rfl hx hsem id
    | error error =>
      cases error with
      | full | other _ => exact held_quiet rfl hx hsem id
      | notFound =>
        refine held_quiet rfl hx hsem fun hp => pending_tail hp ?_
        intro ⟨r, hr, _⟩
        have hgone : x.1.repository e = none := by
          simp only [Stat.Answers, Root.stat] at hanswer
          split at hanswer
          · cases hanswer
          · cases hanswer
          · assumption
        rw [hsame] at hr
        simp [Root.record, Root.ownerFile, Root.contents, hgone] at hr
  · rcases inspected with (_ | _ | _) | (_ | _ | _)
    · exact .pure fun _ hx => hx
    · exact .throw hany
    · exact .throw hany
    · exact triple_recordedOwner m
    · exact .throw hany
    · exact .throw hany

theorem triple_firstOwner :
    HeldE W cacheRoot i repo (.pending branch entries) (m.firstOwner repo branch entries)
      (found W cacheRoot i repo branch []) := by
  induction entries with
  | nil => exact .pure fun _ hx => hx
  | cons entry entries ih =>
    cases entry with
    | error error => exact .throw (held_mono fun _ _ => trivial)
    | ok e =>
      refine .bind (.unwrap (Q := fun e' =>
        (held W cacheRoot i repo (.pending branch (.ok e :: entries))).and (e' = e))
        (fun _ e' hx he => ⟨hx, (Except.ok.inj he).symm⟩) (held_mono fun _ _ => trivial)) fun e' =>
          .of_and fun he => ?_
      subst he
      refine .bind (triple_ownerIn m) fun owner => ?_
      cases owner with
      | some owner => exact .pure fun _ hx => hx
      | none => exact ih

theorem triple_branchOwner : HeldE W cacheRoot i repo .any (m.branchOwner repo branch)
      fun owner => held W cacheRoot i repo (owner.elim (.free branch) fun _ => .any) := by
  have hfree : ∀ x, held W cacheRoot i repo (.pending branch []) x →
      held W cacheRoot i repo (.free branch) x := held_mono fun _ hs e he => by
    simpa using hs e he
  refine .bind (Q := fun listed => held W cacheRoot i repo (.listed branch listed)) ?_
    fun listed => ?_
  · refine Triple.bind (Triple.ask fun x listed y hx hsem => ?_) fun listed => fun _ hx => hx
    obtain ⟨⟨_, hdoes⟩, _⟩ := id hsem
    have hthere : ∀ e, y.1 = x.1 → y.1.Holds e repo branch → (x.1.repository e).isSome := by
      rintro e hsame ⟨r, hr, _⟩
      rw [hsame] at hr
      cases hnode : x.1.repository e with
      | none => simp [Root.record, Root.ownerFile, Root.contents, hnode] at hr
      | some node => rfl
    rcases listed with (_ | _ | _) | entries
    · refine held_quiet rfl hx hsem fun _ e he => ?_
      have := hthere e hdoes.1 he
      simp [hdoes.2 e] at this
    · exact held_quiet rfl hx hsem id
    · exact held_quiet rfl hx hsem id
    · exact held_quiet rfl hx hsem fun _ e he => hdoes.2 e (hthere e hdoes.1 he)
  · rcases listed with (_ | _ | _) | entries
    · exact .pure hfree
    · exact .throw fun _ hx => hx
    · exact .throw fun _ hx => hx
    · refine (triple_firstOwner m).post fun owner x hx => ?_
      cases owner with
      | some owner => exact hx
      | none => exact hfree x hx

end Scan

/-! ### Writing the owner record -/

/-- The process has the lock of the mirror of the execution's repository. -/
def Entitled (W : World) (e : ExecutionId) (repo : String) : Prop :=
  ∃ receipt, W.receipt e = some receipt ∧ receipt.labels.repository = repo

/-- The temporary of `e`, while it is there, is empty or holds the record. -/
def Fact.drafted (branch : String) (e : ExecutionId) (record : OwnerRecord)
    (he : Entitled W e repo) : Fact W repo where
  holds s := (∀ e, ¬s.Holds e repo branch) ∧
    ∀ f, s.temporary e = some f → f = .unparsable ∨ f = .record record
  stays h hs := by
    obtain ⟨receipt, hreceipt, hrepo⟩ := he
    exact ⟨fun e' he' => hs.1 e' (he'.of_shrinks h),
      fun f hf => hs.2 f (h.temporary hreceipt hrepo hf)⟩

/-- No new record, and a new temporary at most for `e`. -/
structure Drafts (e : ExecutionId) (s s' : Root) : Prop where
  records : ∀ {e' r}, s'.record e' = some r → s.record e' = some r
  temporary : ∀ {e' f}, e' ≠ e → s'.temporary e' = some f → s.temporary e' = some f
  lock : s'.lock = s.lock

section Write
variable {e : ExecutionId} {c : Contents}

theorem Drafts.guar (h : Drafts e s s') (he : Entitled W e repo)
    (hlock : s.Mirrors cacheRoot i repo) : Guar W cacheRoot i s s' where
  inv hinv := ⟨fun ⟨r₁, hr₁, h₁⟩ ⟨r₂, hr₂, h₂⟩ =>
    hinv.unique ⟨r₁, h.records hr₁, h₁⟩ ⟨r₂, h.records hr₂, h₂⟩,
    fun hr => hinv.labelled (h.records hr)⟩
  records hr _ := .inl (h.records hr)
  temporary {e' receipt f} hreceipt hf := by
    by_cases hne : e' = e
    · subst hne
      obtain ⟨receipt', hreceipt', hrepo⟩ := he
      obtain rfl := Option.mem_unique hreceipt hreceipt'
      exact .inr (hrepo ▸ hlock)
    · exact .inl (h.temporary hne hf)
  locks _ := by rw [h.lock]

theorem Drafts.of_eq (h : s' = s) : Drafts e s s' := ⟨h ▸ id, fun _ => h ▸ id, h ▸ rfl⟩

theorem Drafts.put (howner : ∀ r, c.owner = some (.record r) → s.record e = some r) :
    Drafts e s (s.put e c) where
  records {e' r} hr := by
    by_cases he : e' = e
    · subst he
      exact howner r ((record_of_contents (by simp)).1 hr)
    · rwa [record_put_of_ne he] at hr
  temporary {e' f} he hf := by rwa [temporary_put_of_ne he] at hf
  lock := rfl

theorem Drafts.free (h : Drafts e s s') (hs : ∀ e, ¬s.Holds e repo branch) (e' : ExecutionId) :
    ¬s'.Holds e' repo branch := fun ⟨r, hr, hrest⟩ => hs e' ⟨r, h.records hr, hrest⟩

variable {sha : String} {recovered : Option String} {name locator : String}

theorem Call.Does.drafts_checkout {b : Except IoError Unit}
    (hmeets : ∀ r, (W.tracked sha).owner ≠ some (.record r))
    (h : (Call.checkout e branch sha).Does W i s b s') : Drafts e s s' := by
  have hor : ∀ {c c' : Contents}, s.contents e = some c →
      c'.owner = (W.tracked sha).owner.or c.owner →
      ∀ r, c'.owner = some (.record r) → s.record e = some r := by
    intro c c' hc howner r hr
    rw [howner] at hr
    cases htracked : (W.tracked sha).owner with
    | none =>
      rw [htracked, Option.none_or] at hr
      exact (record_of_contents hc).2 hr
    | some f =>
      rw [htracked, Option.some_or] at hr
      exact absurd (htracked.trans hr) (hmeets r)
  cases b with
  | ok _ =>
    obtain ⟨c, c', hc, howner, _, _, rfl⟩ := h
    exact .put (hor hc howner)
  | error _ =>
    rcases h with h | ⟨c, c', hc, howner | howner, _, rfl⟩
    · exact .of_eq h
    · exact .put fun r hr => (record_of_contents hc).2 (howner ▸ hr)
    · exact .put (hor hc howner)

theorem triple_checkout (he : Entitled W e repo) : HeldE W cacheRoot i repo (.free branch)
      (attemptAs (gitError .create) (.checkout e branch sha))
      fun _ => held W cacheRoot i repo (.free branch) := by
  refine .attemptAs (fun x _ y hx hsem => ?_) fun x _ y hx hsem => ?_
  all_goals
    have hdrafts : Drafts e x.1 y.1 := Call.Does.drafts_checkout hsem.1.1 hsem.1.2
    refine held_step hx hsem (hdrafts.guar he hx.1.1) hdrafts.lock ?_
  · exact hdrafts.free hx.1.2.2
  · trivial

theorem triple_createTemporary (record : OwnerRecord) (he : Entitled W e repo) :
    HeldE W cacheRoot i repo (.free branch) (attemptAs createIoError (.createTemporary e))
      fun _ => held W cacheRoot i repo (.drafted branch e record he) := by
  refine .attemptAs (fun x _ y hx hsem => ?_) fun x _ y hx hsem => ?_
  · obtain ⟨c, hc, _, hy⟩ := hsem.1.2
    have hdrafts : Drafts e x.1 y.1 :=
      hy ▸ .put fun r hr => (record_of_contents hc).2 hr
    refine held_step hx hsem (hdrafts.guar he hx.1.1) hdrafts.lock
      ⟨hdrafts.free hx.1.2.2, fun f hf => ?_⟩
    rw [hy, temporary_of_contents (x.1.contents_put_self e _)] at hf
    exact .inl (Option.some.inj hf).symm
  · have hsame : Fewer x.1 y.1 := .of_eq hsem.1.2
    exact held_step hx hsem hsame.guar hsame.lock trivial

variable {record : OwnerRecord}

theorem triple_writeTemporary (he : Entitled W e repo) :
    HeldE W cacheRoot i repo (.drafted branch e record he)
      (attemptAs createIoError (.writeTemporary e record))
      fun _ => held W cacheRoot i repo (.drafted branch e record he) := by
  have hwritten : ∀ {x y : Root × Prop} {c : Contents}, x.1.contents e = some c →
      y.1 = x.1.put e { c with temporary := some (.record record) } → Drafts e x.1 y.1 :=
    fun hc hy => hy ▸ .put fun r hr => (record_of_contents hc).2 hr
  refine .attemptAs (fun x _ y hx hsem => ?_) fun x _ y hx hsem => ?_
  · rcases hsem.1.2 with ⟨_, hsame⟩ | ⟨c, hc, _, hy⟩
    · have hfewer : Fewer x.1 y.1 := .of_eq hsame
      exact held_step hx hsem hfewer.guar hfewer.lock (hsame ▸ hx.1.2.2)
    · have hdrafts := hwritten hc hy
      refine held_step hx hsem (hdrafts.guar he hx.1.1) hdrafts.lock
        ⟨hdrafts.free hx.1.2.2.1, fun f hf => ?_⟩
      rw [hy, temporary_of_contents (x.1.contents_put_self e _)] at hf
      exact .inr (Option.some.inj hf).symm
  · rcases hsem.1.2 with hsame | ⟨c, hc, _, hy⟩
    · have hfewer : Fewer x.1 y.1 := .of_eq hsame
      exact held_step hx hsem hfewer.guar hfewer.lock trivial
    · have hdrafts := hwritten hc hy
      exact held_step hx hsem (hdrafts.guar he hx.1.1) hdrafts.lock trivial

structure Written (repo branch : String) (record : OwnerRecord) : Prop where
  repository : Manager.recordedRepository record = some repo
  branch : record.branch = branch
  labelled : (record.labels.lookup "autospec.execution_id").isSome

theorem guar_rename {f : OwnerFile} (hrecord : Written repo branch record)
    (hlock : s.Mirrors cacheRoot i repo) (hfree : ∀ e, ¬s.Holds e repo branch)
    (hc : s.contents e = some c) (hf : f = .unparsable ∨ f = .record record) :
    let s' := s.put e { c with owner := some f, temporary := none }
    Guar W cacheRoot i s s' ∧ ∀ e', e' ≠ e → ¬s'.Holds e' repo branch := by
  intro s'
  have hother : ∀ {e'}, e' ≠ e → s'.record e' = s.record e' := fun h => record_put_of_ne h
  have hself : ∀ {r}, s'.record e = some r → r = record := fun {r} hr => by
    have hfile := (record_of_contents (s.contents_put_self e _)).1 hr
    rcases hf with rfl | rfl
    · exact nomatch Option.some.inj hfile
    · exact (OwnerFile.record.inj (Option.some.inj hfile)).symm
  have halone : ∀ e', e' ≠ e → ¬s'.Holds e' repo branch := fun e' hne ⟨r, hr, hrest⟩ =>
    hfree e' ⟨r, hother hne ▸ hr, hrest⟩
  -- a record of another branch, or of another repository, is an old one
  have hbranch : ∀ {e' repo' branch'}, s'.Holds e' repo' branch' →
      e' = e ∧ repo' = repo ∧ branch' = branch ∨ e' ≠ e ∧ s.Holds e' repo' branch' := by
    intro e' repo' branch' ⟨r, hr, hrepo, hb⟩
    by_cases hne : e' = e
    · subst hne
      obtain rfl := hself hr
      exact .inl ⟨rfl, Option.mem_unique hrepo hrecord.repository, hb.symm.trans hrecord.branch⟩
    · exact .inr ⟨hne, r, hother hne ▸ hr, hrepo, hb⟩
  refine ⟨⟨fun hinv => ⟨fun {e₁ e₂ repo' branch'} h₁ h₂ => ?_, fun {e' r} hr => ?_⟩,
    fun {e' r repo'} hr hrepo => ?_, fun {e' receipt g} _ hg => .inl ?_, fun _ => Iff.rfl⟩, halone⟩
  · rcases hbranch h₁ with ⟨rfl, rfl, rfl⟩ | ⟨hne₁, hold₁⟩
    · by_contra hne
      exact halone e₂ (Ne.symm hne) h₂
    · rcases hbranch h₂ with ⟨rfl, rfl, rfl⟩ | ⟨_, hold₂⟩
      · exact absurd h₁ (halone e₁ hne₁)
      · exact hinv.unique hold₁ hold₂
  · by_cases hne : e' = e
    · subst hne
      exact hself hr ▸ hrecord.labelled
    · exact hinv.labelled (hother hne ▸ hr)
  · by_cases hne : e' = e
    · subst hne
      obtain rfl := hself hr
      obtain rfl := Option.mem_unique hrepo hrecord.repository
      exact .inr hlock
    · exact .inl (hother hne ▸ hr)
  · by_cases hne : e' = e
    · subst hne
      rw [temporary_of_contents (s.contents_put_self e' _)] at hg
      exact nomatch hg
    · exact temporary_put_of_ne hne ▸ hg

theorem triple_renameTemporary (he : Entitled W e repo) (hrecord : Written repo branch record) :
    HeldE W cacheRoot i repo (.drafted branch e record he)
      (attemptAs createIoError (.renameTemporary e))
      fun _ => held W cacheRoot i repo (.alone branch e) := by
  refine .attemptAs (fun x _ y hx hsem => ?_) fun x _ y hx hsem => ?_
  · obtain ⟨c, f, hc, hf, hy⟩ := hsem.1.2
    obtain ⟨hfree, hdraft⟩ := hx.1.2.2
    have hrename := guar_rename (W := W) hrecord hx.1.1 hfree hc
      (hdraft f ((temporary_of_contents hc).trans hf))
    exact held_step hx hsem (hy ▸ hrename.1) (hy ▸ rfl) (hy ▸ hrename.2)
  · have hsame : Fewer x.1 y.1 := .of_eq hsem.1.2
    exact held_step hx hsem hsame.guar hsame.lock trivial

/-- A quiet part of a program, after which nothing but the fact is needed. -/
theorem seq_quiet {α : Type} {p : ExceptT ε (Prog Call) β} {f : β → ExceptT ε (Prog Call) α}
    {R : α → Assertion (process W cacheRoot i).setting}
    (hp : p.run.Only fun c => c.quiet = true)
    (hf : ∀ b, HeldE W cacheRoot i repo P (f b) R) :
    HeldE W cacheRoot i repo P (p >>= f) R :=
  .seq (triple_quiet hp) (held_mono fun _ _ => trivial) hf

theorem end_quiet {p : ExceptT ε (Prog Call) β} (hp : p.run.Only fun c => c.quiet = true) :
    HeldE W cacheRoot i repo P p fun _ => held W cacheRoot i repo P :=
  (triple_quiet hp).err (held_mono fun _ _ => trivial)

theorem triple_publishOwnerRecord (he : Entitled W e repo) (hrecord : Written repo branch record) :
    HeldE W cacheRoot i repo (.free branch) (Manager.publishOwnerRecord e record)
      fun _ => held W cacheRoot i repo (.alone branch e) := by
  refine .bind (triple_createTemporary record he) fun _ => ?_
  refine .bind (triple_writeTemporary he) fun _ => ?_
  refine seq_quiet (.attemptAs rfl) fun _ => ?_
  refine seq_quiet (.attemptAs rfl) fun _ => ?_
  refine seq_quiet (.attemptAs rfl) fun _ => ?_
  refine .bind (triple_renameTemporary he hrecord) fun _ => ?_
  exact seq_quiet (.attemptAs rfl) fun _ => end_quiet (.attemptAs rfl)

theorem triple_writeOwnerRecord (m : Manager) (he : Entitled W e repo)
    (hrecord : Written repo branch record) :
    HeldE W cacheRoot i repo (.free branch) (m.writeOwnerRecord e record)
      fun _ => held W cacheRoot i repo (.alone branch e) := by
  refine seq_quiet (quiet_rejectExisting m e) fun _ => ?_
  refine seq_quiet (quiet_rejectExisting m e) fun _ => ?_
  refine .bind (.observe (triple_publishOwnerRecord he hrecord)) fun published => ?_
  cases published with
  | ok _ => exact .pure fun _ hx => hx
  | error error =>
    exact seq_quiet (.observe (.attempt rfl)) fun _ => .throw fun _ hx => hx

end Write

/-! ### Creation -/

section Create
variable (m : Manager) {e : ExecutionId}

variable {storage : Receipt}

theorem quiet_verifyReady : (Manager.verifyReady e storage).run.Only fun c => c.quiet = true :=
  .seq (.attemptAs rfl) fun _ => .attemptAs rfl

theorem quiet_baseSha {name baseRef : String} :
    (Manager.baseSha name baseRef recovered).run.Only fun c => c.quiet = true :=
  match recovered with
  | some _ => .seq (.attemptAs rfl) fun _ => trivial
  | none => .attemptAs rfl

theorem triple_setUp (intent : CreateIntent) (he : Entitled W e repo)
    (hrecord : Written repo intent.branch ⟨intent.labels, intent.baseSha, intent.branch⟩) :
    HeldE W cacheRoot i repo (.free intent.branch) (m.setUp e name locator storage intent)
      fun _ => held W cacheRoot i repo (.alone intent.branch e) := by
  refine seq_quiet (.attemptAs rfl) fun _ => ?_
  refine seq_quiet (.attemptAs rfl) fun _ => ?_
  refine seq_quiet quiet_verifyReady fun _ => ?_
  refine seq_quiet (.attemptAs rfl) fun _ => ?_
  refine seq_quiet (.attemptAs rfl) fun _ => ?_
  refine seq_quiet (quiet_verifyRepositoryStorage m e) fun _ => ?_
  refine seq_quiet (.attemptAs rfl) fun _ => ?_
  refine seq_quiet (.attemptAs rfl) fun _ => ?_
  refine seq_quiet (.attemptAs rfl) fun _ => ?_
  refine .bind (triple_checkout he) fun _ => ?_
  refine seq_quiet (.attemptAs rfl) fun _ => ?_
  refine seq_quiet (.attemptAs rfl) fun _ => ?_
  refine seq_quiet (quiet_verifyRepositoryStorage m e) fun _ => ?_
  exact seq_quiet (.attemptAs rfl) fun _ => triple_writeOwnerRecord m he hrecord

theorem triple_orAbandon {setup : M Unit} {R : Assertion (process W cacheRoot i).setting}
    (h : HeldE W cacheRoot i repo P setup fun _ => R) :
    HeldE W cacheRoot i repo P (m.orAbandon e setup) fun _ => R := by
  refine .bind (.observe h) fun done => ?_
  cases done with
  | ok _ => exact .pure fun _ hx => hx
  | error error => exact triple_abandon m
where
  triple_abandon (m : Manager) {error : WorktreeError} :
      HeldE W cacheRoot i repo .any (m.abandon e error) fun _ => R := by
    refine .bind (triple_quiet (.observe (quiet_rollback m e))) fun rolled => ?_
    cases rolled with
    | error _ => exact .throw fun _ hx => hx
    | ok _ =>
      refine .bind (triple_quiet (.observe (.attemptAs rfl))) fun removed => ?_
      cases removed with
      | ok _ | error _ => exact .throw fun _ hx => hx

theorem written_toMap {labels : OwnershipLabels} (h : labels.repository = repo) :
    Written repo branch ⟨labels.toMap, sha, branch⟩ where
  repository := by simp [Manager.recordedRepository, OwnershipLabels.toMap, List.lookup_cons, h]
  branch := rfl
  labelled := by simp [OwnershipLabels.toMap, List.lookup_cons]

/-- A worktree that was created: no other execution has its branch. -/
def owned (W : World) (cacheRoot : String) (i : Nat) (w : Worktree) :
    Assertion (process W cacheRoot i).setting :=
  held W cacheRoot i w.repository (.alone w.branch w.executionId)

theorem triple_createLocked {labels : OwnershipLabels} {baseRef name locator : String}
    (hrepo : labels.repository = repo)
    (he : Entitled W labels.executionId repo) :
    HeldE W cacheRoot i repo .any
      (m.createLocked labels repo baseRef branch name locator storage recovered)
      (owned W cacheRoot i) := by
  refine .bind (triple_branchOwner m) fun owner => ?_
  cases owner with
  | some owner => exact .throw fun _ hx => hx
  | none =>
    refine seq_quiet quiet_baseSha fun sha => ?_
    refine seq_quiet (.attemptAs rfl) fun empty => ?_
    refine seq_quiet .refuse fun _ => ?_
    refine seq_quiet (.attemptAs rfl) fun _ => ?_
    refine .bind (triple_orAbandon m
      (triple_setUp m { labels := labels.toMap, branch, .. } he (written_toMap hrepo))) fun _ => ?_
    exact seq_quiet (.attemptAs rfl) fun _ => .pure fun _ hx => hx

end Create

/-! ### Programs without the lock of a mirror -/

/-- Calls that write no owner file. -/
def Call.bare : {β : Type} → Call β → Bool
  | _, .lock _ | _, .unlock _ => true
  | _, c => c.quiet

theorem Call.bare_of_quiet {β : Type} (c : Call β) (h : c.quiet = true) : c.bare = true := by
  cases c <;> first | rfl | exact h

theorem Call.Does.guar {c : Call β} {b : β} (h : c.Does W i s b s') (hc : c.bare = true) :
    Guar W cacheRoot i s s' := by
  cases c with
  | lock path =>
    cases b with
    | ok _ => exact h.2 ▸ guar_lock h.1
    | error _ => exact (Fewer.of_eq h).guar
  | unlock path =>
    have hunlocked : s' = if s.lock path = some i then s.setLock path none else s := h
    split at hunlocked
    · next hmine => exact hunlocked ▸ guar_unlock hmine
    · exact (Fewer.of_eq hunlocked).guar
  | _ => exact (Call.Does.fewer h hc).guar

theorem running_bare {c : Call β} {b : β} (hc : c.bare = true) (hx : running W cacheRoot i x)
    (hsem : (process W cacheRoot i).setting.sem c x b y) : running W cacheRoot i y := by
  have hguar : Guar W cacheRoot i x.1 y.1 := Call.Does.guar hsem.1.2 hc
  exact ⟨hguar.inv hx.1, hsem.2 ▸ ⟨hx.2, hguar⟩⟩

theorem triple_bare {p : ExceptT ε (Prog Call) β} (hp : p.run.Only fun c => c.bare = true) :
    (running W cacheRoot i).KeptBy p :=
  .of_only hp fun _ _ _ _ hc hx hsem => running_bare hc hx hsem

theorem bare_of_quiet {p : ExceptT ε (Prog Call) β} (hp : p.run.Only fun c => c.quiet = true) :
    p.run.Only fun c => c.bare = true :=
  hp.mono Call.bare_of_quiet

theorem held_running (x : Root × Prop) (hx : held W cacheRoot i repo P x) :
    running W cacheRoot i x := ⟨hx.1.2.1, hx.2⟩

section Bare
variable (m : Manager)

theorem quiet_refreshMirror :
    (Manager.refreshMirror name locator).run.Only fun c => c.quiet = true :=
  .seq (.attemptAs rfl) fun _ =>
    .seq (.observe (.attempt rfl)) fun r => match r with
      | .ok () => .seq (.attemptAs rfl) fun _ =>
          .seq (.attemptAs rfl) fun _ => .attemptAs rfl
      | .error .notFound => .seq (.attemptAs rfl) fun _ => .attemptAs rfl
      | .error .full => trivial
      | .error (.other _) => trivial

theorem bare_locked {path : String} {body : M Unit} (h : body.run.Only fun c => c.bare = true) :
    (Manager.locked path body).run.Only fun c => c.bare = true :=
  .seq (.attemptAs rfl) fun _ => .seq (.observe h) fun _ =>
    .seq (.observe (.attempt rfl)) fun _ => trivial

theorem triple_ensureMirror {repo : String} : (running W cacheRoot i).Learns (m.ensureMirror repo)
      fun name => normalizedRepositoryName repo = .ok name := by
  refine .bind (triple_bare (.attemptAs rfl)) fun _ => ?_
  refine .bind (Q := fun _ => running W cacheRoot i)
    (.unwrap (fun _ _ hx _ => hx) fun _ hx => hx) fun locator => ?_
  refine .bind (Q := fun name => (running W cacheRoot i).and
    (normalizedRepositoryName repo = .ok name))
    (.unwrap (fun _ name hx hname => ⟨hx, hname⟩) fun _ hx => hx) fun name =>
      .of_and fun hname => ?_
  refine .bind (triple_bare (bare_locked (bare_of_quiet quiet_refreshMirror))) fun _ => ?_
  exact .pure fun _ hx => ⟨hx, hname⟩

theorem quiet_recoveredBase {labels : OwnershipLabels} {repo baseRef branch : String}
    {intent : Option CreateIntent} :
    (m.recoveredBase labels repo baseRef branch intent).run.Only fun c => c.quiet = true :=
  match intent with
  | none => trivial
  | some _ => .seq (.refuse_bind fun _ => .seq (quiet_rollbackAs m _) fun _ =>
      .seq (.attemptAs rfl) fun _ => trivial) fun _ => trivial

end Bare

/-! ### The processes together -/

variable {labels : OwnershipLabels} {storage : Receipt}

theorem labels_of_validate {layout : ExecutionLayout}
    (h : storage.validate labels layout = .ok ()) : storage.labels = labels := by
  simp only [ExecutionStorage.Exact.AllocationReceipt.validate, Txn.bind_eq_ok,
    Txn.ensure_eq_ok] at h
  obtain ⟨_, _, _, hlabels, _⟩ := h
  exact hlabels

theorem ok_of_mapError {α : Type} {r : Except ε α} {f : ε → ε'} {a : α}
    (h : r.mapError f = .ok a) : r = .ok a := by
  cases r with
  | ok b => exact congrArg Except.ok (Except.ok.inj h)
  | error _ => exact nomatch h

theorem triple_checkCreation (m : Manager) {repo branch : String} :
    (running W cacheRoot i).Learns (m.checkCreation labels repo branch storage)
      fun _ => labels.repository = repo ∧ Entitled W labels.executionId repo := by
  refine .bind (Q := fun _ => running W cacheRoot i)
    (.unwrap (fun _ _ hx _ => hx) fun _ hx => hx) fun _ => ?_
  refine .learn (.refuse fun _ hx _ => hx) fun _ hrepo => ?_
  refine .bind (triple_bare (.attemptAs rfl)) fun _ => ?_
  refine .bind (Q := fun _ => running W cacheRoot i)
    (.unwrap (fun _ _ hx _ => hx) fun _ hx => hx) fun layout => ?_
  refine .bind (Q := fun _ => (running W cacheRoot i).and (storage.labels = labels))
    (.unwrap (fun _ _ hx hvalid => ⟨hx, ?_⟩) fun _ hx => hx) fun _ =>
      .of_and fun hlabels => ?_
  · exact labels_of_validate (ok_of_mapError hvalid)
  refine .learn (.refuse fun _ hx _ => hx) fun _ _ => ?_
  refine .bind (triple_bare (bare_of_quiet (quiet_selector m _))) fun _ => ?_
  refine .bind (Q := fun _ => (running W cacheRoot i).and
    (W.receipt storage.labels.executionId = some storage))
    (.attemptAs (fun x _ y hx hsem => ⟨running_bare rfl hx hsem, hsem.1.2.2⟩)
      fun x _ y hx hsem => running_bare rfl hx hsem) fun _ => .of_and fun hreceipt => ?_
  refine (triple_bare (.attemptAs rfl)).post fun _ _ hx => ⟨hx, ?_⟩
  have hrepo' : labels.repository = repo := not_not.1 hrepo
  exact ⟨hrepo', storage, hlabels ▸ hreceipt, hlabels ▸ hrepo'⟩

theorem triple_createIn (m : Manager) (hm : m.cacheRoot = cacheRoot)
    {repo baseRef branch : String} :
    TripleE (running W cacheRoot i) (m.createIn labels repo baseRef branch storage)
      (owned W cacheRoot i) (running W cacheRoot i) := by
  subst hm
  refine .learn (triple_checkCreation m) fun _ hchecked => ?_
  obtain ⟨hrepo, he⟩ := hchecked
  refine .bind (triple_bare (.attemptAs rfl)) fun intent => ?_
  refine .bind (triple_bare (bare_of_quiet (quiet_recoveredBase m))) fun recovered => ?_
  refine .learn (triple_ensureMirror m) fun name hname => ?_
  refine .bind (Q := fun _ => held W m.cacheRoot i repo .any)
    (.attemptAs (fun x _ y hx hsem => ?_) fun x _ y hx hsem => running_bare rfl hx hsem)
    fun _ => ?_
  · have hrunning := running_bare rfl hx hsem
    refine ⟨⟨⟨name, hname, ?_⟩, hrunning.1, trivial⟩, hrunning.2⟩
    simp [hsem.1.2.2, Root.setLock]
  refine .seq (triple_attemptAs rfl) held_running fun _ => ?_
  refine .bind (Q := fun _ => held W m.cacheRoot i repo .any)
    (.unwrap (fun _ _ hx _ => hx) held_running) fun locator => ?_
  refine .seq (triple_attemptAs rfl) held_running fun _ => ?_
  refine .bind (Q := fun _ => held W m.cacheRoot i repo .any)
    (.attemptAs (fun x _ y hx hsem => ?_)
      fun x _ y hx hsem => running_bare rfl (held_running x hx) hsem) fun _ => ?_
  · have hrunning := running_bare rfl (held_running x hx) hsem
    obtain ⟨name', hname', hlock⟩ := hx.1.1
    refine ⟨⟨⟨name', hname', ?_⟩, hrunning.1, trivial⟩, hrunning.2⟩
    have hne : mirrorLock m.cacheRoot name' ≠ branchLock m.cacheRoot name branch := by
      intro heq
      cases (heq ▸ hlock).symm.trans hsem.1.2.1
    simpa [hsem.1.2.2, Root.setLock, hne] using hlock
  exact (triple_createLocked m hrepo he).err held_running

section Cleanup
variable (m : Manager) {e : ExecutionId} {w : Worktree}

variable {branch : String}

theorem quiet_requireBranch : (m.requireBranch e branch).run.Only fun c => c.quiet = true :=
  .seq (.seq (quiet_preflight m e) fun _ => .attemptAs rfl) fun _ => .refuse

theorem quiet_newJournal : (m.newJournal w).run.Only fun c => c.quiet = true :=
  .seq (.seq (.observe (.attempt rfl)) fun _ => .refuse) fun _ =>
    .seq (quiet_verifyRepositoryStorage m _) fun _ =>
    .seq (.seq (.attemptAs rfl) fun _ => .refuse_bind fun _ => trivial)
      fun _ => .seq (quiet_requireBranch m) fun _ => trivial

theorem quiet_journalFor {existing : Option CleanupJournal} :
    (m.journalFor w existing).run.Only fun c => c.quiet = true :=
  match existing with
  | some _ => .seq (p := unwrap _) trivial fun _ => trivial
  | none => .seq (quiet_newJournal m) fun _ => trivial

theorem quiet_removeRepository : (m.removeRepository e branch).run.Only fun c => c.quiet = true :=
  .seq (quiet_verifyRepositoryStorage m e) fun _ =>
    .seq (quiet_requireBranch m) fun _ => .attemptAs rfl

theorem quiet_removeRepositoryIfPresent :
    (m.removeRepositoryIfPresent e branch).run.Only fun c => c.quiet = true :=
  .seq (.observe (.attempt rfl)) fun r => match r with
    | .error .notFound | .error .full | .error (.other _) | .ok .file | .ok .other => trivial
    | .ok .directory => quiet_removeRepository m

theorem bare_destroy : (m.destroy w).run.Only fun c => c.bare = true :=
  .seq (.attemptAs rfl) fun _ =>
    .seq (bare_of_quiet (quiet_journalFor m)) fun _ =>
    .seq .demand fun _ => .seq (p := unwrap _) trivial fun _ =>
    .seq (.attemptAs rfl) fun _ =>
    .seq (.provided fun _ => .attemptAs rfl) fun _ =>
    bare_of_quiet (quiet_removeRepositoryIfPresent m)

theorem quiet_authenticateAbsence {present : WorktreeError} :
    (m.authenticateAbsence e present).run.Only fun c => c.quiet = true :=
  .seq (.observe (.attempt rfl)) fun r => match r with
    | .error .notFound | .error .full | .error (.other _) | .ok _ => trivial

theorem quiet_ackDestroy : (m.ackDestroy w).run.Only fun c => c.quiet = true :=
  .seq (.attemptAs rfl) fun existing => match existing with
    | none => .refuse_bind fun _ => quiet_authenticateAbsence m
    | some _ => .seq (p := unwrap _) trivial fun _ =>
        .seq (quiet_authenticateAbsence m) fun _ => .attemptAs rfl

theorem quiet_recoverInterruptedCreate {labels : OwnershipLabels} {path : String} :
    (m.recoverInterruptedCreate labels path).run.Only fun c => c.quiet = true :=
  .seq (p := unwrap _) trivial fun _ => .refuse_bind fun _ =>
    .seq (.attemptAs rfl) fun _ => .whenSome fun _ _ =>
    .seq (quiet_selector m _) fun _ => .refuse_bind fun _ =>
    .seq (quiet_rollbackAs m _) fun _ =>
    .seq (.observe (.attemptAs rfl)) fun _ => trivial

end Cleanup

/-- What is known when a program has come to its end. -/
def ended (W : World) (cacheRoot : String) (i : Nat) :
    Outcome → Assertion (process W cacheRoot i).setting
  | .created (.ok w) => owned W cacheRoot i w
  | _ => running W cacheRoot i

theorem triple_ending {t : M Unit} (h : t.run.Only fun c => c.bare = true) :
    Triple (running W cacheRoot i) (ending t) (ended W cacheRoot i) :=
  .bind (triple_bare h) fun r => match r with
    | .ok _ | .error _ => fun _ hx => hx

theorem triple_program (m : Manager) (hm : m.cacheRoot = cacheRoot) (task : Task) :
    Triple (running W cacheRoot i) (task.program m) (ended W cacheRoot i) := by
  cases task with
  | createIn labels repo baseRef branch storage =>
    exact .bind (triple_createIn m hm) fun r => match r with
      | .ok _ | .error _ => fun _ hx => hx
  | destroy w => exact triple_ending (bare_destroy m)
  | ackDestroy w => exact triple_ending (bare_of_quiet (quiet_ackDestroy m))
  | recoverInterruptedCreate labels path =>
    exact triple_ending (bare_of_quiet (quiet_recoverInterruptedCreate m))
  | act =>
    exact .bind (.ask fun _ _ _ hx hsem => running_bare rfl hx hsem) fun _ =>
      fun _ hx => hx

theorem sound (W : World) (cacheRoot : String) :
    (carefully W cacheRoot).Sound (Rely W cacheRoot) (Guar W cacheRoot) Inv (fun _ _ => True)
      (ended W cacheRoot) where
  fits hij hguar := hguar.rely hij
  keeps hguar hinv := hguar.inv hinv
  waits _ _ := trivial
  begins hinv _ hbegins := by
    obtain ⟨⟨m, task, hm, rfl⟩, rfl⟩ := hbegins
    exact ⟨(Fewer.of_eq rfl).guar, triple_program m hm task _ ⟨hinv, trivial⟩⟩
  returns _ _ hreturns := ⟨hreturns ▸ guar_release, trivial⟩
  dies _ hdies := ⟨hdies ▸ guar_release, trivial⟩

end Threads

/-! ## One owner -/

/-- In every state reached, no two directories contain owner records of one branch, and a creation
that returns a worktree returns it while no other directory contains an owner record of its branch. -/
def OneOwner (S : System Call Root Nat Outcome) (s : Root) : Prop :=
  ∀ p, S.Reaches s p →
    (∀ e₁ e₂ repo branch, p.shared.Holds e₁ repo branch → p.shared.Holds e₂ repo branch →
      e₁ = e₂) ∧
    ∀ i w, p.thread i = some (.pure (.created (.ok w))) →
      ∀ e, e ≠ w.executionId → ¬p.shared.Holds e w.repository w.branch

/-- Where no commit that is checked out has an owner record of its own and owner records can be read,
a branch has one owner. -/
theorem one_owner_per_branch (W : World) (cacheRoot : String) {s : Root} (hs : Inv s) :
    OneOwner (carefully W cacheRoot) s := by
  intro p hreach
  obtain ⟨hinv, hknown⟩ := (sound W cacheRoot).reachable hs (fun _ => trivial) hreach
  refine ⟨fun _ _ _ _ h₁ h₂ => hinv.unique h₁ h₂, fun i w hi e hne => ?_⟩
  have howned := hknown i
  rw [hi] at howned
  exact howned.1.2.2 e hne

namespace Sample

def labels (id : String) : OwnershipLabels where
  executionId := ⟨id⟩
  workerId := ⟨"w"⟩
  repository := "org/app"

def receipt (id : String) : Receipt where
  apiVersion := ExecutionStorage.Exact.allocationApiVersion
  labels := labels id
  reservedBytes := 1
  mountPath := s!"/srv/executions/{id}"
  backendKind := "apfs"
  backendKey := "k"
  poolIdentity := "p"
  backend := .apfs "c" "cu" "v" "vn" "fs" "t"
  dockerBind := ⟨"d", "v", "m", s!"/srv/executions/{id}", "fs"⟩

def first : OwnerRecord := ⟨(labels "one").toMap, "base", "work"⟩

/-- Commit `copied` has the owner file of execution `one`. -/
def world : World where
  receipt e := some (receipt e.value)
  tracked sha := if sha = "copied" then { owner := some (.record first) } else {}

def manager : Manager := ⟨"/srv", "https://example.org"⟩

def fresh (readable : Bool) : Root :=
  ({ repository := fun _ => none, entries := [], listed := nofun, readable := fun _ => readable } :
    Root).put ⟨"one"⟩ {} |>.put ⟨"two"⟩ {}

def create (id branch sha : String) : Prog Call Outcome :=
  Task.program manager (.createIn (labels id) "org/app" sha branch (receipt id))

def owning (readable : Bool) : Root :=
  ((create "one" "work" "base").play (Call.exec world 0) (fresh readable)).2.release 0

def after (readable : Bool) (t : Prog Call Outcome) (calls : Nat) : Pool Call Root Nat Outcome :=
  Pool.advance (Call.exec world 1) 1 calls
    ⟨owning readable, Function.update (fun _ => none) 1 (some t)⟩

variable {name branch sha : String}

theorem reaches_after {readable : Bool} {calls : Nat} :
    (processes world "/srv").Reaches (fresh readable)
      (after readable (create name branch sha) calls) := by
  have hbegin : ∀ {p : Pool Call Root Nat Outcome} {i name branch sha}, p.thread i = none →
      (processes world "/srv").Step p
        ⟨p.shared, Function.update p.thread i (some (create name branch sha))⟩ := fun hfree =>
    .begin hfree ⟨⟨manager, _, rfl, rfl⟩, rfl⟩
  obtain ⟨a, ha⟩ : ∃ a, ((create "one" "work" "base").play (Call.exec world 0)
      (fresh readable)).1 = some a := by
    cases readable <;> exact Option.isSome_iff_exists.1 (by decide +kernel)
  have hbegun : (processes world "/srv").Reaches (fresh readable) ⟨fresh readable,
      Function.update (fun _ => none) 0 (some (create "one" "work" "base"))⟩ :=
    .single (hbegin rfl)
  have hran : (processes world "/srv").Reaches (fresh readable)
      ⟨((create "one" "work" "base").play (Call.exec world 0) (fresh readable)).2,
        Function.update (fun _ => none) 0 (some (.pure a))⟩ := by
    have h := hbegun.run (i := 0) rfl (runs_of_play alone (fun s => s) Call.exec_does ha)
    rwa [Function.update_idem] at h
  have hreturned : (processes world "/srv").Reaches (fresh readable)
      ⟨owning readable, fun _ => none⟩ := by
    have h := hran.tail (.done (i := 0) rfl rfl)
    rwa [Function.update_idem, Function.update_eq_self] at h
  exact System.Reaches.advance Call.exec_does calls (hreturned.tail (hbegin rfl))

theorem inv_fresh (readable : Bool) : Inv (fresh readable) := by
  have hnone : ∀ e, (fresh readable).record e = none := fun e => by
    by_cases h₂ : e = ⟨"two"⟩
    · subst h₂
      rfl
    · by_cases h₁ : e = ⟨"one"⟩
      · subst h₁
        rfl
      · rw [fresh, record_put_of_ne h₂, record_put_of_ne h₁]
        rfl
  refine ⟨fun {e₁ _ _ _} ⟨r, hr, _⟩ => ?_, fun {e r} hr => ?_⟩
  · rw [hnone e₁] at hr
    exact nomatch hr
  · rw [hnone e] at hr
    exact nomatch hr

theorem not_oneOwner {readable : Bool} {calls : Nat} {r₁ r₂ : OwnerRecord}
    (h₁ : (after readable (create name branch sha) calls).shared.record ⟨"one"⟩ = some r₁)
    (h₂ : (after readable (create name branch sha) calls).shared.record ⟨"two"⟩ = some r₂)
    (hrepo₁ : Manager.recordedRepository r₁ = some "org/app")
    (hrepo₂ : Manager.recordedRepository r₂ = some "org/app") (hbranch : r₂.branch = r₁.branch) :
    ¬OneOwner (processes world "/srv") (fresh readable) := fun h => by
  have hsame := (h _ reaches_after).1 ⟨"one"⟩ ⟨"two"⟩ "org/app" r₁.branch ⟨r₁, h₁, hrepo₁, rfl⟩
    ⟨r₂, h₂, hrepo₂, hbranch⟩
  exact absurd hsame (by decide)

def copied : Root := (after true (create "two" "other" "copied") 94).shared

def shared : Root := (after false (create "two" "work" "base") 200).shared

end Sample

open Sample in
/-- A commit with the owner file of another execution puts a second owner record of its branch into a
directory, and an owner record that cannot be read lets a second execution have the branch. -/
theorem two_owners_of_a_branch :
    (Inv (fresh true) ∧ ¬OneOwner (processes world "/srv") (fresh true)) ∧
      Inv (fresh false) ∧ ¬OneOwner (processes world "/srv") (fresh false) := by
  have hcopied₁ : copied.record ⟨"one"⟩ = some first := by decide +kernel
  have hcopied₂ : copied.record ⟨"two"⟩ = some first := by decide +kernel
  have hshared₁ : shared.record ⟨"one"⟩ = some first := by decide +kernel
  have hshared₂ : shared.record ⟨"two"⟩ = some ⟨(labels "two").toMap, "base", "work"⟩ := by
    decide +kernel
  exact ⟨⟨inv_fresh true, not_oneOwner hcopied₁ hcopied₂ rfl rfl rfl⟩, inv_fresh false,
    not_oneOwner hshared₁ hshared₂ rfl rfl rfl⟩

open Sample in
/-- The directories of two executions meet the condition. -/
theorem one_owner_per_branch_sample :
    Inv (fresh true) ∧ OneOwner (carefully world "/srv") (fresh true) :=
  ⟨inv_fresh true, one_owner_per_branch world "/srv" (inv_fresh true)⟩

end Orchestrator.GitWorktree
