import Orchestrator.Storage.Manager

/-!
# What the storage manager leaves

Specifications of `allocate`, `release` and `ack_release`, valid at every crash point: `Sound` holds
after every single effect, an allocation that fails leaves nothing when its rollback works, and a
release that returns has removed everything.
-/

namespace Orchestrator

open Prog

namespace Allocation

/-- A Ready journal has a mounted object, and a tombstone excludes an allocation in progress. -/
structure Sound (a : Allocation) : Prop where
  ready : ∀ r, a.journal = some (.ready r) → a.backend = .mounted
  tombstone : a.tombstone.isSome = true → ∀ l b i, a.journal ≠ some (.allocating l b i)

def Unready (a : Allocation) : Prop := ∀ r, a.journal ≠ some (.ready r)

def Vacant (a : Allocation) : Prop :=
  a.mountpoint = false ∧ a.backend = .absent ∧ a.journal = none

def Building (a : Allocation) : Prop :=
  a.tombstone = none ∧ ∃ l b i, a.journal = some (.allocating l b i)

variable {a : Allocation}

theorem Vacant.left (h : a.Vacant) : a.left = false := by
  obtain ⟨hm, hb, hj⟩ := h
  simp only [Allocation.left, hm, hb, hj]
  rfl

theorem Vacant.unready (h : a.Vacant) : a.Unready := by
  intro r hr
  rw [h.2.2] at hr
  cases hr

theorem Building.unready (h : a.Building) : a.Unready := by
  obtain ⟨_, l, b, i, hj⟩ := h
  intro r hr
  rw [hj] at hr
  cases hr

theorem Sound.of_unready {a a' : Allocation} (h : a.Sound) (hu : a.Unready)
    (hj : a'.journal = a.journal) (ht : a'.tombstone = a.tombstone) : a'.Sound where
  ready r hr := absurd (hj ▸ hr) (hu r)
  tombstone hs := by
    rw [hj]
    exact h.tombstone (ht ▸ hs)

theorem Sound.left_eq_false (h : a.Sound) (hm : a.mountpoint = false)
    (hb : a.backend = .absent) (ht : a.tombstone.isSome = true) : a.left = false := by
  have hj : a.journal.any PhaseJournal.live = false := by
    cases hcase : a.journal with
    | none => rfl
    | some j =>
      cases j with
      | allocating l b i => exact absurd hcase (h.tombstone ht l b i)
      | ready r => exact absurd ((h.ready r hcase).symm.trans hb) nofun
      | releasing r p => rfl
  simp only [Allocation.left, hm, hb, hj]
  rfl

end Allocation

namespace ExecutionStorage

open Allocation

/-- One manager works on an allocation at a time, and no call of a rollback fails. -/
def setting : Setting StorageCall Allocation where
  sem := StorageCall.Tidy
  env := alone
  safe := Sound

def holding (φ : Allocation → Prop) : Assertion setting where
  holds a := a.Sound ∧ φ a
  stable := fun h => h.elim
  within h := h.1

variable {α : Type} {φ ψ χ : Allocation → Prop} {undoing : Bool}

/-- The error case of a call: it left the state alone and was no call of a rollback. -/
abbrev failing (undoing : Bool) (φ : Allocation → Prop) : Assertion setting :=
  holding fun a => undoing = false ∧ φ a

/-- From `φ`, program `p` ends in `ψ`, or fails with `φ` still true and is no rollback. -/
abbrev HoldingE (undoing : Bool) (φ : Allocation → Prop)
    (p : ExceptT StorageError (Prog StorageCall) α) (ψ : α → Allocation → Prop) : Prop :=
  TripleE (holding φ) p (fun r => holding (ψ r)) (failing undoing φ)

/-! ## Calls -/

theorem triple_read {op : StorageOp (Except StorageError α)} {R : α → Allocation → Prop}
    (hsame : ∀ a r a', op.Does a r a' → a' = a) (hok : ∀ a r a', op.Does a (.ok r) a' → R r a)
    (hsucc : ∀ e, op.succeeded (.error e) = false) :
    HoldingE undoing φ (call undoing op) fun r a => φ a ∧ R r a := by
  refine .attempt (fun a r a' ha hc => ?_) (fun a e a' ha hc => ?_)
  · obtain rfl := hsame _ _ _ hc.1
    exact ⟨ha.1, ha.2, hok _ _ _ hc.1⟩
  · obtain rfl := hsame _ _ _ hc.1
    refine ⟨ha.1, ?_, ha.2⟩
    cases hu : undoing with
    | false => rfl
    | true => exact absurd (hc.2 hu) (by rw [hsucc]; exact nofun)

theorem triple_readTombstone : HoldingE undoing φ (call undoing .readTombstone)
      fun t a => φ a ∧ t = a.tombstone :=
  triple_read (fun _ _ _ h => h.1) (fun _ _ _ h => h.2 _ rfl) fun _ => rfl

theorem triple_journalExists : HoldingE undoing φ (call undoing .journalExists)
      fun b a => φ a ∧ b = a.journal.isSome :=
  triple_read (fun _ _ _ h => h.1) (fun _ _ _ h => h.2 _ rfl) fun _ => rfl

theorem triple_readJournal : HoldingE undoing φ (call undoing .readJournal)
      fun j a => φ a ∧ a.journal = some j :=
  triple_read (fun _ _ _ h => h.1) (fun _ _ _ h => h.2 _ rfl) fun _ => rfl

theorem triple_backendState : HoldingE undoing φ (call undoing .backendState)
      fun b a => φ a ∧ b = a.backend :=
  triple_read (fun _ _ _ h => h.1) (fun _ _ _ h => h.2 _ rfl) fun _ => rfl

theorem triple_pathAbsent : HoldingE undoing φ (call undoing .pathAbsent)
      fun b a => φ a ∧ b = !a.mountpoint :=
  triple_read (fun _ _ _ h => h.1) (fun _ _ _ h => h.2 _ rfl) fun _ => rfl

theorem triple_discover : HoldingE undoing φ (call undoing .discover)
      fun b a => φ a ∧ b = decide (a.backend ≠ .absent) :=
  triple_read (fun _ _ _ h => h.1) (fun _ _ _ h => h.2 _ rfl) fun _ => rfl

theorem triple_check {op : StorageOp (Except StorageError α)}
    (hsame : ∀ a r a', op.Does a r a' → a' = a) (hsucc : ∀ e, op.succeeded (.error e) = false) :
    HoldingE undoing φ (call undoing op) fun _ => φ :=
  (triple_read (R := fun _ _ => True) hsame (fun _ _ _ _ => trivial) hsucc).post fun _ _ h =>
    ⟨h.1, h.2.1⟩

theorem triple_verify : HoldingE undoing φ (call undoing .verify) fun _ => φ :=
  triple_check (fun _ _ _ h => h) fun _ => rfl

variable {u : StorageChange} {b : BackendState} {receipt : Option AllocationReceipt}

theorem triple_change (hdone : ∀ a, a.Sound → φ a → (u.apply a).Sound ∧ ψ (u.apply a))
    (hkept : ∀ a, φ a → χ a) (htorn : u.torn = true → ∀ a, φ a → χ (u.apply a)) :
    TripleE (holding φ) (change undoing u) (fun _ => holding ψ) (failing undoing χ) := by
  refine .attempt (fun a r a' ha hc => ?_) (fun a e a' ha hc => ?_)
  · obtain rfl : a' = u.apply a := hc.1
    exact hdone a ha.1 ha.2
  · have hu : undoing = false := by
      cases hu : undoing with
      | false => rfl
      | true => exact absurd (hc.2 hu) nofun
    rcases (hc.1 : a' = a ∨ u.torn = true ∧ a' = u.apply a) with rfl | ⟨ht, rfl⟩
    · exact ⟨ha.1, hu, hkept _ ha.2⟩
    · exact ⟨(hdone a ha.1 ha.2).1, hu, htorn ht a ha.2⟩

/-! ## Removal -/

theorem triple_object (hu : ∀ a, u.apply a = { a with backend := b }) :
    HoldingE undoing Unready (change undoing u) fun _ a => a.Unready ∧ a.backend = b := by
  refine triple_change (fun a ha hφ => ?_) (fun a hφ => hφ) fun _ a hφ => ?_
  · rw [hu]
    exact ⟨ha.of_unready hφ rfl rfl, hφ, rfl⟩
  · rw [hu]
    exact hφ

theorem triple_noteRelease {phase : ReleasePhase} :
    TripleE (holding fun a => a.Unready ∧ a.backend = b) (noteRelease undoing receipt phase)
      (fun _ => holding fun a => a.Unready ∧ a.backend = b) (failing undoing Unready) := by
  refine .whenSome (fun r _ => ?_) fun _ _ h => h
  exact triple_change (fun a _ hφ => ⟨⟨nofun, nofun⟩, nofun, hφ.2⟩) (fun a hφ => hφ.1) nofun

theorem triple_exact
    (hu : ∀ a, u.apply a = { a with backend := b }) {receipt : Option AllocationReceipt}
    {phase : ReleasePhase} {e : StorageError} :
    HoldingE undoing Unready (do
        change undoing u
        let state ← call undoing .backendState
        refuse (state ≠ b) e
        noteRelease undoing receipt phase
        pure state)
      fun state a => a.Unready ∧ a.backend = b ∧ state = b := by
  refine .bind (triple_object hu) fun _ => ?_
  refine .seq triple_backendState (fun a h => ⟨h.1, h.2.1, h.2.2.1⟩) fun state => ?_
  refine .learn (.refuse fun a h hne => ?_) fun _ hstate => ?_
  · exact absurd (h.2.2.trans h.2.1.2) hne
  refine .bind (triple_noteRelease.pre fun a h => ⟨h.1, h.2.1⟩) fun _ => ?_
  exact .pure fun a h => ⟨h.1, h.2.1, h.2.2, not_not.1 hstate⟩

theorem triple_unmountExact {state : BackendState} :
    TripleE (holding fun a => a.Unready ∧ state = a.backend) (unmountExact undoing receipt state)
      (fun state => holding fun a => a.Unready ∧ state = a.backend ∧ a.backend ≠ .mounted)
      (failing undoing Unready) := by
  unfold unmountExact
  split
  · refine (triple_exact fun _ => rfl).weaken (fun a h => ⟨h.1, h.2.1⟩) (fun state a h => ?_)
      fun _ h => h
    obtain ⟨ha, hφ, hb, hs⟩ := h
    exact ⟨ha, hφ, hs.trans hb.symm, by rw [hb]; exact nofun⟩
  · next hne => exact .pure fun a h => ⟨h.1, h.2.1, h.2.2, h.2.2 ▸ hne⟩

theorem triple_removeExact {state : BackendState} :
    TripleE (holding fun a => a.Unready ∧ state = a.backend ∧ a.backend ≠ .mounted)
      (removeExact undoing receipt state)
      (fun state => holding fun a => a.Unready ∧ a.backend = .absent ∧ state = .absent)
      (failing undoing Unready) := by
  unfold removeExact
  split
  · exact (triple_exact fun _ => rfl).pre fun a h => ⟨h.1, h.2.1⟩
  · next hne =>
    refine .pure fun a h => ?_
    obtain ⟨ha, hφ, rfl, hm⟩ := h
    have hb : a.backend = .absent := by
      cases hcase : a.backend with
      | mounted => exact absurd hcase hm
      | unmounted => exact absurd hcase hne
      | absent => rfl
    exact ⟨ha, hφ, hb, hb⟩

theorem triple_removeReleasedMountpoint (hu : ∀ a, φ a → a.Unready)
    (hφ : ∀ a, φ a → φ { a with mountpoint := false }) :
    HoldingE undoing φ (removeReleasedMountpoint undoing)
      fun _ a => φ a ∧ a.mountpoint = false := by
  refine .bind triple_verify fun _ => ?_
  refine .bind triple_pathAbsent fun absent => ?_
  refine .provided (fun _ => ?_) fun hno a h => ?_
  · exact triple_change (fun a ha h => ⟨ha.of_unready (hu a h.1) rfl rfl, hφ a h.1, rfl⟩)
      (fun a h => h.1) nofun
  · refine ⟨h.1, h.2.1, ?_⟩
    have hm : absent = !a.mountpoint := h.2.2
    cases absent with
    | true => simpa using hm
    | false => exact absurd rfl hno

theorem triple_discardAllocation :
    TripleE (holding fun a => a.Unready ∧ a.backend = .absent) (discardAllocation undoing)
      (fun _ => holding Vacant) (failing undoing Unready) := by
  refine .seq (triple_removeReleasedMountpoint (fun _ h => h.1) fun _ h => h)
    (fun a h => ⟨h.1, h.2.1, h.2.2.1⟩) fun _ => ?_
  exact triple_change (fun _ _ hφ => ⟨⟨nofun, nofun⟩, hφ.2, hφ.1.2, rfl⟩) (fun _ hφ => hφ.1.1) nofun

/-- `cleanup_identity` removes everything, whatever it starts from, unless a Ready journal still
stands for it. -/
theorem triple_cleanupIdentity :
    HoldingE undoing Unready (cleanupIdentity undoing receipt) fun _ => Vacant := by
  refine .bind triple_backendState fun state => ?_
  refine .bind triple_unmountExact fun state => ?_
  refine .bind triple_removeExact fun state => ?_
  refine .bind (.refuse fun a h hne => absurd h.2.2.2 hne) fun _ => ?_
  exact triple_discardAllocation.pre fun a h => ⟨h.1.1, h.1.2.1, h.1.2.2.1⟩

/-! ## Allocation -/

section Allocate
variable {labels : OwnershipLabels} {bytes : Nat}

theorem triple_writeAllocating {i : Bool} (hφ : ∀ a, φ a → a.tombstone = none) :
    HoldingE undoing φ (change undoing (.writeJournal (.allocating labels bytes i)))
      fun _ => Building := by
  refine triple_change (fun a _ h => ⟨⟨nofun, fun hs => ?_⟩, hφ a h, _, _, _, rfl⟩) (fun _ h => h) nofun
  have hnone : (StorageChange.apply (.writeJournal (.allocating labels bytes i)) a).tombstone = none :=
    hφ a h
  rw [hnone] at hs
  cases hs

variable {identified : Bool} {layout : ExecutionLayout}

theorem triple_findObject : HoldingE undoing Building (findObject undoing identified)
      fun found a => a.Building ∧ (found = false → a.backend = .absent) := by
  unfold findObject
  split
  · exact .pure fun a h => ⟨h.1, h.2, nofun⟩
  · refine triple_discover.post fun found a h => ⟨h.1, h.2.1, fun hf => ?_⟩
    have hd : decide (a.backend ≠ .absent) = false := h.2.2.symm.trans hf
    exact not_not.1 (of_decide_eq_false hd)

theorem triple_undoAllocation :
    TripleE (holding Building) (undoAllocation labels bytes identified) (fun _ => holding Vacant)
      (holding Vacant) := by
  refine .seq triple_findObject (fun a h => absurd h.2.1 nofun) fun found => ?_
  split
  · refine .seq (triple_verify.pre fun a h => ⟨h.1, h.2.1⟩) (fun a h => absurd h.2.1 nofun)
      fun _ => ?_
    refine .seq (triple_writeAllocating fun _ h => h.1) (fun a h => absurd h.2.1 nofun) fun _ => ?_
    exact triple_cleanupIdentity.weaken (fun a h => ⟨h.1, h.2.unready⟩) (fun _ _ h => h)
      fun a h => absurd h.2.1 nofun
  · next hf =>
    refine triple_discardAllocation.weaken (fun a h => ⟨h.1, h.2.1.unready, ?_⟩) (fun _ _ h => h)
      fun a h => absurd h.2.1 nofun
    exact h.2.2 (Bool.not_eq_true _ ▸ hf)

theorem triple_rollbackAllocation {cause : StorageError} {Q : α → Assertion setting} :
    TripleE (holding Building) (rollbackAllocation labels bytes identified cause) Q
      (holding Vacant) := by
  refine .bind (.observe triple_undoAllocation) fun r => ?_
  cases r with
  | ok u => exact .throw fun _ h => h
  | error e => exact .throw fun _ h => h

theorem triple_requireMounted : TripleE (holding Building) requireMounted
      (fun _ => holding fun a => a.Building ∧ a.backend = .mounted) (holding Building) := by
  refine TripleE.seq triple_backendState (fun a h => ⟨h.1, h.2.2⟩) fun state => ?_
  refine (TripleE.refuse (E := holding Building)
    fun (a : Allocation) (h : a.Sound ∧ a.Building ∧ state = a.backend) _ => ⟨h.1, h.2.1⟩).post
      fun _ a h => ?_
  exact ⟨h.1.1, h.1.2.1, h.1.2.2.symm.trans (not_not.1 h.2)⟩

/-- The Ready journal is written over a mounted object, and only then. -/
theorem triple_establish : TripleE (holding Building) (establish layout labels bytes)
      (fun r => (holding fun _ => True).and (r.labels = labels)) (holding Building) := by
  have hkeep : ∀ a, failing false Building a → holding Building a := fun a h => ⟨h.1, h.2.2⟩
  refine .seq triple_verify hkeep fun _ => ?_
  refine .seq (triple_writeAllocating fun _ h => h.1) hkeep fun _ => ?_
  refine .seq triple_verify hkeep fun _ => ?_
  refine .seq (triple_writeAllocating fun _ h => h.1) hkeep fun _ => ?_
  refine .seq triple_verify hkeep fun _ => ?_
  have hmount : HoldingE false Building (change false .mountBackend) fun _ => Building :=
    triple_change (fun a ha hφ => ⟨ha.of_unready hφ.unready rfl rfl, hφ⟩) (fun _ h => h)
      fun _ _ h => h
  refine .seq hmount hkeep fun _ => ?_
  refine .bind triple_requireMounted fun _ => ?_
  refine .seq triple_verify (fun a h => ⟨h.1, h.2.2.1⟩) fun _ => ?_
  refine .bind (triple_requireMounted.pre fun a h => ⟨h.1, h.2.1⟩) fun _ => ?_
  refine .seq triple_verify (fun a h => ⟨h.1, h.2.2.1⟩) fun _ => ?_
  have hready : ∀ r, TripleE (holding fun a => a.Building ∧ a.backend = .mounted)
      (change false (.writeJournal (.ready r))) (fun _ => holding fun _ => True)
      (failing false Building) :=
    fun r => triple_change (fun a _ hφ => ⟨⟨fun _ _ => hφ.2, fun _ => nofun⟩, trivial⟩)
      (fun _ h => h.1) nofun
  refine .seq (hready _) hkeep fun _ => ?_
  exact .pure fun a h => ⟨h, rfl⟩

theorem triple_buildBackend : TripleE (holding Building) (buildBackend layout labels bytes)
      (fun r => (holding fun _ => True).and (r.labels = labels)) (holding Vacant) := by
  have hcreate : HoldingE false Building (change false .createBackend) fun _ => Building :=
    triple_change (fun a ha hφ => ⟨ha.of_unready hφ.unready rfl rfl, hφ⟩) (fun _ h => h)
      fun _ _ h => h
  refine .bind (.observe hcreate) fun created => ?_
  cases created with
  | error e => exact triple_rollbackAllocation.pre fun a h => ⟨h.1, h.2.2⟩
  | ok u =>
    refine .bind (.observe triple_establish) fun established => ?_
    cases established with
    | error e => exact triple_rollbackAllocation
    | ok r => exact .pure fun a h => h

/-- Nothing but perhaps the mountpoint, and no release to acknowledge. -/
def Bare (a : Allocation) : Prop := a.tombstone = none ∧ a.backend = .absent ∧ a.journal = none

theorem triple_openJournal :
    TripleE (holding Bare) (openJournal labels bytes) (fun _ => holding Building)
      (holding Vacant) := by
  have hbare : ∀ a, Bare a → a.Unready := fun a h r hr => by
    rw [h.2.2] at hr
    cases hr
  refine .bind (.observe (triple_writeAllocating fun _ h => h.1)) fun created => ?_
  cases created with
  | ok u => exact .pure fun a h => h
  | error e =>
    refine .bind (.observe
      ((triple_removeReleasedMountpoint hbare fun _ h => h).pre fun a h => ⟨h.1, h.2.2⟩))
      fun removed => ?_
    refine .throw fun a h => ?_
    cases removed with
    | ok u => exact ⟨h.1, h.2.2, h.2.1.2⟩
    | error e => exact absurd h.2.1 nofun

theorem triple_createMountpoint :
    TripleE (holding fun a => a.Vacant ∧ a.tombstone = none) (createMountpoint layout)
      (fun _ => holding Bare) (holding Vacant) := by
  have hkeep : ∀ a, failing false (fun a => a.Vacant ∧ a.tombstone = none) a → holding Vacant a :=
    fun a h => ⟨h.1, h.2.2.1⟩
  refine .seq triple_verify hkeep fun _ => ?_
  refine .seq triple_pathAbsent hkeep fun absent => ?_
  refine .learn (.refuse fun a h _ => ⟨h.1, h.2.1.1⟩) fun _ _ => ?_
  have hcreate : TripleE
      (holding fun a => (a.Vacant ∧ a.tombstone = none) ∧ absent = !a.mountpoint)
      (change false .createMountpoint) (fun _ => holding Bare) (failing false Vacant) :=
    triple_change (fun a ha hφ => ⟨ha.of_unready hφ.1.1.unready rfl rfl, hφ.1.2, hφ.1.1.2⟩)
      (fun _ h => h.1.1) nofun
  exact hcreate.err fun a h => ⟨h.1, h.2.2⟩

/-- `allocate`, where nothing is: a failed allocation leaves nothing when its rollback works. -/
theorem triple_allocate {stateRoot : String} {diskGib : Nat} :
    TripleE (holding Vacant) (allocate stateRoot labels diskGib)
      (fun r => (holding fun _ => True).and (r.labels = labels)) (holding Vacant) := by
  have hpure : ∀ {β : Type} (x : Except StorageError β),
      (holding Vacant).KeptBy (ExceptT.mk (.pure x)) :=
    fun x => match x with
      | .ok _ => fun _ h => h
      | .error _ => fun _ h => h
  refine .bind (hpure _) fun bytes => ?_
  refine .bind (hpure _) fun layout => ?_
  refine .seq triple_readTombstone (fun a h => ⟨h.1, h.2.2⟩) fun t => ?_
  refine .learn (.refuse fun a h _ => ⟨h.1, h.2.1⟩) fun _ ht => ?_
  have ht : t = none := Option.not_isSome_iff_eq_none.1 ht
  refine .seq triple_journalExists (fun a h => ⟨h.1, h.2.2.1⟩) fun journaled => ?_
  refine .bind (Q := fun _ => holding fun a => a.Vacant ∧ a.tombstone = none)
    (.provided (fun hj => ?_) fun _ a h => ⟨h.1, h.2.1.1, h.2.1.2.symm.trans ht⟩) fun _ => ?_
  · -- a journal exists only where the allocation is not vacant
    intro a h
    have hnone : a.journal = none := h.2.1.1.2.2
    have hsome : journaled = a.journal.isSome := h.2.2
    rw [hj, hnone] at hsome
    cases hsome
  refine .seq (triple_check (fun _ _ _ h => h) fun _ => rfl) (fun a h => ⟨h.1, h.2.2.1⟩)
    fun reservable => ?_
  refine .learn (.refuse fun a h _ => ⟨h.1, h.2.1⟩) fun _ _ => ?_
  refine .bind triple_createMountpoint fun _ => ?_
  exact .bind triple_openJournal fun _ => triple_buildBackend

end Allocate

/-! ## Release -/

theorem triple_authenticate {receipt : AllocationReceipt} {journal : PhaseJournal} :
    TripleE (holding fun a => a.journal = some journal)
      (authenticateCleanupAuthority receipt journal)
      (fun state => (holding fun a => a.journal = some journal ∧ state = a.backend).and
        (journal.authorizes receipt = true))
      (holding fun _ => True) := by
  have hkeep : ∀ a, failing false (fun a => a.journal = some journal) a → holding (fun _ => True) a :=
    fun a h => ⟨h.1, trivial⟩
  refine .seq triple_verify hkeep fun _ => ?_
  refine .learn (.refuse fun a h _ => ⟨h.1, trivial⟩) fun _ hauth => ?_
  have hauth : journal.authorizes receipt = true := by simpa using hauth
  refine .seq triple_verify hkeep fun _ => ?_
  refine .seq triple_backendState hkeep fun state => ?_
  refine .seq triple_pathAbsent (fun a h => ⟨h.1, trivial⟩) fun absent => ?_
  refine .bind (.refuse fun a h _ => ⟨h.1, trivial⟩) fun _ => ?_
  exact .pure fun a h => ⟨⟨h.1.1, h.1.2.1⟩, hauth⟩

theorem triple_releaseAuthorized {receipt : AllocationReceipt} {tombstoned : Bool} :
    TripleE (holding fun _ => True) (releaseAuthorized receipt tombstoned)
      (fun _ => holding Vacant) (holding fun _ => True) := by
  have hkeep : ∀ a, failing false (fun _ => True) a → holding (fun _ => True) a :=
    fun a h => ⟨h.1, trivial⟩
  refine .seq (triple_check (fun _ _ _ h => h) fun _ => rfl) hkeep fun held => ?_
  refine .learn (.refuse fun a h _ => h) fun _ _ => ?_
  refine .seq triple_verify hkeep fun _ => ?_
  refine .seq triple_readJournal hkeep fun journal => ?_
  refine .bind (triple_authenticate.pre fun a h => ⟨h.1, h.2.2⟩) fun state => ?_
  refine .of_and fun hauth => ?_
  refine .learn (.refuse fun a h _ => ⟨h.1, trivial⟩) fun _ hready => ?_
  -- the tombstone: the journal that authorizes the release is not an allocating one
  have htomb : TripleE (holding fun a => a.journal = some journal ∧ state = a.backend)
      (change false (.writeTombstone receipt)) (fun _ => holding fun a => a.journal = some journal)
      (failing false fun _ => True) := by
    refine triple_change (fun a ha hφ => ⟨⟨ha.ready, fun _ l b i hj => ?_⟩, hφ.1⟩)
      (fun _ _ => trivial) nofun
    have heq : some journal = some (.allocating l b i) := hφ.1.symm.trans hj
    cases heq
    cases hauth
  refine .bind (Q := fun _ => holding fun a => a.journal = some journal)
    (.provided (fun _ => htomb.err hkeep)
      fun _ a h => ⟨h.1, h.2.1⟩) fun _ => ?_
  -- a Ready journal becomes a Releasing one; the other is Releasing already
  have hjournal : TripleE (holding fun a => a.journal = some journal)
      (change false (.writeJournal (.releasing receipt .mounted))) (fun _ => holding Unready)
      (failing false fun _ => True) :=
    triple_change (fun a _ _ => ⟨⟨nofun, fun _ => nofun⟩, nofun⟩) (fun _ _ => trivial) nofun
  refine .bind (Q := fun _ => holding Unready)
    (.provided (fun _ => hjournal.err hkeep)
      fun hno a h => ⟨h.1, fun r hr => ?_⟩) fun _ => ?_
  · have heq : some journal = some (.ready r) := h.2.symm.trans hr
    cases heq
    exact hno rfl
  exact triple_cleanupIdentity.err fun a h => ⟨h.1, trivial⟩

theorem triple_objectAbsent : HoldingE false φ objectAbsent
      fun gone a => φ a ∧ (gone = true → a.backend = .absent) := by
  refine .bind triple_backendState fun state => .pure fun a h => ?_
  exact ⟨h.1, h.2.1, fun hgone => h.2.2.symm.trans (of_decide_eq_true hgone)⟩

theorem triple_physicallyAbsent : HoldingE false φ physicallyAbsent
      fun gone a => φ a ∧ (gone = true → a.mountpoint = false ∧ a.backend = .absent) := by
  refine .bind triple_pathAbsent fun absent => ?_
  split
  · next habs =>
    refine triple_objectAbsent.weaken (fun _ h => h) (fun gone a h => ?_) fun a h => ?_
    · refine ⟨h.1, h.2.1.1, fun hgone => ⟨?_, h.2.2 hgone⟩⟩
      have hm : absent = !a.mountpoint := h.2.1.2
      rw [habs] at hm
      simpa using hm
    · exact ⟨h.1, rfl, h.2.2.1⟩
  · exact .pure fun a h => ⟨h.1, h.2.1, nofun⟩

/-- A release that returns has removed the mountpoint, the object and the journal of the
allocation. -/
theorem triple_release {receipt : AllocationReceipt} :
    TripleE (holding fun _ => True) (release receipt) (fun _ => holding fun a => a.left = false)
      (holding fun _ => True) := by
  have hkeep : ∀ a, failing false (fun _ => True) a → holding (fun _ => True) a :=
    fun a h => ⟨h.1, trivial⟩
  refine .seq triple_readTombstone hkeep fun t => ?_
  refine .learn (.refuse fun a h _ => ⟨h.1, trivial⟩) fun _ _ => ?_
  have hfull : ∀ b, TripleE (holding fun _ => True) (releaseAuthorized receipt b)
      (fun _ => holding fun a => a.left = false) (holding fun _ => True) :=
    fun b => triple_releaseAuthorized.post fun _ a h => ⟨h.1, h.2.left⟩
  split
  · next ht =>
    refine .seq (triple_physicallyAbsent (φ := fun a => t = a.tombstone) |>.pre fun a h => ?_)
      (fun a h => ⟨h.1, trivial⟩) fun gone => ?_
    · exact ⟨h.1, h.2.2⟩
    split
    · next hgone =>
      refine .pure fun a h => ⟨h.1, ?_⟩
      obtain ⟨hm, hb⟩ := h.2.2 hgone
      exact h.1.left_eq_false hm hb (h.2.1 ▸ ht)
    · exact (hfull true).pre fun a h => ⟨h.1, trivial⟩
  · exact (hfull false).pre fun a h => ⟨h.1, trivial⟩

/-! ## Acknowledgments -/

/-- Calls that remove nothing but a tombstone. -/
def acknowledges {β : Type} (c : StorageCall β) : Prop :=
  match c.op with
  | .change u => u = .removeTombstone
  | _ => True

theorem does_acknowledges {β : Type} {c : StorageCall β} (hc : acknowledges c) {a a' : Allocation}
    {r : β} (h : c.Does a r a') : a' = a ∨ a' = { a with tombstone := none } := by
  obtain ⟨op, undoing⟩ := c
  cases op with
  | change u =>
    obtain rfl : u = .removeTombstone := hc
    cases r with
    | ok _ => exact .inr h
    | error _ => exact .inl (h.resolve_right fun ht => Bool.noConfusion ht.1)
  | probe | held | verify => exact .inl h
  | _ => exact .inl h.1

theorem only_releasedAlready (tombstone : Option AllocationReceipt) :
    (releasedAlready tombstone).run.Only acknowledges := by
  unfold releasedAlready
  split
  · refine .seq (.seq (.attempt trivial) fun _ => .pure _) fun gone => ?_
    split
    · exact .attempt trivial
    · exact .pure _
  · exact .pure _

theorem only_ackRelease (receipt : AllocationReceipt) :
    (ackRelease receipt).run.Only acknowledges := by
  refine .seq (.attempt trivial) fun tombstone => ?_
  refine .seq (only_releasedAlready tombstone) fun settled => ?_
  split
  · exact .pure _
  · refine .seq .demand fun _ => .seq .refuse fun _ => ?_
    refine .seq (.attempt trivial) fun _ => .seq .refuse fun _ => ?_
    refine .seq (.attempt trivial) fun _ => .seq .refuse fun _ => ?_
    exact .attempt rfl

end ExecutionStorage
end Orchestrator
