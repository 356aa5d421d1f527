import Orchestrator.Storage.Proof.Rollback
import Orchestrator.Storage.Release

/-!
# A release that returns has released everything

A release that returns without an error has either gone through `cleanup_identity`, which ends with
the removal of the mountpoint and the journal, or has found the tombstone with mountpoint and backend
object gone. The second way does not look at the journal: when an earlier call ended between the
removal of the mountpoint and that of the journal, the journal stays (`JournalStranded`).
-/

namespace Orchestrator.ExecutionStorage.Exact

open Prog

variable {i : Nat} {h h' : Host} {m : Manager} {p : Place} {receipt : AllocationReceipt}

/-- All traces of the allocation are gone, and the tombstone says so. -/
structure Released (receipt : AllocationReceipt) (h : Host) : Prop where
  tombstone : h.tombstone = some receipt
  mountpoint : h.mountpoint = false
  object : h.volumes receipt.backend.object = .absent
  journal : h.journal = none

/-- The tombstone is there, mountpoint and backend object are gone, and the journal is still there. -/
structure JournalStranded (receipt : AllocationReceipt) (h : Host) : Prop where
  tombstone : h.tombstone = some receipt
  mountpoint : h.mountpoint = false
  object : h.volumes receipt.backend.object = .absent
  journal : h.journal.isSome = true

/-- The hostAt, once the tombstone is removed. -/
def Host.acked (h : Host) : Host := { h with tombstone := none }

/-! ## Calls of the storage -/

section Storage
variable {β : Type} {c : Call β} {d : Disk}

@[simp] theorem Host.issue_journal : (h.issue c).journal = h.journal := by cases c <;> rfl
@[simp] theorem Host.issue_tombstone : (h.issue c).tombstone = h.tombstone := by cases c <;> rfl
@[simp] theorem Host.issue_exclusive : (h.issue c).exclusive = h.exclusive := by cases c <;> rfl
@[simp] theorem Host.issue_shared : (h.issue c).shared = h.shared := by cases c <;> rfl
@[simp] theorem Host.issue_leases : (h.issue c).leases = h.leases := by cases c <;> rfl
@[simp] theorem Host.issue_allocating : (h.issue c).allocating = h.allocating := by cases c <;> rfl
@[simp] theorem Host.put_tombstone : (h.put d).tombstone = h.tombstone := rfl

end Storage

/-! ## One call after another -/

def solo (i : Nat) (ok : {β : Type} → ReleaseCall β → β → Prop) (safe : Host → Prop) :
    Setting ReleaseCall Host where
  sem c h r h' := c.Does i h r h' ∧ ok c r
  env := alone
  safe := safe

section Solo
variable {ok : {β : Type} → ReleaseCall β → β → Prop} {safe : Host → Prop}

def fact (P : Host → Prop) (hsafe : ∀ h, P h → safe h) : Assertion (solo i ok safe) where
  holds := P
  stable := False.elim
  within := hsafe _

end Solo

/-! ## A release that returns -/

/-- Whatever calls answer. -/
abbrev free (i : Nat) : Setting ReleaseCall Host := solo i (fun _ _ => True) fun _ => True

abbrev known (i : Nat) (P : Host → Prop) : Assertion (free i) := fact P fun _ _ => trivial

/-- What is known of the hostAt, for a program of the storage. -/
abbrev within (i : Nat) (P : Host → Prop) : Assertion ((free i).along ReleaseCall.storage) :=
  (known i P).seen ReleaseCall.storage

section Within
variable {α : Type} {P R : Host → Prop} {Q : α → Host → Prop}

abbrev KnownE (i : Nat) (P : Host → Prop) (t : ExceptT StorageError (Prog ReleaseCall) α)
    (Q : α → Host → Prop) : Prop :=
  TripleE (known i P) t (fun a => known i (Q a)) (known i fun _ => True)

abbrev WithinE (i : Nat) (P : Host → Prop) (t : M α) (Q : α → Host → Prop) : Prop :=
  TripleE (within i P) t (fun a => within i (Q a)) (within i fun _ => True)

theorem triple_onStorage {t : M α}
    (ht : WithinE i P t Q) :
    KnownE i P (onStorage t) Q :=
  ht.along

theorem within_attempt {c : Call (Except StorageError α)}
    (hok : ∀ h a d token, P h → c.Does token h.disk (.ok a) d → Q a ((h.put d).issue c)) :
    WithinE i P (attempt c) Q := by
  refine .attempt (fun h a h' hP hsem => ?_) fun _ _ _ _ _ => trivial
  obtain ⟨⟨token, d, hdoes, rfl⟩, -⟩ := hsem
  exact hok h a d token hP hdoes

theorem within_tombstone {t : M α} {tombstone : Option AllocationReceipt} :
    WithinE i (fun h => h.tombstone = tombstone) t fun _ h => h.tombstone = tombstone := by
  refine TripleE.weaken (.of_only Only.true fun c h r h' _ hP hsem => ?_) (fun _ hs => hs)
    (fun _ _ hs => hs) fun _ _ => trivial
  obtain ⟨⟨token, d, -, rfl⟩, -⟩ := hsem
  show ((h.put d).issue c).tombstone = tombstone
  rw [Host.issue_tombstone, Host.put_tombstone]
  exact hP

/-- The object is in this state, beside the tombstone. -/
def Marked (receipt : AllocationReceipt) (id : BackendIdentity) (state : BackendState) (h : Host) :
    Prop :=
  h.tombstone = some receipt ∧ h.volumes id.object = state

variable {id : BackendIdentity} {bytes : Nat} {state : BackendState} {r : Option AllocationReceipt}

theorem within_state :
    WithinE i (fun h => h.tombstone = some receipt) (attempt (.state id bytes))
      (Marked receipt id) := by
  refine within_attempt fun h state d token hP hdoes => ?_
  obtain ⟨rfl, htold⟩ := hdoes
  exact ⟨hP, (htold state rfl).symm⟩

theorem within_writeJournal {j : PhaseJournal} :
    WithinE i (Marked receipt id state) (p.writeJournal j) fun _ => Marked receipt id state := by
  refine .bind (.unwrap (Q := fun _ => within i (Marked receipt id state))
    (fun _ _ hs _ => hs) fun _ _ => trivial) fun _ => within_attempt fun h _ d token hP hdoes => ?_
  obtain rfl : d = _ := hdoes
  exact hP

variable {phase : ReleasePhase} {layout : ExecutionLayout}

theorem within_noteRelease : WithinE i (Marked receipt id state) (noteRelease p r phase)
      fun _ => Marked receipt id state :=
  .whenSome (fun _ _ => within_writeJournal) fun _ _ hs => hs

theorem within_command {c : Call (Except StorageError Unit)}
    {state wanted : BackendState} {e : StorageError}
    :
    WithinE i (Marked receipt id state) (do
        attempt c
        let state ← attempt (.state id bytes)
        refuse (state ≠ wanted) e
        noteRelease p r phase
        pure state)
      (Marked receipt id) := by
  refine .bind (.pre within_tombstone fun _ hs => hs.1) fun _ => ?_
  refine .bind within_state fun state => ?_
  refine .learn (.refuse fun _ _ _ => trivial) fun _ _ => ?_
  exact .bind within_noteRelease fun _ => .pure fun _ hs => hs

theorem within_unmountExact :
    WithinE i (Marked receipt id state) (unmountExact p id bytes r state)
      (Marked receipt id) := by
  unfold unmountExact
  split
  · exact within_command
  · exact .pure fun _ hs => hs

theorem within_removeExact :
    WithinE i (Marked receipt id state) (removeExact p id bytes r state)
      (Marked receipt id) := by
  unfold removeExact
  split
  · exact within_command
  · exact .pure fun _ hs => hs

theorem within_cleanupIdentity : WithinE i (fun h => h.tombstone = some receipt)
      (cleanupIdentity p receipt.backend bytes r) fun _ => Released receipt := by
  refine .bind within_state fun state => ?_
  refine .bind within_unmountExact fun state => ?_
  refine .bind within_removeExact fun state => ?_
  refine .learn (.refuse fun _ _ _ => trivial) fun _ habsent => ?_
  obtain rfl : state = .absent := not_not.1 habsent
  refine .bind (within_attempt (Q := fun _ h => Marked receipt receipt.backend .absent h ∧
    h.mountpoint = false) fun h _ d token hP hdoes => ?_) fun _ =>
      within_attempt fun h _ d token hP hdoes => ?_
  · obtain ⟨-, rfl⟩ := hdoes
    exact ⟨hP, rfl⟩
  · obtain rfl : d = _ := hdoes
    exact ⟨hP.1.1, hP.2, hP.1.2, rfl⟩

end Within

section Known
variable {α ε' : Type} {P : Host → Prop} {Q : α → Host → Prop}
variable {tombstone : Option AllocationReceipt}

theorem known_attempt {c : ReleaseCall (Except StorageError α)}
    (hok : ∀ h a h', P h → c.Does i h (.ok a) h' → Q a h') :
    KnownE i P (attempt c) Q :=
  .attempt (fun h a h' hP hsem => hok h a h' hP hsem.1) fun _ _ _ _ _ => trivial

theorem known_unwrap {r : Except StorageError α} : KnownE i P (unwrap r) fun _ => P :=
  .unwrap (fun _ _ hs _ => hs) fun _ _ => trivial

theorem known_alreadyReleased :
    KnownE i (fun h => ¬JournalStranded receipt h ∧ h.tombstone = tombstone)
      (alreadyReleased receipt tombstone)
      fun done h => (h.tombstone = tombstone ∧ (tombstone = none ∨ tombstone = some receipt)) ∧
        (done = true → Released receipt h) := by
  cases tombstone with
  | none => exact .pure fun h hs => ⟨⟨hs.2, .inl rfl⟩, nofun⟩
  | some existing =>
    refine .learn (.refuse fun _ _ _ => trivial) fun _ hsame => ?_
    obtain rfl : existing = receipt := not_not.1 hsame
    refine .bind (known_attempt (Q := fun absent h => (¬JournalStranded existing h ∧
      h.tombstone = some existing) ∧ absent = !h.mountpoint) fun h absent h' hs hdoes => ?_)
      fun absent => ?_
    · obtain ⟨token, d, ⟨rfl, htold⟩, rfl⟩ := hdoes
      exact ⟨hs, htold absent rfl⟩
    cases absent with
    | false => exact .pure fun h hs => ⟨⟨hs.1.2, .inr rfl⟩, nofun⟩
    | true =>
      refine .bind (known_attempt (Q := fun state h => ((¬JournalStranded existing h ∧
        h.tombstone = some existing) ∧ true = !h.mountpoint) ∧
        state = h.volumes existing.backend.object) fun h state h' hs hdoes => ?_) fun state =>
          .pure fun h hs => ?_
      · obtain ⟨token, d, ⟨rfl, htold⟩, rfl⟩ := hdoes
        exact ⟨hs, htold state rfl⟩
      · obtain ⟨⟨⟨hkept, htomb⟩, hmount⟩, hstate⟩ := hs
        refine ⟨⟨htomb, .inr rfl⟩, fun hdone => ?_⟩
        have hobject : h.volumes existing.backend.object = .absent := by
          rw [← hstate]
          exact of_decide_eq_true hdone
        have hgone : h.mountpoint = false := by simpa using hmount.symm
        refine ⟨htomb, hgone, hobject, ?_⟩
        by_contra hjournal
        exact hkept ⟨htomb, hgone, hobject, Option.isSome_iff_ne_none.2 hjournal⟩

theorem known_releaseLocked (htomb : tombstone = none ∨ tombstone = some receipt) :
    KnownE i (fun h => h.tombstone = tombstone) (releaseLocked m p receipt tombstone)
      fun _ => Released receipt := by
  refine .bind (triple_onStorage within_tombstone) fun j => ?_
  refine .bind (triple_onStorage within_tombstone) fun state => ?_
  refine .learn (.refuse fun _ _ _ => trivial) fun _ _ => ?_
  refine .bind (Q := fun _ => known i fun h => h.tombstone = some receipt)
    (.provided (fun hnone => known_attempt fun h _ h' hs hdoes => ?_) fun hsome h hs => ?_)
    fun _ => ?_
  · obtain ⟨-, rfl⟩ := hdoes
    rfl
  · exact hs.trans (htomb.resolve_left hsome)
  refine .bind (Q := fun _ => known i fun h => h.tombstone = some receipt)
    (.provided (fun _ => triple_onStorage within_tombstone) fun _ _ hs => hs) fun _ => ?_
  exact triple_onStorage within_cleanupIdentity

theorem known_release : KnownE i (fun h => ¬JournalStranded receipt h) (release m receipt)
      fun _ => Released receipt := by
  refine .bind known_unwrap fun layout => ?_
  refine .bind known_unwrap fun _ => ?_
  refine .bind (known_attempt (Q := fun t h => ¬JournalStranded receipt h ∧ h.tombstone = t)
    fun h t h' hs hdoes => ?_) fun tombstone => ?_
  · obtain ⟨rfl, htold⟩ := hdoes
    exact ⟨hs, (htold t rfl).symm⟩
  refine .bind known_alreadyReleased fun done => ?_
  cases done with
  | true => exact .pure fun h hs => hs.2 rfl
  | false =>
    refine .pre (P := (known i fun h => h.tombstone = tombstone).and
      (tombstone = none ∨ tombstone = some receipt)) (.of_and fun htomb => ?_)
      fun h hs => ⟨hs.1.1, hs.1.2⟩
    refine .bind (known_attempt (Q := fun _ h => h.tombstone = tombstone)
      fun h b h' hs hdoes => ?_) fun noHolds => ?_
    · exact hdoes ▸ hs
    refine .learn (.refuse fun _ _ _ => trivial) fun _ _ => ?_
    refine .bind (known_attempt (Q := fun _ h => h.tombstone = tombstone)
      fun h b h' hs hdoes => ?_) fun _ => ?_
    · exact hdoes ▸ hs
    refine .bind (.attemptAs (Q := fun _ => known i fun h => h.tombstone = tombstone)
      (fun h b h' hs hsem => ?_) fun _ _ _ _ _ => trivial) fun _ => known_releaseLocked htomb
    obtain ⟨⟨-, -, rfl⟩, -⟩ := hsem
    exact hs

end Known

/-! ## What further calls do -/

/-- The look at the mountpoint or at the object is answered. -/
def Call.Answered : {β : Type} → Call β → β → Prop
  | _, .mountpointAbsent, r => ∃ absent, r = .ok absent
  | _, .state _ _, r => ∃ state, r = .ok state
  | _, _, _ => True

/-- The tombstone is read, or removed, when that is asked for. -/
def LeaseCall.Answered : {β : Type} → LeaseCall β → β → Prop
  | _, .readTombstone, r => ∃ tombstone, r = .ok tombstone
  | _, .removeTombstone, r => r = .ok ()
  | _, _, _ => True

def ReleaseCall.Answered {β : Type} (c : ReleaseCall β) (r : β) : Prop :=
  match c with
  | .storage c => c.Answered r
  | .lease c => c.Answered r

theorem releaseTombstoneName_of_layout {root : String} {id : ExecutionId}
    (hlayout : ExecutionLayout.new root id = .ok layout) :
    ∃ name, releaseTombstoneName id = .ok name := by
  simp only [ExecutionLayout.new, validateExecutionId, Txn.bind_eq_ok, Txn.ensure_eq_ok] at hlayout
  obtain ⟨_, ⟨-, -, hfirst, hall⟩, -⟩ := hlayout
  have hsafe : ∀ c ∈ id.value.toList, safeComponent c = true := by simpa using hall
  have hempty : ¬id.value.isEmpty := by
    intro hempty
    have : id.value = "" := by simpa using hempty
    simp [this] at hfirst
  have hslash : '/' ∉ id.value.toList := fun hmem => absurd (hsafe _ hmem) (by decide)
  have hdots : ¬['.', '.'] <:+: id.value.toList := fun hdots =>
    absurd (hsafe '.' (hdots.subset (by simp))) (by decide)
  exact ⟨_, by simp [releaseTombstoneName, Txn.ensure, hempty, hslash, hdots]; rfl⟩

section Still
variable {ok : {β : Type} → ReleaseCall β → β → Prop} {safe : Host → Prop} {h₀ h₁ : Host}
variable {layout : ExecutionLayout}

abbrev still (i : Nat) (ok : {β : Type} → ReleaseCall β → β → Prop) (hsafe : safe h₀) :
    Assertion (solo i ok safe) :=
  fact (· = h₀) fun _ h => h ▸ hsafe

abbrev unanswered (i : Nat) (ok : {β : Type} → ReleaseCall β → β → Prop) (safe : Host → Prop) :
    Assertion (solo i ok safe) :=
  fact (fun h => safe h ∧ ¬∀ {β : Type} (c : ReleaseCall β) r, ok c r → c.Answered r)
    fun _ h => h.1

theorem still_ask {α : Type} {c : ReleaseCall (Except StorageError α)} {φ : α → Prop}
    (hsafe : safe h₀) (hdoes : ∀ r h, c.Does i h₀ r h → h = h₀ ∧ ∀ a, r = .ok a → φ a)
    (hans : ∀ e, ¬c.Answered (.error e)) :
    TripleE (still i ok hsafe) (attempt c) (fun a => (still i ok hsafe).and (φ a))
      (unanswered i ok safe) := by
  refine .attempt (fun h a h' hs hsem => ?_) fun h e h' hs hsem => ?_
  · have hsame : h = h₀ := hs
    obtain ⟨hstill, ha⟩ := hdoes _ _ (hsame ▸ hsem.1)
    exact ⟨hstill, ha a rfl⟩
  · have hsame : h = h₀ := hs
    obtain ⟨hstill, -⟩ := hdoes _ _ (hsame ▸ hsem.1)
    exact ⟨hstill ▸ hsafe, fun hall => hans e (hall c _ hsem.2)⟩

theorem still_unwrap {α : Type} {r : Except StorageError α} (hsafe : safe h₀) (hr : ∃ a, r = .ok a) :
    TripleE (still i ok hsafe) (unwrap r) (fun _ => still i ok hsafe) (unanswered i ok safe) := by
  obtain ⟨a, rfl⟩ := hr
  exact .pure fun _ hs => hs

theorem still_readTombstone (hsafe : safe h₀) :
    TripleE (still i ok hsafe) (attempt (.lease .readTombstone))
      (fun t => (still i ok hsafe).and (t = h₀.tombstone)) (unanswered i ok safe) :=
  still_ask hsafe (fun _ _ hdoes => hdoes) fun _ hans => nomatch hans

theorem still_mountpointAbsent (hsafe : safe h₀) :
    TripleE (still i ok hsafe) (attempt (.storage .mountpointAbsent))
      (fun absent => (still i ok hsafe).and (absent = !h₀.mountpoint)) (unanswered i ok safe) := by
  refine still_ask hsafe (fun r h hdoes => ?_) fun _ hans => nomatch hans
  obtain ⟨token, d, ⟨rfl, htold⟩, rfl⟩ := hdoes
  exact ⟨rfl, htold⟩

theorem still_state (hsafe : safe h₀) {id : BackendIdentity} {bytes : Nat} :
    TripleE (still i ok hsafe) (attempt (.storage (.state id bytes)))
      (fun state => (still i ok hsafe).and (state = h₀.volumes id.object)) (unanswered i ok safe) := by
  refine still_ask hsafe (fun r h hdoes => ?_) fun _ hans => nomatch hans
  obtain ⟨token, d, ⟨rfl, htold⟩, rfl⟩ := hdoes
  exact ⟨rfl, htold⟩

/-- Tombstone there, mountpoint and object gone: a release returns at once. -/
theorem still_release (hsafe : safe h₀)
    (hlayout : ExecutionLayout.new m.stateRoot receipt.labels.executionId = .ok layout)
    (htomb : h₀.tombstone = some receipt) (hmount : h₀.mountpoint = false)
    (hobject : h₀.volumes receipt.backend.object = .absent) :
    TripleE (still i ok hsafe) (release m receipt) (fun _ => still i ok hsafe)
      (unanswered i ok safe) := by
  refine .bind (still_unwrap hsafe ⟨_, hlayout⟩) fun _ => ?_
  refine .bind (still_unwrap hsafe (releaseTombstoneName_of_layout hlayout)) fun _ => ?_
  refine .learn (still_readTombstone hsafe) fun t ht => ?_
  rw [htomb] at ht
  subst ht
  refine .bind (Q := fun done => (still i ok hsafe).and (done = true)) ?_ fun done =>
    .of_and fun hdone => ?_
  · refine .bind (.guard (R := still i ok hsafe) (fun _ hs _ => hs)
      fun _ _ hne => absurd rfl hne) fun _ => ?_
    refine .learn (still_mountpointAbsent hsafe) fun absent habsent => ?_
    rw [hmount] at habsent
    subst habsent
    refine .learn (still_state hsafe) fun state hstate => ?_
    rw [hobject] at hstate
    subst hstate
    exact .pure fun _ hs => ⟨hs, rfl⟩
  · subst hdone
    exact .pure fun _ hs => hs

theorem still_ackRelease (hsafe : safe h₀) (hacked : safe h₀.acked)
    (hlayout : ExecutionLayout.new m.stateRoot receipt.labels.executionId = .ok layout)
    (htomb : h₀.tombstone = some receipt) (hmount : h₀.mountpoint = false)
    (hobject : h₀.volumes receipt.backend.object = .absent) :
    TripleE (still i ok hsafe) (ackRelease m receipt) (fun _ => still i ok hacked)
      (unanswered i ok safe) := by
  refine .bind (still_unwrap hsafe (releaseTombstoneName_of_layout hlayout)) fun _ => ?_
  refine .learn (still_readTombstone hsafe) fun t ht => ?_
  rw [htomb] at ht
  subst ht
  refine .bind (still_unwrap hsafe ⟨_, hlayout⟩) fun _ => ?_
  refine .bind (Q := fun done => (still i ok hsafe).and (done = false))
    (.pure fun _ hs => ⟨hs, rfl⟩) fun done => .of_and fun hdone => ?_
  subst hdone
  refine .bind (Q := fun a => (still i ok hsafe).and (a = receipt))
    (.pure fun _ hs => ⟨hs, rfl⟩) fun a => .of_and fun ha => ?_
  subst ha
  refine .bind (.guard (R := still i ok hsafe) (fun _ hs _ => hs)
    fun _ _ hne => absurd rfl hne) fun _ => ?_
  refine .learn (still_state hsafe) fun state hstate => ?_
  refine .bind (.guard (R := still i ok hsafe) (fun _ hs _ => hs)
    fun _ _ hne => absurd (hstate.trans hobject) hne) fun _ => ?_
  refine .learn (still_mountpointAbsent hsafe) fun absent habsent => ?_
  refine .bind (.guard (R := still i ok hsafe) (fun _ hs _ => hs)
    fun _ _ hne => absurd hne (by simp [habsent, hmount])) fun _ => ?_
  refine .attempt (fun h () h' hs hsem => ?_) fun h e h' hs hsem => ?_
  · have hsame : h = h₀ := hs
    exact hsame ▸ hsem.1
  · have hstill : h' = h₀ := Eq.trans hsem.1 hs
    exact ⟨hstill ▸ hsafe, fun hall => nomatch hall _ _ hsem.2⟩

theorem still_ackRelease_again (hsafe : safe h₀)
    (hlayout : ExecutionLayout.new m.stateRoot receipt.labels.executionId = .ok layout)
    (htomb : h₀.tombstone = none) (hmount : h₀.mountpoint = false)
    (hobject : h₀.volumes receipt.backend.object = .absent) :
    TripleE (still i ok hsafe) (ackRelease m receipt) (fun _ => still i ok hsafe)
      (unanswered i ok safe) := by
  refine .bind (still_unwrap hsafe (releaseTombstoneName_of_layout hlayout)) fun _ => ?_
  refine .learn (still_readTombstone hsafe) fun t ht => ?_
  rw [htomb] at ht
  subst ht
  refine .bind (still_unwrap hsafe ⟨_, hlayout⟩) fun _ => ?_
  refine .bind (Q := fun done => (still i ok hsafe).and (done = true)) ?_ fun done =>
    .of_and fun hdone => ?_
  · refine .learn (still_state hsafe) fun state hstate => ?_
    rw [hobject] at hstate
    subst hstate
    refine TripleE.weaken (still_mountpointAbsent hsafe) (fun _ hs => hs)
      (fun absent _ hs => ⟨hs.1, hs.2.trans (by simp [hmount])⟩) fun _ hs => hs
  · subst hdone
    exact .pure fun _ hs => hs

end Still

/-- Calls of one process, one after another. -/
abbrev Ends {α : Type} (i : Nat) (t : ReleaseM α) (h : Host) (r : Except StorageError α)
    (h' : Host) : Prop :=
  Runs (ReleaseCall.Does i) alone t.run h r h'

/-- The call ends somewhere: with a result, or because the process dies. -/
abbrev Stops {α : Type} (i : Nat) (t : ReleaseM α) (h h' : Host) : Prop :=
  Dies (ReleaseCall.Does i) alone t.run h h'

/-- What a released receipt leaves to further calls. Nothing a release does, even when it is cut off,
changes anything, and where its reads are answered it returns; the acknowledgment removes the
tombstone, and may be repeated. -/
structure Settled (m : Manager) (receipt : AllocationReceipt) (h : Host) : Prop where
  release_keeps : ∀ i h', Stops i (release m receipt) h h' → h' = h
  release_ok : ∀ i r h', Runs (fun c h r h' => ReleaseCall.Does i c h r h' ∧ c.Answered r) alone
    (release m receipt).run h r h' → r = .ok () ∧ h' = h
  ack_keeps : ∀ i h', Stops i (ackRelease m receipt) h h' →
    h' = h ∨ h' = h.acked
  ack_ok : ∀ i r h', Runs (fun c h r h' => ReleaseCall.Does i c h r h' ∧ c.Answered r) alone
    (ackRelease m receipt).run h r h' → r = .ok () ∧ h' = h.acked
  again_keeps : ∀ i h', Stops i (ackRelease m receipt) h.acked h' →
    h' = h.acked
  again_ok : ∀ i r h', Runs (fun c h r h' => ReleaseCall.Does i c h r h' ∧ c.Answered r) alone
    (ackRelease m receipt).run h.acked r h' →
    r = .ok () ∧ h' = h.acked

section Settled
variable {α : Type} {t : ReleaseM α} {safe : Host → Prop} {h₀ h₁ : Host}

theorem stops_of_still (safe : Host → Prop) {hsafe : safe h₀} {hend : safe h₁}
    (ht : TripleE (still i (fun _ _ => True) hsafe) t (fun _ => still i _ hend)
      (unanswered i _ safe)) (hstops : Stops i t h₀ h') : safe h' :=
  (ht h₀ rfl).of_dies (K := solo i (fun _ _ => True) safe)
    (hstops.imp fun _ _ _ _ hdoes => ⟨hdoes, trivial⟩)

theorem answered_of_still {r : Except StorageError α} (safe : Host → Prop) {hsafe : safe h₀}
    {hend : safe h₁}
    (ht : TripleE (still i (fun c r => c.Answered r) hsafe) t (fun _ => still i _ hend)
      (unanswered i _ safe))
    (hruns : Runs (fun c h r h' => ReleaseCall.Does i c h r h' ∧ c.Answered r) alone t.run h₀ r h') :
    (∃ a, r = .ok a) ∧ h' = h₁ := by
  have hend := (ht h₀ rfl).of_runs (K := solo i (fun c r => c.Answered r) safe) hruns
  cases r with
  | ok a => exact ⟨⟨a, rfl⟩, hend⟩
  | error e => exact (hend.2 fun _ _ hans => hans).elim

def Same (h₀ h : Host) : Prop := h = h₀

theorem Same.refl (h₀ : Host) : Same h₀ h₀ := rfl

/-- The tombstone of `h₀` may be gone. -/
def SameOrAcked (h₀ h : Host) : Prop := h = h₀ ∨ h = h₀.acked

theorem Released.settled
    (hlayout : ExecutionLayout.new m.stateRoot receipt.labels.executionId = .ok layout)
    (h₀ : Host) (hrel : Released receipt h₀) : Settled m receipt h₀ := by
  obtain ⟨htomb, hmount, hobject, -⟩ := hrel
  have hmount' : h₀.acked.mountpoint = false := hmount
  have hobject' : h₀.acked.volumes receipt.backend.object = .absent := hobject
  exact
    { release_keeps := fun i h' hstops => stops_of_still (Same h₀)
        (still_release (.refl h₀) hlayout htomb hmount hobject) hstops
      release_ok := fun i r h' hruns => by
        obtain ⟨⟨_, hr⟩, hsame⟩ := answered_of_still (Same h₀)
          (still_release (.refl h₀) hlayout htomb hmount hobject) hruns
        exact ⟨hr, hsame⟩
      ack_keeps := fun i h' hstops => stops_of_still (SameOrAcked h₀)
        (still_ackRelease (.inl rfl) (.inr rfl) hlayout htomb hmount hobject) hstops
      ack_ok := fun i r h' hruns => by
        obtain ⟨⟨_, hr⟩, hsame⟩ := answered_of_still (SameOrAcked h₀)
          (still_ackRelease (.inl rfl) (.inr rfl) hlayout htomb hmount hobject) hruns
        exact ⟨hr, hsame⟩
      again_keeps := fun i h' hstops => stops_of_still (Same h₀.acked)
        (still_ackRelease_again (.refl h₀.acked) hlayout rfl hmount' hobject') hstops
      again_ok := fun i r h' hruns => by
        obtain ⟨⟨_, hr⟩, hsame⟩ := answered_of_still (Same h₀.acked)
          (still_ackRelease_again (.refl h₀.acked) hlayout rfl hmount' hobject') hruns
        exact ⟨hr, hsame⟩ }

/-- A release that finds the storage stranded may return, with nothing changed. -/
theorem JournalStranded.returns
    (hlayout : ExecutionLayout.new m.stateRoot receipt.labels.executionId = .ok layout)
    (hs : JournalStranded receipt h) : Ends i (release m receipt) h (.ok ()) h := by
  obtain ⟨name, hname⟩ := releaseTombstoneName_of_layout hlayout
  have hput : h.put h.disk = h := rfl
  refine runs_bind_ok.2 ⟨layout, h, by rw [hlayout]; exact .done .refl, ?_⟩
  refine runs_bind_ok.2 ⟨name, h, by rw [hname]; exact .done .refl, ?_⟩
  refine runs_bind_ok.2 ⟨some receipt, h, .step .refl ⟨rfl, fun t ht => ?_⟩ (.done .refl), ?_⟩
  · exact (Except.ok.inj ht).symm.trans hs.tombstone.symm
  refine runs_bind_ok.2 ⟨true, h, ?_, .done .refl⟩
  refine runs_bind_ok.2 ⟨(), h, ?_, ?_⟩
  · rw [refuse, if_neg (not_not.2 rfl)]
    exact .done .refl
  refine runs_bind_ok.2 ⟨true, h, .step .refl ⟨"", h.disk, ⟨rfl, fun b hb => ?_⟩, rfl⟩
    (.done .refl), ?_⟩
  · rw [← Except.ok.inj hb]
    simp [Host.disk, hs.mountpoint]
  refine runs_bind_ok.2 ⟨.absent, h, .step .refl ⟨"", h.disk, ⟨rfl, fun b hb => ?_⟩, rfl⟩
    (.done .refl), .done .refl⟩
  rw [← Except.ok.inj hb]
  exact hs.object.symm

end Settled

/-- Whatever earlier calls for this receipt, cut off or not, have left on the hostAt: what a release
leaves when it returns without an error is always complete exactly when it does not find the storage
stranded. After a complete release the tombstone holds the receipt until it is acknowledged, and
further calls change nothing else. -/
theorem release_complete_iff {m : Manager} {receipt : AllocationReceipt} {layout : ExecutionLayout}
    (hlayout : ExecutionLayout.new m.stateRoot receipt.labels.executionId = .ok layout) :
    (∀ i h, (∀ h', Ends i (release m receipt) h (.ok ()) h' → Released receipt h') ↔
      ¬JournalStranded receipt h) ∧
    ∀ h, Released receipt h → Settled m receipt h := by
  refine ⟨fun i h => ⟨fun hall hs => ?_, fun hs h' hends => ?_⟩, Released.settled hlayout⟩
  · have hjournal := (hall h (hs.returns hlayout)).journal
    have hthere := hs.journal
    rw [hjournal] at hthere
    exact nomatch hthere
  · exact (known_release _ hs).of_runs (K := free i) (hends.imp fun _ _ _ _ hd => ⟨hd, trivial⟩)

/-! ## A release that is cut off -/

namespace Sample

def leaseExec (i : Nat) : {β : Type} → LeaseCall β → Host → Option (β × Host)
  | _, .readTombstone, h => some (.ok h.tombstone, h)
  | _, .createTombstone receipt, h =>
    if h.tombstone = none then some (.ok (), { h with tombstone := some receipt }) else none
  | _, .removeTombstone, h => some (.ok (), { h with tombstone := none })
  | _, .holdsEmpty, h => some (.ok true, h)
  | _, .openReadyLease, h => some (.ok (), h)
  | _, .tryLockExclusive, h =>
    if h.exclusive = none ∧ h.shared = [] then some (.ok (), { h with exclusive := some i })
    else none
  | _, .tryLockShared, h =>
    if h.exclusive = none then some (.ok (), { h with shared := i :: h.shared }) else none
  | _, .granted receipt, h => some (.ok (), { h with leases := (i, receipt) :: h.leases })
  | _, .dropped, h => some (.ok (), h.leave i)

/-- A hostAt on which everything works, for process `i` with this token. -/
def hostAt (i : Nat) (token : String) {β : Type} (c : ReleaseCall β) (h : Host) :
    Option (β × Host) :=
  match c with
  | .storage c => some ((working.exec token c h.disk).1,
      (h.put (working.exec token c h.disk).2).issue c)
  | .lease c => leaseExec i c h

variable {β : Type} {i : Nat}

theorem leaseExec_does (c : LeaseCall β) (h : Host) (r : β) (h' : Host)
    (hexec : leaseExec i c h = some (r, h')) : c.Does i h r h' := by
  cases c with
  | readTombstone =>
    cases hexec
    exact ⟨rfl, fun _ ht => (Except.ok.inj ht).symm⟩
  | createTombstone receipt =>
    simp only [leaseExec] at hexec
    split at hexec
    · next hnone =>
      cases hexec
      exact ⟨hnone, rfl⟩
    · cases hexec
  | tryLockExclusive =>
    simp only [leaseExec] at hexec
    split at hexec
    · next hfree =>
      cases hexec
      exact ⟨hfree.1, hfree.2, rfl⟩
    · cases hexec
  | tryLockShared =>
    simp only [leaseExec] at hexec
    split at hexec
    · next hfree =>
      cases hexec
      exact ⟨hfree, rfl⟩
    · cases hexec
  | granted receipt | dropped =>
    cases hexec
    exact ⟨rfl, rfl⟩
  | removeTombstone | holdsEmpty | openReadyLease =>
    cases hexec
    rfl

theorem hostAt_does {token : String} (c : ReleaseCall β) (h : Host) (r : β)
    (h' : Host) (hexec : hostAt i token c h = some (r, h')) : c.Does i h r h' := by
  cases c with
  | storage c =>
    cases hexec
    exact ⟨token, _, working.does_exec token c h.disk, rfl⟩
  | lease c => exact leaseExec_does c h r h' hexec

def removesJournal : {β : Type} → Call β → Bool
  | _, .removeJournal => true
  | _, _ => false

/-- The process dies before it removes the journal. -/
def stoppedShort (i : Nat) (token : String) {β : Type} (c : ReleaseCall β) (h : Host) :
    Option (β × Host) :=
  match c with
  | .storage c => if removesJournal c then none else hostAt i token (.storage c) h
  | .lease c => leaseExec i c h

theorem stoppedShort_does {token : String} (c : ReleaseCall β) (h : Host) (r : β)
    (h' : Host) (hexec : stoppedShort i token c h = some (r, h')) : c.Does i h r h' := by
  cases c with
  | storage c =>
    simp only [stoppedShort] at hexec
    split at hexec
    · cases hexec
    · exact hostAt_does _ h r h' hexec
  | lease c => exact leaseExec_does c h r h' hexec

def served : AllocationReceipt where
  apiVersion := allocationApiVersion
  labels := request.labels
  reservedBytes := 2 ^ 30
  mountPath := "/srv/executions/e"
  backendKind := "thick_lvm"
  backendKey := "lvm:vg:e"
  poolIdentity := "vg-uuid"
  backend := volume "lv" "fs" "t"
  dockerBind := ⟨"daemon", "verifier", "v1", "/srv/executions/e", "fs"⟩

def allocated : Host where
  mountpoint := true
  journal := some (.ready served)
  volumes := fun id => if id = volume "lv" "" "t" then .mounted else .absent
  tombstone := none

def cut : Host := ((release manager served).run.play (stoppedShort 0 "t") allocated).2

end Sample

structure ReadyAllocation (receipt : AllocationReceipt) (h : Host) : Prop where
  journal : h.journal = some (.ready receipt)
  mountpoint : h.mountpoint = true
  object : h.volumes receipt.backend.object = .mounted
  tombstone : h.tombstone = none

/-- Calls of `release`, each of which may be cut off. -/
def Attempts (m : Manager) (receipt : AllocationReceipt) : Host → Host → Prop :=
  Relation.ReflTransGen fun h h' => ∃ i h₁, Stops i (release m receipt) h h₁ ∧ h' = h₁.leave i

open Sample in
/-- A release that is cut off before it removes the journal, and is then repeated, leaves the
journal. -/
theorem release_leaves_journal :
    ¬∀ m receipt h₀ h₁ h₂ i, ReadyAllocation receipt h₀ → Attempts m receipt h₀ h₁ →
      Ends i (release m receipt) h₁ (.ok ()) h₂ → Released receipt h₂ := by
  intro hall
  have hready : ReadyAllocation served allocated := ⟨rfl, rfl, by decide, rfl⟩
  have hcut : Attempts manager served allocated (cut.leave 0) :=
    .single ⟨0, cut, dies_of_play alone id stoppedShort_does _ _, rfl⟩
  have hends : Ends 0 (release manager served) (cut.leave 0) (.ok ())
      ((release manager served).run.play (hostAt 0 "t") (cut.leave 0)).2 :=
    runs_of_play alone id hostAt_does (by decide +kernel)
  have hgone := (hall _ _ _ _ _ 0 hready hcut hends).journal
  exact absurd hgone (by decide +kernel)

open Sample in
/-- An undisturbed release of an allocation. -/
theorem release_complete_iff_sample :
    ∃ h, Ends 0 (release manager served) allocated (.ok ()) h ∧ Released served h ∧
      Settled manager served h := by
  have hlayout : ExecutionLayout.new manager.stateRoot served.labels.executionId = .ok
      ⟨"/srv/executions/e", "/srv/executions/e/repository", "/srv/executions/e/session"⟩ := by
    decide +kernel
  obtain ⟨hiff, hsettled⟩ := release_complete_iff hlayout
  have hends : Ends 0 (release manager served) allocated (.ok ())
      ((release manager served).run.play (hostAt 0 "t") allocated).2 :=
    runs_of_play alone id hostAt_does (by decide +kernel)
  have hkept : ¬JournalStranded served allocated := fun hs => nomatch hs.tombstone
  have hrel := (hiff 0 allocated).2 hkept _ hends
  exact ⟨_, hends, hrel, hsettled _ hrel⟩

end Orchestrator.ExecutionStorage.Exact
