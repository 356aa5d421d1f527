import Orchestrator.Storage.Allocation

/-!
# A failed allocation leaves nothing

Whatever the storage backend and the Docker verifier answer, an allocation that fails after it
created its mountpoint, and does not report a failed cleanup, has removed the object it created or
discovered, the mountpoint and the journal, and asked for no other object to be unmounted or
removed.

Beside the storage runs a `Ledger` of what the backend handed out and what it was asked to give up.
A `Stage` is what the ledger says between two calls; `cleanupIdentity` and `undoAllocation` stay in
their stage, so each call site of the rollback has only to show that the identity it rolls back names
the object of the stage. One site cannot: a prepared identity that names another object under the
same token is rolled back in place of the created one.
-/

namespace Orchestrator.ExecutionStorage.Exact

open Prog

/-! ## The ledger -/

/-- What the backend handed out, and what it was asked to give up. -/
structure Ledger where
  /-- The mountpoint was created. -/
  begun : Bool := false
  /-- Created, or discovered since the mountpoint was created. -/
  found : List BackendIdentity := []
  /-- Discovered before. -/
  earlier : List BackendIdentity := []
  /-- Unmounted or removed. -/
  touched : List BackendIdentity := []
deriving DecidableEq, Repr

def Ledger.note : {β : Type} → Call β → β → Ledger → Ledger
  | _, .createMountpoint, .ok (), l => { l with begun := true }
  | _, .create _ _ _, .ok id, l => { l with found := id :: l.found }
  | _, .discover _ _, .ok (some id), l =>
    if l.begun then { l with found := id :: l.found } else { l with earlier := id :: l.earlier }
  | _, .unmount id, _, l | _, .remove id, _, l => { l with touched := id :: l.touched }
  | _, _, _, l => l

/-- Storage with its ledger. -/
abbrev Site := Disk × Ledger

/-- What a call may answer, and what it leaves, with the ledger kept. -/
def Call.Noted (token : String) {β : Type} (c : Call β) (s : Site) (r : β) (s' : Site) : Prop :=
  c.Does token s.1 r s'.1 ∧ s'.2 = s.2.note c r

/-- A prepared identity names the object that was to be prepared, or carries another token. -/
def Call.Sincere : {β : Type} → Call β → β → Prop
  | _, .prepare id _, .ok prepared =>
    prepared.object = id.object ∨ prepared.ownershipToken ≠ id.ownershipToken
  | _, _, _ => True

/-- Every object that was unmounted or removed was created or discovered under `token`, or is what
the earlier journal named or led to. -/
def Ledger.Fair (token : String) (recorded : Option BackendIdentity) (l : Ledger) : Prop :=
  ∀ a ∈ l.touched, ∃ b, b.object = a.object ∧
    (b ∈ l.found ∧ b.ownershipToken = token ∨ b ∈ l.earlier ∨ recorded = some b)

/-- Nothing is left of what was created or discovered. -/
def Site.Gone (s : Site) : Prop :=
  (∀ id ∈ s.2.found, s.1.volumes id.object = .absent) ∧ s.1.mountpoint = false ∧
    s.1.journal = none

/-! ## Stages -/

def watched (token : String) : Setting Call Site where
  sem c s r s' := c.Noted token s r s' ∧ c.Sincere r
  env := alone
  safe _ := True

/-- What the ledger says between two calls. -/
structure Stage where
  begun : Bool
  found : List BackendIdentity
  earlier : List BackendIdentity
  recorded : Option BackendIdentity

variable {token : String} {p : Place}

namespace Stage

def Knows (g : Stage) (token : String) (a : BackendIdentity) : Prop :=
  ∃ b, b.object = a.object ∧
    (b ∈ g.found ∧ b.ownershipToken = token ∨ b ∈ g.earlier ∨ g.recorded = some b)

structure At (g : Stage) (token : String) (s : Site) : Prop where
  begun : s.2.begun = g.begun
  found : s.2.found = g.found
  earlier : s.2.earlier = g.earlier
  fair : ∀ a ∈ s.2.touched, g.Knows token a

variable {g : Stage} {s s' : Site}

theorem At.of_eq (h : g.At token s) (hl : s'.2 = s.2) : g.At token s' := by
  obtain ⟨hb, hf, he, ht⟩ := h
  exact ⟨hl ▸ hb, hl ▸ hf, hl ▸ he, hl ▸ ht⟩

variable {id : BackendIdentity}

theorem At.touch (h : g.At token s) (hid : g.Knows token id)
    (hl : s'.2 = { s.2 with touched := id :: s.2.touched }) : g.At token s' := by
  obtain ⟨hb, hf, he, ht⟩ := h
  refine ⟨by rw [hl]; exact hb, by rw [hl]; exact hf, by rw [hl]; exact he, fun a ha => ?_⟩
  rw [hl] at ha
  rcases List.mem_cons.1 ha with rfl | ha
  · exact hid
  · exact ht a ha

theorem At.meet (h : g.At token s) (hl : s'.2 = { s.2 with found := id :: s.2.found }) :
    Stage.At { g with found := id :: g.found } token s' := by
  obtain ⟨hb, hf, he, ht⟩ := h
  rw [show s' = (s'.1, { s.2 with found := id :: s.2.found }) from Prod.ext rfl hl]
  refine ⟨hb, congrArg _ hf, he, fun a ha => ?_⟩
  obtain ⟨b, hb, ⟨hmem, htoken⟩ | hknown⟩ := ht a ha
  · exact ⟨b, hb, .inl ⟨List.mem_cons_of_mem _ hmem, htoken⟩⟩
  · exact ⟨b, hb, .inr hknown⟩

theorem At.discover (h : g.At token s) (hl : s'.2 = { s.2 with earlier := id :: s.2.earlier }) :
    Stage.At { g with earlier := id :: g.earlier } token s' := by
  obtain ⟨hb, hf, he, ht⟩ := h
  rw [show s' = (s'.1, { s.2 with earlier := id :: s.2.earlier }) from Prod.ext rfl hl]
  refine ⟨hb, hf, congrArg _ he, fun a ha => ?_⟩
  obtain ⟨b, hb, hfound | hmem | hrecorded⟩ := ht a ha
  · exact ⟨b, hb, .inl hfound⟩
  · exact ⟨b, hb, .inr (.inl (List.mem_cons_of_mem _ hmem))⟩
  · exact ⟨b, hb, .inr (.inr hrecorded)⟩

theorem At.begin (h : g.At token s) (hl : s'.2 = { s.2 with begun := true }) :
    Stage.At { g with begun := true } token s' := by
  obtain ⟨hb, hf, he, ht⟩ := h
  rw [show s' = (s'.1, { s.2 with begun := true }) from Prod.ext rfl hl]
  exact ⟨rfl, hf, he, ht⟩

theorem At.ledger_fair (h : g.At token s) : s.2.Fair token g.recorded := by
  intro a ha
  obtain ⟨b, hb, hknown⟩ := h.fair a ha
  refine ⟨b, hb, ?_⟩
  rw [h.found, h.earlier]
  exact hknown

end Stage

def claim (token : String) (P : Site → Prop) : Assertion (watched token) where
  holds := P
  stable hst := hst.elim
  within _ := trivial

def during (token : String) (g : Stage) (P : Disk → Prop) : Assertion (watched token) :=
  claim token fun s => g.At token s ∧ P s.1

/-- From `P`, program `t` of stage `g` ends in `Q`, or fails anywhere in it. -/
abbrev DuringE {α : Type} (token : String) (g : Stage) (P : Disk → Prop) (t : M α)
    (Q : α → Disk → Prop) : Prop :=
  TripleE (during token g P) t (fun a => during token g (Q a)) (during token g fun _ => True)

/-! ## Giving an object up -/

section Cleanup
variable {g : Stage} {P : Disk → Prop}

variable {α : Type} {c : Call (Except StorageError α)} {phase : ReleasePhase} {e : StorageError}
  {Q : α → Assertion (watched token)} {t : M α} {layout : ExecutionLayout}
  {j₀ : Option PhaseJournal}

theorem during_attempt {Q : α → Disk → Prop}
    {E : Disk → Prop} (hnote : ∀ l r, Ledger.note c r l = l)
    (hok : ∀ d a d', P d → c.Does token d (.ok a) d' → Q a d')
    (herr : ∀ d e d', P d → c.Does token d (.error e) d' → E d') :
    TripleE (during token g P) (attempt c) (fun a => during token g (Q a)) (during token g E) := by
  refine .attempt ?_ ?_
  · rintro s a s' ⟨hat, hp⟩ ⟨⟨hdoes, hl⟩, -⟩
    exact ⟨hat.of_eq (hl.trans (hnote _ _)), hok _ _ _ hp hdoes⟩
  · rintro s e s' ⟨hat, hp⟩ ⟨⟨hdoes, hl⟩, -⟩
    exact ⟨hat.of_eq (hl.trans (hnote _ _)), herr _ _ _ hp hdoes⟩

variable {id : BackendIdentity} {bytes : Nat} {b : BackendState}
  {receipt : Option AllocationReceipt}

theorem during_touch {c : Call (Except StorageError Unit)}
    (hc : c = .unmount id ∨ c = .remove id) (hid : g.Knows token id) :
    DuringE token g P (attempt c) fun _ _ => True := by
  have hnote : ∀ l r, Ledger.note c r l = { l with touched := id :: l.touched } := by
    rcases hc with rfl | rfl <;> exact fun _ _ => rfl
  refine .attempt ?_ ?_
  · rintro s _ s' ⟨hat, -⟩ ⟨⟨-, hl⟩, -⟩
    exact ⟨hat.touch hid (hl.trans (hnote _ _)), trivial⟩
  · rintro s _ s' ⟨hat, -⟩ ⟨⟨-, hl⟩, -⟩
    exact ⟨hat.touch hid (hl.trans (hnote _ _)), trivial⟩

/-- The object `id` names is in state `b`. -/
def In (id : BackendIdentity) (b : BackendState) (d : Disk) : Prop := d.volumes id.object = b

theorem during_state : DuringE token g P (attempt (.state id bytes)) (In id) :=
  during_attempt (fun _ _ => rfl) (fun _ b _ _ h => h.1 ▸ (h.2 b rfl).symm) fun _ _ _ _ _ => trivial

theorem during_writeJournal {j : PhaseJournal} (hP : ∀ d j, P d → P { d with journal := some j }) :
    DuringE token g P (p.writeJournal j) fun _ => P := by
  refine .bind (Q := fun _ => during token g P) (.unwrap (fun _ _ hs _ => hs)
    fun _ hs => ⟨hs.1, trivial⟩) fun _ => ?_
  refine during_attempt (fun _ _ => rfl) (fun d _ d' hd h => ?_) fun _ _ _ _ _ => trivial
  have h' : d' = { d with journal := some j } := h
  exact h' ▸ hP d j hd

theorem during_noteRelease : DuringE token g (In id b) (noteRelease p receipt phase)
      fun _ => In id b :=
  .whenSome (fun _ _ => during_writeJournal fun _ _ hd => hd) fun _ _ hs => hs

theorem during_confirm {want : BackendState}
    {c : Call (Except StorageError Unit)} (hc : c = .unmount id ∨ c = .remove id)
    (hid : g.Knows token id) :
    DuringE token g P (do
        attempt c
        let state ← attempt (.state id bytes)
        refuse (state ≠ want) e
        noteRelease p receipt phase
        pure state : M BackendState)
      (In id) := by
  refine .bind (during_touch hc hid) fun _ => ?_
  refine .bind during_state fun b => ?_
  refine .bind (Q := fun _ => during token g (In id b)) (.guard (fun _ hs _ => hs)
    fun _ hs _ => ⟨hs.1, trivial⟩) fun _ => ?_
  exact .bind during_noteRelease fun _ => .pure fun _ hs => hs

theorem during_unmountExact (hid : g.Knows token id) :
    DuringE token g (In id b) (unmountExact p id bytes receipt b) (In id) := by
  unfold unmountExact
  split
  · exact during_confirm (.inl rfl) hid
  · exact .pure fun _ hs => hs

theorem during_removeExact (hid : g.Knows token id) :
    DuringE token g (In id b) (removeExact p id bytes receipt b) (In id) := by
  unfold removeExact
  split
  · exact during_confirm (.inr rfl) hid
  · exact .pure fun _ hs => hs

def Bare (d : Disk) : Prop := d.mountpoint = false ∧ d.journal = none

theorem during_discardAllocation {R : (BackendIdentity → BackendState) → Prop} :
    DuringE token g (fun d => R d.volumes) discardAllocation fun _ d => R d.volumes ∧ Bare d := by
  refine .bind (Q := fun _ => during token g fun d => R d.volumes ∧ d.mountpoint = false)
    (during_attempt (fun _ _ => rfl) ?_ fun _ _ _ _ _ => trivial) fun _ => ?_
  · rintro d _ _ hd ⟨-, rfl⟩
    exact ⟨hd, rfl⟩
  · refine during_attempt (fun _ _ => rfl) (fun d _ d' hd h => ?_) fun _ _ _ _ _ => trivial
    have h' : d' = { d with journal := none } := h
    subst h'
    exact ⟨hd.1, hd.2, rfl⟩

/-- `cleanup_identity` removes the object its identity names, the mountpoint and the journal, and
asks for nothing but that object. -/
theorem during_cleanupIdentity (hid : g.Knows token id) :
    DuringE token g P (cleanupIdentity p id bytes receipt) fun _ d => In id .absent d ∧ Bare d := by
  refine .bind during_state fun b => ?_
  refine .bind (during_unmountExact hid) fun b => ?_
  refine .bind (during_removeExact hid) fun b => ?_
  refine .bind (Q := fun _ => during token g (In id .absent)) (.guard
    (fun s hs hb => ?_) fun _ hs _ => ⟨hs.1, trivial⟩) fun _ => ?_
  · exact not_not.1 hb ▸ hs
  · exact during_discardAllocation (R := fun volumes => volumes id.object = .absent)

end Cleanup

/-! ## Rolling back -/

theorem BackendIdentity.token_of_object {a b : BackendIdentity} (h : a.object = b.object) :
    a.ownershipToken = b.ownershipToken := by
  cases a <;> cases b <;> simp_all [object, ownershipToken]

theorem BackendIdentity.object_of_transition {a b : BackendIdentity}
    (h : a.validPreparedTransition b = true) : b.object = a.object := by
  cases a <;> cases b <;> simp_all [validPreparedTransition, object]

def StorageError.IsCleanup (e : StorageError) : Prop := ∃ message, e = .cleanup message

/-- The objects the call was handed are gone, and it touched no other. -/
def settled (token : String) (recorded : Option BackendIdentity) : Assertion (watched token) :=
  claim token fun s => s.2.Fair token recorded ∧ s.2.begun = true ∧ s.Gone

/-- The call touched no object but those it was handed. -/
def unsettled (token : String) (recorded : Option BackendIdentity) : Assertion (watched token) :=
  claim token fun s => s.2.Fair token recorded ∧ s.2.begun = true

def unbegun (token : String) (recorded : Option BackendIdentity) : Assertion (watched token) :=
  claim token fun s => s.2.Fair token recorded ∧ s.2.begun = false ∧ s.2.found = []

def failed (token : String) (recorded : Option BackendIdentity) (e : StorageError) : Assertion (watched token) :=
  claim token fun s => s.2.Fair token recorded ∧
    (s.2.begun = false ∧ s.2.found = [] ∨ s.2.begun = true ∧ (StorageError.IsCleanup e ∨ s.Gone))

section Rollback
variable {g : Stage} {P : Disk → Prop} {j : PhaseJournal}

theorem unsettled_of_at {s : Site} (hat : g.At token s) (hbegun : g.begun = true) :
    unsettled token g.recorded s :=
  ⟨hat.ledger_fair, hat.begun.trans hbegun⟩

theorem undo_identified {c id : BackendIdentity} (hj : j.ownershipToken = token)
    (hbegun : g.begun = true) (hfound : g.found = [c])
    (hid : id.object = c.object ∨ id.ownershipToken ≠ token) :
    TripleE (during token g P) (do
        refuse (id.ownershipToken ≠ j.ownershipToken)
          (.identityMismatch "rollback discovery returned a foreign ownership token")
        p.writeJournal (j.withBackendIdentity id)
        cleanupIdentity p id j.reservedBytes none : M Unit)
      (fun _ => settled token g.recorded) (unsettled token g.recorded) := by
  have hfail : ∀ s, during token g (fun _ => True) s → unsettled token g.recorded s :=
    fun _ hs => unsettled_of_at hs.1 hbegun
  refine .bind (.refuse fun _ hs _ => unsettled_of_at hs.1 hbegun) fun _ => ?_
  refine .of_and fun htoken => ?_
  have htoken : id.ownershipToken = token := (not_not.1 htoken).trans hj
  have hobject := hid.resolve_right (not_not.2 htoken)
  have hknows : g.Knows token id :=
    ⟨c, hobject.symm, .inl ⟨hfound ▸ List.mem_singleton_self c,
      (BackendIdentity.token_of_object hobject).symm.trans htoken⟩⟩
  refine .seq ((during_writeJournal (P := fun _ => True) fun _ _ _ => trivial).pre
    fun _ hs => ⟨hs.1, trivial⟩) hfail fun _ => ?_
  refine (during_cleanupIdentity hknows).weaken (fun _ hs => hs) ?_ hfail
  rintro _ s ⟨hat, hgone, hbare⟩
  refine ⟨hat.ledger_fair, hat.begun.trans hbegun, fun f hf => ?_, hbare.1, hbare.2⟩
  rw [hat.found, hfound] at hf
  obtain rfl := List.mem_singleton.1 hf
  rw [← hobject]
  exact hgone

theorem undo_some {c id : BackendIdentity} (hj : j.ownershipToken = token)
    (hbegun : g.begun = true) (hfound : g.found = [c])
    (hid : id.object = c.object ∨ id.ownershipToken ≠ token) :
    TripleE (during token g P) (undoAllocation p j (some id))
      (fun _ => settled token g.recorded) (unsettled token g.recorded) :=
  .bind (Q := fun found => (during token g P).and (found = some id))
    (.pure fun _ hs => ⟨hs, rfl⟩) fun _ => .of_and fun hfind =>
      hfind ▸ undo_identified hj hbegun hfound hid

/-- Without an identity the object is looked for under the call's token. -/
theorem undo_none (hj : j.ownershipToken = token) (hbegun : g.begun = true) (hfound : g.found = []) :
    TripleE (during token g P) (undoAllocation p j none)
      (fun _ => settled token g.recorded) (unsettled token g.recorded) := by
  obtain ⟨begun, found, earlier, recorded⟩ := g
  obtain rfl : begun = true := hbegun
  obtain rfl : found = [] := hfound
  have hdiscover : TripleE (during token ⟨true, [], earlier, recorded⟩ P)
      (attempt (.discover j.ownershipToken j.reservedBytes))
      (fun found => during token ⟨true, found.toList, earlier, recorded⟩ fun _ => True)
      (unsettled token recorded) := by
    refine .attempt ?_ ?_
    · rintro s found s' ⟨hat, -⟩ ⟨⟨-, hl⟩, -⟩
      cases found with
      | none => exact ⟨hat.of_eq hl, trivial⟩
      | some id =>
        have hl : s'.2 = { s.2 with found := id :: s.2.found } := hl.trans (if_pos hat.begun)
        exact ⟨hat.meet hl, trivial⟩
    · rintro s e s' ⟨hat, -⟩ ⟨⟨-, hl⟩, -⟩
      exact unsettled_of_at (hat.of_eq hl) rfl
  refine .bind hdiscover fun found => ?_
  cases found with
  | none =>
    refine (during_discardAllocation (R := fun _ => True)).weaken (fun _ hs => hs) ?_
      fun _ hs => unsettled_of_at hs.1 rfl
    rintro _ s ⟨hat, -, hbare⟩
    refine ⟨hat.ledger_fair, hat.begun, fun f hf => ?_, hbare.1, hbare.2⟩
    rw [hat.found] at hf
    exact nomatch hf
  | some id => exact undo_identified hj rfl rfl (.inl rfl)

theorem rollback_fails {P : Assertion (watched token)}
    {recorded : Option BackendIdentity} {identity : Option BackendIdentity} {cause : StorageError}
    (hundo : TripleE P (undoAllocation p j identity) (fun _ => settled token recorded)
      (unsettled token recorded)) :
    TripleX P (rollbackAllocation p j identity cause : M α) Q (failed token recorded) := by
  refine .bind (.observe hundo) fun undone => ?_
  cases undone with
  | ok => exact .throw fun s hs => ⟨hs.1, .inr ⟨hs.2.1, .inr hs.2.2⟩⟩
  | error cleanup => exact .throw fun s hs => ⟨hs.1, .inr ⟨hs.2, .inl ⟨_, rfl⟩⟩⟩

theorem orRollback_fails {P E : Assertion (watched token)}
    {recorded identity : Option BackendIdentity}
    (ht : TripleE P t Q E)
    (hundo : TripleE E (undoAllocation p j identity) (fun _ => settled token recorded)
      (unsettled token recorded)) :
    TripleX P (orRollback p j identity t) Q (failed token recorded) := by
  refine .bind (.observe ht) fun done => ?_
  cases done with
  | ok a => exact fun _ hs => hs
  | error cause => exact rollback_fails hundo

end Rollback

/-! ## Building up -/

def Call.Quiet {β : Type} (c : Call β) : Prop := ∀ r l, Ledger.note c r l = l

theorem during_quiet {g : Stage} (ht : t.run.Only Call.Quiet) :
    (during token g fun _ => True).KeptBy t :=
  .of_only ht fun _ _ _ _ hc hs hsem => ⟨hs.1.of_eq (hsem.1.2.trans (hc _ _)), trivial⟩

theorem quiet_attempt (hc : c.Quiet) : (attempt c).run.Only Call.Quiet := .attempt hc

theorem quiet_writeJournal {j : PhaseJournal} : (p.writeJournal j).run.Only Call.Quiet :=
  .seq (p := unwrap _) trivial fun _ => quiet_attempt fun _ _ => rfl

theorem quiet_requireMounted {id : BackendIdentity} {bytes : Nat} :
    (requireMounted id bytes).run.Only Call.Quiet :=
  .seq (quiet_attempt fun _ _ => rfl) fun _ => .refuse

theorem quiet_publish {m : Manager} {request : AllocationRequest} {bytes : Nat}
    {backend : BackendCapability} {docker : DockerBindCapability} {id : BackendIdentity} :
    (publish m p request bytes backend docker id).run.Only Call.Quiet := by
  have hverify : (attempt .verify : M Unit).run.Only Call.Quiet := quiet_attempt fun _ _ => rfl
  refine .seq quiet_requireMounted fun _ => .seq hverify fun _ => ?_
  refine .seq quiet_requireMounted fun _ => .seq hverify fun _ => ?_
  refine .seq (quiet_attempt fun _ _ => rfl) fun _ => .seq hverify fun _ => ?_
  refine .seq .refuse fun _ => .seq hverify fun _ => ?_
  refine .seq (p := unwrap _) trivial fun _ => .seq hverify fun _ => ?_
  exact .seq quiet_writeJournal fun _ => trivial

section Build
variable {m : Manager} {request : AllocationRequest} {bytes : Nat} {backend : BackendCapability}
  {docker : DockerBindCapability} {earlier : List BackendIdentity}
  {recorded : Option BackendIdentity} {j : PhaseJournal} {P : Disk → Prop}

/-- The stage of an allocation that was handed the objects `found`. -/
def Stage.handed (found earlier : List BackendIdentity) (recorded : Option BackendIdentity) :
    Stage :=
  ⟨true, found, earlier, recorded⟩

abbrev handed (token : String) (found earlier : List BackendIdentity)
    (recorded : Option BackendIdentity) : Assertion (watched token) :=
  during token (.handed found earlier recorded) fun _ => True

/-- Nothing was handed out, and no journal was written. -/
abbrev blank (token : String) (earlier : List BackendIdentity) (recorded : Option BackendIdentity) :
    Assertion (watched token) :=
  during token (.handed [] earlier recorded) fun d => d.journal = none

theorem step_fails {c id : BackendIdentity} (ht : t.run.Only Call.Quiet)
    (hj : j.ownershipToken = token) (hid : id.object = c.object) :
    TripleX (handed token [c] earlier recorded) (orRollback p j (some id) t)
      (fun _ => handed token [c] earlier recorded) (failed token recorded) :=
  orRollback_fails (during_quiet ht) (undo_some hj rfl rfl (.inl hid))

theorem create_fails (hj : j.ownershipToken = token) :
    TripleX (handed token [] earlier recorded)
      (orRollback p j none (attempt (.create request.labels j.ownershipToken bytes)))
      (fun c => handed token [c] earlier recorded) (failed token recorded) := by
  refine orRollback_fails (E := handed token [] earlier recorded)
    (.attempt ?_ ?_) (undo_none hj rfl rfl)
  · rintro s c s' ⟨hat, -⟩ ⟨⟨-, hl⟩, -⟩
    exact ⟨hat.meet hl, trivial⟩
  · rintro s e s' ⟨hat, -⟩ ⟨⟨-, hl⟩, -⟩
    exact ⟨hat.of_eq hl, trivial⟩

theorem token_fails {c : BackendIdentity} (hj : j.ownershipToken = token) :
    TripleX (handed token [c] earlier recorded)
      (orRollback p j (some c) (refuse (c.ownershipToken ≠ j.ownershipToken) e))
      (fun _ => (handed token [c] earlier recorded).and (c.ownershipToken = token))
      (failed token recorded) := by
  refine orRollback_fails (E := handed token [c] earlier recorded)
    (.guard (fun _ hs hc => ⟨hs, (not_not.1 hc).trans hj⟩) fun _ hs _ => hs) ?_
  exact undo_some hj rfl rfl (.inl rfl)

theorem prepare_fails {c : BackendIdentity} (hj : j.ownershipToken = token) :
    TripleX (handed token [c] earlier recorded)
      (orRollback p j (some c) (attempt (.prepare c bytes)))
      (fun prepared => (handed token [c] earlier recorded).and
        (prepared.object = c.object ∨ prepared.ownershipToken ≠ c.ownershipToken))
      (failed token recorded) := by
  refine orRollback_fails (E := handed token [c] earlier recorded)
    (.attempt ?_ ?_) (undo_some hj rfl rfl (.inl rfl))
  · rintro s prepared s' ⟨hat, -⟩ ⟨⟨-, hl⟩, hsincere⟩
    exact ⟨⟨hat.of_eq hl, trivial⟩, hsincere⟩
  · rintro s e s' ⟨hat, -⟩ ⟨⟨-, hl⟩, -⟩
    exact ⟨hat.of_eq hl, trivial⟩

theorem transition_fails {c prepared : BackendIdentity} (hj : j.ownershipToken = token)
    (hprepared : prepared.object = c.object ∨ prepared.ownershipToken ≠ token) :
    TripleX (handed token [c] earlier recorded)
      (orRollback p j (some prepared) (refuse (!c.validPreparedTransition prepared) e))
      (fun _ => (handed token [c] earlier recorded).and (prepared.object = c.object))
      (failed token recorded) := by
  refine orRollback_fails (E := handed token [c] earlier recorded)
    (.guard (fun _ hs hvalid => ⟨hs, ?_⟩) fun _ hs _ => hs) ?_
  · exact BackendIdentity.object_of_transition (by simpa using hvalid)
  · exact undo_some hj rfl rfl hprepared

theorem build_fails (hj : j.ownershipToken = token) :
    TripleX (handed token [] earlier recorded)
      (build m p request bytes backend docker j) (fun _ => claim token fun _ => True)
      (failed token recorded) := by
  have hj' : ∀ id, (j.withBackendIdentity id).ownershipToken = token := fun _ => hj
  refine .bind (create_fails hj) fun c => ?_
  refine .bind (token_fails hj) fun _ => .of_and fun hc => ?_
  refine .bind (step_fails quiet_writeJournal hj rfl) fun _ => ?_
  refine .bind (prepare_fails hj) fun prepared => .of_and fun hprepared => ?_
  rw [hc] at hprepared
  refine .bind (transition_fails hj hprepared) fun _ => .of_and fun hobject => ?_
  refine .bind (step_fails quiet_writeJournal hj hobject) fun _ => ?_
  refine .bind (step_fails (quiet_attempt fun _ _ => rfl) (hj' _) hobject) fun _ => ?_
  refine .bind (step_fails (quiet_attempt fun _ _ => rfl) (hj' _) hobject) fun _ => ?_
  exact Triple.weaken (step_fails quiet_publish (hj' _) hobject) (fun _ hs => hs) fun r s hs =>
    match r with
    | .ok _ => trivial
    | .error _ => hs

theorem openJournal_fails :
    TripleX (blank token earlier recorded) (openJournal p j)
      (fun _ => handed token [] earlier recorded) (failed token recorded) := by
  have hcreate : TripleE (blank token earlier recorded) (p.createJournal j)
      (fun _ => handed token [] earlier recorded) (blank token earlier recorded) := by
    refine .bind (.unwrap (Q := fun _ => blank token earlier recorded) (fun _ _ hs _ => hs)
      fun _ hs => hs) fun _ => ?_
    exact during_attempt (fun _ _ => rfl) (fun _ _ _ _ _ => trivial)
      fun _ _ _ hd h => (h : _ = _) ▸ hd
  refine .bind (.observe hcreate) fun created => ?_
  cases created with
  | ok => exact fun _ hs => hs
  | error e =>
    have hremove : TripleE (blank token earlier recorded) (attempt .removeMountpoint)
        (fun _ => during token (.handed [] earlier recorded) Bare)
        (during token (.handed [] earlier recorded) Bare) := by
      refine during_attempt (fun _ _ => rfl) ?_ ?_
      · rintro d _ _ hd ⟨-, rfl⟩
        exact ⟨rfl, hd⟩
      · rintro d _ _ hd ⟨herr, -⟩
        exact nomatch herr
    refine .bind (.observe hremove) fun removed => .throw fun s hs => ?_
    have hs : during token (.handed [] earlier recorded) Bare s := by
      cases removed with
      | ok => exact hs
      | error => exact hs
    refine ⟨hs.1.ledger_fair, .inr ⟨hs.1.begun, .inr ⟨fun f hf => ?_, hs.2.1, hs.2.2⟩⟩⟩
    rw [hs.1.found] at hf
    exact nomatch hf

end Build

/-! ## What comes first -/

section Ground
variable {m : Manager} {request : AllocationRequest} {bytes : Nat}
  {recorded : Option BackendIdentity} {j : PhaseJournal}

/-- The stage of an allocation that has not begun, and has discovered the objects `earlier`. -/
def Stage.unbegun (earlier : List BackendIdentity) (recorded : Option BackendIdentity) : Stage :=
  ⟨false, [], earlier, recorded⟩

/-- It has not begun, over a disk with the journal `j₀`. -/
abbrev early (token : String) (earlier : List BackendIdentity) (recorded : Option BackendIdentity)
    (j₀ : Option PhaseJournal) : Assertion (watched token) :=
  during token (.unbegun earlier recorded) fun d => d.journal = j₀

abbrev idle (token : String) (earlier : List BackendIdentity) (recorded : Option BackendIdentity) :
    Assertion (watched token) :=
  during token (.unbegun earlier recorded) fun _ => True

variable {earlier : List BackendIdentity} {P : Disk → Prop} {s s' : Site}

theorem unbegun_of_during (hs : during token (.unbegun earlier recorded) P s) :
    unbegun token recorded s :=
  ⟨hs.1.ledger_fair, hs.1.begun, hs.1.found⟩

theorem unbegun_of_eq (hs : during token (.unbegun earlier recorded) P s) (hl : s'.2 = s.2) :
    unbegun token recorded s' :=
  unbegun_of_during (P := fun _ => True) ⟨hs.1.of_eq hl, trivial⟩

theorem unbegun_attempt {α : Type} {c : Call (Except StorageError α)} {Q : α → Disk → Prop}
    (hnote : ∀ l r, Ledger.note c r l = l) (hok : ∀ d a d', P d → c.Does token d (.ok a) d' → Q a d') :
    TripleE (during token (.unbegun earlier recorded) P) (attempt c)
      (fun a => during token (.unbegun earlier recorded) (Q a)) (unbegun token recorded) :=
  (during_attempt (E := fun _ => True) hnote hok fun _ _ _ _ _ => trivial).err fun _ hs =>
    unbegun_of_during hs

theorem unbegun_refuse {q : Prop} [Decidable q] :
    TripleE (during token (.unbegun earlier recorded) P) (refuse q e)
      (fun _ => during token (.unbegun earlier recorded) P) (unbegun token recorded) :=
  .guard (fun _ hs _ => hs) fun _ hs _ => unbegun_of_during hs

theorem failed_of_unbegun (hs : unbegun token recorded s) : failed token recorded e s :=
  ⟨hs.1, .inl hs.2⟩

def clear (token : String) (recorded : Option BackendIdentity) : Assertion (watched token) :=
  .some fun earlier => early token earlier recorded none

theorem clear_of_bare (hs : during token (.unbegun earlier recorded) (fun d => P d ∧ Bare d) s) :
    clear token recorded s :=
  ⟨earlier, hs.1, hs.2.2.2⟩

theorem recover_identified {id : BackendIdentity} {receipt : Option AllocationReceipt}
    (hid : (Stage.unbegun earlier recorded).Knows token id) :
    TripleE (during token (.unbegun earlier recorded) P)
      (cleanupIdentity p id bytes receipt) (fun _ => clear token recorded) (unbegun token recorded) :=
  (during_cleanupIdentity hid).weaken (fun _ hs => hs) (fun _ _ hs => clear_of_bare hs)
    fun _ hs => unbegun_of_during hs

def identified (token : String) (recorded : Option BackendIdentity) (id : BackendIdentity) :
    Assertion (watched token) :=
  .some fun earlier => (idle token earlier recorded).and
    ((Stage.unbegun earlier recorded).Knows token id)

theorem identify_knows {t : String} : TripleE (idle token [] recorded)
      (identify t bytes recorded)
      (fun found => match found with
        | some id => identified token recorded id
        | none => idle token [] recorded)
      (unbegun token recorded) := by
  cases recorded with
  | some id => exact .pure fun _ hs => ⟨[], hs, id, rfl, .inr (.inr rfl)⟩
  | none =>
    refine .attempt ?_ ?_
    · rintro s found s' ⟨hat, -⟩ ⟨⟨-, hl⟩, -⟩
      cases found with
      | none => exact ⟨hat.of_eq hl, trivial⟩
      | some id =>
        have hl : s'.2 = { s.2 with earlier := id :: s.2.earlier } :=
          hl.trans (if_neg (by rw [hat.begun]; exact nofun))
        exact ⟨[id], ⟨hat.discover hl, trivial⟩, id, rfl, .inr (.inl (List.mem_singleton_self id))⟩
    · rintro s e s' hs ⟨⟨-, hl⟩, -⟩
      exact unbegun_of_eq hs hl

theorem recoverAllocating_clears (hj : j.backend = recorded) :
    TripleE (idle token [] recorded) (recoverAllocating p j)
      (fun _ => clear token recorded) (unbegun token recorded) := by
  subst hj
  refine .bind identify_knows fun found => ?_
  cases found with
  | none =>
    exact (during_discardAllocation (R := fun _ => True)).weaken (fun _ hs => hs)
      (fun _ _ hs => clear_of_bare hs) fun _ hs => unbegun_of_during hs
  | some id =>
    rintro s ⟨earlier, hs, hid⟩
    refine TripleE.bind (P := idle token earlier j.backend) (TripleE.guard
      (R := idle token earlier j.backend) (fun _ hs _ => hs)
      fun _ hs _ => unbegun_of_during hs) (fun _ => ?_) s hs
    refine TripleE.seq (F := idle token earlier j.backend)
      (.provided (fun _ => ?_) fun _ _ hs => hs) (fun _ hs => unbegun_of_during hs)
      fun _ => recover_identified hid
    exact during_writeJournal fun _ _ _ => trivial

theorem quiet_validateBackendConfig : (validateBackendConfig m j).run.Only Call.Quiet :=
  .seq (quiet_attempt fun _ _ => rfl) fun _ => .refuse

theorem quiet_authenticate {receipt : AllocationReceipt} :
    (authenticateCleanupAuthority m p receipt j).run.Only Call.Quiet := by
  refine .seq (p := unwrap _) trivial fun _ => .seq .refuse fun _ => ?_
  refine .seq quiet_validateBackendConfig fun _ => .seq .refuse fun _ => ?_
  refine .seq (quiet_attempt fun _ _ => rfl) fun _ => ?_
  refine .seq (quiet_attempt fun _ _ => rfl) fun _ => ?_
  refine .seq (quiet_attempt fun _ _ => rfl) fun _ => ?_
  exact .seq .refuse fun _ => trivial

theorem unbegun_quiet (ht : t.run.Only Call.Quiet) :
    TripleE (idle token earlier recorded) t
      (fun _ => idle token earlier recorded) (unbegun token recorded) :=
  (during_quiet ht).err fun _ hs => unbegun_of_during hs

theorem PhaseJournal.backend_of_receipt {id : ExecutionId}
    {receipt : AllocationReceipt} (hvalid : j.validate id layout = .ok ())
    (hr : j.receipt = some receipt) : j.backend = some receipt.backend := by
  obtain ⟨_, -, hvalid⟩ := Txn.bind_eq_ok.1 hvalid
  obtain ⟨_, -, hphase⟩ := Txn.bind_eq_ok.1 hvalid
  unfold validatePhase at hphase
  split at hphase
  case h_1 | h_4 => simp_all
  all_goals
    split at hphase
    · simp_all
    · exact nomatch hphase

theorem recoverReleasing_clears {id : ExecutionId}
    (hj : j.backend = recorded) (hvalid : j.validate id layout = .ok ()) :
    TripleE (idle token [] recorded) (recoverReleasing m p j)
      (fun _ => clear token recorded) (unbegun token recorded) := by
  refine .bind (.demand fun _ hs => unbegun_of_during hs) fun receipt => ?_
  refine .of_and fun hreceipt => ?_
  refine .bind (unbegun_quiet quiet_authenticate) fun _ => recover_identified ?_
  exact ⟨receipt.backend, rfl, .inr (.inr (hj ▸ PhaseJournal.backend_of_receipt hvalid hreceipt))⟩

theorem recoverExisting_clears (hj₀ : j₀.bind (·.backend) = recorded) :
    TripleE (early token [] recorded j₀) (recoverExisting m p request bytes)
      (fun _ => clear token recorded) (unbegun token recorded) := by
  have hread : TripleE (early token [] recorded j₀) p.readJournal
      (fun j => (idle token [] recorded).and
        (j.backend = recorded ∧ j.validate p.id p.layout = .ok ())) (unbegun token recorded) := by
    refine .bind (Q := fun j => (idle token [] recorded).and (j.backend = recorded))
      (.attempt ?_ ?_) fun j => .of_and fun hj => ?_
    · rintro s j s' ⟨hat, hd⟩ ⟨⟨⟨-, hread⟩, hl⟩, -⟩
      refine ⟨⟨hat.of_eq hl, trivial⟩, ?_⟩
      rw [← hj₀, ← hd, hread j rfl]
      rfl
    · rintro s e s' hs ⟨⟨-, hl⟩, -⟩
      exact unbegun_of_eq hs hl
    · refine .bind (.unwrap (Q := fun _ => (idle token [] recorded).and
        (j.validate p.id p.layout = .ok ())) (fun _ _ hs hv => ⟨hs, hv⟩)
        fun _ hs => unbegun_of_during hs) fun _ => ?_
      exact .pure fun _ hs => ⟨hs.1, hj, hs.2⟩
  refine .learn hread fun j ⟨hj, hvalid⟩ => ?_
  refine .bind unbegun_refuse fun _ => ?_
  refine .bind (unbegun_quiet quiet_validateBackendConfig) fun _ => ?_
  cases j.phase with
  | ready => exact .throw fun _ hs => unbegun_of_during hs
  | releasing => exact recoverReleasing_clears hj hvalid
  | allocating => exact recoverAllocating_clears hj

theorem probe_clear : TripleE (early token earlier recorded none) (probe bytes)
      (fun _ => early token earlier recorded none) (unbegun token recorded) := by
  have hkeep : ∀ {d d' : Disk}, d.journal = none → (∃ volumes, d' = { d with volumes }) →
      d'.journal = none := by
    rintro d _ hd ⟨_, rfl⟩
    exact hd
  refine .bind (unbegun_attempt (fun _ _ => rfl)
    fun _ _ _ hd h => hkeep hd h) fun backend => ?_
  refine .bind (.attemptAs (Q := fun _ => early token earlier recorded none) ?_ ?_) fun docker => ?_
  · rintro s _ s' ⟨hat, hd⟩ ⟨⟨hdoes, hl⟩, -⟩
    exact ⟨hat.of_eq hl, hkeep hd hdoes⟩
  · rintro s _ s' hs ⟨⟨-, hl⟩, -⟩
    exact unbegun_of_eq hs hl
  · refine .bind (.unwrap (Q := fun _ => early token earlier recorded none) (fun _ _ hs _ => hs)
      fun _ hs => unbegun_of_during hs) fun _ => ?_
    exact .pure fun _ hs => hs

theorem prepareGround_clears (hj₀ : j₀.bind (·.backend) = recorded) :
    TripleE (early token [] recorded j₀) (prepareGround m p request bytes)
      (fun _ => clear token recorded) (unbegun token recorded) := by
  refine .bind (Q := fun _ => early token [] recorded j₀) (unbegun_attempt (fun _ _ => rfl)
    fun _ _ _ hd h => h.1 ▸ hd) fun tombstone => ?_
  refine .bind unbegun_refuse fun _ => ?_
  refine .learn (Q := fun _ => early token [] recorded j₀) (φ := fun journaled => journaled = j₀.isSome)
    (.attempt ?_ ?_) fun journaled hjournaled => ?_
  · rintro s b s' ⟨hat, hd⟩ ⟨⟨⟨hsame, hb⟩, hl⟩, -⟩
    exact ⟨⟨hat.of_eq hl, hsame ▸ hd⟩, hd ▸ hb b rfl⟩
  · rintro s e s' hs ⟨⟨-, hl⟩, -⟩
    exact unbegun_of_eq hs hl
  · subst hjournaled
    refine .bind (.provided (R := clear token recorded) (fun _ =>
      recoverExisting_clears hj₀) fun hno s hs => ?_) fun _ => ?_
    · have hnone : j₀ = none := by simpa using hno
      exact ⟨[], hs.1, hnone ▸ hs.2⟩
    · rintro s ⟨earlier, hs⟩
      refine TripleE.bind probe_clear (fun capability => ?_) s hs
      refine TripleE.bind (TripleE.guard (R := clear token recorded) (fun _ hs _ => ⟨earlier, hs⟩)
        fun _ hs _ => unbegun_of_during hs) fun _ => ?_
      exact .pure fun _ hs => hs

end Ground

/-! ## The whole call -/

section Whole
variable {m : Manager} {request : AllocationRequest} {bytes : Nat}
  {recorded : Option BackendIdentity}

theorem createMountpoint_begins {earlier : List BackendIdentity} :
    TripleE (early token earlier recorded none)
      p.createMountpoint (fun _ => blank token earlier recorded) (unbegun token recorded) := by
  refine .bind (Q := fun _ => early token earlier recorded none) (unbegun_attempt (fun _ _ => rfl)
    fun _ _ _ hd h => (h : _ = _) ▸ hd) fun _ => ?_
  refine .bind (Q := fun _ => early token earlier recorded none) (unbegun_attempt (fun _ _ => rfl)
    fun _ _ _ hd h => h.1 ▸ hd) fun absent => ?_
  refine .bind unbegun_refuse fun _ => ?_
  refine .attempt ?_ ?_
  · rintro s _ s' ⟨hat, hd⟩ ⟨⟨hdoes, hl⟩, -⟩
    have hdoes : s'.1 = { s.1 with mountpoint := true } := hdoes
    refine ⟨hat.begin hl, ?_⟩
    rw [hdoes]
    exact hd
  · rintro s _ s' hs ⟨⟨-, hl⟩, -⟩
    exact unbegun_of_eq hs hl

theorem allocateAt_fails (hj₀ : j₀.bind (·.backend) = recorded) :
    TripleX (early token [] recorded j₀) (allocateAt m p request bytes)
      (fun _ => claim token fun _ => True) (failed token recorded) := by
  refine .bind (.of_triple (prepareGround_clears hj₀)
    fun _ _ hs => failed_of_unbegun hs) fun capability => .of_some fun earlier => ?_
  refine .bind (.of_triple createMountpoint_begins
    fun _ _ hs => failed_of_unbegun hs) fun _ => ?_
  have htoken : TripleE (blank token earlier recorded) (attempt .ownershipToken)
      (fun t => (blank token earlier recorded).and (t = token)) (claim token fun _ => False) := by
    refine .attempt ?_ ?_
    · rintro s t s' ⟨hat, hd⟩ ⟨⟨⟨ht, hsame⟩, hl⟩, -⟩
      exact ⟨⟨hat.of_eq hl, hsame ▸ hd⟩, Except.ok.inj ht⟩
    · rintro s e s' - ⟨⟨⟨ht, -⟩, -⟩, -⟩
      exact nomatch ht
  refine .bind (.of_triple htoken fun _ _ hs => hs.elim) fun t =>
    .of_and fun ht => ?_
  exact .bind openJournal_fails fun _ => build_fails ht

theorem allocate_fails (hj₀ : j₀.bind (·.backend) = recorded) :
    TripleX (early token [] recorded j₀) (allocate m request)
      (fun _ => claim token fun _ => True) (failed token recorded) := by
  have hunwrap : ∀ {α} {r : Except StorageError α}, TripleX (early token [] recorded j₀) (unwrap r)
      (fun _ => early token [] recorded j₀) (failed token recorded) :=
    .of_triple (.unwrap (E := unbegun token recorded) (fun _ _ hs _ => hs)
      fun _ hs => unbegun_of_during hs) fun _ _ hs => failed_of_unbegun hs
  exact .bind hunwrap fun bytes => .bind hunwrap fun layout => allocateAt_fails hj₀

end Whole

theorem WorkingBackend.does_exec (B : WorkingBackend) (token : String) {β : Type} (c : Call β)
    (d : Disk) : c.Does token d (B.exec token c d).1 (B.exec token c d).2 := by
  cases c
  case readJournal => exact ⟨rfl, fun _ hj => Txn.require_eq_ok.1 hj⟩
  case createJournal | writeJournal | removeJournal =>
    simp only [exec]
    split <;> exact rfl
  case create | prepare =>
    simp only [exec]
    split <;> exact ⟨_, rfl⟩
  case mount | unmount | remove =>
    simp only [exec, Disk.shift]
    split <;> exact ⟨_, rfl⟩
  case probeBackend | probeDocker | verifyBind | discover => exact ⟨_, rfl⟩
  case verify | createMountpoint => exact rfl
  case removeMountpoint | ownershipToken => exact ⟨rfl, rfl⟩
  all_goals exact ⟨rfl, fun _ h => (Except.ok.inj h).symm⟩

namespace Sample

def volume (name filesystemUuid token : String) : BackendIdentity :=
  .lvm "vg" "vg-uuid" name (name ++ "-uuid") filesystemUuid token

def formatted : BackendIdentity → BackendIdentity
  | .lvm group groupUuid volume volumeUuid _ token =>
    .lvm group groupUuid volume volumeUuid "fs" token
  | id => id

def working : WorkingBackend where
  capability := ⟨"thick_lvm", "vg-uuid", 2 ^ 40⟩
  docker := ⟨"daemon", "verifier", "v1"⟩
  filesystemId := "fs"
  mint := volume "lv" ""
  format := formatted
  kind_known := by decide
  pool_known := by decide
  docker_valid := by decide
  filesystem_known := by decide
  mint_token := fun _ => rfl
  mint_complete := by
    intro token htoken
    simp [volume, BackendIdentity.validateCreated, htoken, Txn.ensure]
  format_valid := by
    intro token
    simp [volume, formatted, BackendIdentity.validPreparedTransition]
  format_complete := by
    intro token htoken
    simp [volume, formatted, BackendIdentity.validate, BackendIdentity.fields, htoken]

/-- What `prepare` and `mount` answer on this host. -/
structure Script where
  prepared : Option BackendIdentity := none
  mounts : Bool := true

def Script.answer (script : Script) (token : String) :
    {β : Type} → Call β → Disk → β × Disk
  | _, .prepare id bytes, d =>
    match script.prepared with
    | some prepared => (.ok prepared, d)
    | none => working.exec token (.prepare id bytes) d
  | _, .mount id bytes, d =>
    if script.mounts then working.exec token (.mount id bytes) d
    else (.error (.command "mount failed"), d)
  | _, c, d => working.exec token c d

def Script.exec (script : Script) (token : String) {β : Type} (c : Call β) (s : Site) : β × Site :=
  ((script.answer token c s.1).1, (script.answer token c s.1).2,
    s.2.note c (script.answer token c s.1).1)

theorem Script.noted_exec (script : Script) (token : String) {β : Type} (c : Call β) (s : Site) :
    c.Noted token s (script.exec token c s).1 (script.exec token c s).2 := by
  refine ⟨?_, rfl⟩
  cases c
  case prepare id bytes =>
    simp only [exec, answer]
    split
    · exact ⟨_, rfl⟩
    · exact working.does_exec token _ _
  case mount id bytes =>
    simp only [exec, answer]
    split
    · exact working.does_exec token _ _
    · exact ⟨_, rfl⟩
  all_goals exact working.does_exec token _ _

theorem Script.sincere_exec (script : Script) (hscript : script.prepared = none) (token : String)
    {β : Type} (c : Call β) (s : Site) : c.Sincere (script.exec token c s).1 := by
  cases c
  case prepare id bytes =>
    simp only [exec, answer, hscript, WorkingBackend.exec]
    split
    · cases id <;> exact .inl rfl
    · trivial
  all_goals trivial

def manager : Manager where
  stateRoot := "/srv"
  key := fun labels => s!"lvm:vg:{labels.executionId}"
  cleanupDaemonId := "daemon"

def request : AllocationRequest where
  labels := { executionId := ⟨"e"⟩, workerId := ⟨"w"⟩, repository := "o/r" }
  diskGib := 1

def fresh : Disk where
  mountpoint := false
  journal := none
  tombstone := false
  volumes := fun _ => .absent

def allocation (script : Script) (token : String) (d : Disk) :
    Except StorageError AllocationReceipt × Site :=
  (allocate manager request).run.eval (script.exec token) (d, {})

def error (r : Except StorageError AllocationReceipt × Site) : Option StorageError :=
  match r.1 with
  | .ok _ => none
  | .error e => some e

theorem runs_allocation {script : Script} {token : String} {d : Disk} {e : StorageError}
    {ok : {β : Type} → Call β → β → Prop}
    (hok : ∀ {β : Type} (c : Call β) (s : Site), ok c (script.exec token c s).1)
    (he : error (allocation script token d) = some e) :
    Runs (fun c s r s' => c.Noted token s r s' ∧ ok c r) alone (allocate manager request).run
      (d, {}) (.error e) (allocation script token d).2 := by
  have hrun : Runs (fun c s r s' => Call.Noted token c s r s' ∧ ok c r) alone _ _ _ _ := eval_runs _
    (fun c s => ⟨script.noted_exec token c s, hok c s⟩) (allocate manager request).run (d, {})
  have hres : (allocation script token d).1 = .error e := by
    unfold error at he
    split at he
    · exact nomatch he
    · next e' hres => rw [hres, Option.some.inj he]
  rw [← hres]
  exact hrun

def unmounting : Script where
  mounts := false

/-- Another volume is prepared, under the same token. -/
def straying : Script where
  prepared := some (volume "other" "fs" "t")

end Sample

/-- From storage `start`, with the answers `ok`, every failure but a failed cleanup leaves nothing
and touches only what the call created or discovered. -/
def LeavesNothing (start : Disk → Prop) (ok : {β : Type} → Call β → β → Prop) : Prop :=
  ∀ (m : Manager) (request : AllocationRequest) (token : String) (d : Disk) (e : StorageError)
    (t : Site), start d →
    Runs (fun c s r s' => c.Noted token s r s' ∧ ok c r) alone (allocate m request).run (d, {})
      (.error e) t →
    (∀ message, e ≠ .cleanup message) →
    t.Gone ∧ ∀ a ∈ t.2.touched, ∃ b ∈ t.2.found, b.object = a.object

end Orchestrator.ExecutionStorage.Exact
