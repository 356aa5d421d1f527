import Orchestrator.Storage.Proof.Release

/-!
# Ready leases exclude release

Processes acquire leases, release, acknowledge and allocate on one execution in any interleaving. A
release acts only while it holds the lease file exclusively, and an allocation only while the journal
is not Ready; it is the allocations that make the journal Ready. So a consumer that holds the file
with others and has seen the Ready journal keeps it, provided an allocation begins only while no
other is under way: `recover_existing` takes no lock, and two allocations at once may have one undo
what the other has just made Ready.
-/

namespace Orchestrator.ExecutionStorage.Exact

open Prog

/-! ## What the processes keep -/

def Host.Ready (h : Host) : Prop := ∃ j, h.journal = some j ∧ j.phase = .ready

def Host.ReadyFor (receipt : AllocationReceipt) (h : Host) : Prop :=
  ∃ j, h.journal = some j ∧ j.phase = .ready ∧ j.receipt = some receipt

variable {h : Host} {state : BackendState} {tombstone : Option AllocationReceipt}
  {f : StorageError → StorageError}

theorem Host.ReadyFor.ready {receipt : AllocationReceipt} (hr : h.ReadyFor receipt) : h.Ready := by
  obtain ⟨j, hj, hphase, _⟩ := hr
  exact ⟨j, hj, hphase⟩

structure LeaseInv (h : Host) : Prop where
  leased : ∀ i r, (i, r) ∈ h.leases → i ∈ h.shared ∧ h.ReadyFor r
  exclusive : ∀ i, h.exclusive = some i → h.shared = []
  serial : ∀ i j, i ∈ h.allocating → j ∈ h.allocating → i = j

section Keeping
variable {i j : Nat} {h h' : Host}

theorem LeaseInv.unleased (hinv : LeaseInv h) (hi : h.exclusive = some i) : h.leases = [] := by
  refine List.eq_nil_iff_forall_not_mem.2 fun ⟨k, r⟩ hmem => ?_
  have hshared := (hinv.leased k r hmem).1
  rw [hinv.exclusive i hi] at hshared
  exact nomatch hshared

theorem LeaseInv.unleased_of_unready (hinv : LeaseInv h) (hready : ¬h.Ready) : h.leases = [] :=
  List.eq_nil_iff_forall_not_mem.2 fun ⟨k, r⟩ hmem => hready (hinv.leased k r hmem).2.ready

/-- What process `j` has locked, and whether it allocates. -/
structure SameFor (j : Nat) (h h' : Host) : Prop where
  exclusive : h'.exclusive = some j ↔ h.exclusive = some j
  shared : j ∈ h'.shared ↔ j ∈ h.shared
  allocating : j ∈ h'.allocating ↔ j ∈ h.allocating

structure LeaseGuar (i : Nat) (h h' : Host) : Prop where
  inv : LeaseInv h → LeaseInv h'
  apart : ∀ j, j ≠ i → SameFor j h h'
  journal : LeaseInv h → h.Ready → h'.journal = h.journal ∨ h.exclusive = some i
  published : ¬h.Ready → h'.Ready → i ∈ h.allocating
  issued : LeaseInv h → h'.issued = h.issued ∨ h.leases = []
  granted : ∀ x, x ∈ h'.leases → x ∉ h.leases → h'.journal = h.journal

/-- What a process relies on. -/
structure LeaseRely (j : Nat) (h h' : Host) : Prop where
  inv : LeaseInv h → LeaseInv h'
  same : SameFor j h h'
  journal : LeaseInv h → j ∈ h.shared → h.Ready → h'.journal = h.journal
  unready : LeaseInv h → j ∈ h.allocating → ¬h.Ready → ¬h'.Ready

theorem LeaseGuar.rely (hg : LeaseGuar i h h') (hij : i ≠ j) : LeaseRely j h h' where
  inv := hg.inv
  same := hg.apart j (Ne.symm hij)
  journal hinv hj hready := by
    rcases hg.journal hinv hready with hsame | hi
    · exact hsame
    · rw [hinv.exclusive i hi] at hj
      exact nomatch hj
  unready hinv hj hready hready' := hij (hinv.serial i j (hg.published hready hready') hj)

/-- All that leases depend on is the same. -/
structure SameCore (h h' : Host) : Prop where
  journal : h'.journal = h.journal
  exclusive : h'.exclusive = h.exclusive
  shared : h'.shared = h.shared
  leases : h'.leases = h.leases
  allocating : h'.allocating = h.allocating
  issued : h'.issued = h.issued

theorem SameCore.refl : SameCore h h := ⟨rfl, rfl, rfl, rfl, rfl, rfl⟩

/-- A step that leaves the journal alone. -/
theorem LeaseGuar.of_journal (inv : LeaseInv h → LeaseInv h') (apart : ∀ j, j ≠ i → SameFor j h h')
    (hj : h'.journal = h.journal) (hissued : h'.issued = h.issued) : LeaseGuar i h h' where
  inv := inv
  apart := apart
  journal _ _ := .inl hj
  published hready hready' := by
    unfold Host.Ready at hready hready'
    rw [hj] at hready'
    exact absurd hready' hready
  issued _ := .inl hissued
  granted _ _ _ := hj

theorem SameCore.guar (hs : SameCore h h') : LeaseGuar i h h' := by
  refine .of_journal (fun hinv => ⟨?_, ?_, ?_⟩)
    (fun j _ => ⟨by rw [hs.exclusive], by rw [hs.shared], by rw [hs.allocating]⟩) hs.journal hs.issued
  · unfold Host.ReadyFor
    rw [hs.leases, hs.shared, hs.journal]
    exact hinv.leased
  · rw [hs.exclusive, hs.shared]
    exact hinv.exclusive
  · rw [hs.allocating]
    exact hinv.serial

end Keeping

/-! ## Calls -/

/-- Calls of the storage that touch neither the journal nor an object. -/
def Call.Reads : {β : Type} → Call β → Prop
  | _, .createJournal _ | _, .writeJournal _ | _, .removeJournal | _, .unmount _ | _, .remove _ =>
    False
  | _, _ => True

/-- Calls of the storage that do not make the journal Ready. -/
def Call.Tame : {β : Type} → Call β → Prop
  | _, .createJournal j | _, .writeJournal j => j.phase ≠ .ready
  | _, _ => True

/-- Calls that take no lock, grant no lease and drop none. -/
def LeaseCall.Plain : {β : Type} → LeaseCall β → Prop
  | _, .tryLockExclusive | _, .tryLockShared | _, .granted _ | _, .dropped => False
  | _, _ => True

section Calls
variable {i : Nat} {β : Type} {h h' : Host} {r : β}

/-- Who holds what is no matter of the storage. -/
structure SameHolders (h h' : Host) : Prop where
  exclusive : h'.exclusive = h.exclusive
  shared : h'.shared = h.shared
  leases : h'.leases = h.leases
  allocating : h'.allocating = h.allocating

variable {c : Call β}

theorem storage_holders (hdoes : (ReleaseCall.storage c).Does i h r h') : SameHolders h h' := by
  obtain ⟨token, d, -, rfl⟩ := hdoes
  exact ⟨by simp [Host.put], by simp [Host.put], by simp [Host.put], by simp [Host.put]⟩

theorem storage_reads (hc : c.Reads)
    (hdoes : (ReleaseCall.storage c).Does i h r h') : SameCore h h' := by
  have hholders := storage_holders hdoes
  obtain ⟨token, d, hdoes, rfl⟩ := hdoes
  have hjournal : d.journal = h.journal := by
    cases c with
    | createJournal _ | writeJournal _ | removeJournal | unmount _ | remove _ => exact hc.elim
    | readTombstone | journalExists | readJournal | mountpointAbsent | state _ _ =>
      rw [hdoes.1]
      rfl
    | createMountpoint =>
      cases r with
      | ok _ | error _ =>
        rw [show d = _ from hdoes]
        rfl
    | removeMountpoint | ownershipToken =>
      rw [hdoes.2]
      rfl
    | verify =>
      rw [show d = _ from hdoes]
      rfl
    | probeBackend _ | probeDocker | verifyBind _ | discover _ _ | create _ _ _ | prepare _ _
    | mount _ _ =>
      obtain ⟨volumes, rfl⟩ := hdoes
      rfl
  have hissued : ((h.put d).issue c).issued = h.issued := by
    cases c <;> first | rfl | exact hc.elim
  exact ⟨by simpa [Host.put] using hjournal, hholders.exclusive, hholders.shared, hholders.leases,
    hholders.allocating, hissued⟩

theorem storage_tame (hc : c.Tame) (hdoes : (ReleaseCall.storage c).Does i h r h')
    (hready : h'.Ready) : h.Ready := by
  have hsame : ∀ d : Disk, h' = (h.put d).issue c → d.journal = h.journal → h.Ready := by
    intro d hd hjournal
    obtain ⟨j, hj, hphase⟩ := hready
    refine ⟨j, ?_, hphase⟩
    rw [← hjournal, ← hj, hd]
    simp [Host.put]
  by_cases hreads : c.Reads
  · obtain ⟨j, hj, hphase⟩ := hready
    exact ⟨j, (storage_reads hreads hdoes).journal ▸ hj, hphase⟩
  · obtain ⟨token, d, hdoes, hd⟩ := hdoes
    cases c with
    | createJournal j | writeJournal j =>
      cases r with
      | ok _ =>
        have hj : h'.journal = some j := by
          rw [hd, show d = _ from hdoes]
          rfl
        obtain ⟨j', hj', hphase⟩ := hready
        rw [hj] at hj'
        exact absurd (Option.some.inj hj' ▸ hphase) hc
      | error _ => exact hsame d hd (by rw [show d = _ from hdoes]; rfl)
    | removeJournal =>
      cases r with
      | ok _ =>
        have hj : h'.journal = none := by
          rw [hd, show d = _ from hdoes]
          rfl
        obtain ⟨j', hj', _⟩ := hready
        rw [hj] at hj'
        exact nomatch hj'
      | error _ => exact hsame d hd (by rw [show d = _ from hdoes]; rfl)
    | unmount _ | remove _ =>
      obtain ⟨volumes, rfl⟩ := hdoes
      exact hsame _ hd rfl
    | _ => exact absurd trivial hreads

theorem lease_plain {c : LeaseCall β} (hc : c.Plain) (hdoes : c.Does i h r h') : SameCore h h' := by
  cases c with
  | readTombstone => exact hdoes.1 ▸ .refl
  | createTombstone _ =>
    cases r with
    | ok _ =>
      obtain ⟨-, rfl⟩ := hdoes
      exact ⟨rfl, rfl, rfl, rfl, rfl, rfl⟩
    | error _ => exact (show h' = h from hdoes) ▸ .refl
  | removeTombstone =>
    cases r with
    | ok _ =>
      obtain rfl : h' = _ := hdoes
      exact ⟨rfl, rfl, rfl, rfl, rfl, rfl⟩
    | error _ => exact (show h' = h from hdoes) ▸ .refl
  | holdsEmpty | openReadyLease => exact (show h' = h from hdoes) ▸ .refl
  | tryLockExclusive | tryLockShared | granted _ | dropped => exact hc.elim

/-- A step of the storage while nothing is leased. -/
theorem guar_of_unleased (hinv : LeaseInv h) (hunleased : h.leases = [])
    (hdoes : (ReleaseCall.storage c).Does i h r h')
    (hjournal : h.Ready → h'.journal = h.journal ∨ h.exclusive = some i)
    (hpublished : ¬h.Ready → h'.Ready → i ∈ h.allocating) : LeaseGuar i h h' := by
  have hholders := storage_holders hdoes
  exact
    { inv := fun _ =>
        { leased := by simp [hholders.leases, hunleased]
          exclusive := by rw [hholders.exclusive, hholders.shared]; exact hinv.exclusive
          serial := by rw [hholders.allocating]; exact hinv.serial }
      apart := fun j _ => ⟨by rw [hholders.exclusive], by rw [hholders.shared],
        by rw [hholders.allocating]⟩
      journal := fun _ => hjournal
      published := hpublished
      issued := fun _ => .inr hunleased
      granted := fun _ hmem hnew => absurd (hholders.leases ▸ hmem) hnew }

theorem guar_of_exclusive (hc : c.Tame) (hinv : LeaseInv h)
    (hi : h.exclusive = some i) (hdoes : (ReleaseCall.storage c).Does i h r h') :
    LeaseGuar i h h' :=
  guar_of_unleased hinv (hinv.unleased hi) hdoes (fun _ => .inr hi)
    fun hready hready' => absurd (storage_tame hc hdoes hready') hready

theorem guar_of_unready (hinv : LeaseInv h) (hi : i ∈ h.allocating)
    (hunready : ¬h.Ready) (hdoes : (ReleaseCall.storage c).Does i h r h') : LeaseGuar i h h' :=
  guar_of_unleased hinv (hinv.unleased_of_unready hunready) hdoes
    (fun hready => absurd hready hunready) fun _ _ => hi

end Calls

/-! ## Tame programs -/

section Tame
variable {m : Manager} {p : Place} {j : PhaseJournal} {id : BackendIdentity} {bytes : Nat}
variable {receipt : AllocationReceipt} {request : AllocationRequest}

variable {α : Type} {r : Option AllocationReceipt} {identity : Option BackendIdentity}

theorem tame_attempt {c : Call (Except StorageError α)} (hc : c.Tame) :
    (attempt c).run.Only Call.Tame := .attempt hc

theorem tame_readJournal : p.readJournal.run.Only Call.Tame :=
  .seq (tame_attempt trivial) fun _ => .seq trivial fun _ => trivial

theorem tame_writeJournal (hj : j.phase ≠ .ready) : (p.writeJournal j).run.Only Call.Tame :=
  .seq trivial fun _ => tame_attempt hj

theorem tame_createMountpoint : p.createMountpoint.run.Only Call.Tame :=
  .seq (tame_attempt trivial) fun _ => .seq (tame_attempt trivial) fun _ =>
    .seq .refuse fun _ => tame_attempt trivial

theorem tame_noteRelease {phase : ReleasePhase} : (noteRelease p r phase).run.Only Call.Tame :=
  .whenSome fun _ _ => tame_writeJournal nofun

theorem tame_unmountExact : (unmountExact p id bytes r state).run.Only Call.Tame := by
  unfold unmountExact
  split
  · exact .seq (tame_attempt trivial) fun _ => .seq (tame_attempt trivial)
      fun _ => .seq .refuse fun _ => .seq tame_noteRelease fun _ => trivial
  · trivial

theorem tame_removeExact : (removeExact p id bytes r state).run.Only Call.Tame := by
  unfold removeExact
  split
  · exact .seq (tame_attempt trivial) fun _ => .seq (tame_attempt trivial)
      fun _ => .seq .refuse fun _ => .seq tame_noteRelease fun _ => trivial
  · trivial

theorem tame_discardAllocation : discardAllocation.run.Only Call.Tame :=
  .seq (tame_attempt trivial) fun _ => tame_attempt trivial

theorem tame_cleanupIdentity : (cleanupIdentity p id bytes r).run.Only Call.Tame :=
  .seq (tame_attempt trivial) fun _ => .seq tame_unmountExact fun _ =>
    .seq tame_removeExact fun _ => .seq .refuse fun _ =>
      tame_discardAllocation

theorem tame_identify {token : String} {recorded : Option BackendIdentity} :
    (identify token bytes recorded).run.Only Call.Tame := by
  cases recorded with
  | some _ => trivial
  | none => exact tame_attempt trivial

theorem tame_validateBackendConfig : (validateBackendConfig m j).run.Only Call.Tame :=
  .seq (tame_attempt trivial) fun _ => .refuse

theorem tame_authenticate : (authenticateCleanupAuthority m p receipt j).run.Only Call.Tame :=
  .seq trivial fun _ => .seq .refuse fun _ =>
    .seq tame_validateBackendConfig fun _ => .seq .refuse fun _ =>
      .seq (tame_attempt trivial) fun _ => .seq (tame_attempt trivial) fun _ =>
        .seq (tame_attempt trivial) fun _ => .seq .refuse fun _ => trivial

theorem tame_recoverAllocating (hj : j.phase ≠ .ready) :
    (recoverAllocating p j).run.Only Call.Tame := by
  refine .seq tame_identify fun identity => ?_
  cases identity with
  | none => exact tame_discardAllocation
  | some id =>
    exact .seq .refuse fun _ => .seq
      (.provided fun _ => tame_writeJournal hj) fun _ => tame_cleanupIdentity

theorem tame_recoverReleasing : (recoverReleasing m p j).run.Only Call.Tame :=
  .seq .demand fun _ => .seq tame_authenticate fun _ => tame_cleanupIdentity

theorem tame_undoAllocation (hj : j.phase ≠ .ready) :
    (undoAllocation p j identity).run.Only Call.Tame := by
  refine .seq tame_identify fun identity => ?_
  cases identity with
  | none => exact tame_discardAllocation
  | some id =>
    exact .seq .refuse fun _ => .seq (tame_writeJournal hj) fun _ =>
      tame_cleanupIdentity

theorem tame_rollbackAllocation {cause : StorageError} (hj : j.phase ≠ .ready) :
    (rollbackAllocation p j identity cause : M α).run.Only Call.Tame := by
  refine .seq (.observe (tame_undoAllocation hj)) fun undone => ?_
  cases undone <;> trivial

theorem tame_orRollback {t : M α} (hj : j.phase ≠ .ready) (ht : t.run.Only Call.Tame) :
    (orRollback p j identity t).run.Only Call.Tame := by
  refine .seq (.observe ht) fun done => ?_
  cases done with
  | ok _ => trivial
  | error _ => exact tame_rollbackAllocation hj

theorem tame_probe : (probe bytes).run.Only Call.Tame :=
  .seq (tame_attempt trivial) fun _ => .seq (.attemptAs trivial) fun _ =>
    .seq trivial fun _ => trivial

theorem tame_requireMounted : (requireMounted id bytes).run.Only Call.Tame :=
  .seq (tame_attempt trivial) fun _ => .refuse

theorem tame_openJournal (hj : j.phase ≠ .ready) : (openJournal p j).run.Only Call.Tame := by
  refine .seq (.observe (.seq trivial fun _ => tame_attempt hj))
    fun created => ?_
  cases created with
  | ok _ => trivial
  | error _ => exact .seq (.observe (tame_attempt trivial)) fun _ => trivial

end Tame

/-! ## Processes -/

section Processes
variable {root : String} {e : ExecutionId} {ok : Host → Prop} {i : Nat} {α : Type}

/-- An allocation begins while no other is under way. -/
def Alone (h : Host) : Prop := h.allocating = []

/-- A process, beside others that keep to the same. -/
abbrev process (root : String) (e : ExecutionId) (i : Nat) : Contract ReleaseCall Host :=
  (processes root e Alone).contract LeaseRely LeaseGuar i

/-- What a process knows of the hostAt stays true. -/
structure Lasting (i : Nat) (P : Host → Prop) : Prop where
  rely : ∀ {h h'}, LeaseRely i h h' → LeaseInv h → P h → P h'
  core : ∀ {h h'}, SameCore h h' → P h → P h'

def knows (root : String) (e : ExecutionId) {P : Host → Prop} (hP : Lasting i P) :
    Assertion (process root e i).setting :=
  (process root e i).keeping (fun h => LeaseInv h ∧ P h) fun _ _ hrely hs =>
    ⟨hrely.inv hs.1, hP.rely hrely hs.1 hs.2⟩

def Idle (i : Nat) (h : Host) : Prop := h.exclusive ≠ some i ∧ i ∉ h.shared
def Exclusive (i : Nat) (h : Host) : Prop := h.exclusive = some i
def Sharing (i : Nat) (h : Host) : Prop := i ∈ h.shared
def Leasing (i : Nat) (receipt : AllocationReceipt) (h : Host) : Prop :=
  i ∈ h.shared ∧ h.ReadyFor receipt
def Allocating (i : Nat) (h : Host) : Prop := i ∈ h.allocating
def Unready (i : Nat) (h : Host) : Prop := i ∈ h.allocating ∧ ¬h.Ready

theorem lasting_true : Lasting i fun _ => True := ⟨fun _ _ _ => trivial, fun _ _ => trivial⟩

theorem lasting_idle : Lasting i (Idle i) where
  rely hrely _ hs := ⟨fun hi => hs.1 (hrely.same.exclusive.1 hi),
    fun hi => hs.2 (hrely.same.shared.1 hi)⟩
  core hcore hs := ⟨hcore.exclusive ▸ hs.1, hcore.shared ▸ hs.2⟩

theorem lasting_exclusive : Lasting i (Exclusive i) where
  rely hrely _ hs := hrely.same.exclusive.2 hs
  core hcore hs := hcore.exclusive.trans hs

theorem lasting_sharing : Lasting i (Sharing i) where
  rely hrely _ hs := hrely.same.shared.2 hs
  core hcore hs := by
    unfold Sharing
    rw [hcore.shared]
    exact hs

theorem lasting_leasing (receipt : AllocationReceipt) : Lasting i (Leasing i receipt) where
  rely hrely hinv hs := by
    obtain ⟨hi, j, hj, hphase⟩ := hs
    have hsame := hrely.journal hinv hi ⟨j, hj, hphase.1⟩
    exact ⟨hrely.same.shared.2 hi, j, hsame.trans hj, hphase⟩
  core hcore hs := by
    obtain ⟨hi, j, hj, hphase⟩ := hs
    exact ⟨hcore.shared.symm ▸ hi, j, hcore.journal.trans hj, hphase⟩

theorem lasting_allocating : Lasting i (Allocating i) where
  rely hrely _ hs := hrely.same.allocating.2 hs
  core hcore hs := by
    unfold Allocating
    rw [hcore.allocating]
    exact hs

theorem ready_core {h h' : Host} (hcore : SameCore h h') : h'.Ready ↔ h.Ready := by
  unfold Host.Ready
  rw [hcore.journal]

theorem lasting_unready : Lasting i (Unready i) where
  rely hrely hinv hs := ⟨hrely.same.allocating.2 hs.1, hrely.unready hinv hs.1 hs.2⟩
  core hcore hs := ⟨hcore.allocating.symm ▸ hs.1, fun hr => hs.2 ((ready_core hcore).1 hr)⟩

theorem lasting_told {φ : Prop} : Lasting i fun h => Allocating i h ∧ (φ → ¬h.Ready) where
  rely hrely hinv hs := ⟨lasting_allocating.rely hrely hinv hs.1,
    fun hφ => hrely.unready hinv hs.1 (hs.2 hφ)⟩
  core hcore hs := ⟨lasting_allocating.core hcore hs.1,
    fun hφ hr => hs.2 hφ ((ready_core hcore).1 hr)⟩

/-- A Ready journal that was read while the lease file is shared. -/
theorem lasting_read {j : PhaseJournal} :
    Lasting i fun h => Sharing i h ∧ (j.phase = .ready → h.journal = some j) where
  rely hrely hinv hs := ⟨lasting_sharing.rely hrely hinv hs.1, fun hphase =>
    (hrely.journal hinv hs.1 ⟨j, hs.2 hphase, hphase⟩).trans (hs.2 hphase)⟩
  core hcore hs := ⟨lasting_sharing.core hcore hs.1,
    fun hphase => hcore.journal.trans (hs.2 hphase)⟩

/-! ### Rules -/

def ReleaseCall.Reads {β : Type} : ReleaseCall β → Prop
  | .storage c => c.Reads
  | .lease c => c.Plain

def ReleaseCall.Tame {β : Type} : ReleaseCall β → Prop
  | .storage c => c.Tame
  | .lease c => c.Plain

variable {β : Type} {r : β} {t : ReleaseM α}

theorem does_reads {c : ReleaseCall β} {h h' : Host} (hc : c.Reads)
    (hdoes : c.Does i h r h') : SameCore h h' := by
  cases c with
  | storage c => exact storage_reads hc hdoes
  | lease c => exact lease_plain hc hdoes

variable {P Q : Host → Prop} {hP : Lasting i P} {hQ : Lasting i Q}

theorem knows_mono (h : ∀ h, LeaseInv h → P h → Q h) (x : Host × Prop)
    (hx : knows root e hP x) : knows root e hQ x :=
  ⟨⟨hx.1.1, h _ hx.1.1 hx.1.2⟩, hx.2⟩

theorem knows_step {c : ReleaseCall β} {x y : Host × Prop}
    (hx : knows root e hP x) (hsem : (process root e i).setting.sem c x r y)
    (hguar : LeaseGuar i x.1 y.1) (hy : Q y.1) : knows root e hQ y :=
  ⟨⟨hguar.inv hx.1.1, hy⟩, hsem.2 ▸ ⟨hx.2, hguar⟩⟩

theorem triple_reads (ht : t.run.Only ReleaseCall.Reads) : (knows root e hP).KeptBy t :=
  .of_only ht fun _ _ _ _ hc hx hsem =>
    have hcore := does_reads hc hsem.1
    knows_step hx hsem hcore.guar (hP.core hcore hx.1.2)

theorem triple_exclusive (ht : t.run.Only ReleaseCall.Tame) :
    TripleE (knows root e (lasting_exclusive (i := i))) t
      (fun _ => knows root e lasting_exclusive) (knows root e lasting_exclusive) := by
  refine .of_only ht fun c x r y hc hx hsem => ?_
  cases c with
  | storage c =>
    have hholders := storage_holders (i := i) hsem.1
    exact knows_step hx hsem (guar_of_exclusive hc hx.1.1 hx.1.2 hsem.1)
      (hholders.exclusive.trans hx.1.2)
  | lease c =>
    have hcore := lease_plain hc hsem.1
    exact knows_step hx hsem hcore.guar (lasting_exclusive.core hcore hx.1.2)

/-- What is known, for a program of the storage. -/
abbrev sees (root : String) (e : ExecutionId) {P : Host → Prop} (hP : Lasting i P) :
    Assertion ((process root e i).setting.along ReleaseCall.storage) :=
  (knows root e hP).seen ReleaseCall.storage

theorem sees_mono (h : ∀ h, LeaseInv h → P h → Q h) (x : Host × Prop) (hx : sees root e hP x) :
    sees root e hQ x :=
  ⟨⟨hx.1.1, h _ hx.1.1 hx.1.2⟩, hx.2⟩

theorem sees_any (x : Host × Prop) (hx : sees root e hP x) :
    sees root e (lasting_true (i := i)) x :=
  ⟨⟨hx.1.1, trivial⟩, hx.2⟩

theorem sees_step {c : Call β} {x y : Host × Prop} (hx : sees root e hP x)
    (hsem : ((process root e i).setting.along ReleaseCall.storage).sem c x r y)
    (hguar : LeaseGuar i x.1 y.1) (hy : Q y.1) : sees root e hQ y :=
  ⟨⟨hguar.inv hx.1.1, hy⟩, hsem.2 ▸ ⟨hx.2, hguar⟩⟩

theorem sees_reads {t : M α} (ht : t.run.Only Call.Reads) : (sees root e hP).KeptBy t := by
  refine .of_only ht fun c x r y hc hx hsem => ?_
  have hcore := storage_reads (i := i) hc hsem.1
  exact sees_step hx hsem hcore.guar (hP.core hcore hx.1.2)

theorem sees_tame {t : M α} (ht : t.run.Only Call.Tame) :
    TripleE (sees root e (lasting_unready (i := i))) t (fun _ => sees root e lasting_unready)
      (sees root e lasting_unready) := by
  refine .of_only ht fun c x r y hc hx hsem => ?_
  obtain ⟨hi, hunready⟩ := hx.1.2
  have hholders := storage_holders (i := i) hsem.1
  refine sees_step hx hsem (guar_of_unready hx.1.1 hi hunready hsem.1) ⟨?_, fun hready => ?_⟩
  · exact hholders.allocating.symm ▸ hi
  · exact hunready (storage_tame (i := i) hc hsem.1 hready)

/-! ### Release and acknowledgment -/

section Release
variable {m : Manager} {p : Place} {receipt : AllocationReceipt}

/-- What is known when a program is done. -/
abbrev somewhere (root : String) (e : ExecutionId) (i : Nat) :
    Assertion (process root e i).setting :=
  knows root e lasting_true

theorem reads_alreadyReleased : (alreadyReleased receipt tombstone).run.Only ReleaseCall.Reads := by
  cases tombstone with
  | none => trivial
  | some existing =>
    refine .seq .refuse fun _ => .seq (.attempt trivial) fun absent => ?_
    cases absent with
    | true => exact .seq (.attempt trivial) fun _ => trivial
    | false => trivial

theorem tame_onStorage {t : M α} (ht : t.run.Only Call.Tame) :
    (onStorage t).run.Only ReleaseCall.Tame :=
  .embed (P := ReleaseCall.Tame) (Q := Call.Tame) (f := ReleaseCall.storage) (fun _ hc => hc) ht

theorem tame_releaseLocked : (releaseLocked m p receipt tombstone).run.Only ReleaseCall.Tame :=
  .seq (tame_onStorage tame_readJournal) fun _ =>
    .seq (tame_onStorage tame_authenticate) fun _ =>
      .seq .refuse fun _ =>
        .seq (.provided fun _ => .attempt trivial) fun _ =>
          .seq (.provided fun _ => tame_onStorage (tame_writeJournal nofun)) fun _ =>
            tame_onStorage tame_cleanupIdentity

theorem triple_tryLockExclusive :
    TripleE (knows root e (lasting_idle (i := i))) (attemptAs f (.lease .tryLockExclusive))
      (fun _ => knows root e lasting_exclusive) (somewhere root e i) := by
  refine .attemptAs (fun x () y hx hsem => ?_) fun x _ y hx hsem => ?_
  · obtain ⟨hfree, hnone, hlocked⟩ := hsem.1
    refine knows_step hx hsem ?_ (by rw [Exclusive, hlocked])
    have hunleased : x.1.leases = [] := List.eq_nil_iff_forall_not_mem.2 fun ⟨k, r⟩ hmem => by
      have hshared := (hx.1.1.leased k r hmem).1
      rw [hnone] at hshared
      exact nomatch hshared
    rw [hlocked]
    exact .of_journal (fun hinv => ⟨by simp [hunleased], fun _ _ => hnone, hinv.serial⟩)
      (fun j hj => ⟨by simp [hfree, Ne.symm hj], Iff.rfl, Iff.rfl⟩) rfl rfl
  · have hsame : y.1 = x.1 := hsem.1
    exact knows_step hx hsem (SameCore.guar (hsame ▸ .refl)) trivial

theorem triple_release : TripleE (knows root e (lasting_idle (i := i))) (release m receipt)
      (fun _ => somewhere root e i) (somewhere root e i) := by
  have hidle : ∀ x, knows root e (lasting_idle (i := i)) x → somewhere root e i x :=
    knows_mono fun _ _ _ => trivial
  refine .seq (triple_reads trivial) hidle fun layout => ?_
  refine .seq (triple_reads trivial) hidle fun _ => ?_
  refine .seq (triple_reads (.attempt trivial)) hidle fun tombstone => ?_
  refine .seq (triple_reads reads_alreadyReleased) hidle fun done => ?_
  refine .provided (fun _ => ?_) fun _ => hidle
  refine .seq (triple_reads (.attempt trivial)) hidle fun _ => ?_
  refine .seq (triple_reads .refuse) hidle fun _ => ?_
  refine .seq (triple_reads (.attempt trivial)) hidle fun _ => ?_
  refine .bind triple_tryLockExclusive fun _ => ?_
  exact (triple_exclusive tame_releaseLocked).weaken (fun _ hx => hx)
    (fun _ => knows_mono fun _ _ _ => trivial) (knows_mono fun _ _ _ => trivial)

theorem reads_ackRelease : (ackRelease m receipt).run.Only ReleaseCall.Reads := by
  refine .seq trivial fun _ => .seq (.attempt trivial) fun actual =>
    .seq trivial fun _ => .seq ?_ fun done => .provided fun _ => ?_
  · cases actual with
    | some _ => trivial
    | none =>
      refine .seq (.attempt trivial) fun state => ?_
      split
      · exact .attempt trivial
      · trivial
  · exact .seq .demand fun _ => .seq .refuse fun _ =>
      .seq (.attempt trivial) fun _ => .seq .refuse fun _ =>
        .seq (.attempt trivial) fun _ => .seq .refuse fun _ =>
          .attempt trivial

end Release

/-! ### Consumers -/

section Consume
variable {m : Manager} {receipt : AllocationReceipt}

theorem triple_tryLockShared :
    TripleE (knows root e (lasting_idle (i := i))) (attemptAs f (.lease .tryLockShared))
      (fun _ => knows root e lasting_sharing) (somewhere root e i) := by
  refine .attemptAs (fun x () y hx hsem => ?_) fun x _ y hx hsem => ?_
  · obtain ⟨hfree, hlocked⟩ := hsem.1
    refine knows_step hx hsem ?_ (by rw [Sharing, hlocked]; exact List.mem_cons_self)
    rw [hlocked]
    refine .of_journal (fun hinv => ⟨fun j r hmem => ?_, fun j hj => ?_, hinv.serial⟩)
      (fun j hj => ⟨Iff.rfl, by simp [hj], Iff.rfl⟩) rfl rfl
    · exact ⟨List.mem_cons_of_mem _ (hinv.leased j r hmem).1, (hinv.leased j r hmem).2⟩
    · exact absurd (hfree.symm.trans hj) nofun
  · have hsame : y.1 = x.1 := hsem.1
    exact knows_step hx hsem (SameCore.guar (hsame ▸ .refl)) trivial

theorem reads_validateBackendConfig {j : PhaseJournal} :
    (validateBackendConfig m j).run.Only Call.Reads :=
  .seq (.attempt trivial) fun _ => .refuse

theorem sees_readJournal {p : Place} :
    TripleE (sees root e (lasting_sharing (i := i))) p.readJournal
      (fun j => sees root e (lasting_read (j := j))) (sees root e lasting_sharing) := by
  refine .bind (Q := fun j => sees root e (lasting_read (i := i) (j := j)))
    (.attempt (fun x j y hx hsem => ?_) fun x _ y hx hsem => ?_) fun j => ?_
  · obtain ⟨token, d, ⟨rfl, hread⟩, hy⟩ := hsem.1
    have hcore : SameCore x.1 y.1 := hy ▸ ⟨rfl, rfl, rfl, rfl, rfl, rfl⟩
    exact sees_step hx hsem hcore.guar ⟨lasting_sharing.core hcore hx.1.2,
      fun _ => hcore.journal.trans (hread j rfl)⟩
  · have hcore := storage_reads (i := i) (c := Call.readJournal) trivial hsem.1
    exact sees_step hx hsem hcore.guar (lasting_sharing.core hcore hx.1.2)
  · refine .bind (.unwrap (Q := fun _ => sees root e (lasting_read (j := j)))
      (fun _ _ hx _ => hx) (sees_mono fun _ _ hs => hs.1)) fun _ => .pure fun _ hx => hx

theorem sees_verifyReadyAllocation :
    TripleE (sees root e (lasting_sharing (i := i))) (verifyReadyAllocation m receipt)
      (fun _ => sees root e (lasting_leasing receipt))
      (sees root e lasting_true) := by
  refine .seq (sees_reads trivial) sees_any fun layout => ?_
  refine .seq (sees_reads trivial) sees_any fun _ => ?_
  refine .seq sees_readJournal sees_any fun j => ?_
  refine .learn (.refuse fun x hx _ => sees_any x hx) fun _ hmatch => ?_
  obtain ⟨hphase, hreceipt⟩ := not_or.1 hmatch
  refine .pre (P := sees root e (lasting_leasing receipt)) ?_
    (sees_mono fun h _ hs => ⟨hs.1, j, hs.2 (not_not.1 hphase), not_not.1 hphase,
      not_not.1 hreceipt⟩)
  refine .seq (sees_reads reads_validateBackendConfig) sees_any fun _ => ?_
  refine .seq (sees_reads (.attempt trivial)) sees_any fun _ => ?_
  refine .seq (sees_reads .refuse) sees_any fun _ => ?_
  refine .seq (sees_reads (.attempt trivial)) sees_any fun _ => ?_
  refine .seq (sees_reads .refuse) sees_any fun _ => ?_
  exact (sees_reads (.attempt (c := Call.verify) trivial)).err sees_any

theorem leave_apart {j : Nat} (hj : j ≠ i) : SameFor j h (h.leave i) where
  exclusive := by
    simp only [Host.leave]
    split
    · next hi =>
      rw [hi]
      simpa using Ne.symm hj
    · exact Iff.rfl
  shared := by simp [Host.leave, hj]
  allocating := by simp [Host.leave, hj]

theorem leave_guar : LeaseGuar i h (h.leave i) := by
  refine .of_journal (fun hinv => ⟨fun j r hmem => ?_, fun j hj => ?_, fun j k hj hk => ?_⟩)
    (fun j hj => leave_apart hj) rfl rfl
  · simp only [Host.leave, List.mem_filter, decide_eq_true_eq] at hmem ⊢
    obtain ⟨hshared, hready⟩ := hinv.leased j r hmem.1
    exact ⟨⟨hshared, hmem.2⟩, hready⟩
  · by_cases hi : j = i
    · subst hi
      simp only [Host.leave] at hj
      split at hj
      · cases hj
      · next hne => exact absurd hj hne
    · have hexclusive := (leave_apart hi).exclusive.1 hj
      simp [Host.leave, hinv.exclusive j hexclusive]
  · exact hinv.serial j k (List.mem_filter.1 hj).1 (List.mem_filter.1 hk).1

theorem triple_consume : TripleE (knows root e (lasting_idle (i := i))) (consume m receipt)
      (fun _ => somewhere root e i) (somewhere root e i) := by
  have hidle : ∀ x, knows root e (lasting_idle (i := i)) x → somewhere root e i x :=
    knows_mono fun _ _ _ => trivial
  refine .bind (Q := fun _ => knows root e (lasting_leasing receipt)) ?_
    fun _ => .bind (Q := fun _ => knows root e (lasting_leasing receipt)) ?_
      fun _ => ?_
  · refine .seq (triple_reads trivial) hidle fun _ => ?_
    refine .seq (triple_reads (.attempt trivial)) hidle fun _ => ?_
    exact .bind triple_tryLockShared fun _ => sees_verifyReadyAllocation.along
  · refine .attempt (fun x () y hx hsem => ?_) fun x _ y hx hsem => nomatch hsem.1.1
    obtain ⟨-, hgranted⟩ := hsem.1
    refine knows_step hx hsem ?_ (by rw [hgranted]; exact hx.1.2)
    rw [hgranted]
    refine .of_journal (fun hinv => ⟨fun j r hmem => ?_, hinv.exclusive, hinv.serial⟩)
      (fun j _ => ⟨Iff.rfl, Iff.rfl, Iff.rfl⟩) rfl rfl
    rcases List.mem_cons.1 hmem with heq | hmem
    · cases heq
      exact hx.1.2
    · exact hinv.leased j r hmem
  · refine .attempt (fun x () y hx hsem => ?_) fun x _ y hx hsem => nomatch hsem.1.1
    obtain ⟨-, hdropped⟩ := hsem.1
    exact knows_step hx hsem (hdropped ▸ leave_guar) trivial

end Consume

/-! ### Allocation -/

section Allocate
variable {m : Manager} {p : Place} {request : AllocationRequest} {bytes : Nat}

theorem sees_recoverExisting :
    TripleE (sees root e (lasting_allocating (i := i))) (recoverExisting m p request bytes)
      (fun _ => sees root e lasting_unready) (sees root e lasting_true) := by
  refine .bind (Q := fun j => sees root e (lasting_told (i := i) (φ := j.phase ≠ .ready)))
    ?_ fun j => ?_
  · refine .bind (Q := fun j => sees root e (lasting_told (i := i) (φ := j.phase ≠ .ready)))
      (.attempt (fun x j y hx hsem => ?_) fun x _ y hx hsem => ?_) fun j =>
        .bind (.unwrap (Q := fun _ => sees root e
          (lasting_told (i := i) (φ := j.phase ≠ .ready))) (fun _ _ hx _ => hx) sees_any) fun _ =>
            .pure fun _ hx => hx
    · obtain ⟨token, d, ⟨rfl, hread⟩, hy⟩ := hsem.1
      have hcore : SameCore x.1 y.1 := hy ▸ ⟨rfl, rfl, rfl, rfl, rfl, rfl⟩
      refine sees_step hx hsem hcore.guar ⟨lasting_allocating.core hcore hx.1.2, ?_⟩
      intro hphase hready
      obtain ⟨j', hj', hphase'⟩ := hready
      rw [hcore.journal, show x.1.journal = some j from hread j rfl] at hj'
      exact hphase (Option.some.inj hj' ▸ hphase')
    · have hcore := storage_reads (i := i) (c := Call.readJournal) trivial hsem.1
      exact sees_step hx hsem hcore.guar trivial
  refine .seq (sees_reads .refuse) sees_any fun _ => ?_
  refine .seq (sees_reads reads_validateBackendConfig) sees_any fun _ => ?_
  cases hphase : j.phase with
  | ready => exact .throw sees_any
  | releasing =>
    exact (sees_tame tame_recoverReleasing).weaken
      (sees_mono fun _ _ hs => ⟨hs.1, hs.2 nofun⟩) (fun _ _ hx => hx) sees_any
  | allocating =>
    exact (sees_tame (tame_recoverAllocating (by simp [hphase]))).weaken
      (sees_mono fun _ _ hs => ⟨hs.1, hs.2 nofun⟩) (fun _ _ hx => hx) sees_any

theorem sees_prepareGround :
    TripleE (sees root e (lasting_allocating (i := i))) (prepareGround m p request bytes)
      (fun _ => sees root e lasting_unready) (sees root e lasting_true) := by
  refine .seq (sees_reads (.attempt trivial)) sees_any fun tombstone => ?_
  refine .seq (sees_reads .refuse) sees_any fun _ => ?_
  refine .bind (Q := fun journaled =>
      sees root e (lasting_told (i := i) (φ := journaled = false)))
    (.attempt (fun x journaled y hx hsem => ?_) fun x _ y hx hsem => ?_) fun journaled => ?_
  · obtain ⟨token, d, ⟨rfl, htold⟩, hy⟩ := hsem.1
    have hcore : SameCore x.1 y.1 := hy ▸ ⟨rfl, rfl, rfl, rfl, rfl, rfl⟩
    refine sees_step hx hsem hcore.guar ⟨lasting_allocating.core hcore hx.1.2, ?_⟩
    intro hfalse hready
    obtain ⟨j, hj, _⟩ := hready
    have hsome : journaled = x.1.journal.isSome := htold journaled rfl
    rw [hfalse, ← hcore.journal, hj] at hsome
    exact nomatch hsome
  · have hcore := storage_reads (i := i) (c := Call.journalExists) trivial hsem.1
    exact sees_step hx hsem hcore.guar trivial
  refine .bind (Q := fun _ => sees root e (lasting_unready (i := i)))
    (.provided (fun _ => ?_) fun hno => ?_) fun _ => ?_
  · exact sees_recoverExisting.pre (sees_mono fun _ _ hs => hs.1)
  · exact sees_mono fun _ _ hs => ⟨hs.1, hs.2 (by simpa using hno)⟩
  refine .seq (sees_tame tame_probe) sees_any fun _ => ?_
  refine .seq (sees_tame .refuse) sees_any fun _ => .pure fun _ hx => hx

theorem sees_publish {backend : BackendCapability} {docker : DockerBindCapability}
    {prepared : BackendIdentity} :
    TripleE (sees root e (lasting_unready (i := i)))
      (publish m p request bytes backend docker prepared)
      (fun _ => sees root e lasting_allocating) (sees root e lasting_unready) := by
  refine .bind (sees_tame tame_requireMounted) fun _ => ?_
  refine .bind (sees_tame (tame_attempt trivial)) fun _ => ?_
  refine .bind (sees_tame tame_requireMounted) fun _ => ?_
  refine .bind (sees_tame (tame_attempt trivial)) fun _ => ?_
  refine .bind (sees_tame (tame_attempt trivial)) fun dockerBind => ?_
  refine .bind (sees_tame (tame_attempt trivial)) fun _ => ?_
  refine .bind (sees_tame .refuse) fun _ => ?_
  refine .bind (sees_tame (tame_attempt trivial)) fun _ => ?_
  refine .bind (sees_tame trivial) fun _ => ?_
  refine .bind (sees_tame (tame_attempt trivial)) fun _ => ?_
  refine .bind (Q := fun _ => sees root e (lasting_allocating (i := i))) ?_ fun _ =>
    .pure fun _ hx => hx
  refine .bind (sees_tame trivial) fun _ => .attempt (fun x () y hx hsem => ?_)
    fun x err y hx hsem => ?_
  · obtain ⟨hi, hunready⟩ := hx.1.2
    have hholders := storage_holders (i := i) hsem.1
    refine sees_step hx hsem (guar_of_unready hx.1.1 hi hunready hsem.1) ?_
    exact (show i ∈ _ from hholders.allocating.symm ▸ hi)
  · obtain ⟨token, d, hdoes, hy⟩ := hsem.1
    obtain rfl : d = _ := hdoes
    have hcore : SameCore x.1 y.1 := hy ▸ ⟨rfl, rfl, rfl, rfl, rfl, rfl⟩
    exact sees_step hx hsem hcore.guar (lasting_unready.core hcore hx.1.2)

theorem sees_allocate : TripleE (sees root e (lasting_allocating (i := i))) (allocate m request)
      (fun _ => sees root e lasting_true) (sees root e lasting_true) := by
  refine .seq (sees_reads trivial) sees_any fun bytes => ?_
  refine .seq (sees_reads trivial) sees_any fun layout => ?_
  refine .bind sees_prepareGround fun capability => ?_
  refine .seq (sees_tame tame_createMountpoint) sees_any fun _ => ?_
  refine .seq (sees_tame (tame_attempt trivial)) sees_any fun token => ?_
  refine .seq (sees_tame (tame_openJournal nofun)) sees_any fun _ => ?_
  refine .seq (sees_tame (tame_orRollback nofun (tame_attempt trivial))) sees_any
    fun created => ?_
  refine .seq (sees_tame (tame_orRollback nofun .refuse)) sees_any fun _ => ?_
  refine .seq (sees_tame (tame_orRollback nofun (tame_writeJournal nofun))) sees_any fun _ => ?_
  refine .seq (sees_tame (tame_orRollback nofun (tame_attempt trivial))) sees_any
    fun prepared => ?_
  refine .seq (sees_tame (tame_orRollback nofun .refuse)) sees_any fun _ => ?_
  refine .seq (sees_tame (tame_orRollback nofun (tame_writeJournal nofun))) sees_any fun _ => ?_
  refine .seq (sees_tame (tame_orRollback nofun (tame_attempt trivial))) sees_any fun _ => ?_
  refine .seq (sees_tame (tame_orRollback nofun (tame_attempt trivial))) sees_any fun _ => ?_
  refine .bind (.observe sees_publish) fun done => ?_
  cases done with
  | ok _ => exact .pure sees_any
  | error cause =>
    refine TripleE.weaken (sees_tame (tame_rollbackAllocation ?_)) (fun _ hx => hx)
      (fun _ => sees_any) sees_any
    nofun

end Allocate

/-! ### The system -/

/-- A process that does nothing has no lock, no lease and no allocation under way. -/
def AtRest (i : Nat) (h : Host) : Prop := Idle i h ∧ i ∉ h.allocating

theorem leave_atRest : AtRest i (h.leave i) := by
  refine ⟨⟨?_, by simp [Host.leave]⟩, by simp [Host.leave]⟩
  simp only [Host.leave]
  split
  · nofun
  · assumption

theorem triple_forget {P : Assertion (process root e i).setting}
    (ht : TripleE P t (fun _ => somewhere root e i) (somewhere root e i)) :
    Triple P (forget t) fun _ => somewhere root e i :=
  .bind ht fun r => match r with
    | .ok _ | .error _ => fun _ hx => hx

theorem leases_sound : (processes root e Alone).Sound LeaseRely LeaseGuar LeaseInv AtRest
    fun i _ => somewhere root e i where
  fits hij hguar := hguar.rely hij
  keeps hguar := hguar.inv
  waits hrely hs := ⟨⟨fun hi => hs.1.1 (hrely.same.exclusive.1 hi),
    fun hi => hs.1.2 (hrely.same.shared.1 hi)⟩, fun hi => hs.2 (hrely.same.allocating.1 hi)⟩
  begins := by
    intro i t h h' hinv hidle hbegins
    rcases hbegins with ⟨m, request, -, -, hnone, rfl, rfl⟩ | ⟨rfl, m, receipt, -, -, ht⟩
    · have hguar : LeaseGuar i h { h with allocating := i :: h.allocating } := by
        refine .of_journal (fun hinv => ⟨hinv.leased, hinv.exclusive, ?_⟩)
          (fun j hj => ⟨Iff.rfl, Iff.rfl, by simp [hj]⟩) rfl rfl
        rw [show h.allocating = [] from hnone]
        simp
      refine ⟨hguar, ?_⟩
      have hallocate : TripleE (knows root e (lasting_allocating (i := i)))
          (onStorage (allocate m request)) (fun _ => somewhere root e i) (somewhere root e i) :=
        .along sees_allocate
      exact triple_forget hallocate _ ⟨⟨hguar.inv hinv, List.mem_cons_self⟩, trivial⟩
    · refine ⟨SameCore.refl.guar, ?_⟩
      rcases ht with rfl | rfl | rfl
      · exact triple_forget triple_release _ ⟨⟨hinv, hidle.1⟩, trivial⟩
      · exact triple_forget ((triple_reads reads_ackRelease).weaken (fun _ hx => hx)
          (fun _ _ hx => hx) fun _ hx => hx) _ ⟨⟨hinv, trivial⟩, trivial⟩
      · exact triple_forget triple_consume _ ⟨⟨hinv, hidle.1⟩, trivial⟩
  returns := by
    rintro i _ h h' _ _ rfl
    exact ⟨leave_guar, leave_atRest⟩
  dies := by
    rintro i h h' _ rfl
    exact ⟨leave_guar, leave_atRest⟩

end Processes

/-- From `h`, whatever the processes do: while a lease is held, the journal is Ready with its receipt
and no unmount or removal of its object is issued; and a lease is granted only while the journal is
Ready with its receipt. -/
def LeasesExclude (S : System ReleaseCall Host Nat Unit) (h : Host) : Prop :=
  ∀ p, S.Reaches h p →
    (∀ i r, (i, r) ∈ p.shared.leases → p.shared.ReadyFor r) ∧
    ∀ p', S.Step p p' → ∀ i r,
      ((i, r) ∈ p.shared.leases → ∀ id, p'.shared.issued = id :: p.shared.issued →
        id.object ≠ r.backend.object) ∧
      ((i, r) ∈ p'.shared.leases → (i, r) ∉ p.shared.leases → p.shared.ReadyFor r)

/-- Nobody works on the storage yet. -/
structure Host.Unused (h : Host) : Prop where
  exclusive : h.exclusive = none
  shared : h.shared = []
  leases : h.leases = []
  allocating : h.allocating = []

def Call.target : {β : Type} → Call β → Option BackendIdentity
  | _, .unmount id | _, .remove id => some id
  | _, _ => none

/-- The object that a program asks the backend to unmount or remove next. -/
def issuing {α : Type} : Prog ReleaseCall α → Option BackendIdentity
  | .call (.storage c) _ => c.target
  | _ => none

theorem step_of_issuing {root : String} {e : ExecutionId} {ok : Host → Prop} {i : Nat}
    {p : Pool ReleaseCall Host Nat Unit} {id : BackendIdentity}
    (hnext : (p.thread i).bind issuing = some id) :
    ∃ p', (processes root e ok).Step p p' ∧ p'.shared.issued = id :: p.shared.issued := by
  obtain ⟨t, hi, ht⟩ := Option.bind_eq_some_iff.1 hnext
  cases t with
  | pure _ => cases ht
  | call c k =>
    cases c with
    | lease c => cases ht
    | storage c =>
      cases c with
      | unmount _ | remove _ =>
        cases ht
        exact ⟨_, .call hi (b := .ok ()) ⟨"", p.shared.disk, ⟨_, rfl⟩, rfl⟩, rfl⟩
      | _ => cases ht

namespace Sample

def begun (i : Nat) (t : Prog ReleaseCall Unit) (allocates : Bool)
    (p : Pool ReleaseCall Host Nat Unit) : Pool ReleaseCall Host Nat Unit :=
  ⟨if allocates then { p.shared with allocating := i :: p.shared.allocating } else p.shared,
    Function.update p.thread i (some t)⟩

def allocation₁ : Prog ReleaseCall Unit := forget (onStorage (allocate manager request))

def vacant : Host where
  mountpoint := false
  journal := none
  volumes := fun _ => .absent
  tombstone := none

/-- Process 0 allocates, and has mounted its object. -/
def mounting : Pool ReleaseCall Host Nat Unit :=
  (begun 0 allocation₁ true (System.start vacant)).advance (hostAt 0 "t") 0 15

/-- Process 1 allocates too, has read the journal of process 0 and is about to undo that
allocation. -/
def recovering : Pool ReleaseCall Host Nat Unit :=
  (begun 1 allocation₁ true mounting).advance (hostAt 1 "u") 1 5

/-- Process 0 makes the journal Ready, and process 2 gets a lease. -/
def race : Pool ReleaseCall Host Nat Unit :=
  (begun 2 (forget (consume manager served)) false (recovering.advance (hostAt 0 "t") 0 9)).advance
    (hostAt 2 "v") 2 8

/-- What processes may reach when allocations begin at any time. -/
abbrev Reached (p : Pool ReleaseCall Host Nat Unit) : Prop :=
  (processes "/srv" ⟨"e"⟩ fun _ => True).Reaches vacant p

theorem reaches_race : Reached race := by
  have hallocate : ∀ {p i}, p.thread i = none → Reached p → Reached (begun i allocation₁ true p) :=
    fun hfree hreach => hreach.tail
      (.begin hfree (.inl ⟨manager, request, rfl, rfl, trivial, rfl, rfl⟩))
  have hconsume : ∀ {p i}, p.thread i = none → Reached p →
      Reached (begun i (forget (consume manager served)) false p) :=
    fun hfree hreach => hreach.tail
      (.begin hfree (.inr ⟨rfl, manager, served, rfl, rfl, .inr (.inr rfl)⟩))
  have hmounting : Reached mounting := System.Reaches.advance hostAt_does 15 (hallocate rfl .refl)
  have hfree₁ : mounting.thread 1 = none := by simp [mounting, begun, System.start]
  have hrecovering : Reached recovering :=
    System.Reaches.advance hostAt_does 5 (hallocate hfree₁ hmounting)
  have hfree₂ : (recovering.advance (hostAt 0 "t") 0 9).thread 2 = none := by
    simp [recovering, mounting, begun, System.start]
  exact System.Reaches.advance hostAt_does 8
    (hconsume hfree₂ (System.Reaches.advance hostAt_does 9 hrecovering))

end Sample

end Orchestrator.ExecutionStorage.Exact
