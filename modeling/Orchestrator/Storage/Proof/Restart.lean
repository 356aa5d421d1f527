import Orchestrator.Storage.Proof.Rollback

/-!
# Allocation after a crash

An allocation dies between any two of its effects, on a host where everything works, and the request
is made again. What a dead call leaves is `Granted` (nothing, or an allocating journal of this
request from which recovery starts), or the Ready journal it was to write, or `Stranded`: the
mountpoint is there and no journal says whose it is. From what is granted the next call succeeds; a
stranded mountpoint refuses every later one.
-/

namespace Orchestrator.ExecutionStorage.Exact

open Prog

/-! ## Valid records -/

namespace BackendIdentity

theorem validateCreated_of_validate {id : BackendIdentity} (h : id.validate = .ok ()) :
    id.validateCreated = .ok () := by
  cases id with
  | apfs => exact h
  | lvm group groupUuid volume volumeUuid filesystemUuid token =>
    unfold validate at h
    split at h
    · exact nomatch h
    · next hnone =>
      simp only [fields, List.find?_eq_none, List.mem_cons, forall_eq_or_imp] at hnone
      simp [validateCreated, Txn.ensure, hnone]

end BackendIdentity

/-- A request on a host where everything works, which accepts it and has room for it. -/
structure Service where
  backend : WorkingBackend
  manager : Manager
  request : AllocationRequest
  bytes : Nat
  layout : ExecutionLayout
  measured : diskGibToBytes request.diskGib = .ok bytes
  laid : ExecutionLayout.new manager.stateRoot request.labels.executionId = .ok layout
  room : bytes ≤ backend.capability.reservableBytes
  key_known : (manager.key request.labels).isEmpty = false

def Service.place (v : Service) : Place := ⟨v.request.labels.executionId, v.layout⟩

theorem Service.sized (v : Service) : v.bytes ≠ 0 := by
  have h := v.measured
  rw [diskGibToBytes, Txn.seq_eq_ok, Txn.seq_eq_ok, Txn.ensure_eq_ok, Txn.pure_eq_ok] at h
  obtain ⟨hpos, -, hbytes⟩ := h
  rw [← hbytes]
  exact Nat.mul_ne_zero hpos (by decide)

/-- The journal the request begins with, under token `t`. -/
def Service.journal (v : Service) (t : String) : PhaseJournal :=
  allocatingJournal v.manager v.place v.request v.bytes v.backend.capability t

/-- A journal of the request that was begun and not completed, which the host's backend wrote. -/
structure Leftover (v : Service) (j : PhaseJournal) : Prop where
  valid : j.validate v.place.id v.place.layout = .ok ()
  allocating : j.phase = .allocating
  labels : j.labels = v.request.labels
  bytes : j.reservedBytes = v.bytes
  kind : j.backendKind = v.backend.capability.backend
  key : j.backendKey = v.manager.key j.labels
  pool : j.poolIdentity = v.backend.capability.poolIdentity

section Journal
variable {v : Service} {j : PhaseJournal} {id : BackendIdentity} {t : String}

variable {α : Type} {layout : ExecutionLayout} {d : Disk} {before after : BackendState}
  {c : Call (Except StorageError Unit)} {b : BackendState}

theorem PhaseJournal.validate_eq_ok {id : ExecutionId} : j.validate id layout = .ok () ↔
      (j.apiVersion = allocationApiVersion ∧ j.labels.executionId = id ∧
        j.mountPath = layout.root ∧ j.reservedBytes ≠ 0 ∧ !j.backendKind.isEmpty ∧
        !j.backendKey.isEmpty ∧ !j.poolIdentity.isEmpty ∧ !j.ownershipToken.isEmpty) ∧
      j.validateBackend = .ok () ∧ j.validatePhase layout = .ok () := by
  unfold validate
  rw [Txn.seq_eq_ok, Txn.seq_eq_ok, Txn.ensure_eq_ok]

theorem PhaseJournal.validateBackend_eq_ok (hphase : j.phase = .allocating) :
    j.validateBackend = .ok () ↔
      ∀ id, j.backend = some id →
        id.validateCreated = .ok () ∧ id.ownershipToken = j.ownershipToken := by
  unfold validateBackend
  cases j.backend with
  | none => simp
  | some id =>
    simp only [hphase, if_true, Option.some.injEq]
    rw [Txn.seq_eq_ok, Txn.ensure_eq_ok]
    exact ⟨fun h _ hid => hid ▸ h, fun h => h id rfl⟩

theorem PhaseJournal.validatePhase_eq_ok (hphase : j.phase = .allocating) :
    j.validatePhase layout = .ok () ↔ j.receipt = none ∧ j.releasePhase = none := by
  unfold validatePhase
  rw [hphase]
  cases j.receipt <;> cases j.releasePhase <;> simp

namespace Leftover

theorem token_known (h : Leftover v j) : j.ownershipToken.isEmpty = false := by
  have := (PhaseJournal.validate_eq_ok.1 h.valid).1
  simpa using this.2.2.2.2.2.2.2

theorem identified (h : Leftover v j) (hid : id.validateCreated = .ok ())
    (htoken : id.ownershipToken = j.ownershipToken) :
    Leftover v (j.withBackendIdentity id) := by
  obtain ⟨hfields, -, hphase⟩ := PhaseJournal.validate_eq_ok.1 h.valid
  have hvalid : (j.withBackendIdentity id).validate v.place.id v.place.layout = .ok () := by
    refine PhaseJournal.validate_eq_ok.2 ⟨hfields, ?_, ?_⟩
    · refine (PhaseJournal.validateBackend_eq_ok (j := j.withBackendIdentity id)
        h.allocating).2 fun id' hid' => ?_
      obtain rfl := Option.some.inj hid'
      exact ⟨hid, htoken⟩
    · exact (PhaseJournal.validatePhase_eq_ok (j := j.withBackendIdentity id) h.allocating).2
        ((PhaseJournal.validatePhase_eq_ok h.allocating).1 hphase)
  exact ⟨hvalid, h.allocating, h.labels, h.bytes, h.kind, h.key, h.pool⟩

theorem recorded_token (h : Leftover v j) (hid : j.backend = some id) :
    id.ownershipToken = j.ownershipToken :=
  ((PhaseJournal.validateBackend_eq_ok h.allocating).1
    (PhaseJournal.validate_eq_ok.1 h.valid).2.1 id hid).2

theorem begin (ht : t.isEmpty = false) : Leftover v (v.journal t) := by
  have hvalid : (v.journal t).validate v.place.id v.place.layout = .ok () := by
    refine PhaseJournal.validate_eq_ok.2 ⟨⟨rfl, rfl, rfl, v.sized, ?_, ?_, ?_, ?_⟩, rfl, rfl⟩
    · simpa [Service.journal, allocatingJournal] using v.backend.kind_known
    · simpa [Service.journal, allocatingJournal] using v.key_known
    · simpa [Service.journal, allocatingJournal] using v.backend.pool_known
    · simpa [Service.journal, allocatingJournal] using ht
  exact ⟨hvalid, rfl, rfl, rfl, rfl, rfl, rfl⟩

end Leftover

end Journal

/-! ## What a dead call leaves -/

/-- Nothing is there, or what an unfinished call of this request left. -/
def Granted (v : Service) (d : Disk) : Prop :=
  d.tombstone = false ∧ (d.journal = none ∧ d.mountpoint = false ∨
    ∃ j, d.journal = some j ∧ Leftover v j)

def Stranded (d : Disk) : Prop := d.tombstone = false ∧ d.journal = none ∧ d.mountpoint = true

def Disk.IsReady (d : Disk) : Prop := ∃ j, d.journal = some j ∧ j.phase = .ready

/-- The host, while a call runs whose token is `t`. -/
def host (v : Service) (t : String) : Setting Call Disk where
  sem c d r d' := v.backend.exec t c d = (r, d')
  env := alone
  safe d := Granted v d ∨ Stranded d ∨ d.IsReady

variable {v : Service} {t : String} {P : Disk → Prop}

/-- `P`, at a moment at which the call may die. -/
def good (v : Service) (t : String) (P : Disk → Prop) : Assertion (host v t) where
  holds d := (host v t).safe d ∧ P d
  stable hst := hst.elim
  within h := h.1

def never (v : Service) (t : String) : Assertion (host v t) where
  holds _ := False
  stable _ h := h
  within h := h.elim

/-- From `P`, program `p` succeeds, and what it returns meets `Q`. -/
abbrev GoodE (v : Service) (t : String) (P : Disk → Prop) (p : M α) (Q : α → Disk → Prop) : Prop :=
  TripleE (good v t P) p (fun a => good v t (Q a)) (never v t)

theorem good_attempt {c : Call (Except StorageError α)} {Q : α → Disk → Prop}
    (h : ∀ d, (host v t).safe d → P d → ∃ a, (v.backend.exec t c d).1 = .ok a ∧
      (host v t).safe (v.backend.exec t c d).2 ∧ Q a (v.backend.exec t c d).2) :
    GoodE v t P (attempt c) Q := by
  refine .attempt ?_ ?_
  · rintro d a d' ⟨hsafe, hd⟩ hexec
    obtain ⟨b, hb, hsafe', hQ⟩ := h d hsafe hd
    rw [hexec] at hb hsafe' hQ
    exact ⟨hsafe', Except.ok.inj hb ▸ hQ⟩
  · rintro d e d' ⟨hsafe, hd⟩ hexec
    obtain ⟨b, hb, -⟩ := h d hsafe hd
    rw [hexec] at hb
    exact nomatch hb

theorem good_read {c : Call (Except StorageError α)} {f : Disk → α}
    (h : ∀ d, P d → v.backend.exec t c d = (.ok (f d), d)) :
    GoodE v t P (attempt c) fun a d => P d ∧ a = f d :=
  good_attempt fun d hsafe hd => ⟨f d, by rw [h d hd], by rw [h d hd]; exact hsafe,
    by rw [h d hd]; exact ⟨hd, rfl⟩⟩

theorem good_verify : GoodE v t P (attempt .verify) fun _ => P :=
  (good_read (f := fun _ => ()) fun _ _ => rfl).post fun _ _ hs => ⟨hs.1, hs.2.1⟩

theorem good_refuse {q : Prop} [Decidable q] {e : StorageError} (h : ∀ d, P d → ¬q) :
    GoodE v t P (refuse q e) fun _ => P :=
  .guard (fun _ hs _ => hs) fun d hs hq => (h d hs.2 hq).elim

theorem good_unwrap {r : Except StorageError α} {a : α} (h : r = .ok a) :
    GoodE v t P (unwrap r) fun b d => P d ∧ b = a := by
  subst h
  exact .pure fun _ hs => ⟨hs.1, hs.2, rfl⟩

theorem good_writeJournal {j : PhaseJournal} {R : Disk → Prop}
    (hvalid : j.validate v.place.id v.place.layout = .ok ())
    (hnext : ∀ d, P d → d.journal.isSome = true ∧ (host v t).safe { d with journal := some j } ∧
      R { d with journal := some j }) :
    GoodE v t P (v.place.writeJournal j) fun _ => R := by
  refine .bind (good_unwrap hvalid) fun _ => ?_
  refine good_attempt fun d _ hd => ?_
  obtain ⟨hsome, hsafe, hR⟩ := hnext d hd.1
  have hexec : v.backend.exec t (.writeJournal j) d = (.ok (), { d with journal := some j }) :=
    if_pos hsome
  rw [hexec]
  exact ⟨(), rfl, hsafe, hR⟩

/-! ## Recovery -/

section Recovery
variable {id : BackendIdentity} {j : PhaseJournal} {n : Nat} {before after : BackendState}

def Unused (v : Service) (t : String) (d : Disk) : Prop :=
  d.volumes (v.backend.mint t).object = .absent

instance (v : Service) (t : String) (d : Disk) : Decidable (Unused v t d) :=
  inferInstanceAs (Decidable (_ = _))

/-- An unfinished call's journal is there, and no object has the token of this call. -/
def Recovering (v : Service) (t : String) (d : Disk) : Prop :=
  d.tombstone = false ∧ (∃ j, d.journal = some j ∧ Leftover v j) ∧ Unused v t d

def Clear (v : Service) (t : String) (d : Disk) : Prop :=
  d.tombstone = false ∧ d.journal = none ∧ d.mountpoint = false ∧ Unused v t d

theorem Recovering.safe (h : Recovering v t d) : (host v t).safe d :=
  .inl ⟨h.1, .inr h.2.1⟩

theorem Recovering.set (h : Recovering v t d)
    (hid : d.volumes id.object = before) (hbefore : before ≠ .absent) :
    Recovering v t (d.set id after) := by
  refine ⟨h.1, h.2.1, ?_⟩
  have hne : (v.backend.mint t).object ≠ id.object := by
    intro heq
    rw [← hid, ← heq] at hbefore
    exact hbefore h.2.2
  exact (Function.update_of_ne hne _ _).trans h.2.2

/-- Recovery, with the object in state `b`. -/
def Facing (v : Service) (t : String) (id : BackendIdentity) (b : BackendState) (d : Disk) : Prop :=
  Recovering v t d ∧ d.volumes id.object = b

theorem good_shift
    (hc : ∀ d, v.backend.exec t c d = d.shift id before after) (hbefore : before ≠ .absent) :
    GoodE v t (Facing v t id before) (attempt c) fun _ => Facing v t id after := by
  refine good_attempt fun d _ hd => ?_
  have hexec : v.backend.exec t c d = (.ok (), d.set id after) := (hc d).trans (if_pos hd.2)
  rw [hexec]
  have hset : Recovering v t (d.set id after) := hd.1.set hd.2 hbefore
  exact ⟨(), rfl, hset.safe, hset, Function.update_self _ _ _⟩

theorem good_state (h : ∀ d, P d → d.volumes id.object = b) :
    TripleE (good v t P) (attempt (.state id n)) (fun a => (good v t P).and (a = b)) (never v t) :=
  (good_read (f := fun d => d.volumes id.object) fun _ _ => rfl).post fun _ d hs =>
    ⟨⟨hs.1, hs.2.1⟩, hs.2.2.trans (h d hs.2.1)⟩

theorem good_confirm {a z : BackendState} {e : StorageError} {phase : ReleasePhase}
    (hc : ∀ d, v.backend.exec t c d = d.shift id a z)
    (ha : a ≠ .absent) :
    TripleE (good v t (Facing v t id a)) (do
        attempt c
        let state ← attempt (.state id n)
        refuse (state ≠ z) e
        noteRelease v.place none phase
        pure state : M BackendState)
      (fun b => (good v t (Facing v t id b)).and (b = z)) (never v t) := by
  refine .bind (good_shift hc ha) fun _ => ?_
  refine .learn (good_state fun _ hd => hd.2) fun b hb => ?_
  subst hb
  refine .bind (good_refuse fun _ _ => not_not.2 rfl) fun _ => ?_
  refine .bind (Q := fun _ => good v t (Facing v t id b)) (fun _ hs => hs) fun _ => ?_
  exact .pure fun _ hs => ⟨hs, rfl⟩

theorem good_unmountExact : TripleE (good v t (Facing v t id b)) (unmountExact v.place id n none b)
      (fun b => (good v t (Facing v t id b)).and (b ≠ .mounted)) (never v t) := by
  unfold unmountExact
  split
  · next hb =>
    subst hb
    refine (good_confirm (a := .mounted) (fun _ => rfl) (by decide)).post ?_
    rintro b d ⟨hs, rfl⟩
    exact ⟨hs, by decide⟩
  · next hb => exact .pure fun _ hs => ⟨hs, hb⟩

theorem good_removeExact (hb : b ≠ .mounted) :
    TripleE (good v t (Facing v t id b)) (removeExact v.place id n none b)
      (fun b => (good v t (Facing v t id b)).and (b = .absent)) (never v t) := by
  unfold removeExact
  split
  · next hb =>
    subst hb
    exact good_confirm (a := .unmounted) (fun _ => rfl) (by decide)
  · next hb' =>
    refine .pure fun _ hs => ⟨hs, ?_⟩
    cases b
    · exact absurd rfl hb
    · exact absurd rfl hb'
    · rfl

theorem good_discardAllocation :
    GoodE v t (Recovering v t) discardAllocation fun _ => Clear v t := by
  refine .bind (Q := fun _ => good v t fun d => Recovering v t d ∧ d.mountpoint = false)
    (good_attempt fun d _ hd => ⟨(), rfl, .inl ⟨hd.1, .inr hd.2.1⟩, hd, rfl⟩) fun _ => ?_
  refine good_attempt fun d _ hd => ?_
  obtain ⟨⟨htomb, ⟨j, hj, -⟩, hunused⟩, hmount⟩ := hd
  have hexec : v.backend.exec t .removeJournal d = (.ok (), { d with journal := none }) :=
    if_pos (by rw [hj]; rfl)
  rw [hexec]
  exact ⟨(), rfl, .inl ⟨htomb, .inl ⟨rfl, hmount⟩⟩, htomb, rfl, hmount, hunused⟩

theorem good_cleanupIdentity :
    GoodE v t (Recovering v t) (cleanupIdentity v.place id n none) fun _ => Clear v t := by
  refine .bind (Q := fun b => good v t (Facing v t id b)) ((good_read
    (f := fun d => d.volumes id.object) fun _ _ => rfl).post fun _ _ hs =>
      ⟨hs.1, hs.2.1, hs.2.2.symm⟩) fun b => ?_
  refine .learn good_unmountExact fun b hb => ?_
  refine .learn (good_removeExact hb) fun b hb => ?_
  refine .bind (good_refuse fun _ _ => not_not.2 hb) fun _ => ?_
  exact good_discardAllocation.pre fun _ hs => ⟨hs.1, hs.2.1⟩

theorem good_recoverAllocating (hj : Leftover v j) :
    GoodE v t (fun d => Recovering v t d ∧ d.journal = some j) (recoverAllocating v.place j)
      fun _ => Clear v t := by
  have hidentify : TripleE (good v t fun d => Recovering v t d ∧ d.journal = some j)
      (identify j.ownershipToken j.reservedBytes j.backend)
      (fun found => (good v t (Recovering v t)).and (∀ id, found = some id →
        id.ownershipToken = j.ownershipToken ∧ (j.backend = none → id.validateCreated = .ok ())))
      (never v t) := by
    unfold identify
    cases hback : j.backend with
    | some id =>
      refine .pure fun d hs => ⟨⟨hs.1, hs.2.1⟩, fun id' hid' => ?_⟩
      obtain rfl := Option.some.inj hid'
      exact ⟨hj.recorded_token hback, nofun⟩
    | none =>
      refine (good_read (c := .discover j.ownershipToken j.reservedBytes) fun _ _ => rfl).post
        fun found d hs => ⟨⟨hs.1, hs.2.1.1⟩, fun id hid => ?_⟩
      have hfound := hs.2.2.symm.trans hid
      split at hfound
      · exact nomatch hfound
      · obtain rfl := Option.some.inj hfound
        exact ⟨v.backend.mint_token _, fun _ => v.backend.mint_complete _ hj.token_known⟩
  refine .learn hidentify fun found hfound => ?_
  cases found with
  | none => exact good_discardAllocation
  | some id =>
    obtain ⟨htoken, hcomplete⟩ := hfound id rfl
    refine .bind (good_refuse fun _ _ => not_not.2 htoken) fun _ => ?_
    refine .bind (Q := fun _ => good v t (Recovering v t))
      (.provided (fun hnone => ?_) fun _ _ hs => hs) fun _ => good_cleanupIdentity
    have hid := hj.identified (hcomplete hnone) htoken
    refine good_writeJournal hid.valid fun d hd => ?_
    obtain ⟨htomb, ⟨j', hj', -⟩, hunused⟩ := hd
    have hrec : Recovering v t { d with journal := some (j.withBackendIdentity id) } :=
      ⟨htomb, ⟨_, rfl, hid⟩, hunused⟩
    exact ⟨by rw [hj']; rfl, hrec.safe, hrec⟩

theorem good_recoverExisting : GoodE v t (Recovering v t)
      (recoverExisting v.manager v.place v.request v.bytes) fun _ => Clear v t := by
  rintro d ⟨hsafe, hd⟩
  obtain ⟨-, ⟨j, hjournal, hj⟩, -⟩ := id hd
  let here : Disk → Prop := fun d => Recovering v t d ∧ d.journal = some j
  have hread : TripleE (good v t here) v.place.readJournal (fun a => (good v t here).and (a = j))
      (never v t) := by
    refine TripleE.bind (good_read (f := fun _ => j) fun d hd => ?_) fun a => ?_
    · rw [WorkingBackend.exec, hd.2]
      rfl
    · refine TripleE.pre (P := (good v t here).and (a = j)) ?_ fun _ hs => ⟨⟨hs.1, hs.2.1⟩, hs.2.2⟩
      refine TripleE.of_and fun ha => ?_
      subst ha
      refine TripleE.bind (good_unwrap hj.valid) fun _ => ?_
      exact TripleE.pure fun _ hs => ⟨⟨hs.1, hs.2.1⟩, rfl⟩
  refine TripleE.bind (P := good v t here) hread (fun a => TripleE.of_and fun ha => ?_) d
    ⟨hsafe, hd, hjournal⟩
  subst ha
  refine TripleE.bind (good_refuse fun _ _ => ?_) fun _ => ?_
  · rintro (hno | hno)
    · exact hno hj.labels
    · exact hno hj.bytes
  refine TripleE.bind (Q := fun _ => good v t here) ?_ fun _ => ?_
  · refine TripleE.bind (good_read (f := fun _ => v.backend.capability) fun _ _ => rfl) fun a => ?_
    refine TripleE.weaken (good_refuse (P := fun d => here d ∧ a = v.backend.capability) ?_)
      (fun _ hs => hs) (fun _ _ hs => ⟨hs.1, hs.2.1⟩) fun _ hs => hs
    rintro d ⟨-, rfl⟩
    exact not_not.2 ⟨hj.kind, hj.key, hj.pool⟩
  · rw [hj.allocating]
    exact good_recoverAllocating hj

end Recovery

/-! ## Building up -/

section Build
variable {j : PhaseJournal} {id : BackendIdentity}

theorem good_probe : TripleE (good v t P) (probe v.bytes)
      (fun c => (good v t P).and (c = (v.backend.capability, v.backend.docker))) (never v t) := by
  refine .bind (good_read (f := fun _ => v.backend.capability) fun _ _ => rfl) fun a => ?_
  have hdocker : GoodE v t (fun d => P d ∧ a = v.backend.capability)
    (attemptAs (fun e : StorageError => StorageError.dockerCapability e.text) Call.probeDocker)
    fun b d => (P d ∧ a = v.backend.capability) ∧ b = v.backend.docker := by
    refine .attemptAs ?_ ?_
    · rintro d b d' hs hexec
      obtain ⟨hb, rfl⟩ := Prod.mk.inj hexec
      exact ⟨hs.1, hs.2, (Except.ok.inj hb).symm⟩
    · rintro d e d' - hexec
      exact nomatch (Prod.mk.inj hexec).1
  refine .bind hdocker fun b => ?_
  refine .pre (P := (good v t P).and (a = v.backend.capability ∧ b = v.backend.docker)) ?_
    fun _ hs => ⟨⟨hs.1, hs.2.1.1⟩, hs.2.1.2, hs.2.2⟩
  refine .of_and fun ⟨ha, hb⟩ => ?_
  subst ha hb
  refine .bind (good_unwrap (by rw [v.backend.docker_valid]; rfl)) fun _ => ?_
  exact .pure fun _ hs => ⟨⟨hs.1, hs.2.1⟩, rfl⟩

theorem good_prepareGround : TripleE (good v t fun d => Granted v d ∧ Unused v t d)
      (prepareGround v.manager v.place v.request v.bytes)
      (fun c => (good v t (Clear v t)).and (c = (v.backend.capability, v.backend.docker)))
      (never v t) := by
  refine .bind (good_read (f := fun d => d.tombstone) fun _ _ => rfl) fun a => ?_
  refine .bind (good_refuse fun d hd => ?_) fun _ => ?_
  · rw [hd.2, hd.1.1.1]
    exact nofun
  refine .bind (good_read (f := fun d => d.journal.isSome) fun _ _ => rfl) fun b => ?_
  refine .bind (Q := fun _ => good v t (Clear v t)) (.provided ?_ ?_) fun _ => ?_
  · rintro rfl
    refine good_recoverExisting.pre ?_
    rintro d ⟨hsafe, ⟨⟨⟨htomb, hleft⟩, hunused⟩, -⟩, hsome⟩
    obtain ⟨hnone, -⟩ | hleft := hleft
    · rw [hnone] at hsome
      exact nomatch hsome
    · exact ⟨hsafe, htomb, hleft, hunused⟩
  · rintro hb d ⟨hsafe, ⟨⟨⟨htomb, hleft⟩, hunused⟩, -⟩, hsome⟩
    obtain ⟨hnone, hmount⟩ | ⟨j, hj, -⟩ := hleft
    · exact ⟨hsafe, htomb, hnone, hmount, hunused⟩
    · rw [hsome, hj] at hb
      exact absurd rfl hb
  · refine .learn good_probe fun c hc => ?_
    subst hc
    refine .bind (good_refuse fun _ _ => not_lt.2 v.room) fun _ => ?_
    exact .pure fun _ hs => ⟨hs, rfl⟩

/-- Between the mountpoint and the journal, the call may not die. -/
theorem good_createMountpoint : GoodE v t (Clear v t) v.place.createMountpoint
      fun _ d => Stranded d ∧ Unused v t d := by
  refine .bind good_verify fun _ => ?_
  refine .bind (good_read (f := fun d => !d.mountpoint) fun _ _ => rfl) fun a => ?_
  refine .bind (good_refuse fun d hd => ?_) fun _ => ?_
  · rw [hd.2, hd.1.2.2.1]
    exact nofun
  refine good_attempt fun d _ hd => ?_
  have hstranded : Stranded { d with mountpoint := true } := ⟨hd.1.1, hd.1.2.1, rfl⟩
  exact ⟨(), rfl, .inr (.inl hstranded), hstranded, hd.1.2.2.2⟩

def Standing (v : Service) (t : String) (j : PhaseJournal) (b : BackendState) (d : Disk) : Prop :=
  d.tombstone = false ∧ d.journal = some j ∧ d.volumes (v.backend.mint t).object = b

theorem Standing.safe (h : Standing v t j b d) (hj : Leftover v j) : (host v t).safe d :=
  .inl ⟨h.1, .inr ⟨j, h.2.1, hj⟩⟩

theorem good_openJournal (ht : t.isEmpty = false) :
    GoodE v t (fun d => Stranded d ∧ Unused v t d) (openJournal v.place (v.journal t))
      fun _ => Standing v t (v.journal t) .absent := by
  have hcreate : GoodE v t (fun d => Stranded d ∧ Unused v t d)
    (v.place.createJournal (v.journal t)) fun _ => Standing v t (v.journal t) .absent := by
    refine .bind (good_unwrap (Leftover.begin ht).valid) fun _ => ?_
    refine good_attempt fun d _ hd => ?_
    obtain ⟨⟨⟨htomb, hnone, -⟩, hunused⟩, -⟩ := hd
    have hexec : v.backend.exec t (.createJournal (v.journal t)) d =
        (.ok (), { d with journal := some (v.journal t) }) := if_neg (by rw [hnone]; exact nofun)
    rw [hexec]
    have hstand : Standing v t (v.journal t) .absent { d with journal := some (v.journal t) } :=
      ⟨htomb, rfl, hunused⟩
    exact ⟨(), rfl, hstand.safe (.begin ht), hstand⟩
  refine .bind (.observe hcreate) fun created => ?_
  cases created with
  | ok => exact fun _ hs => hs
  | error => exact fun _ hs => hs.elim

theorem good_orRollback {x : M α} {Q : α → Assertion (host v t)} {R : Assertion (host v t)}
    {identity : Option BackendIdentity} (hx : TripleE R x Q (never v t)) :
    TripleE R (orRollback v.place j identity x) Q (never v t) := by
  refine .bind (.observe hx) fun done => ?_
  cases done with
  | ok => exact fun _ hs => hs
  | error => exact fun _ hs => hs.elim

theorem good_identify (hj : Leftover v j) (hid : id.validateCreated = .ok ())
    (htoken : id.ownershipToken = j.ownershipToken) {k : PhaseJournal} :
    GoodE v t (Standing v t k b) (v.place.writeJournal (j.withBackendIdentity id))
      fun _ => Standing v t (j.withBackendIdentity id) b := by
  have hnext := hj.identified hid htoken
  refine good_writeJournal hnext.valid fun d hd => ?_
  have hstand : Standing v t (j.withBackendIdentity id) b
      { d with journal := some (j.withBackendIdentity id) } := ⟨hd.1, rfl, hd.2.2⟩
  exact ⟨by rw [hd.2.1]; rfl, hstand.safe hnext, hstand⟩

theorem Standing.set {b b' : BackendState} (h : Standing v t j b d)
    (hid : id.object = (v.backend.mint t).object) : Standing v t j b' (d.set id b') := by
  refine ⟨h.1, h.2.1, ?_⟩
  rw [← hid]
  exact Function.update_self _ _ _

theorem good_create (hj : Leftover v j) :
    TripleE (good v t (Standing v t j .absent)) (attempt (.create v.request.labels t v.bytes))
      (fun c => (good v t (Standing v t j .unmounted)).and (c = v.backend.mint t)) (never v t) := by
  refine TripleE.weaken (good_attempt (Q := fun c d => Standing v t j .unmounted d ∧
    c = v.backend.mint t) fun d _ hd => ?_) (fun _ hs => hs)
    (fun _ _ hs => ⟨⟨hs.1, hs.2.1⟩, hs.2.2⟩) fun _ hs => hs
  have hexec : v.backend.exec t (.create v.request.labels t v.bytes) d =
      (.ok (v.backend.mint t), d.set (v.backend.mint t) .unmounted) := if_pos hd.2.2
  rw [hexec]
  have hstand : Standing v t j .unmounted (d.set (v.backend.mint t) .unmounted) := hd.set rfl
  exact ⟨_, rfl, hstand.safe hj, hstand, rfl⟩

theorem good_prepare :
    TripleE (good v t (Standing v t j .unmounted)) (attempt (.prepare (v.backend.mint t) v.bytes))
      (fun c => (good v t (Standing v t j .unmounted)).and
        (c = v.backend.format (v.backend.mint t))) (never v t) := by
  have hexec : ∀ d, Standing v t j .unmounted d →
      v.backend.exec t (.prepare (v.backend.mint t) v.bytes) d =
        (.ok (v.backend.format (v.backend.mint t)), d) := fun d hd => if_pos hd.2.2
  exact (good_read hexec).post fun _ _ hs => ⟨⟨hs.1, hs.2.1⟩, hs.2.2⟩

theorem good_mount (hj : Leftover v j) (hid : id.object = (v.backend.mint t).object) :
    GoodE v t (Standing v t j .unmounted) (attempt (.mount id v.bytes))
      fun _ => Standing v t j .mounted := by
  refine good_attempt fun d _ hd => ?_
  have hexec : v.backend.exec t (.mount id v.bytes) d = (.ok (), d.set id .mounted) :=
    if_pos (by rw [hid]; exact hd.2.2)
  rw [hexec]
  have hstand : Standing v t j .mounted (d.set id .mounted) := hd.set hid
  exact ⟨(), rfl, hstand.safe hj, hstand⟩

theorem good_requireMounted (hid : id.object = (v.backend.mint t).object) :
    GoodE v t (Standing v t j .mounted) (requireMounted id v.bytes)
      fun _ => Standing v t j .mounted := by
  refine .learn (good_state (b := .mounted) fun d hd => ?_) fun b hb => ?_
  · rw [hid]
    exact hd.2.2
  · exact good_refuse fun _ _ => not_not.2 hb

/-- The identity of the object this call creates and prepares. -/
def Service.prepared (v : Service) (t : String) : BackendIdentity :=
  v.backend.format (v.backend.mint t)

theorem prepared_object : (v.prepared t).object = (v.backend.mint t).object :=
  BackendIdentity.object_of_transition (v.backend.format_valid t)

theorem prepared_token : (v.prepared t).ownershipToken = t :=
  (BackendIdentity.token_of_object prepared_object).trans (v.backend.mint_token t)

def Service.receipt (v : Service) (t : String) : AllocationReceipt where
  apiVersion := allocationApiVersion
  labels := v.request.labels
  reservedBytes := v.bytes
  mountPath := v.place.layout.root
  backendKind := v.backend.capability.backend
  backendKey := v.manager.key v.request.labels
  poolIdentity := v.backend.capability.poolIdentity
  backend := v.prepared t
  dockerBind := ⟨v.backend.docker.daemonId, v.backend.docker.verifier,
    v.backend.docker.methodVersion, v.place.layout.root, v.backend.filesystemId⟩

theorem receipt_valid (ht : t.isEmpty = false) :
    (v.receipt t).validate v.request.labels v.place.layout = .ok () := by
  have hdocker := Txn.ensure_eq_ok.1 v.backend.docker_valid
  unfold AllocationReceipt.validate
  simp only [Txn.seq_eq_ok, Txn.ensure_eq_ok]
  refine ⟨rfl, rfl, rfl, ⟨v.sized, ?_, ?_, ?_⟩, v.backend.format_complete t ht, hdocker.1,
    hdocker.2.1, hdocker.2.2, rfl, ?_⟩
  · simpa [Service.receipt] using v.backend.kind_known
  · simpa [Service.receipt] using v.key_known
  · simpa [Service.receipt] using v.backend.pool_known
  · simpa [Service.receipt] using v.backend.filesystem_known

theorem ready_valid (ht : t.isEmpty = false) :
    (PhaseJournal.ready (v.receipt t)).validate v.place.id v.place.layout = .ok () := by
  refine PhaseJournal.validate_eq_ok.2 ⟨⟨rfl, rfl, rfl, v.sized, ?_, ?_, ?_, ?_⟩, ?_, ?_⟩
  · simpa [PhaseJournal.ready, PhaseJournal.fromReceipt, Service.receipt] using v.backend.kind_known
  · simpa [PhaseJournal.ready, PhaseJournal.fromReceipt, Service.receipt] using v.key_known
  · simpa [PhaseJournal.ready, PhaseJournal.fromReceipt, Service.receipt] using v.backend.pool_known
  · have htoken : (PhaseJournal.ready (v.receipt t)).ownershipToken = t := prepared_token
    rw [htoken, ht]
    rfl
  · exact Txn.seq_eq_ok.2 ⟨v.backend.format_complete t ht, Txn.ensure_eq_ok.2 rfl⟩
  · exact (if_pos rfl).trans (receipt_valid ht)

theorem good_publish (ht : t.isEmpty = false) : GoodE v t (Standing v t j .mounted)
      (publish v.manager v.place v.request v.bytes v.backend.capability v.backend.docker
        (v.prepared t)) fun r _ => r = v.receipt t := by
  have hmounted : GoodE v t (Standing v t j .mounted) (requireMounted (v.prepared t) v.bytes)
    fun _ => Standing v t j .mounted := good_requireMounted prepared_object
  refine .bind hmounted fun _ => .bind good_verify fun _ => ?_
  refine .bind hmounted fun _ => .bind good_verify fun _ => ?_
  refine .bind (Q := fun b => (good v t (Standing v t j .mounted)).and
    (b = (v.receipt t).dockerBind)) ((good_read fun _ _ => rfl).post fun _ _ hs =>
      ⟨⟨hs.1, hs.2.1⟩, hs.2.2⟩) fun b => .of_and fun hb => ?_
  subst hb
  refine .bind good_verify fun _ => .bind (good_refuse fun _ _ => ?_) fun _ => ?_
  · rintro (hno | hno | hno) <;> exact hno rfl
  refine .bind good_verify fun _ => .bind (good_unwrap (receipt_valid ht)) fun _ => ?_
  refine .bind good_verify fun _ => ?_
  refine .bind (good_writeJournal (R := fun _ => True) (ready_valid ht) fun d hd => ?_)
    fun _ => ?_
  · exact ⟨by rw [hd.1.2.1]; rfl, .inr (.inr ⟨_, rfl, rfl⟩), trivial⟩
  · exact .pure fun _ hs => ⟨hs.1, rfl⟩

theorem good_build (ht : t.isEmpty = false) :
    GoodE v t (Standing v t (v.journal t) .absent)
      (build v.manager v.place v.request v.bytes v.backend.capability v.backend.docker
        (v.journal t)) fun r _ => r = v.receipt t := by
  have hj : Leftover v (v.journal t) := .begin ht
  have hprepared : (v.prepared t).validateCreated = .ok () :=
    BackendIdentity.validateCreated_of_validate (v.backend.format_complete t ht)
  have hj' : Leftover v ((v.journal t).withBackendIdentity (v.prepared t)) :=
    hj.identified hprepared prepared_token
  refine .learn (good_orRollback (good_create hj)) fun c hc => ?_
  subst hc
  refine .bind (good_orRollback (good_refuse fun _ _ =>
    not_not.2 (v.backend.mint_token t))) fun _ => ?_
  refine .bind (good_orRollback (good_identify hj (v.backend.mint_complete t ht)
    (v.backend.mint_token t))) fun _ => ?_
  refine .learn (good_orRollback good_prepare) fun c hc => ?_
  subst hc
  refine .bind (good_orRollback (good_refuse fun _ _ => ?_)) fun _ => ?_
  · rw [v.backend.format_valid t]
    exact nofun
  refine .bind (good_orRollback (good_identify hj hprepared prepared_token)) fun _ => ?_
  refine .bind (good_orRollback good_verify) fun _ => ?_
  refine .bind (good_orRollback (good_mount hj' prepared_object)) fun _ => ?_
  exact good_orRollback (good_publish ht)

theorem good_allocateAt (ht : t.isEmpty = false) :
    GoodE v t (fun d => Granted v d ∧ Unused v t d) (allocateAt v.manager v.place v.request v.bytes)
      fun r _ => r = v.receipt t := by
  refine .learn good_prepareGround fun c hc => ?_
  subst hc
  refine .bind good_createMountpoint fun _ => ?_
  refine .bind (Q := fun a => (good v t fun d => Stranded d ∧ Unused v t d).and (a = t))
    ((good_read fun _ _ => rfl).post fun _ _ hs =>
      ⟨⟨hs.1, hs.2.1⟩, hs.2.2⟩) fun a => .of_and fun ha => ?_
  subst ha
  exact .bind (good_openJournal ht) fun _ => good_build ht

end Build

/-! ## Stranded -/

/-- A mountpoint without a journal refuses the request and stays. -/
theorem stranded_refuses :
    TripleE (good v t Stranded) (allocateAt v.manager v.place v.request v.bytes)
      (fun _ => never v t) (good v t Stranded) := by
  have hground : GoodE v t Stranded (prepareGround v.manager v.place v.request v.bytes)
    fun _ => Stranded := by
    refine .bind (good_read (f := fun d => d.tombstone) fun _ _ => rfl) fun a => ?_
    refine .bind (good_refuse fun d hd => ?_) fun _ => ?_
    · rw [hd.2, hd.1.1]
      exact nofun
    refine .bind (good_read (f := fun d => d.journal.isSome) fun _ _ => rfl) fun b => ?_
    refine .bind (Q := fun _ => good v t Stranded) (.provided ?_ ?_) fun _ => ?_
    · rintro rfl d ⟨-, ⟨⟨-, hnone, -⟩, -⟩, hsome⟩
      rw [hnone] at hsome
      exact nomatch hsome
    · exact fun _ d hs => ⟨hs.1, hs.2.1.1⟩
    · refine .learn good_probe fun c hc => ?_
      subst hc
      refine .bind (good_refuse fun _ _ => not_lt.2 v.room) fun _ => ?_
      exact .pure fun _ hs => hs
  refine .seq hground (fun _ hs => hs.elim) fun _ => ?_
  refine .bind (Q := fun _ => never v t) ?_ fun _ => fun _ hs => hs.elim
  refine .seq good_verify (fun _ hs => hs.elim) fun _ => ?_
  refine .seq (good_read (f := fun d => !d.mountpoint) fun _ _ => rfl)
    (fun _ hs => hs.elim) fun a => ?_
  refine .bind (Q := fun _ => never v t) (.guard (fun d hs hno => ?_)
    fun d hs _ => ⟨hs.1, hs.2.1⟩) fun _ => fun _ hs => hs.elim
  rw [hs.2.2, hs.2.1.2.2] at hno
  exact absurd rfl hno

/-! ## The next call -/

theorem allocate_eq :
    (allocate v.manager v.request).run = (allocateAt v.manager v.place v.request v.bytes).run := by
  unfold allocate
  rw [v.measured, v.laid]
  rfl

/-- What calls of the request leave that die before their Ready journal is durable, any number of
them, each under a token no object has. -/
inductive Attempted (v : Service) : Disk → Prop
  | fresh {d : Disk} (tombstone : d.tombstone = false) (journal : d.journal = none)
      (mountpoint : d.mountpoint = false) : Attempted v d
  | died {d d' : Disk} {t : String} (before : Attempted v d) (known : t.isEmpty = false)
      (unused : Unused v t d)
      (cut : Dies (host v t).sem alone (allocate v.manager v.request).run d d')
      (unready : ¬d'.IsReady) : Attempted v d'

theorem granted_or_stranded (h : Attempted v d) : Granted v d ∨ Stranded d := by
  induction h with
  | fresh tombstone journal mountpoint => exact .inl ⟨tombstone, .inl ⟨journal, mountpoint⟩⟩
  | @died d d' t _ known unused cut unready ih =>
    rw [allocate_eq] at cut
    have hsafe : (host v t).safe d' := by
      rcases ih with hgranted | hstranded
      · exact (good_allocateAt known d ⟨.inl hgranted, hgranted, unused⟩).of_dies cut
      · exact (stranded_refuses d ⟨.inr (.inl hstranded), hstranded⟩).of_dies cut
    rcases hsafe with hgranted | hstranded | hready
    · exact .inl hgranted
    · exact .inr hstranded
    · exact absurd hready unready

theorem runs_allocate (d : Disk) :
    Runs (host v t).sem (host v t).env (allocateAt v.manager v.place v.request v.bytes).run d
      ((allocate v.manager v.request).run.eval (v.backend.exec t) d).1
      ((allocate v.manager v.request).run.eval (v.backend.exec t) d).2 := by
  rw [← allocate_eq]
  exact eval_runs _ (fun _ _ => rfl) _ _

theorem allocate_granted (hd : Granted v d) (ht : t.isEmpty = false) (hunused : Unused v t d) :
    ((allocate v.manager v.request).run.eval (v.backend.exec t) d).1 = .ok (v.receipt t) := by
  have hend := (good_allocateAt ht d ⟨.inl hd, hd, hunused⟩).of_runs (runs_allocate d)
  cases hres : ((allocate v.manager v.request).run.eval (v.backend.exec t) d).1 with
  | error e =>
    rw [hres] at hend
    exact hend.elim
  | ok r =>
    rw [hres] at hend
    exact congrArg _ hend.2

theorem allocate_stranded (hd : Stranded d) (r : AllocationReceipt) :
    ((allocate v.manager v.request).run.eval (v.backend.exec t) d).1 ≠ .ok r := by
  have hend := (stranded_refuses d ⟨.inr (.inl hd), hd⟩).of_runs (runs_allocate (v := v) (t := t) d)
  intro hres
  rw [hres] at hend
  exact hend.elim

/-- **Allocation after a crash.** On a host where everything works and that has room, let calls of
one request die at any moments before their Ready journal is durable. The next call, under a token no
object has, returns a receipt for a new object if and only if no mountpoint was left without a
journal, that is, if no call died between creating its mountpoint and creating its journal. -/
theorem allocate_after_crash {d : Disk} (h : Attempted v d) (ht : t.isEmpty = false)
    (hunused : Unused v t d) :
    (∃ r, ((allocate v.manager v.request).run.eval (v.backend.exec t) d).1 = .ok r ∧
        r.backend.ownershipToken = t) ↔
      (d.mountpoint = true → d.journal ≠ none) := by
  rcases granted_or_stranded h with hgranted | hstranded
  · constructor
    · rintro - hmount hnone
      obtain ⟨-, ⟨-, hno⟩ | ⟨j, hj, -⟩⟩ := hgranted
      · rw [hno] at hmount
        exact nomatch hmount
      · rw [hnone] at hj
        exact nomatch hj
    · exact fun _ => ⟨_, allocate_granted hgranted ht hunused, prepared_token⟩
  · constructor
    · rintro ⟨r, hr, -⟩
      exact absurd hr (allocate_stranded hstranded r)
    · exact fun hno => absurd hstranded.2.1 (hno hstranded.2.2)

namespace Sample

def service : Service where
  backend := working
  manager := manager
  request := request
  bytes := 2 ^ 30
  layout := ⟨"/srv/executions/e", "/srv/executions/e/repository", "/srv/executions/e/session"⟩
  measured := by decide
  laid := by decide +kernel
  room := by decide
  key_known := by decide +kernel

def dying (at? : {β : Type} → Call β → Bool) (t : String) {β : Type} (c : Call β) (d : Disk) :
    Option (β × Disk) :=
  if at? c then none else some (working.exec t c d)

/-- What a call under token `t` leaves that dies there. -/
def wreck (at? : {β : Type} → Call β → Bool) (t : String) : Disk :=
  ((allocate manager request).run.play (dying at? t) fresh).2

theorem attempted_wreck {at? : {β : Type} → Call β → Bool} {t : String} (ht : t.isEmpty = false)
    (hready : ¬(wreck at? t).IsReady) : Attempted service (wreck at? t) := by
  refine .died (d := fresh) (.fresh rfl rfl rfl) ht rfl (dies_of_play alone id ?_ _ fresh) hready
  intro β c d b d' hexec
  unfold dying at hexec
  split at hexec
  · exact nomatch hexec
  · exact Option.some.inj hexec

def beforeMount : {β : Type} → Call β → Bool
  | _, .mount _ _ => true
  | _, _ => false

def beforeJournal : {β : Type} → Call β → Bool
  | _, .createJournal _ => true
  | _, _ => false

theorem not_ready {d : Disk} (h : d.journal.all fun j => j.phase ≠ .ready) : ¬d.IsReady := by
  rintro ⟨j, hj, hready⟩
  rw [hj] at h
  simp [hready] at h

end Sample

open Sample in
/-- A call that dies with its volume prepared is recovered by the next one. -/
theorem allocate_after_crash_sample : Attempted service (wreck beforeMount "t") ∧
      ∃ r, ((allocate manager request).run.eval (working.exec "u") (wreck beforeMount "t")).1 =
        .ok r ∧ r.backend.ownershipToken = "u" := by
  have hattempted : Attempted service (wreck beforeMount "t") :=
    attempted_wreck (by decide) (not_ready (by decide +kernel))
  refine ⟨hattempted, ?_⟩
  exact (allocate_after_crash (v := service) hattempted (t := "u") (by decide)
    (by decide +kernel)).2 fun _ hnone => absurd hnone (by decide +kernel)

open Sample in
/-- A call that dies between its mountpoint and its journal is never recovered: whatever its token,
the next call is refused. -/
theorem crash_strands_mountpoint :
    ¬∀ d t, Attempted service d → t.isEmpty = false → Unused service t d →
      ∃ r, ((allocate service.manager service.request).run.eval (service.backend.exec t) d).1 =
        .ok r := by
  intro hall
  have hattempted : Attempted service (wreck beforeJournal "t") :=
    attempted_wreck (by decide) (not_ready (by decide +kernel))
  obtain ⟨r, hr⟩ := hall _ "u" hattempted (by decide) (by decide +kernel)
  exact allocate_stranded (v := service) ⟨by decide +kernel, by decide +kernel, by decide +kernel⟩
    r hr

end Orchestrator.ExecutionStorage.Exact
