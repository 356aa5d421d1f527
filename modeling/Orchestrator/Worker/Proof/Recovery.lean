import Orchestrator.Worker.Proof.Containment
import Orchestrator.Worker.Proof.Lifecycle

/-!
# Recovery removes what is recorded

The steps of a cleanup, made from the handles of an authority, keep the containment of its execution:
each phase is entered only after what it says is gone is gone. A step that finds no receipt has
nothing to remove, because nothing is there that is not recorded.
-/

namespace Orchestrator

open Prog Effect

variable {e : ExecutionId} {m : Prop} {k : Bool}

theorem CleanupDisposition.storageGone_of_stepsLeft {d : CleanupDisposition}
    (hd : d.cleaning = true) (hn : d.stepsLeft = 0) : d.storageGone = true := by
  cases d <;> simp_all [cleaning, stepsLeft, storageGone]

/-! ## The runtime -/

namespace Lifecycle

theorem errorsOf_eq_nil {results : List (Except WorkerError Unit)} :
    errorsOf results = [] ↔ ∀ r ∈ results, r.isOk = true := by
  rw [errorsOf, List.filterMap_eq_nil_iff]
  refine forall₂_congr fun r _ => ?_
  cases r with
  | ok u => exact ⟨fun _ => rfl, fun _ => rfl⟩
  | error err => exact ⟨nofun, nofun⟩

theorem triple_observe_change {u : RuntimeChange} {X D : RuntimeState → Prop} {E}
    (hX : ∀ r, X r → X (u.apply r)) (hD : ∀ r, D (u.apply r)) :
    TripleE ((Fact.claimed m true .runtimeStopped fun _ => X).of e)
      (observe (runtime e (.change u)) : Effect (Except WorkerError Unit))
      (fun res => (Fact.claimed m true .runtimeStopped
        fun _ r => X r ∧ (res.isOk = true → D r)).of e) E := by
  have hcall : TripleE ((Fact.claimed m true .runtimeStopped fun _ => X).of e)
      (runtime e (.change u)) (fun _ => (Fact.claimed m true .runtimeStopped
        fun _ r => X r ∧ D r).of e) ((Fact.claimed m true .runtimeStopped fun _ => X).of e) := by
    refine triple_stopped (fun _ _ _ _ _ => .inr rfl) (fun _ r r' h hd => ?_) fun _ r r' h hd => ?_
    · obtain rfl | ⟨_, hfail⟩ := hd
      · exact ⟨hX r h, hD r⟩
      · cases hfail
    · obtain rfl | ⟨rfl, _⟩ := hd
      · exact hX r h
      · exact h
  refine hcall.observe.post fun res w h => ?_
  cases res with
  | ok x => exact ⟨h.1, h.2.1, h.2.2.1, fun _ => h.2.2.2⟩
  | error err => exact ⟨h.1, h.2.1, h.2.2, nofun⟩

theorem triple_check {X : RuntimeState → Prop} :
    ((Fact.claimed m k .runtimeStopped fun _ => X).of e).KeptBy (runtime e .check) := by
  refine triple_stopped (fun _ r r' hd hp => .inl ?_) (fun _ r r' h hd => ?_) fun _ r r' h hd => ?_
  all_goals obtain rfl : r' = r := hd
  · exact hp
  · exact h
  · exact h

theorem triple_destroy {labels : OwnershipLabels} (hid : labels.executionId = e) :
    TripleE ((Fact.claimed m true .runtimeStopped fun _ _ => True).of e) (destroy labels)
      (fun _ => (Fact.claimed m true .runtimeStopped fun _ r => r.present = false).of e)
      ((Fact.claimed m true .runtimeStopped fun _ _ => True).of e) := by
  subst hid
  refine .bind triple_check fun _ => .bind triple_check fun _ => ?_
  refine .bind (triple_observe_change (D := fun r => r.containers = false)
    (fun _ h => h) fun _ => rfl) fun containers => ?_
  refine .bind (triple_observe_change (D := fun r => r.volumes = false)
    (fun _ h => h) fun _ => rfl) fun volumes => ?_
  refine .bind (triple_observe_change (D := fun r => r.network = false)
    (fun _ h => h) fun _ => rfl) fun networks => ?_
  refine .guard (fun w h herr => ?_) fun w h _ => ⟨h.1, h.2.1, trivial⟩
  obtain ⟨hn, hclaim, ⟨⟨_, hc⟩, hv⟩, hnet⟩ := h
  have hall := errorsOf_eq_nil.1 (not_not.1 herr)
  refine ⟨hn, hclaim, ?_⟩
  show (_ || _ || _) = false
  rw [hc (hall _ (by simp)), hv (hall _ (by simp)), hnet (hall _ (by simp))]
  rfl

theorem triple_revokeCredentials {X : RuntimeState → Prop}
    (hX : ∀ r, X r → X (RuntimeChange.revoke.apply r)) :
    TripleE ((Fact.claimed m k .runtimeStopped fun _ => X).of e) (revokeCredentials e)
      (fun _ => (Fact.claimed m k .runtimeStopped fun _ r => X r ∧ r.credential = false).of e)
      ((Fact.claimed m k .runtimeStopped fun _ => X).of e) := by
  refine triple_stopped (fun _ r r' hd hp => .inl ?_) (fun _ r r' h hd => ?_) fun _ r r' h hd => ?_
  · obtain rfl | ⟨rfl, _⟩ := hd <;> exact hp
  · obtain rfl | ⟨_, hfail⟩ := hd
    · exact ⟨hX r h, rfl⟩
    · cases hfail
  · obtain rfl | ⟨rfl, _⟩ := hd
    · exact hX r h
    · exact h

/-! ## Steps of a cleanup -/

section Steps
variable {authority : CleanupAuthority} {execution : Execution} {d : CleanupDisposition}

theorem triple_destroySelected {receipt : AllocationReceipt} :
    TripleE ((Fact.claimed m true .runtimeStopped fun _ _ => True).of authority.executionId)
      (destroySelected authority receipt)
      (fun _ => (Fact.claimed m true .runtimeStopped fun _ r => r.present = false).of
        authority.executionId)
      ((Fact.claimed m true .runtimeStopped fun _ _ => True).of authority.executionId) := by
  refine TripleE.learn (TripleE.refuse fun _ h _ => h) fun _ hid => ?_
  have hpresent : TripleE
      ((Fact.claimed m true .runtimeStopped fun _ _ => True).of authority.executionId)
      (runtime authority.executionId .present)
      (fun b => (Fact.claimed m true .runtimeStopped fun _ r => b = r.present).of
        authority.executionId)
      ((Fact.claimed m true .runtimeStopped fun _ _ => True).of authority.executionId) := by
    refine triple_stopped (fun _ _ _ _ _ => .inr rfl) (fun b r r' _ hd => ?_) fun _ _ _ h _ => h
    obtain ⟨rfl, hb⟩ := hd
    exact hb b rfl
  refine TripleE.bind hpresent fun present => ?_
  refine TripleE.provided (fun _ => ?_) fun hp w h => ⟨h.1, h.2.1, h.2.2.symm.trans (by simpa using hp)⟩
  refine (TripleE.bind triple_check fun _ => triple_destroy (not_not.1 hid)).pre fun w h => ?_
  exact ⟨h.1, h.2.1, trivial⟩

/-- The runtime is gone, the worktree too, and the receipt of the storage is recorded. -/
def releasing (m : Prop) : Rest m where
  holds c r := (∃ h, c = some (.gitRecoveredCleaned, h) ∧ h.receipt.isSome = true) ∧
    r.present = false ∧ r.credential = false
  calm hc h := by
    obtain ⟨⟨g, rfl, hg⟩, hr⟩ := h
    cases hc with
    | same => exact ⟨⟨g, rfl, hg⟩, hr⟩
    | moved hd _ => cases hd
  contained h hs := by
    obtain ⟨⟨g, rfl, hg⟩, hr⟩ := h
    exact ((Known.of_sound hs).claimed (d := .gitRecoveredCleaned) hg (fun _ => hr) nofun).contained
  recorded h _ _ := by
    obtain ⟨⟨g, rfl, hg⟩, _⟩ := h
    exact ⟨_, g, rfl, hg⟩

theorem triple_releaseStorage {receipt : AllocationReceipt} (hid : receipt.labels.executionId = e) :
    TripleE ((Fact.claimed m true .gitRecoveredCleaned fun _ _ => True).of e)
      (releaseStorage receipt)
      (fun _ => (Fact.claimed m true .gitRecoveredCleaned fun a _ => a.left = false).of e)
      ((Fact.safe m).of e) := by
  subst hid
  refine (triple_storage (releasing m) ExecutionStorage.triple_release).weaken (fun w h => ?_)
    (fun _ w h => ?_) fun w h =>
      ⟨h.1.1, (releasing m).contained h.1.2 h.2.1, (releasing m).recorded h.1.2⟩
  · obtain ⟨hn, hclaim, _⟩ := h
    obtain ⟨g, hc, hg⟩ := hclaim.at_phase rfl
    exact ⟨⟨hn, ⟨g, hc, hg⟩, hclaim.runtime_gone rfl⟩, hclaim.contained.sound, trivial⟩
  · obtain ⟨⟨hn, ⟨g, hc, hg⟩, hr⟩, hs, hleft⟩ := h
    refine ⟨hn, ?_, hleft⟩
    rw [hc]
    exact (Known.of_sound hs).claimed hg (fun _ => hr) nofun

theorem triple_cleanupAuthorityStep (hk : authority.handles.receipt.isSome = k) :
    TripleE ((Fact.claimed m k d fun _ _ => True).of authority.executionId)
      (cleanupAuthorityStep authority execution d)
      (fun next => ((Fact.claimed m k d (Due next)).of authority.executionId).and
        (next.cleaning = true ∧ next.stepsLeft + 1 = d.stepsLeft))
      ((Fact.safe m).of authority.executionId) := by
  have hsafe : ∀ {d X w}, (Fact.claimed m k d X).of authority.executionId w →
      (Fact.safe m).of authority.executionId w := Fact.toSafe _
  cases d with
  | cleanupPending =>
    refine .learn (.refuse fun _ h _ => hsafe h) fun _ _ => ?_
    refine .seq (triple_quiet (only_stopAbandoned fun _ => trivial)) (fun _ h => hsafe h) fun _ => ?_
    exact .pure fun w h => ⟨⟨h.1, h.2.1, nofun, nofun⟩, rfl, rfl⟩
  | runtimeStopped =>
    have hgone : TripleE ((Fact.claimed m k .runtimeStopped fun _ _ => True).of authority.executionId)
        (whenSome authority.handles.receipt (destroySelected authority))
        (fun _ => (Fact.claimed m k .runtimeStopped fun _ r => r.present = false).of
          authority.executionId) ((Fact.safe m).of authority.executionId) := by
      refine .whenSome (fun receipt hr => ?_) fun hr w h => ?_
      · rw [hr] at hk
        subst hk
        exact triple_destroySelected.err fun _ h => hsafe h
      · rw [hr] at hk
        refine ⟨h.1, h.2.1, Bool.eq_false_iff.2 fun hp => ?_⟩
        exact absurd (hk.trans (h.2.1.known.runtime hp)) nofun
    refine .bind hgone fun _ => ?_
    refine .seq (triple_revokeCredentials (fun _ h => h)) (fun _ h => hsafe h) fun _ => ?_
    exact .pure fun w h => ⟨⟨h.1, h.2.1, fun _ => h.2.2, nofun⟩, rfl, rfl⟩
  | runtimeDestroyed =>
    refine .seq (triple_quiet (.whenSome fun _ _ => .seq .refuse fun _ => .attempt trivial))
      (fun _ h => hsafe h) fun _ => ?_
    refine .seq (triple_quiet (.attempt trivial)) (fun _ h => hsafe h) fun _ => ?_
    refine .pure fun w h => ⟨⟨h.1, h.2.1, fun _ => ?_, nofun⟩, rfl, rfl⟩
    exact h.2.1.runtime_gone rfl
  | gitRecoveredCleaned =>
    have hgone : TripleE
        ((Fact.claimed m k .gitRecoveredCleaned fun _ _ => True).of authority.executionId)
        (whenSome authority.handles.receipt (releaseOwnedStorage authority))
        (fun _ => (Fact.claimed m k .gitRecoveredCleaned fun a _ => a.left = false).of
          authority.executionId) ((Fact.safe m).of authority.executionId) := by
      refine .whenSome (fun receipt hr => ?_) fun hr w h => ?_
      · rw [hr] at hk
        subst hk
        refine .learn (.refuse fun _ h _ => hsafe h) fun _ hid => ?_
        exact triple_releaseStorage (not_not.1 hid)
      · rw [hr] at hk
        refine ⟨h.1, h.2.1, Bool.eq_false_iff.2 fun hl => ?_⟩
        exact absurd (hk.trans (h.2.1.known.storage hl)) nofun
    refine .bind hgone fun _ => ?_
    refine .pure fun w h => ⟨⟨h.1, h.2.1, fun _ => ?_, fun _ => h.2.2⟩, rfl, rfl⟩
    exact h.2.1.runtime_gone rfl
  | _ => exact .throw fun _ h => hsafe h

end Steps

end Lifecycle

/-! ## Acknowledgments -/

theorem WorkerCall.acking_of_acks {β : Type} {id : ExecutionId} (c : WorkerCall β)
    (h : c.acks id) : c.acking e := by
  cases c with
  | store | agent => trivial
  | runtime => exact h.elim
  | storage => exact .inr h.2

/-! ## Recovery of an authority -/

/-- The calls of a recovery of `e`. -/
def WorkerCall.recovers {β : Type} (e : ExecutionId) : WorkerCall β → Prop
  | .store c _ => match c with
    | .cancellationRequested id | .completeCancellation id _ | .transitionCleanup id _ _ _
    | .fenceForCleanup id _ | .finalizeCleanup id _ | .resolve id => id = e
    | _ => False
  | .storage id _ | .runtime id _ => id = e
  | .agent _ => True

section Calls
variable {β : Type} {id : ExecutionId} (c : WorkerCall β)

theorem WorkerCall.recovers_of_tends (h : c.tends e) : c.recovers e := by
  cases c with
  | store => exact h.elim
  | _ => exact h

theorem WorkerCall.recovers_of_acks (h : c.acks e) : c.recovers e :=
  c.recovers_of_tends (c.tends_of_acks h)

theorem WorkerCall.calm_of_recovers (hne : id ≠ e) (h : c.recovers id) : c.calm e := by
  cases c with
  | store c r => cases c <;> simp_all [recovers, calm, StoreCall.works]
  | storage | runtime => exact h.symm ▸ hne
  | agent => trivial

end Calls

namespace Worker

open Lifecycle

section Recover
variable {authority : CleanupAuthority} {execution : Execution} {d : CleanupDisposition}

theorem triple_advance (hk : authority.handles.receipt.isSome = k) (hd : d.stepsLeft ≠ 0) :
    TripleE ((Fact.claimed m k d fun _ _ => True).of authority.executionId)
      (advance authority execution d)
      (fun next => ((Fact.claimed m k next fun _ _ => True).of authority.executionId).and
        (next.cleaning = true ∧ next.stepsLeft + 1 = d.stepsLeft))
      ((Fact.safe m).of authority.executionId) := by
  -- nothing is acknowledged before the worktree is gone
  have hack : provided (d ≠ .gitRecoveredCleaned) (ackCleanupAuthorityStep authority d) =
      Pure.pure () := by
    cases d <;> first | rfl | exact absurd rfl hd
  unfold advance
  rw [hack]
  refine .bind (Q := fun _ => (Fact.claimed m k d fun _ _ => True).of authority.executionId)
    (.pure fun _ h => h) fun _ => ?_
  refine .learn (triple_cleanupAuthorityStep hk) fun next hnext => ?_
  subst hk
  refine .bind (triple_next fun c a r h => ⟨h.1.known, h.2, trivial⟩) fun _ => ?_
  exact .pure fun w h => ⟨h, hnext⟩

theorem triple_advanceAll (hk : authority.handles.receipt.isSome = k) {n : Nat}
    (hn : d.stepsLeft = n) (hd : d.cleaning = true ∨ d = .cleanupPending) :
    TripleE ((Fact.claimed m k d fun _ _ => True).of authority.executionId)
      (advanceAll authority execution n d) (fun _ => (Fact.cleared m).of authority.executionId)
      ((Fact.safe m).of authority.executionId) := by
  induction n generalizing d with
  | zero =>
    have hgone : d.storageGone = true := hd.elim
      (fun hd => CleanupDisposition.storageGone_of_stepsLeft hd hn) fun hd => by cases hd; cases hn
    exact .pure fun w h => ⟨h.1, h.2.1.cleared hgone⟩
  | succ n ih =>
    have hpos : d.stepsLeft ≠ 0 := by rw [hn]; exact Nat.succ_ne_zero n
    refine .learn (triple_advance hk hpos) fun next hnext => ?_
    exact ih (by omega) (.inl hnext.1)

theorem triple_fencedDisposition (hk : authority.handles.receipt.isSome = k) :
    TripleE ((Fact.claimed m k authority.phase fun _ _ => True).of authority.executionId)
      (fencedDisposition authority)
      (fun d => ((Fact.claimed m k d fun _ _ => True).of authority.executionId).and
        (d.cleaning = true ∨ d = .cleanupPending))
      ((Fact.safe m).of authority.executionId) := by
  unfold fencedDisposition
  split
  · next hd => exact .pure fun w h => ⟨h, hd⟩
  · have hfence : TripleE ((Fact.claimed m k authority.phase fun _ _ => True).of authority.executionId)
        (store (.fenceForCleanup authority.executionId authority.handles))
        (fun _ => (Fact.claimed m k .cleanupPending fun _ _ => True).of authority.executionId)
        ((Fact.safe m).of authority.executionId) :=
      triple_move does_fenceForCleanup
        (fun _ _ a r _ h => ⟨h.1.known.claimed hk nofun nofun, trivial⟩)
        (fun c a r h => ⟨h.1.contained, fun _ => h.1.recorded⟩)
        fun c a r h => ⟨h.1.contained, fun _ => h.1.recorded⟩
    exact .bind hfence fun _ => .pure fun w h => ⟨h, .inr rfl⟩

theorem only_finalizeReleased {P : {β : Type} → WorkerCall β → Prop}
    (hP : P (.store (.finalizeCleanup authority.executionId authority.attemptId) false)) :
    (finalizeReleased authority d).run.Only P := by
  unfold finalizeReleased
  split
  · exact .seq (.attemptAs hP) fun _ => .pure _
  · exact .pure _

theorem only_resolveReleased : (resolveReleased authority).run.Only (WorkerCall.acking e) :=
  .seq (only_ackCleanupAuthorityStep WorkerCall.acking_of_acks) fun _ => .attemptAs trivial

theorem triple_tearDown (hk : authority.handles.receipt.isSome = k) :
    TripleE ((Fact.claimed m k authority.phase fun _ _ => True).of authority.executionId)
      (tearDown authority execution) (fun _ => (Fact.cleared m).of authority.executionId)
      ((Fact.safe m).of authority.executionId) := by
  have hcleared : ∀ w, (Fact.cleared m).of authority.executionId w →
      (Fact.safe m).of authority.executionId w := fun w h => Fact.toSafe _ h
  refine .learn (triple_fencedDisposition hk) fun d hd => ?_
  refine .bind (triple_advanceAll hk rfl hd) fun d => ?_
  refine .seq (triple_cleared (only_finalizeReleased trivial)) hcleared fun d => ?_
  exact (triple_cleared (.provided fun _ => only_resolveReleased)).err hcleared

theorem triple_recoverCleanupAuthority (hk : authority.handles.receipt.isSome = k) :
    TripleE ((Fact.claimed m k authority.phase fun _ _ => True).of authority.executionId)
      (recoverCleanupAuthority authority execution)
      (fun _ => (Fact.safe m).of authority.executionId)
      ((Fact.safe m).of authority.executionId) := by
  have hsafe : ∀ w, (Fact.claimed m k authority.phase fun _ _ => True).of authority.executionId w →
      (Fact.safe m).of authority.executionId w := fun w h => Fact.toSafe _ h
  refine .seq (triple_quiet (.attemptAs rfl)) hsafe fun pending => ?_
  split
  · exact .pure hsafe
  · refine .bind (Q := fun _ => (Fact.safe m).of authority.executionId)
      (.provided (fun _ => ?_) fun _ => hsafe) fun _ => ?_
    · exact (triple_tearDown hk).post fun _ _ h => Fact.toSafe _ h
    · exact triple_quiet (.provided fun _ =>
        .seq (.attemptAs rfl) fun _ => .pure _)

end Recover

/-! ## Other executions -/

section Elsewhere
variable {authority : CleanupAuthority} {execution : Execution} {d : CleanupDisposition}

theorem only_advanceAll (n : Nat) :
    (advanceAll authority execution n d).run.Only (WorkerCall.recovers authority.executionId) := by
  induction n generalizing d with
  | zero => exact .pure _
  | succ n ih =>
    refine .seq ?_ fun _ => ih
    refine .seq (.provided fun _ => only_ackCleanupAuthorityStep WorkerCall.recovers_of_acks)
      fun _ => ?_
    refine .seq (within_cleanupAuthorityStep.only.mono WorkerCall.recovers_of_tends) fun _ => ?_
    exact .seq (.attemptAs rfl) fun _ => .pure _

theorem only_recoverCleanupAuthority : (recoverCleanupAuthority authority execution).run.Only
    (WorkerCall.recovers authority.executionId) := by
  refine .seq (.attemptAs rfl) fun pending => ?_
  split
  · exact .pure _
  refine .seq (.provided fun _ => ?_) fun _ => .provided fun _ =>
    .seq (.attemptAs rfl) fun _ => .pure _
  refine .seq ?_ fun _ => .seq (only_advanceAll _) fun _ => .seq ?_ fun _ => .provided fun _ => ?_
  · unfold fencedDisposition
    split
    · exact .pure _
    · exact .seq (.attemptAs rfl) fun _ => .pure _
  · exact only_finalizeReleased rfl
  · exact .seq (only_ackCleanupAuthorityStep WorkerCall.recovers_of_acks) fun _ => .attemptAs rfl

end Elsewhere

/-! ## Startup -/

section Startup
variable {w : WorkerId} {reservations : List Reservation} {authority : CleanupAuthority}

theorem claimed_of_find {world : World} (hw : (Fact.safe True).of e world)
    (hc : world.store.authorities.find? e = some authority) :
    Claimed authority.handles.receipt.isSome authority.phase (world.store.custody e)
      (world.storage e) (world.runtime e) :=
  ⟨hw.2.1, hw.2.2 trivial, authority.phase, authority.handles, custody_of_find hc, rfl, .inl rfl⟩

theorem triple_getAuthority : TripleE ((Fact.safe True).of e) (store (.getAuthority e))
    (fun c => ((Fact.claimed True c.handles.receipt.isSome c.phase fun _ _ => True).of e).and
      (c.executionId = e)) ((Fact.safe True).of e) := by
  refine triple_read (f := fun s => s.getAuthority e) (fun _ _ => rfl) (fun _ => rfl)
    fun world c hw hget => ?_
  have hc : world.store.authorities.find? e = some c := Txn.require_eq_ok.1 hget
  exact ⟨⟨hw.1, claimed_of_find hw hc, trivial⟩, Store.authority_id hc⟩

theorem triple_getExecution {F : Fact m} {id : ExecutionId} :
    (F.of e).Learns (store (.getExecution id))
      fun x => x.id = id ∧ (id = e → x.labels.executionId = e) := by
  refine triple_read (f := fun s => s.getExecution id) (fun _ _ => rfl) (fun _ => rfl)
    fun world x hw hget => ⟨hw, ?_⟩
  obtain ⟨row, hfind, rfl⟩ := Store.getExecution_eq_ok.1 hget
  refine ⟨Store.execution_id hfind, fun hid => ?_⟩
  obtain ⟨old, hold, hlabel⟩ := hw.1
  rw [← hid, hfind] at hold
  cases hold
  exact hlabel

def listed (e : ExecutionId) (xs : List CleanupAuthority) : Fact True where
  holds c a r := (Contained c a r ∧ Recorded c a) ∧ ∀ x ∈ xs, x.executionId = e →
    Claimed x.handles.receipt.isSome x.phase c a r
  calm hc h := ⟨⟨h.1.1.calm hc, h.1.2.calm hc⟩, fun x hx he => (h.2 x hx he).calm hc⟩
  contained h := h.1.1
  recorded h _ := h.1.2

theorem triple_listAuthorities : TripleE ((Fact.safe True).of e) (store (.listAuthorities w))
    (fun xs => ((listed e xs).of e).and (xs.map (·.executionId)).Nodup) ((Fact.safe True).of e) := by
  refine triple_read (f := fun s => .ok (s.listAuthorities w)) (fun _ _ => rfl) (fun _ => rfl)
    fun world xs hw hget => ?_
  obtain rfl : world.store.listAuthorities w = xs := Except.ok.inj hget
  have hperm := List.perm_insertionSort Store.authorityBefore
    (world.store.authorities.rows.filter fun c => c.workerId = w && c.phase ≠ .resolved)
  refine ⟨⟨hw.1, ⟨hw.2.1, hw.2.2 trivial⟩, fun x hx he => ?_⟩, ?_⟩
  · have hrow : x ∈ world.store.authorities.rows := List.mem_of_mem_filter (hperm.mem_iff.1 hx)
    exact claimed_of_find hw (Relational.Table.find?_eq_some.2 ⟨hrow, he⟩)
  · exact (hperm.map _).nodup_iff.2 ((List.filter_sublist.map _).nodup world.store.authorities.nodup)

/-- Nothing was removed yet, in case `b`. -/
def planned (b : Prop) : Fact True where
  holds c a r := (Contained c a r ∧ Recorded c a) ∧ (b → Early c)
  calm hc h := ⟨⟨h.1.1.calm hc, h.1.2.calm hc⟩, fun hb => (h.2 hb).calm hc⟩
  contained h := h.1.1
  recorded h _ := h.1.2

theorem adoptable_early {execution : Execution} (h : adoptable w authority execution = true) :
    authority.phase.cleaning = false := by
  simp only [adoptable, Bool.and_eq_true, Bool.or_eq_true, decide_eq_true_eq] at h
  rcases h.2 with (hp | hp) | hp <;> rw [hp] <;> rfl

/-- What a startup leaves behind for the task of `e`, when there is one. -/
def adopting (e : ExecutionId) (o : Option Execution) : Assertion (containment e True) :=
  ((planned (o.isSome = true)).of e).and (∀ x, o = some x → x.id = e ∧ x.labels.executionId = e)

theorem triple_reconcileAuthority (he : authority.executionId = e) :
    TripleE ((Fact.claimed True authority.handles.receipt.isSome authority.phase
        fun _ _ => True).of e) (reconcileAuthority w reservations authority) (adopting e)
      ((Fact.safe True).of e) := by
  subst he
  have hnone : ∀ world, (Fact.safe True).of authority.executionId world →
      adopting authority.executionId none world :=
    fun world h => ⟨⟨h.1, ⟨h.2.1, h.2.2 trivial⟩, fun hb => absurd hb Bool.false_ne_true⟩,
      fun _ hx => nomatch hx⟩
  refine .bind (.observe triple_getExecution) fun found => ?_
  cases found with
  | error err => exact .pure fun world h => hnone world (Fact.toSafe _ h)
  | ok execution =>
    refine .of_and fun hid => ?_
    refine .bind (.observe (triple_quiet (.attemptAs rfl))) fun pending => ?_
    have hrecover : TripleE ((Fact.claimed True authority.handles.receipt.isSome authority.phase
        fun _ _ => True).of authority.executionId)
        (observe (recoverCleanupAuthority authority execution) : Effect (Except WorkerError Unit))
        (fun _ => (Fact.safe True).of authority.executionId)
        ((Fact.safe True).of authority.executionId) :=
      (triple_recoverCleanupAuthority rfl).observe.post fun r _ h =>
        match r with | .ok _ => h | .error _ => h
    match pending with
    | .error _ => exact .pure fun world h => hnone world (Fact.toSafe _ h)
    | .ok true => exact .bind hrecover fun _ => .pure hnone
    | .ok false =>
      show TripleE _ (reconcileLive w reservations authority execution) _ _
      unfold reconcileLive
      split
      · next hadopt =>
        refine .pure fun world h => ⟨⟨h.1, ⟨h.2.1.contained, h.2.1.recorded⟩, fun _ =>
          h.2.1.early (adoptable_early hadopt)⟩, ?_⟩
        rintro _ ⟨⟩
        exact ⟨hid.1, hid.2 rfl⟩
      split
      · exact .seq (triple_quiet (.attemptAs rfl)) (fun _ h => Fact.toSafe _ h)
          fun _ => .pure fun world h => hnone world (Fact.toSafe _ h)
      · refine .bind (.seq (triple_quiet (.provided fun _ =>
          .seq (.attemptAs rfl) fun _ => .pure _)) (fun _ h => Fact.toSafe _ h)
          fun _ => ?_) fun _ => .pure hnone
        exact .bind hrecover fun _ => .pure fun _ h => h

theorem triple_elsewhere {F : Fact True} (hne : authority.executionId ≠ e) :
    (F.of e).Learns (reconcileAuthority w reservations authority)
      fun o => ∀ x, o = some x → x.id ≠ e := by
  have hnone : ∀ world, F.of e world →
      ((F.of e).and (∀ x : Execution, none = some x → x.id ≠ e)) world :=
    fun world h => ⟨h, fun _ hx => nomatch hx⟩
  refine .bind (.observe triple_getExecution) fun found => ?_
  cases found with
  | error err => exact .pure hnone
  | ok execution =>
    refine .of_and fun hid => ?_
    have hrecover : (observe (recoverCleanupAuthority authority execution) :
        Effect (Except WorkerError Unit)).run.Only (WorkerCall.calm e) :=
      .observe (only_recoverCleanupAuthority.mono fun c hc => c.calm_of_recovers hne hc)
    refine .bind (triple_quiet (.observe (.attemptAs rfl))) fun pending => ?_
    match pending with
    | .error _ => exact .pure hnone
    | .ok true => exact .bind (triple_quiet hrecover) fun _ => .pure hnone
    | .ok false =>
      show TripleE _ (reconcileLive w reservations authority execution) _ _
      unfold reconcileLive
      split
      · refine .pure fun world h => ⟨h, ?_⟩
        rintro _ ⟨⟩
        exact hid.1 ▸ hne
      split
      · exact .bind (triple_quiet (.attemptAs rfl)) fun _ => .pure hnone
      · refine .bind (triple_quiet (.seq (.provided fun _ =>
          .seq (.attemptAs rfl) fun _ => .pure _) fun _ => ?_)) fun _ =>
            .pure hnone
        exact .seq hrecover fun _ => .pure _

/-- The execution `e`, if it is among those to be adopted. -/
def adoptee (e : ExecutionId) (xs : List Execution) : Option Execution := xs.find? fun x => x.id = e

theorem triple_collectElsewhere {F : Fact True} {xs : List CleanupAuthority}
    (hne : ∀ x ∈ xs, x.executionId ≠ e) :
    (F.of e).Learns (collect xs (reconcileAuthority w reservations))
      fun ys => adoptee e ys = none := by
  induction xs with
  | nil => exact .pure fun _ h => ⟨h, rfl⟩
  | cons x xs ih =>
    refine .learn (triple_elsewhere (hne x (.head _))) fun o ho => ?_
    refine .bind (ih fun y hy => hne y (.tail _ hy)) fun ys => .pure fun world h => ?_
    refine ⟨h.1, ?_⟩
    cases o with
    | none => exact h.2
    | some y => exact (List.find?_cons_of_neg (by simpa using ho y rfl)).trans h.2

theorem triple_collect {xs : List CleanupAuthority} (hnodup : (xs.map (·.executionId)).Nodup) :
    TripleE ((listed e xs).of e) (collect xs (reconcileAuthority w reservations))
      (fun ys => adopting e (adoptee e ys)) ((Fact.safe True).of e) := by
  induction xs with
  | nil =>
    exact .pure fun _ h => ⟨⟨h.1, h.2.1, fun hb => absurd hb Bool.false_ne_true⟩,
      fun _ hx => nomatch hx⟩
  | cons x xs ih =>
    obtain ⟨hnotin, hrest⟩ := List.nodup_cons.1 hnodup
    by_cases hx : x.executionId = e
    · -- the authority of `e`; those that follow are of other executions
      have hne : ∀ y ∈ xs, y.executionId ≠ e := fun y hy he =>
        hnotin (List.mem_map.2 ⟨y, hy, he.trans hx.symm⟩)
      refine .learn ((triple_reconcileAuthority hx).pre fun world h =>
        ⟨h.1, h.2.2 x (.head _) hx, trivial⟩) fun o ho => ?_
      refine .seq (triple_collectElsewhere hne) (fun _ h => Fact.toSafe _ h) fun ys =>
        .pure fun world h => ?_
      have hfound : adoptee e (o.toList ++ ys) = o := by
        cases o with
        | none => exact h.2
        | some y => exact List.find?_cons_of_pos (by simpa using (ho y rfl).1)
      rw [hfound]
      exact ⟨h.1, ho⟩
    · refine .seq (triple_elsewhere (F := listed e (x :: xs)) hx)
        (fun _ h => Fact.toSafe _ h) fun o => .of_and fun ho => ?_
      refine .bind ((ih hrest).pre fun world h =>
        ⟨h.1, h.2.1, fun y hy => h.2.2 y (.tail _ hy)⟩) fun ys => .pure fun world h => ?_
      have hfound : adoptee e (o.toList ++ ys) = adoptee e ys := by
        cases o with
        | none => rfl
        | some y => exact List.find?_cons_of_neg (by simpa using ho y rfl)
      rw [hfound]
      exact h

theorem triple_reconcileStartup :
    TripleE ((Fact.safe True).of e) (reconcileStartup w) (fun ys => adopting e (adoptee e ys))
      ((Fact.safe True).of e) := by
  refine .bind (triple_quiet (.attemptAs rfl)) fun reservations => ?_
  exact .bind triple_listAuthorities fun xs => .of_and triple_collect

end Startup

end Worker

end Orchestrator
