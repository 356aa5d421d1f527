import Orchestrator.Api.Cleanup
import Orchestrator.Api.Proof.Executions
import Orchestrator.Api.Workers
import Orchestrator.Lib.History
import Orchestrator.Lib.Triple
import Orchestrator.Persistence.Proof.Phases

/-!
# Cleanup phases only move forward

Any number of clients make any calls of the store; what they run (`advance`, `checkpoint`, the worker's
recovery) does not matter, since each call checks the phase it finds and not the one its caller read.
`RESERVATION_RELEASED` has two ways in: `finalize_cleanup`, and the state machine, which allows it after
`STORAGE_RELEASED`. A transition takes the second one without a word about the reservation.
-/

namespace Orchestrator

open Relational Prog Store

theorem StoreCall.step_of_sem {β : Type} {c : StoreCall β} {s s' : Store} {b : β} {now : Timestamp}
    (h : c.exec now s = (b, s')) : Step s ⟨β, c, now⟩ s' := by
  rw [Step, h]

/-- Any number of clients making any calls. The phase of an authority never goes back; once cleanup
is pending no call skips a phase; and `RESERVATION_RELEASED` is entered only by the finalization that
removes the attempt's reservation, or by a transition that asks for it. -/
theorem cleanup_phases_forward {ι : Type} {s t : Store} {h : List (Moment ι Store StoreCall)}
    (hh : Happens StoreCall.Sem s h t) (e : ExecutionId) :
    (∀ c, s.authorities.find? e = some c → ∃ c', t.authorities.find? e = some c' ∧
      c'.attemptId = c.attemptId ∧ c.phase.rank ≤ c'.phase.rank) ∧
    (∀ m ∈ h, ∀ c c', m.before.authorities.find? e = some c → m.after.authorities.find? e = some c' →
      CleanupDisposition.cleanupPending.rank ≤ c.phase.rank → c'.phase.rank ≤ c.phase.rank + 1) ∧
    ∀ m ∈ h, ∀ c', m.after.authorities.find? e = some c' → c'.phase = .reservationReleased →
      (∀ c, m.before.authorities.find? e = some c → c.phase ≠ .reservationReleased) →
      (m.call.Finalizes e c'.attemptId ∧ m.after.reservationOf e c'.attemptId = none) ∨
        m.call.AsksReleased e := by
  refine ⟨fun c hc => ?_, ?_, ?_⟩
  · -- along the history
    have hrun : Reaches Step anyCall s t := by
      refine (hh.all (I := Reaches Step anyCall s) (Q := fun _ => True) ?_ .refl).1
      rintro _ c u b v i hu ⟨now, hact⟩
      exact ⟨hu.snoc trivial (StoreCall.step_of_sem hact), trivial⟩
    obtain ⟨q, ⟨c', hc', ha, _, rfl⟩, hle⟩ := rank_run hrun hc
    exact ⟨c', hc', ha, hle⟩
  · refine (hh.all (I := fun _ => True) ?_ trivial).2
    rintro _ call u b v i _ ⟨now, hact⟩
    refine ⟨trivial, fun c c' hc hc' hle => ?_⟩
    rcases authority_step (StoreCall.step_of_sem hact) hc with
      ⟨d, hd, _, _, hq⟩ | ⟨q, ⟨d, hd, _, _, hq⟩, hshift⟩
    · rw [Option.mem_unique hc' hd, hq]
      omega
    · rw [Option.mem_unique hc' hd, hq]
      exact hshift.rank_le_succ hle
  · refine (hh.all (I := fun _ => True) ?_ trivial).2
    rintro _ call u b v i _ ⟨now, hact⟩
    refine ⟨trivial, fun c' hc' hph hbefore => ?_⟩
    have hst := StoreCall.step_of_sem hact
    cases hc : u.authorities.find? e with
    | none => rcases phase_of_new hst hc hc' with hnew | hnew <;> cases hnew.symm.trans hph
    | some c =>
      have hother := hbefore c hc
      rcases authority_step hst hc with ⟨d, hd, _, _, hq⟩ | ⟨q, ⟨d, hd, ha, hw, hq⟩, hshift⟩
      · obtain rfl := Option.mem_unique hc' hd
        exact absurd (hq.symm.trans hph) hother
      · obtain rfl := Option.mem_unique hc' hd
        obtain rfl : q = .reservationReleased := hq.symm.trans hph
        rcases hshift.released with ⟨a, hfin⟩ | hasks
        · obtain ⟨rfl, hfree⟩ := unreserved_of_finalizes hst hfin hc hother ⟨c', hd, ha, hw, hq⟩
          exact .inl (ha ▸ ⟨hfin, hfree⟩)
        · exact .inr hasks

namespace Sample

def skipping : Label :=
  ⟨_, .transitionCleanup ⟨"e"⟩ .storageReleased .reservationReleased {}, 9⟩

end Sample

open Sample in
theorem cleanup_phases_forward_sample :
    ((after initial emptied).authorities.find? ⟨"e"⟩).map (·.phase) = some .storageReleased ∧
      (after initial (emptied ++ [finalizing])).reservationOf ⟨"e"⟩ ⟨"a"⟩ = none := by
  refine ⟨by decide, ?_⟩
  let s := after initial emptied
  let answered := finalizing.call.exec finalizing.now s
  have hh : Happens (ι := Unit) StoreCall.Sem s
      [⟨⟨finalizing.call, answered.1⟩, (), s, answered.2⟩] answered.2 :=
    .snoc (h := []) .nil ⟨finalizing.now, rfl⟩
  have hall := (cleanup_phases_forward hh ⟨"e"⟩).2.2 _ (List.mem_singleton.2 rfl) _
    (Option.some_get (by decide)).symm (by decide) (by decide)
  exact (hall.resolve_right id).2

open Sample in
/-- A transition takes an authority to `RESERVATION_RELEASED` whose attempt holds its reservation. -/
theorem released_with_reservation : ¬∀ (s s' : Store) (l : Label) (e : ExecutionId)
    (c c' : CleanupAuthority), Reachable s → Step s l s' → s.authorities.find? e = some c →
    s'.authorities.find? e = some c' → c.phase ≠ .reservationReleased →
    c'.phase = .reservationReleased → s'.reservationOf e c'.attemptId = none := by
  intro hclaim
  have hfree := hclaim (after initial emptied) _ skipping ⟨"e"⟩ _ _ (reachable_after emptied) rfl
    (Option.some_get (by decide)).symm (Option.some_get (by decide)).symm (by decide) (by decide)
  exact absurd hfree (by decide)

/-! ## Asking for the cleanup of a retained execution

`request_cleanup` reads the authority and may lose the race for its transition. The phase it saw is a
lower bound from then on. -/

section Endpoint

open Txn CleanupDisposition

def serving : Setting ApiCall Store where
  sem := ApiCall.Does
  env s s' := ∃ l, Step s l s'
  safe _ := True

/-- The authority of `e` is with worker `w` and has come as far as `n`. -/
def reached (e : ExecutionId) (w : WorkerId) (n : Nat) : Assertion serving where
  holds s := ∃ c, s.authorities.find? e = some c ∧ c.workerId = w ∧ n ≤ c.phase.rank
  stable := by
    rintro s s' ⟨l, hst⟩ ⟨c, hc, rfl, hle⟩
    obtain ⟨_, ⟨c', hc', _, hw, rfl⟩, hq⟩ := rank_run (.snoc .refl trivial hst) hc
    exact ⟨c', hc', hw, hle.trans hq⟩
  within _ := trivial

def anything : Assertion serving := ⟨fun _ => True, fun _ _ => trivial, fun _ => trivial⟩

/-- The cleanup of `e` has been asked for, and stays so. -/
abbrev asked (e : ExecutionId) (w : WorkerId) : Assertion serving := reached e w cleanupPending.rank

variable {e : ExecutionId} {w : WorkerId} {n : Nat}

theorem asked_of_requested {d : CleanupDisposition} {s : Store} (hd : d.requested = true)
    (h : reached e w d.rank s) : asked e w s := by
  obtain ⟨c, hc, hw, hle⟩ := h
  refine ⟨c, hc, hw, le_trans ?_ hle⟩
  cases d <;> first | decide | cases hd

theorem triple_readAuthority {P : Assertion serving} {R : CleanupAuthority → Assertion serving}
    (h : ∀ s c, P s → s.authorities.find? e = some c → R c s) :
    TripleE P (storeCall (.getAuthority e)) R anything := by
  refine .attemptAs (fun s c s' hs hc => ?_) fun _ _ _ _ _ => trivial
  obtain ⟨now, ⟨hget, rfl⟩ | ⟨_, hfail, _⟩⟩ := hc
  · exact h _ c hs (require_eq_ok.1 hget.symm)
  · cases hfail

theorem triple_leaveRetained {handles : CleanupHandles} : TripleE (reached e w n)
    (leaveRetained e handles) (fun _ => asked e w) anything := by
  refine .bind (.observe (Q := fun _ => asked e w) (E := reached e w n)
    (.attempt (fun s u s' hs hc => ?_) fun s err s' hs hc => ?_)) fun moved => ?_
  · obtain ⟨now, ⟨hok, hs'⟩ | ⟨_, hfail, _⟩⟩ := hc
    · obtain ⟨_, c, hc, _, rfl⟩ := transitionCleanup_spec (run_ok.1 (Prod.ext hok.symm hs'.symm))
      obtain ⟨c', hc', hw, _⟩ := hs
      obtain rfl := Option.mem_unique hc hc'
      refine ⟨{ c with phase := .cleanupPending, handles, updatedAt := now }, ?_, hw, le_rfl⟩
      exact (Table.find?_put ..).trans (if_pos (authority_id hc))
    · cases hfail
  · rcases ApiCall.step_of_does (c := .store _) hc with rfl | hst
    · exact hs
    · exact (reached e w n).stable hst hs
  · cases moved with
    | ok u => exact .pure fun _ hs => hs
    | error err =>
      -- somebody else may have asked first
      refine .bind (triple_readAuthority (R := fun c => reached e w c.phase.rank)
        fun s c hs hc => ?_) fun c => .guard (fun s hs hreq => ?_) fun _ _ _ => trivial
      · obtain ⟨c', hc', hw, _⟩ := hs
        exact ⟨c, hc, Option.mem_unique hc hc' ▸ hw, le_rfl⟩
      · exact asked_of_requested (by simpa using hreq) hs

/-- The token was not issued to another worker. -/
def Caller.permits : Caller → WorkerId → Prop
  | .worker (some own), w => own = w
  | _, _ => True

/-- Whatever others do meanwhile and afterwards: if the endpoint does not report an error it answers
202, the cleanup of the execution has been asked for, and the caller may speak for its worker. -/
theorem accepted_cleanup_asked (caller : Caller) (e : ExecutionId) :
    TripleE anything (requestCleanup caller e) (fun status => Assertion.some fun w =>
      (asked e w).and (status = .accepted ∧ caller.permits w)) anything := by
  refine .bind (triple_readAuthority (R := fun c => reached e c.workerId c.phase.rank)
    fun _ c _ hc => ⟨c, hc, rfl, le_rfl⟩) fun c => ?_
  refine .learn (Q := fun _ => reached e c.workerId c.phase.rank)
    (φ := fun _ => caller.permits c.workerId) ?_ fun _ hcaller => ?_
  · rcases caller with _ | _ | own
    · exact .pure fun _ hs => ⟨hs, trivial⟩
    · exact .pure fun _ hs => ⟨hs, trivial⟩
    · exact .guard (fun _ hs hne => ⟨hs, not_not.1 hne⟩) fun _ _ _ => trivial
  generalize c.phase = d
  cases d with
  | active _ | retainRequested => exact .throw fun _ _ => trivial
  | retained =>
    exact .bind triple_leaveRetained fun _ => .pure fun _ hs => ⟨_, hs, rfl, hcaller⟩
  | _ => exact .pure fun _ hs => ⟨_, asked_of_requested rfl hs, rfl, hcaller⟩

end Endpoint
end Orchestrator
