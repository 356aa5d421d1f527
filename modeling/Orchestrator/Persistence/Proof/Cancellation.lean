import Orchestrator.Persistence.Proof.Fencing

/-!
# Cancellation takes precedence

From the commit of `request_cancellation` that leaves a request pending until `complete_cancellation`
commits, the execution is frozen: no call changes its state, completes one of its controls or grants
it. The freeze is the invariant `Life.Orderly` of every execution's life together with the guards its
steps carry; controls are looked at here, since a life does not mention them. An execution that was
cancelled by either path has no reservation, then and ever after.
-/

namespace Orchestrator

open Relational

namespace Store

variable {s s' : Store} {now : Timestamp} {e : ExecutionId}

def stateOf (s : Store) (e : ExecutionId) : Option ExecutionState :=
  (s.executions.find? e).map fun row => row.state

def CompletesCancellation (s : Store) (e : ExecutionId) (now : Timestamp) {β : Type} :
    StoreCall β → Prop
  | .completeCancellation id a => id = e ∧ ∃ r, completeCancellation now id a s = .ok r
  | _ => False

/-- Any call but one that completes the cancellation of `e`. -/
def unsettled (e : ExecutionId) : Store → Label → Prop :=
  fun s l => ¬ s.CompletesCancellation e l.now l.call

/-- `e` keeps its state, no control of it gets completed, and it is granted to nobody. -/
structure Frozen (e : ExecutionId) (s s' : Store) : Prop where
  state : s'.stateOf e = s.stateOf e
  controls : ∀ requestId c, s'.controls.find? requestId = some c → c.executionId = e →
    c.phase = .completed → ∃ c₀, s.controls.find? requestId = some c₀ ∧ c₀.phase = .completed
  grants : ∀ r, s'.reservations.find? e = some r →
    ∃ r₀, s.reservations.find? e = some r₀ ∧ r₀.attemptId = r.attemptId ∧ r₀.workerId = r.workerId

/-! ## Controls -/

section Controls
variable {requestId : Nat} {c : ControlRow}

def WasCompleted (s : Store) (requestId : Nat) : Prop :=
  ∃ c₀, s.controls.find? requestId = some c₀ ∧ c₀.phase = .completed

theorem completed_committed {β : Type} {call : StoreCall β} (h : Committed now s call s')
    (hc : s'.controls.find? requestId = some c) (hdone : c.phase = .completed) :
    s.WasCompleted requestId ∨ s.Completes c.executionId call := by
  rcases completed_cases h hc hdone with hold | ⟨d, hd, _⟩
  · exact .inl ⟨c, hold, hdone⟩
  · cases hd with
    | completed hg => exact .inr ⟨hg.ownedBy.symm, _, _, hg⟩
    | _ => cases hdone

end Controls

/-! ## The freeze -/

theorem not_completes_of_pending {β : Type} {call : StoreCall β}
    (hp : s.cancellationPending e = true) : ¬ s.Completes e call := by
  intro hcomp
  cases call
  case completeControl =>
    obtain ⟨rfl, _, _, hg⟩ := hcomp
    cases hp.symm.trans hg.notCancelling
  all_goals cases hcomp

theorem orderly_of_reachable (h : Reachable s) (e : ExecutionId) : (s.life e).Orderly :=
  life_of_reachable Life.orderly_unborn (fun _ _ _ hI hst => hI.step hst) h e

/-- Whatever calls are made, the reservation, attempt, worker and cancellation of an execution agree. -/
theorem lives_orderly (ls : List Label) (e : ExecutionId) : ((after initial ls).life e).Orderly :=
  orderly_of_reachable (reachable_after ls) e

theorem complete_of_performs {β : Type} {call : StoreCall β} (h : Committed now s call s')
    (hact : call.performs e .complete) : s.CompletesCancellation e now call := by
  cases h with
  | completeCancellation h => exact ⟨hact, _, h⟩
  | _ => cases hact

theorem frozen_step {l : Label} (hO : (s.life e).Orderly) (hp : s.cancellationPending e = true)
    (hok : unsettled e s l) (hst : Orchestrator.Step s l s') :
    Frozen e s s' ∧ s'.cancellationPending e = true := by
  rcases hst.cases with rfl | hc
  · exact ⟨⟨rfl, fun _ c hc _ hdone => ⟨c, hc, hdone⟩, fun r hr => ⟨r, hr, rfl, rfl⟩⟩, hp⟩
  have hlife : (s'.life e).pending = true ∧ (s'.life e).state = (s.life e).state ∧
      ∀ x, (s'.life e).held = some x → (s.life e).held = some x := by
    rcases life_committed hc e with hsame | ⟨act, hact, hstep⟩
    · rw [hsame]
      exact ⟨hp, rfl, fun _ hx => hx⟩
    · refine hO.frozen hstep hp ?_
      rintro rfl
      exact hok (complete_of_performs hc hact)
  obtain ⟨hpending, hstate, hheld⟩ := hlife
  refine ⟨⟨hstate, fun requestId c hcontrol he hdone => ?_, fun r hr => ?_⟩, hpending⟩
  · rcases completed_committed hc hcontrol hdone with hold | hcomp
    · exact hold
    · -- a control completes only while no cancellation is pending
      exact (not_completes_of_pending hp (he ▸ hcomp)).elim
  · obtain ⟨r₀, hr₀, hx⟩ := Option.map_eq_some_iff.1 (hheld _ (life_held hr))
    obtain ⟨ha, hw⟩ := Holding.mk.inj hx
    exact ⟨r₀, hr₀, ha, hw⟩

/-! ## No reservation -/

theorem unheld_of_requested {r : Execution} (hL : (s.life e).Linked)
    (h : requestCancellation now e s = .ok (r, s')) (hbefore : s.stateOf e ≠ some .cancelled)
    (hafter : s'.stateOf e = some .cancelled) : s'.reservations.find? e = none := by
  obtain ⟨row, hrow, ⟨_, rfl⟩ | ⟨_, ⟨_, _, hnone, hs⟩ | ⟨_, hs⟩⟩⟩ := requestCancellation_spec h
  · exact absurd hafter hbefore
  · rw [show s'.reservations = s.reservations by rw [hs]; rfl]
    cases hr : s.reservations.find? e with
    | none => rfl
    | some x =>
      have hcur := hL.current _ (life_held hr)
      rw [life_current hrow, hnone] at hcur
      cases hcur
  · have hsame : s'.stateOf e = s.stateOf e := by
      rw [hs]
      rfl
    exact absurd (hsame ▸ hafter) hbefore

theorem cancelled_run {ok : Store → Label → Prop} (hstate : s.stateOf e = some .cancelled)
    (hheld : s.reservations.find? e = none) (hrun : Reaches Orchestrator.Step ok s s') :
    s'.stateOf e = some .cancelled ∧ s'.reservations.find? e = none := by
  refine Reaches.invariant
    (I := fun t => t.stateOf e = some .cancelled ∧ t.reservations.find? e = none)
    (fun s₁ l s₂ hI _ hst => ?_) hrun ⟨hstate, hheld⟩
  have hnone : ∀ t : Store, t.reservations.find? e = none ↔ (t.life e).held = none := by
    simp [life]
  rw [hnone] at hI ⊢
  rcases life_step hst e with hsame | ⟨act, _, hstep⟩
  · exact ⟨(congrArg Life.state hsame).trans hI.1, (congrArg Life.held hsame).trans hI.2⟩
  · obtain ⟨hcancelled, hkept⟩ := hstep.cancelled_stays hI.1
    refine ⟨hcancelled, Option.eq_none_iff_forall_ne_some.2 fun x hx => ?_⟩
    cases hI.2.symm.trans (hkept x hx)

end Store

open Store

/-- Cancellation takes precedence: once a request is pending, every call but the one that completes
it leaves the execution frozen and the request pending; and an execution that either path cancelled
stays cancelled and has no reservation. -/
theorem cancellation_precedence {s : Store} (hs : Reachable s) (e : ExecutionId) :
    (∀ now r s₁, requestCancellation now e s = .ok (r, s₁) → s₁.cancellationPending e = true →
      ∀ s₂ l s₃, Reaches Step (unsettled e) s₁ s₂ → unsettled e s₂ l → Step s₂ l s₃ →
        Frozen e s₂ s₃ ∧ s₃.cancellationPending e = true) ∧
    ∀ now s₁, ((∃ r, requestCancellation now e s = .ok (r, s₁)) ∨
        ∃ a r, completeCancellation now e a s = .ok (r, s₁)) →
      s.stateOf e ≠ some .cancelled → s₁.stateOf e = some .cancelled →
      ∀ s₂, Reaches Step anyCall s₁ s₂ →
        s₂.stateOf e = some .cancelled ∧ s₂.reservations.find? e = none := by
  constructor
  · intro now r s₁ hreq hp s₂ l s₃ hrun hok hst
    have hreach : Reachable s₁ :=
      hs.snoc (l := ⟨_, .requestCancellation e, now⟩) trivial (congrArg Prod.snd (Txn.run_ok.2 hreq))
    have hinv : (s₂.life e).Orderly ∧ s₂.cancellationPending e = true := by
      refine Reaches.invariant
        (I := fun t => (t.life e).Orderly ∧ t.cancellationPending e = true) ?_ hrun
        ⟨orderly_of_reachable hreach e, hp⟩
      rintro t l t' ⟨hO, hpending⟩ hok hst
      refine ⟨?_, (frozen_step hO hpending hok hst).2⟩
      rcases life_step hst e with hsame | ⟨act, _, hstep⟩
      · exact hsame ▸ hO
      · exact hO.step hstep
    exact frozen_step hinv.1 hinv.2 hok hst
  · intro now s₁ hpath hbefore hafter s₂ hrun
    refine cancelled_run hafter ?_ hrun
    rcases hpath with ⟨r, h⟩ | ⟨a, r, h⟩
    · exact unheld_of_requested (linked_of_reachable hs e) h hbefore hafter
    · obtain ⟨row, t, c, hg, hs'⟩ := completeCancellation_spec h
      rw [show s₁.reservations = s.reservations by rw [hs']; rfl]
      exact hg.unreserved

open Sample in
theorem cancellation_precedence_sample :
    let asked := after initial (assigned ++ [⟨_, .requestCancellation ⟨"e"⟩, 3⟩])
    let cancelled := after initial (setup ++ [⟨_, .requestCancellation ⟨"e"⟩, 3⟩])
    (asked.cancellationPending ⟨"e"⟩ = true ∧
      Frozen ⟨"e"⟩ asked ((StoreCall.fenceLostAttempt ⟨"e"⟩ ⟨"a"⟩).exec 4 asked).2) ∧
    cancelled.stateOf ⟨"e"⟩ = some .cancelled ∧ cancelled.reservations.find? ⟨"e"⟩ = none := by
  have hcommit : ∀ ls r, ((requestCancellation 3 ⟨"e"⟩ (after initial ls)).map Prod.fst = .ok r) →
      requestCancellation 3 ⟨"e"⟩ (after initial ls) =
        .ok (r, after initial (ls ++ [⟨_, .requestCancellation ⟨"e"⟩, 3⟩])) := by
    intro ls r hr
    obtain ⟨s', hs'⟩ := Txn.exists_of_reply hr
    have hstep := step_after initial ls ⟨_, .requestCancellation ⟨"e"⟩, 3⟩
    rw [hs', ← hstep]
    exact congrArg (fun x => Except.ok (r, x)) (congrArg Prod.snd (Txn.run_ok.2 hs')).symm
  refine ⟨⟨by decide, ?_⟩, ?_⟩
  · exact ((cancellation_precedence (reachable_after assigned) ⟨"e"⟩).1 3 _ _
      (hcommit assigned { execution with
        state := .workerAssigned, workerId := some ⟨"w"⟩, attemptId := some ⟨"a"⟩
        labels := { execution.labels with workerId := ⟨"w"⟩ }, updatedAt := 2 } (by decide))
      (by decide) _ ⟨_, .fenceLostAttempt ⟨"e"⟩ ⟨"a"⟩, 4⟩ _ .refl id rfl).1
  · exact (cancellation_precedence (reachable_after setup) ⟨"e"⟩).2 3 _
      (.inl ⟨_, hcommit setup { execution with
        state := .cancelled, result := some (cancelledResult ⟨"e"⟩), updatedAt := 3 } (by decide)⟩)
      (by decide) (by decide) _ .refl

end Orchestrator
