import Orchestrator.Persistence.Proof.Fencing

/-!
# Execution states along a run

Which states an execution goes through. `state_step`: a call leaves the state, follows
`can_transition_to`, or is the requeue of `finalize_cleanup`; so a terminal state is never left.
`Life.Slate`, together with `Vacated` for the columns a life does not show, is the invariant that
makes a queued execution a clean slate, provided executions are created the way `create_execution`
builds them (`admissible`).
-/

namespace Orchestrator

open Relational Txn

/-- `finalize_cleanup` puts a live resumable execution back into the queue. -/
def StoreCall.Requeues {β : Type} (e : ExecutionId) (row row' : ExecutionRow) : StoreCall β → Prop
  | .finalizeCleanup id _ => id = e ∧ row.state.isTerminal = false ∧ row.state ≠ .reviewReady ∧
      row.manifest.persistence = .resumable ∧ row'.state = .queued
  | _ => False

theorem StoreCall.Requeues.live {β : Type} {call : StoreCall β} {e : ExecutionId}
    {row row' : ExecutionRow} (h : call.Requeues e row row') : row.state.isTerminal = false := by
  cases call
  case finalizeCleanup => exact h.2.1
  all_goals exact h.elim

/-- Executions enter the database as `create_execution` builds them. -/
def StoreCall.admissible {β : Type} : StoreCall β → Bool
  | .insert _ => false
  | .createIdempotent x .. => x.state = .queued && x.workerId = none && x.attemptId = none &&
      x.sessionId = none && x.worktreePath = none
  | _ => true

/-- Every call but those that create executions otherwise. -/
def admissible : Store → Label → Prop := fun _ l => l.call.admissible

instance (s : Store) (l : Label) : Decidable (admissible s l) :=
  inferInstanceAs (Decidable (l.call.admissible = true))

namespace Store

variable {s s' : Store} {now : Timestamp} {e : ExecutionId}

/-! ## Terminal states -/

theorem state_of_final (s : Store) (row : ExecutionRow) :
    s.finalState row = row.state ∨ row.state.canTransitionTo (s.finalState row) = true ∨
      (row.state.isTerminal = false ∧ row.state ≠ .reviewReady ∧
        row.manifest.persistence = .resumable ∧ s.finalState row = .queued) := by
  unfold finalState
  split
  · exact .inl (by symm; assumption)
  split
  · rename_i hq
    simp only [requeues, lost, Bool.and_eq_true, Bool.not_eq_true', decide_eq_true_eq] at hq
    exact .inr (.inr ⟨hq.1.1.1, hq.1.2, hq.2, rfl⟩)
  split
  · rename_i hl
    simp only [lost, Bool.and_eq_true, Bool.not_eq_true'] at hl
    refine .inr (.inl ?_)
    revert hl
    cases row.state <;> simp [ExecutionState.isTerminal, ExecutionState.canTransitionTo]
  · exact .inl rfl

variable {β : Type} {l : Label} {row : ExecutionRow} {call : StoreCall β}

theorem Rewrites.state {row row' : ExecutionRow}
    (h : Rewrites now s e call row') (hrow : s.executions.find? e = some row) :
    row'.state = row.state ∨ row.state.canTransitionTo row'.state = true ∨
      call.Requeues e row row' := by
  have hsame : ∀ {r}, s.executions.find? e = some r → row = r :=
    fun hr => Option.mem_unique hrow hr
  cases h with
  | inserted new => cases new.symm.trans hrow
  | created new => cases new.symm.trans hrow
  | cancelled found queued _ =>
    rw [hsame found, queued]
    exact .inr (.inl rfl)
  | settled hg =>
    rw [hsame hg.found]
    exact .inr (.inl hg.legal)
  | moved found _ legal | announced found _ legal =>
    rw [hsame found]
    exact .inr (.inl legal)
  | progressed hg id =>
    rw [hsame (id ▸ hg.found)]
    exact hg.legal.imp Eq.symm .inl
  | controlled hg id =>
    obtain ⟨_, hcomp⟩ := completable_spec.1 hg.checked
    rw [hsame (id ▸ hg.found)]
    exact hcomp.moves.imp Eq.symm fun h => .inl h.1
  | claimed hg id =>
    rw [hsame (id ▸ hg.found), hg.queued]
    exact .inr (.inl rfl)
  | detached hg _ =>
    obtain rfl := hsame hg.found
    rcases s.state_of_final row with hkept | hlegal | ⟨hlive, hreview, hres, hq⟩
    · exact .inl hkept
    · exact .inr (.inl hlegal)
    · exact .inr (.inr ⟨rfl, hlive, hreview, hres, hq⟩)

theorem state_step (h : Orchestrator.Step s l s') (hrow : s.executions.find? e = some row) :
    ∃ row', s'.executions.find? e = some row' ∧ (row'.state = row.state ∨
      row.state.canTransitionTo row'.state = true ∨ l.call.Requeues e row row') := by
  rcases h.cases with rfl | hc
  · exact ⟨row, hrow, .inl rfl⟩
  rcases row_committed hc e with hsame | ⟨row', hrow', hre⟩
  · exact ⟨row, hsame.trans hrow, .inl rfl⟩
  · exact ⟨row', hrow', hre.state hrow⟩

theorem terminal_step (h : Orchestrator.Step s l s')
    (hrow : s.executions.find? e = some row) (hterm : row.state.isTerminal = true) :
    ∃ row', s'.executions.find? e = some row' ∧ row'.state = row.state := by
  obtain ⟨row', hrow', hsame | hlegal | hreq⟩ := state_step h hrow
  · exact ⟨row', hrow', hsame⟩
  · rw [ExecutionState.canTransitionTo_of_isTerminal hterm] at hlegal
    cases hlegal
  · cases hterm.symm.trans hreq.live

theorem terminal_run (hrow : s.executions.find? e = some row)
    (hterm : row.state.isTerminal = true) (hrun : Reaches Orchestrator.Step anyCall s s') :
    ∃ row', s'.executions.find? e = some row' ∧ row'.state = row.state := by
  refine Reaches.invariant
    (I := fun t => ∃ row', t.executions.find? e = some row' ∧ row'.state = row.state) ?_ hrun
    ⟨row, hrow, rfl⟩
  rintro t l t' ⟨row', hrow', hstate⟩ _ hst
  obtain ⟨row'', hrow'', hsame⟩ := terminal_step hst hrow' (hstate ▸ hterm)
  exact ⟨row'', hrow'', hsame.trans hstate⟩

/-! ## The clean slate -/

/-- A queued execution has neither session nor worktree. -/
def Vacated (s : Store) (e : ExecutionId) : Prop :=
  ∀ row, s.executions.find? e = some row → row.state = .queued →
    row.sessionId = none ∧ row.worktreePath = none

theorem unassigned_of_slate (hL : (s.life e).Slate)
    (hrow : s.executions.find? e = some row) (hq : row.state = .queued) :
    row.workerId = none ∧ row.attemptId = none := by
  have hnone := hL.queued (by rw [life_state hrow, hq])
  rwa [life_worker hrow, life_current hrow] at hnone

theorem unassigned_of_admissible {act : Life.Act}
    (hok : call.admissible = true) (hact : call.performs e act) : Life.Unassigned act := by
  cases call
  case insert => cases hok
  case createIdempotent x event key scope =>
    simp only [StoreCall.admissible, Bool.and_eq_true, decide_eq_true_eq] at hok
    cases act
    case create =>
      obtain ⟨_, rfl, rfl, rfl⟩ := hact
      exact ⟨hok.1.1.1.2, hok.1.1.2⟩
    all_goals exact trivial
  all_goals
    cases act
    case create => exact hact.elim
    all_goals exact trivial

theorem slate_step (hL : (s.life e).Slate) (hok : admissible s l)
    (h : Orchestrator.Step s l s') : (s'.life e).Slate := by
  rcases life_step h e with hsame | ⟨act, hact, hstep⟩
  · exact hsame ▸ hL
  · exact hL.step (unassigned_of_admissible hok hact) hstep

theorem Progress.left_queue {x : Execution} {event : ExecutionEvent}
    {t : AttemptRow} (hg : Progress s x event row t) (hL : (s.life x.id).Slate) :
    x.state ≠ .queued := by
  intro hq
  have hopen := (hL.active _ _ (life_attempts_eq_some.2
    ⟨_, hg.attempt, hg.attemptExecution, rfl⟩) (by rw [hg.unfinished]; rfl)).2
  rw [life_state hg.found] at hopen
  have hx := hg.legal
  rw [hq, ExecutionState.canTransitionTo_queued] at hx
  exact hopen (congrArg some (hx.resolve_right nofun))

theorem Rewrites.vacated
    (h : Rewrites now s e call row) (hL : (s.life e).Slate) (hok : call.admissible = true)
    (hq : row.state = .queued) : row.sessionId = none ∧ row.worktreePath = none := by
  cases h with
  | inserted => cases hok
  | created =>
    simp only [StoreCall.admissible, Bool.and_eq_true, decide_eq_true_eq] at hok
    exact ⟨hok.1.2, hok.2⟩
  | cancelled | settled | claimed => cases hq
  | moved _ _ legal | announced _ _ legal =>
    obtain rfl : _ = ExecutionState.queued := hq
    rw [ExecutionState.canTransitionTo_queued] at legal
    cases legal
  | progressed hg id =>
    subst id
    exact absurd hq (hg.left_queue hL)
  | @controlled _ x _ r _ hg id =>
    subst id
    obtain ⟨_, hcomp⟩ := completable_spec.1 hg.checked
    have hx := hcomp.moves
    rw [show x.state = .queued from hq, ExecutionState.canTransitionTo_queued] at hx
    have hnone := (unassigned_of_slate hL hg.found (hx.resolve_right fun h => nomatch h.1)).2
    cases hnone.symm.trans hcomp.rowAttempt
  | detached => exact ⟨rfl, rfl⟩

theorem vacated_step (hL : (s.life e).Slate) (hv : s.Vacated e) (hok : admissible s l)
    (h : Orchestrator.Step s l s') : s'.Vacated e := by
  rcases h.cases with rfl | hc
  · exact hv
  intro row hrow hq
  rcases row_committed hc e with hsame | ⟨row', hrow', hre⟩
  · exact hv row (hsame ▸ hrow) hq
  · obtain rfl := Option.mem_unique hrow hrow'
    exact hre.vacated hL hok hq

theorem vacated_initial (e : ExecutionId) : initial.Vacated e := by
  intro row hrow
  simp [initial] at hrow

theorem slate_run (h : Reaches Orchestrator.Step admissible initial s) (e : ExecutionId) :
    (s.life e).Slate ∧ s.Vacated e :=
  Reaches.invariant (I := fun t => (t.life e).Slate ∧ t.Vacated e)
    (fun _ _ _ hI hok hst => ⟨slate_step hI.1 hok hst, vacated_step hI.1 hI.2 hok hst⟩) h
    ⟨Life.slate_unborn, vacated_initial e⟩

theorem active_of_grantable {a : AttemptId}
    (h : s.grantable row a = .error (.db "one_active_attempt_per_execution")) :
    ∃ t ∈ s.attempts.rows, t.executionId = row.id ∧ t.finishedAt = none := by
  simp only [grantable, bind_eq_error, ensure_eq_error, ensure_eq_ok, reduceCtorEq, and_false,
    false_or, StoreError.db.injEq, String.reduceEq, and_true, exists_const] at h
  obtain ⟨_, _, _, _, _, _, _, _, _, h⟩ := h
  simpa using h

theorem usageInRange_ne_active (u : ReservedResources) :
    usageInRange u ≠ .error (.db "one_active_attempt_per_execution") := by
  intro h
  simp only [usageInRange, bind_eq_error, ensure_eq_error] at h
  obtain ⟨_, h⟩ | ⟨_, _, ⟨_, h⟩ | ⟨_, _, ⟨_, h⟩ | ⟨_, _, _, h⟩⟩⟩ := h <;> simp at h

theorem reserveNext_ne_active {w : WorkerId} {a : AttemptId} {locked : List ExecutionId}
    (hL : ∀ e, (s.life e).Slate) :
    reserveNext now w a locked s ≠ .error (.db "one_active_attempt_per_execution") := by
  intro h
  simp only [reserveNext, bind_eq_error (x := require _ _), require_eq_error, reduceCtorEq,
    and_false, false_or] at h
  obtain ⟨worker, _, h⟩ := h
  rcases bind_eq_error.1 h with h | ⟨_, _, h⟩
  · exact usageInRange_ne_active _ h
  split at h
  · cases h
  split at h
  · cases h
  rename_i row hrow
  rcases bind_eq_error.1 h with h | ⟨_, _, h⟩
  · obtain ⟨t, ht, hte, hopen⟩ := active_of_grantable h
    obtain ⟨hfound, hq, _⟩ := mem_queue (List.mem_of_find?_eq_some hrow)
    have hlife : (s.life row.id).attempts t.attemptId = some ⟨t.workerId, t.finishedAt.isSome⟩ :=
      hte ▸ life_attempt (Table.find?_eq_some.2 ⟨ht, rfl⟩)
    have hfin := ((hL row.id).clean (by rw [life_state hfound, hq])).2 _ _ hlife
    rw [hopen] at hfin
    cases hfin
  · cases h

end Store

open Store

/-- Terminal states are absorbing, whatever the database a run starts from: an execution that is
`COMPLETED`, `FAILED` or `CANCELLED` keeps that state along every run, and every call leaves the
state of an execution, follows `can_transition_to`, or requeues a live resumable one that is not
under review. -/
theorem terminal_states_absorb {s t : Store} (hrun : Reaches Step anyCall s t) (e : ExecutionId) :
    (∀ row, s.executions.find? e = some row → row.state.isTerminal = true →
      ∃ row', t.executions.find? e = some row' ∧ row'.state = row.state) ∧
    ∀ l t' row, Step t l t' → t.executions.find? e = some row →
      ∃ row', t'.executions.find? e = some row' ∧ (row'.state = row.state ∨
        row.state.canTransitionTo row'.state = true ∨ l.call.Requeues e row row') :=
  ⟨fun _ hrow hterm => terminal_run hrow hterm hrun, fun _ _ _ hst hrow => state_step hst hrow⟩

open Sample in
theorem terminal_states_absorb_sample :
    let cancelled := after initial (setup ++ [⟨_, .requestCancellation ⟨"e"⟩, 3⟩])
    ∃ row, (after cancelled [⟨_, .reserveNext ⟨"w"⟩ ⟨"a"⟩ [], 4⟩]).executions.find? ⟨"e"⟩ = some row ∧
      row.state = .cancelled := by
  intro cancelled
  have hrow : ∃ row, cancelled.executions.find? ⟨"e"⟩ = some row ∧ row.state = .cancelled :=
    ⟨{ execution with
        version := 2, state := .cancelled, result := some (cancelledResult ⟨"e"⟩), updatedAt := 3 },
      by decide, rfl⟩
  obtain ⟨row, hrow, hstate⟩ := hrow
  obtain ⟨row', hrow', hsame⟩ := (terminal_states_absorb (s := cancelled)
    (reaches_after (fun _ _ => trivial) _ [⟨_, .reserveNext ⟨"w"⟩ ⟨"a"⟩ [], 4⟩]) ⟨"e"⟩).1 row hrow
    (by rw [hstate]; rfl)
  exact ⟨row', hrow', hsame.trans hstate⟩

/-- A queued execution is a clean slate, in every database the calls of the repository produce: an
execution has at most one reservation and one unfinished attempt, while it is queued it has neither
and is assigned to nobody, and so `reserve_next` never meets the unique index on unfinished
attempts. -/
theorem queued_clean_slate {s : Store} (h : Reaches Step admissible initial s) :
    (∀ t u, t ∈ s.attempts.rows → u ∈ s.attempts.rows → t.executionId = u.executionId →
      t.finishedAt = none → u.finishedAt = none → t = u) ∧
    (∀ r q, r ∈ s.reservations.rows → q ∈ s.reservations.rows →
      r.executionId = q.executionId → r = q) ∧
    (∀ e row, s.executions.find? e = some row → row.state = .queued →
      s.reservations.find? e = none ∧
      (∀ t ∈ s.attempts.rows, t.executionId = e → t.finishedAt ≠ none) ∧
      row.workerId = none ∧ row.attemptId = none ∧ row.sessionId = none ∧
      row.worktreePath = none) ∧
    ∀ now w a locked, reserveNext now w a locked s ≠
      .error (.db "one_active_attempt_per_execution") := by
  have hL : ∀ e, (s.life e).Slate := fun e => (slate_run h e).1
  have hopen : ∀ t ∈ s.attempts.rows, t.finishedAt = none →
      (s.life t.executionId).current = some t.attemptId ∧
        (s.life t.executionId).state ≠ some .queued := by
    intro t ht hfin
    refine (hL t.executionId).active _ _ (life_attempt (Table.find?_eq_some.2 ⟨ht, rfl⟩)) ?_
    rw [hfin]
    rfl
  refine ⟨fun t u ht hu he htf huf => ?_, fun r q hr hq he => ?_, fun e row hrow hq => ?_,
    fun _ _ _ _ => reserveNext_ne_active hL⟩
  · have hcur := (hopen t ht htf).1
    rw [he, (hopen u hu huf).1] at hcur
    have hfind := Table.find?_eq_some.2 ⟨hu, Option.some.inj hcur⟩
    exact Option.some.inj ((Table.find?_eq_some.2 ⟨ht, rfl⟩).symm.trans hfind)
  · exact Option.some.inj ((Table.find?_eq_some.2 ⟨hr, he⟩).symm.trans
      (Table.find?_eq_some.2 ⟨hq, rfl⟩))
  · obtain ⟨hheld, _⟩ := (hL e).clean (by rw [life_state hrow, hq])
    obtain ⟨hw, ha⟩ := unassigned_of_slate (hL e) hrow hq
    obtain ⟨hs, hp⟩ := (slate_run h e).2 row hrow hq
    refine ⟨by simpa [life] using hheld, fun t ht he hfin => ?_, hw, ha, hs, hp⟩
    refine (hopen t ht hfin).2 ?_
    rw [he, life_state hrow, hq]

open Sample in
theorem queued_clean_slate_sample : let s := after initial setup
    (∃ row, s.executions.find? ⟨"e"⟩ = some row ∧ row.state = .queued) ∧
      reserveNext 2 ⟨"w"⟩ ⟨"a"⟩ [] s ≠ .error (.db "one_active_attempt_per_execution") :=
  ⟨⟨{ execution with version := 1 }, by decide, rfl⟩,
    (queued_clean_slate (reaches_of_allMet (by decide))).2.2.2 2 ⟨"w"⟩ ⟨"a"⟩ []⟩

/-! ## Progress of the queue -/

/-- The columns of a reservation hold the requirement. -/
def RuntimeRequirement.Representable (need : RuntimeRequirement) : Prop :=
  (0 < need.cpu ∧ need.cpu < 2 ^ 31) ∧ (0 < need.memoryMib ∧ need.memoryMib < 2 ^ 63) ∧
    need.diskGib < 2 ^ 63

section Grant
variable {s : Store} {row : ExecutionRow} {w : WorkerId} {a : AttemptId}

theorem grantable_of_queued (hL : ∀ e, (s.life e).Slate) (hrow : s.executions.find? row.id = some row)
    (hq : row.state = .queued) (hnew : s.attempts.find? a = none)
    (hsize : row.manifest.runtime.Representable) : s.grantable row a = .ok () := by
  obtain ⟨hheld, hdone⟩ := (hL row.id).clean (by rw [life_state hrow, hq])
  have hfree : ∀ r ∈ s.reservations.rows, r.attemptId ≠ a := by
    rintro r hr rfl
    obtain ⟨_, ht⟩ := (hL _).linked.attempt _ (life_held (Table.find?_eq_some.2 ⟨hr, rfl⟩))
    obtain ⟨t, ht, _⟩ := life_attempts_eq_some.1 ht
    cases hnew.symm.trans ht
  have hclosed : ∀ t ∈ s.attempts.rows, t.executionId = row.id → t.finishedAt ≠ none := by
    intro t ht he hopen
    have hfin := hdone _ _ (he ▸ life_attempt (Table.find?_eq_some.2 ⟨ht, rfl⟩))
    rw [hopen] at hfin
    cases hfin
  obtain ⟨hcpu, hmemory, hdisk⟩ := hsize
  simp only [grantable, bind_eq_ok, ensure_eq_ok, exists_const]
  exact ⟨hcpu.2, hmemory.2, hdisk, hcpu.1, hmemory.1, by simpa [life] using hheld, hfree,
    by rw [hq]; rfl, hnew, hclosed⟩

/-- Whatever calls led here, a ready worker with a free slot is granted the first queued execution
that fits it: no constraint of the database is in the way if the attempt's id is new. -/
theorem first_fitting_granted (h : Reaches Step admissible initial s) {worker : WorkerRegistration}
    (now : Timestamp) (locked : List ExecutionId) (hworker : s.workers.find? w = some worker)
    (hready : worker.state = .ready ∧ worker.proofIsComplete = true ∧
      (s.usage w).slots < worker.capabilities.maxConcurrentExecutions)
    (hrange : usageInRange (s.usage w) = .ok ())
    (hfirst : (s.queue locked).find? (fun x =>
      workerFitsWithReservations worker x.manifest.runtime (s.usage w)) = some row)
    (hsize : row.manifest.runtime.Representable) (hnew : s.attempts.find? a = none) :
    reserveNext now w a locked s = .ok (some ⟨(claimed now row w a).toExecution, w, a,
      row.manifest.runtime.cpu, row.manifest.runtime.memoryMib⟩, s.granted now row w a) := by
  obtain ⟨hrow, hq, _⟩ := mem_queue (List.mem_of_find?_eq_some hfirst)
  have hgrant := grantable_of_queued (fun e => (slate_run h e).1) hrow hq hnew hsize
  simp only [reserveNext, bind_eq_ok, require_eq_ok]
  refine ⟨worker, hworker, (), hrange, ?_⟩
  rw [if_neg (by simp [hready]), hfirst]
  simp only [hgrant]
  rfl

end Grant

open Sample in
theorem first_fitting_granted_sample :
    (reserveNext 2 ⟨"w"⟩ ⟨"a"⟩ [] (after initial setup)).isOk = true := by
  rw [@first_fitting_granted _ { execution with version := 1 } ⟨"w"⟩ ⟨"a"⟩
    (reaches_of_allMet (by decide)) worker 2 [] (by decide) (by decide) (by decide) (by decide)
    ⟨by decide, by decide, by decide⟩ (by decide)]
  rfl

end Orchestrator
