import Orchestrator.Persistence.Lifecycle
import Orchestrator.Persistence.Proof.Frame

/-!
# Every transaction is steps of every execution's life

`Store.life s e` is what the database holds about `e`, and `life_committed` says that a committed call
takes it along steps of `Life.Step` that the call performs. A call touches one execution and leaves
the lives of the others alone; `recover_unreachable` touches one after the other.
-/

namespace Orchestrator

open Relational

def StoreCall.performs {β : Type} (e : ExecutionId) : StoreCall β → Life.Act → Prop
  | .insert x, .create st w a | .createIdempotent x _ _ _, .create st w a =>
    x.id = e ∧ st = x.state ∧ w = x.workerId ∧ a = x.attemptId
  | .requestCancellation id, .request | .requestCancellation id, .cancel => id = e
  | .completeCancellation id _, .complete => id = e
  | .transition id next, .move st | .transitionWithEvent id next _, .move st => id = e ∧ st = next
  | .recordProgress x _ _, .progress a st => x.id = e ∧ x.attemptId = some a ∧ st = x.state
  | .completeControl _ x _, .control st => x.id = e ∧ st = x.state
  | .reserveNext w a _, .grant b v => b = a ∧ v = w
  | .release id, .release | .releaseAttempt id _, .release => id = e
  | .commitRetainedAndReleaseCapacity id _, .retain => id = e
  | .recoverUnreachable _, .fence _ => True
  | .fenceLostAttempt id a, .fence b => id = e ∧ b = a
  | .finalizeCleanup id a, .finalize b => id = e ∧ b = a
  | .begin id a w, .begin b v => id = e ∧ b = a ∧ v = w
  | .transitionCleanup id _ next _, .advance ph => id = e ∧ ph = next
  | .fenceForCleanup id _, .advance ph => id = e ∧ ph = .cleanupPending
  | .resolve id, .resolve => id = e
  | _, _ => False

/-- `L'` is `L`, or an act of the call away from it. -/
abbrev StoreCall.Performed {β : Type} (call : StoreCall β) (e : ExecutionId) : Life → Life → Prop :=
  Life.Does (call.performs e)

namespace Store

variable {s s' : Store} {now : Timestamp} {e : ExecutionId}

/-- What the database holds about `e`. -/
def life (s : Store) (e : ExecutionId) : Life where
  state := (s.executions.find? e).map fun r => r.state
  worker := (s.executions.find? e).bind fun r => r.workerId
  current := (s.executions.find? e).bind fun r => r.attemptId
  held := (s.reservations.find? e).map fun r => ⟨r.attemptId, r.workerId⟩
  attempts a := (s.attemptOf e a).map fun t => ⟨t.workerId, t.finishedAt.isSome⟩
  custody := (s.authorities.find? e).map fun c => ⟨c.attemptId, c.workerId, c.phase⟩
  pending := s.cancellationPending e

/-! ## Reading a life off the tables -/

section
variable {row : ExecutionRow} {r : ReservationRow} {t : AttemptRow} {c : CleanupAuthority}

theorem life_state (h : s.executions.find? e = some row) : (s.life e).state = some row.state := by
  simp [life, h]

theorem life_worker (h : s.executions.find? e = some row) : (s.life e).worker = row.workerId := by
  simp [life, h]

theorem life_current (h : s.executions.find? e = some row) : (s.life e).current = row.attemptId := by
  simp [life, h]

theorem life_held (h : s.reservations.find? e = some r) :
    (s.life e).held = some ⟨r.attemptId, r.workerId⟩ := by
  simp [life, h]

theorem life_custody (h : s.authorities.find? e = some c) :
    (s.life e).custody = some ⟨c.attemptId, c.workerId, c.phase⟩ := by
  simp [life, h]

theorem life_attempt (h : s.attempts.find? t.attemptId = some t) :
    (s.life t.executionId).attempts t.attemptId = some ⟨t.workerId, t.finishedAt.isSome⟩ := by
  simp [life, attemptOf, h, Option.filter]

theorem life_attempts_eq_some {a : AttemptId} {x : Trial} :
    (s.life e).attempts a = some x ↔ ∃ t, s.attempts.find? a = some t ∧ t.executionId = e ∧
      x = ⟨t.workerId, t.finishedAt.isSome⟩ := by
  simp only [life, Option.map_eq_some_iff, attemptOf_eq_some]
  exact ⟨fun ⟨t, ⟨h, he⟩, hx⟩ => ⟨t, h, he, hx.symm⟩, fun ⟨t, h, he, hx⟩ => ⟨t, ⟨h, he⟩, hx.symm⟩⟩

theorem life_attempts_put (hs : s'.attempts = s.attempts.put t)
    (hold : ∀ x, s.attempts.find? t.attemptId = some x → x.executionId = t.executionId) :
    (s'.life e).attempts = if t.executionId = e then
        Function.update (s.life e).attempts t.attemptId (some ⟨t.workerId, t.finishedAt.isSome⟩)
      else (s.life e).attempts := by
  funext a
  simp only [life, attemptOf, hs, Table.find?_put]
  by_cases ha : t.attemptId = a
  · subst ha
    rw [if_pos rfl]
    split
    · simp [Option.filter, *]
    · rename_i he
      cases hx : s.attempts.find? t.attemptId with
      | none => simp [Option.filter, he, hx]
      | some x => simp [Option.filter, he, hx, hold x hx]
  · rw [if_neg ha]
    split
    · rw [Function.update_of_ne (Ne.symm ha)]
    · rfl

theorem life_congr (hx : s'.executions.find? e = s.executions.find? e)
    (hr : s'.reservations.find? e = s.reservations.find? e)
    (ht : (s'.life e).attempts = (s.life e).attempts)
    (hc : s'.authorities.find? e = s.authorities.find? e)
    (hp : s'.cancellations.find? e = s.cancellations.find? e) : s'.life e = s.life e := by
  have hpend : s'.cancellationPending e = s.cancellationPending e := by
    rw [cancellationPending, cancellationPending, hp]
  simp only [life, Life.mk.injEq, hx, hr, hc, hpend, true_and, and_true]
  exact ht

theorem life_put_row (hs : s' = { s with executions := s.executions.put row }) :
    s'.life e = if row.id = e then
        { s.life e with state := some row.state, worker := row.workerId, current := row.attemptId }
      else s.life e := by
  subst hs
  split
  · rename_i he
    simp [life, he, attemptOf, cancellationPending]
  · rename_i he
    exact life_congr (by simp [he]) rfl rfl rfl rfl

theorem life_put_state (row' : ExecutionRow) (hrow : s.executions.find? row'.id = some row)
    (hw : row'.workerId = row.workerId) (ha : row'.attemptId = row.attemptId)
    (hs : s' = { s with executions := s.executions.put row' }) :
    s'.life e = if row'.id = e then { s.life e with state := some row'.state } else s.life e := by
  rw [life_put_row hs]
  split
  · rename_i he
    simp [life, ← he, hrow, hw, ha]
  · rfl

theorem life_put_authority (hs : s' = { s with authorities := s.authorities.put c }) :
    s'.life e = if c.executionId = e then
        { s.life e with custody := some ⟨c.attemptId, c.workerId, c.phase⟩ }
      else s.life e := by
  subst hs
  split
  · rename_i he
    simp [life, he, attemptOf, cancellationPending]
  · rename_i he
    exact life_congr rfl rfl rfl (by simp [he]) rfl

theorem life_attempts_update {p : AttemptRow → Bool} {f : AttemptRow → AttemptRow}
    (hf : ∀ t, (f t).attemptId = t.attemptId) (hs : s'.attempts = s.attempts.update p f hf)
    (hk : ∀ t, (f t).executionId = t.executionId ∧ (f t).workerId = t.workerId ∧
      (f t).finishedAt = t.finishedAt) : (s'.life e).attempts = (s.life e).attempts := by
  funext a
  simp only [life, attemptOf, hs, Table.find?_update]
  cases s.attempts.find? a with
  | none => rfl
  | some t =>
    obtain ⟨he, hw, hfin⟩ := hk t
    by_cases hp : p t <;> by_cases hte : t.executionId = e <;>
      simp [Option.filter, hp, he, hw, hfin, hte]

end

/-! ## Cancellation requests -/

theorem pending_finish (now : Timestamp) (id : ExecutionId) :
    (s.finishCancellation now id).cancellationPending e =
      if id = e then false else s.cancellationPending e := by
  simp only [cancellationPending, finishCancellation, Table.find?_update]
  cases h : s.cancellations.find? e with
  | none => simp
  | some r =>
    have hid : r.executionId = e := Table.key_of_find? h
    by_cases he : id = e
    · subst he
      cases hc : r.completedAt <;> simp [hid, hc]
    · simp [hid, he, Ne.symm he]

theorem pending_note (now : Timestamp) (id : ExecutionId) :
    (s.noteCancellation now id).cancellationPending e =
      if id = e ∧ s.cancellations.find? id = none then true else s.cancellationPending e := by
  simp only [cancellationPending, noteCancellation]
  cases h : s.cancellations.find? id with
  | some r => simp
  | none => by_cases he : id = e <;> simp [he]

variable {row : ExecutionRow} {x : Execution} {id : ExecutionId} {a : AttemptId} {w : WorkerId}
  {u : Unit} {c : CleanupAuthority} {t : AttemptRow}

theorem life_cancelled {p : Store} (hrow : s.executions.find? row.id = some row)
    (hx : s'.executions = s.executions.put (cancelledRow now row))
    (hr : s'.reservations = s.reservations) (ht : (s'.life e).attempts = (s.life e).attempts)
    (hc : s'.authorities = s.authorities)
    (hp : s'.cancellationPending e = (p.finishCancellation now row.id).cancellationPending e)
    (hother : row.id ≠ e → p.cancellationPending e = s.cancellationPending e) :
    s'.life e = if row.id = e then { s.life e with state := some .cancelled, pending := false }
      else s.life e := by
  have hid : (cancelledRow now row).id = row.id := rfl
  rw [pending_finish] at hp
  split <;> rename_i he
  · subst he
    rw [if_pos rfl] at hp
    simp only [life, Life.mk.injEq, hx, hr, hc, hp, hrow, hid, Table.find?_put, if_true, true_and,
      Option.map_some, Option.bind_some, and_true]
    exact ⟨rfl, rfl, rfl, ht⟩
  · rw [if_neg he, hother he] at hp
    simp only [life, Life.mk.injEq, hx, hr, hc, hp, hid, Table.find?_put, if_neg he, true_and,
      and_true]
    exact ht

/-! ## The calls, one by one -/

open StoreCall

theorem performed_insert (hnew : s.executions.find? x.id = none) (hs : s'.life e = ({ s with
      executions := s.executions.put { toExecution := x, version := 1 } }).life e) :
    Life.Does (fun act => x.id = e ∧ act = .create x.state x.workerId x.attemptId)
      (s.life e) (s'.life e) := by
  rw [hs, life_put_row rfl]
  split <;> rename_i he
  · obtain rfl : x.id = e := he
    exact .step (.create (by simp [life, hnew])) ⟨rfl, rfl⟩
  · exact .stay rfl

theorem performed_requestCancellation {r : Execution}
    (h : Store.requestCancellation now id s = .ok (r, s')) :
    (StoreCall.requestCancellation id).Performed e (s.life e) (s'.life e) := by
  obtain ⟨row, hrow, ⟨_, rfl⟩ | ⟨hlive, ⟨hq, hw, ha, hs⟩ | ⟨hstarted, hs⟩⟩⟩ := requestCancellation_spec h
  · exact .stay rfl
  · obtain rfl : row.id = id := execution_id hrow
    have hlife : s'.life e = if row.id = e then
        { s.life e with state := some .cancelled, pending := false } else s.life e := life_cancelled
      (p := s.noteCancellation now row.id) hrow (by rw [hs]; rfl) (by rw [hs]; rfl)
      (by rw [hs]; rfl) (by rw [hs]; rfl) (by rw [hs]; rfl) fun he => by
        rw [pending_note, if_neg (fun hc => he hc.1)]
    rw [hlife]
    split <;> rename_i he
    · obtain rfl : row.id = e := he
      exact .step (.cancel (by rw [life_state hrow, hq]) (by rw [life_worker hrow, hw])
        (by rw [life_current hrow, ha])) rfl
    · exact .stay rfl
  · have hlife : s'.life e = { s.life e with
        pending := (s.noteCancellation now id).cancellationPending e } := by
      rw [hs]
      rfl
    rw [hlife, pending_note]
    split <;> rename_i he
    · obtain ⟨rfl, _⟩ := he
      exact .step (.request (life_state hrow) hlive
        (by rwa [life_worker hrow, life_current hrow])) rfl
    · exact .stay rfl

theorem performed_completeCancellation {r : Execution × Nat}
    (h : Store.completeCancellation now id a s = .ok (r, s')) :
    (StoreCall.completeCancellation id a).Performed e (s.life e) (s'.life e) := by
  obtain ⟨row, t, c, hg, hs⟩ := completeCancellation_spec h
  obtain rfl : row.id = id := execution_id hg.found
  have hlife : s'.life e = if row.id = e then
      { s.life e with state := some .cancelled, pending := false } else s.life e := life_cancelled
    (p := s) hg.found (by rw [hs]; rfl) (by rw [hs]; rfl)
    (life_attempts_update (f := cancelledAttempt) (fun _ => rfl) (by rw [hs]; rfl) fun _ => ⟨rfl, rfl, rfl⟩)
    (by rw [hs]; rfl) (by rw [hs]; rfl) fun _ => rfl
  rw [hlife]
  split <;> rename_i he
  · obtain rfl : row.id = e := he
    refine .step (.complete (life_state hg.found) hg.legal hg.pending (by simp [life, hg.unreserved])
      (life_custody hg.authority) hg.resolved (t := ⟨t.workerId, true⟩) ?_ rfl) rfl
    exact life_attempts_eq_some.2 ⟨t, hg.authorityAttempt ▸ hg.attempt, hg.attemptExecution, by
      rw [Option.isSome_iff_ne_none.2 hg.finished]⟩
  · exact .stay rfl

theorem performed_transition {next : ExecutionState}
    (hrow : s.executions.find? id = some row) (hfree : s.cancellationPending id = false)
    (hlegal : row.state.canTransitionTo next = true)
    (hs : s'.life e = ({ s with executions := s.executions.put (moved now row next) }).life e) :
    Life.Does (fun act => id = e ∧ act = .move next) (s.life e) (s'.life e) := by
  obtain rfl : row.id = id := execution_id hrow
  rw [hs, life_put_state (moved now row next) hrow rfl rfl rfl]
  split <;> rename_i he
  · obtain rfl : row.id = e := he
    exact .step (.move (life_state hrow) hfree hlegal) ⟨rfl, rfl⟩
  · exact .stay rfl

theorem performed_recordProgress {event : ExecutionEvent} {retention : Bool}
    {n : Nat} (h : Store.recordProgress now x event retention s = .ok (n, s')) :
    (StoreCall.recordProgress x event retention).Performed e (s.life e) (s'.life e) := by
  obtain ⟨row, t, retain, hg, hret, hs⟩ := recordProgress_spec h
  have hid : row.id = x.id := execution_id hg.found
  have hlife : s'.life e = (s.progressMade now x row t retain).life e := by
    rw [hs]
    rfl
  have hattempts : (s'.life e).attempts = if x.id = e then
      Function.update (s.life e).attempts t.attemptId (some ⟨t.workerId, x.state.isTerminal⟩)
      else (s.life e).attempts := by
    rw [life_attempts_put (s := s) (t := attemptProgressed t x) (by rw [hs]; rfl) fun y hy => by
      rw [Option.mem_unique hy hg.attempt]
      rfl]
    simp only [attemptProgressed, hg.attemptExecution]
    cases x.state.isTerminal <;> rfl
  by_cases he : x.id = e
  · subst he
    rw [if_pos rfl] at hattempts
    have hstep := @Life.Step.progress (s.life x.id) _ x.state t.attemptId t.workerId
      (s'.life x.id).custody (life_state hg.found) hg.notCancelling
      (by rw [life_current hg.found, hg.attemptCurrent]) (by rw [life_worker hg.found, hg.attemptWorker])
      hg.legal (by rw [← hg.attemptExecution, life_attempt hg.attempt, hg.unfinished]; rfl) ?_
    · refine .step (?_ : Life.Step _ (.progress t.attemptId x.state) _)
        ⟨rfl, hg.current.trans hg.attemptCurrent, rfl⟩
      convert hstep using 1
      rw [← hattempts, hlife]
      simp [life, progressMade, progressed, hid, hg.found, hg.worker, hg.current, attemptOf,
        cancellationPending]
    · rw [hlife]
      cases retain with
      | none => exact .inl rfl
      | some c =>
        obtain ⟨hc, hca, hcw, _⟩ := hret c rfl
        refine .inr ⟨c.phase, by rw [life_custody hc, hca, hcw], ?_⟩
        simp [life, progressMade, authority_id hc, hca, hcw]
  · rw [if_neg he] at hattempts
    refine .stay (life_congr ?_ (by rw [hs]; rfl) hattempts ?_ (by rw [hs]; rfl))
    · rw [hs]
      simp [progressMade, settleControls, append, progressed, hid, he]
    · rw [hs]
      cases retain with
      | none => rfl
      | some c => simp [progressMade, settleControls, append, authority_id (hret c rfl).1, he]

theorem performed_completeControl {requestId : Nat} {event : ExecutionEvent}
    {r : Except StoreError (Option Nat)}
    (h : Store.completeControl now requestId x event s = .ok (r, s')) :
    (StoreCall.completeControl requestId x event).Performed e (s.life e) (s'.life e) := by
  rcases completeControl_spec h with rfl | ⟨_, _, _, _, _, rfl⟩ | ⟨row, c, hg, hs⟩
  · exact .stay rfl
  · exact .stay rfl
  have hid : row.id = x.id := execution_id hg.found
  have hfound := hg.found
  rw [← hid] at hfound
  have hattempts : (s'.life e).attempts = (s.life e).attempts :=
    life_attempts_update (f := controlledAttempt x) (fun _ => rfl) (by rw [hs]; rfl) fun _ =>
      ⟨rfl, rfl, rfl⟩
  have hput := life_put_state (e := e) (controlled row x) hfound rfl rfl rfl
  have hlife : s'.life e = ({ s with executions := s.executions.put (controlled row x) }).life e := by
    rw [hs] at hattempts ⊢
    exact life_congr rfl rfl hattempts rfl rfl
  rw [hlife, hput]
  split <;> rename_i he
  · obtain rfl : row.id = e := he
    obtain ⟨_, hcomp⟩ := completable_spec.1 hg.checked
    exact .step (.control (life_state hfound) (hid ▸ hg.notCancelling) hcomp.moves) ⟨hid.symm, rfl⟩
  · exact .stay rfl

/-! ## Reservations -/

theorem life_granted (now : Timestamp) {worker : WorkerRegistration} (hg : Grant s worker row w a) :
    (row.id = e ∧ Life.Step (s.life e) (.grant a w) ((s.granted now row w a).life e)) ∨
      (row.id ≠ e ∧ (s.granted now row w a).life e = s.life e) := by
  have hattempts : ((s.granted now row w a).life e).attempts = if row.id = e then
      Function.update (s.life e).attempts a (some ⟨w, false⟩) else (s.life e).attempts := life_attempts_put
    (t := ⟨a, row.id, w, .workerAssigned, none, none, none, none⟩) rfl fun x hx => by
      cases hx.symm.trans hg.freshAttempt
  by_cases he : row.id = e
  · subst he
    refine .inl ⟨rfl, ?_⟩
    rw [if_pos rfl] at hattempts
    have hstep := Life.Step.grant (L := s.life row.id) (a := a) (w := w)
      (by rw [life_state hg.found, hg.queued]) hg.notCancelling (by simp [life, hg.unreserved])
      (by simp [life, attemptOf, hg.freshAttempt]) ?_ ?_
    · convert hstep using 1
      rw [← hattempts]
      simp [life, granted, claimed, attemptOf, cancellationPending]
    · intro b t ht
      obtain ⟨t', hfind, hte, rfl⟩ := life_attempts_eq_some.1 ht
      exact Option.isSome_iff_ne_none.2 (hg.noActive t' (Table.find?_eq_some.1 hfind).1 hte)
    · intro c hc
      simp only [life, Option.map_eq_some_iff] at hc
      obtain ⟨c', hc', rfl⟩ := hc
      exact hg.cleaned c' hc'
  · rw [if_neg he] at hattempts
    exact .inr ⟨he, life_congr (by simp [granted, claimed, he]) (by simp [granted, he]) hattempts rfl rfl⟩

theorem performed_reserveNext {locked : List ExecutionId}
    {r : Option Reservation} (h : Store.reserveNext now w a locked s = .ok (r, s')) :
    (StoreCall.reserveNext w a locked).Performed e (s.life e) (s'.life e) := by
  rcases reserveNext_spec h with ⟨_, rfl⟩ | ⟨_, _, hg, _, rfl⟩
  · exact .stay rfl
  · rcases life_granted (e := e) now hg with ⟨_, hstep⟩ | ⟨_, hsame⟩
    · exact .step hstep ⟨rfl, rfl⟩
    · exact .stay hsame

theorem life_dropReservation (id : ExecutionId) (w : WorkerId) : (s.dropReservation id w).life e =
      if id = e then { s.life e with held := none } else s.life e := by
  split <;> rename_i he
  · simp [life, dropReservation, freeSlot, he, attemptOf, cancellationPending]
  · exact life_congr rfl (by simp [dropReservation, freeSlot, he]) rfl rfl rfl

theorem performed_release :
    Life.Does (fun act => id = e ∧ act = .release) (s.life e) ((s.dropReservation id w).life e) := by
  rw [life_dropReservation]
  split
  · exact .step .release ⟨‹_›, rfl⟩
  · exact .stay rfl

theorem held_filter_reservationOf : ((s.life e).held.filter fun h => h.attempt ≠ a) =
      if (s.reservationOf e a).isSome then none else (s.life e).held := by
  cases hr : s.reservations.find? e with
  | none => simp [life, reservationOf, hr]
  | some r => by_cases ha : r.attemptId = a <;> simp [life, reservationOf, hr, Option.filter, ha]

theorem step_commitRetained (h : Store.commitRetainedAndReleaseCapacity now e a s = .ok (u, s')) :
    Life.Step (s.life e) .retain (s'.life e) := by
  obtain ⟨row, c, t, hg, hs⟩ := commitRetained_spec h
  have hcid : c.executionId = e := authority_id hg.authority
  have hcustody := life_custody hg.authority
  have hstep := Life.Step.retain (L := s.life e) (c := ⟨c.attemptId, c.workerId, c.phase⟩)
    (by rw [life_state hg.found, hg.reviewReady]) hg.notCancelling
    (by rw [life_current hg.found, hg.current, hg.authorityAttempt]) hcustody hg.phase
  convert hstep using 1
  rw [held_filter_reservationOf, hg.authorityAttempt]
  rcases hs with ⟨hnone, _, rfl⟩ | ⟨r, hr, hra, _, rfl⟩
  · rw [hnone]
    simp [life, setPhase, hcid, hg.authorityAttempt, attemptOf, cancellationPending]
  · rw [reservationOf_eq_some.2 ⟨hr, hra⟩]
    simp [life, setPhase, dropReservation, freeSlot, hcid, hg.authorityAttempt, attemptOf,
      cancellationPending]

theorem performed_commitRetained
    (h : Store.commitRetainedAndReleaseCapacity now id a s = .ok (u, s')) :
    (StoreCall.commitRetainedAndReleaseCapacity id a).Performed e (s.life e) (s'.life e) := by
  by_cases he : id = e
  · subst he
    exact .step (step_commitRetained h) rfl
  · obtain ⟨row, c, t, hg, hs⟩ := commitRetained_spec h
    have hcid : c.executionId = id := authority_id hg.authority
    refine .stay ?_
    rcases hs with ⟨_, _, rfl⟩ | ⟨r, _, _, _, rfl⟩
    · exact life_congr rfl rfl rfl (by simp [setPhase, hcid, he]) rfl
    · exact life_congr rfl (by simp [setPhase, dropReservation, freeSlot, he]) rfl
        (by simp [setPhase, dropReservation, freeSlot, hcid, he]) rfl

/-! ## Fencing and finalizing -/

theorem life_pendCleanup : (s.pendCleanup now id a w).life e = if id = e then
        { s.life e with custody := some (Life.pended a w (s.life e).custody) }
      else s.life e := by
  split <;> rename_i he
  · subst he
    simp only [pendCleanup, life, attemptOf, cancellationPending]
    cases hc : s.authorities.find? id with
    | none => simp [Life.pended]
    | some c =>
      have hid := authority_id hc
      simp only [Life.pended, Option.map_some, Life.mk.injEq, true_and, and_true]
      by_cases hg : c.attemptId = a ∧ c.workerId = w ∧ !c.phase.cleaning
      · simp [hg, hid]
      · simp only [if_neg hg, hc, Option.map_some]
  · refine life_congr rfl rfl rfl ?_ rfl
    simp only [pendCleanup]
    cases hc : s.authorities.find? id with
    | none => simp [he]
    | some c =>
      have hid := authority_id hc
      by_cases hg : c.attemptId = a ∧ c.workerId = w ∧ !c.phase.cleaning
      · simp [hg, hid, he]
      · simp only [if_neg hg]

theorem life_fence {s₁ : Store}
    {r : ReservationRow} (hr : s.reservations.find? id = some r) (hra : r.attemptId = a)
    (h : s.fenceAttempt now id a w = some s₁) :
    (id ≠ e ∧ (s₁.pendCleanup now id a w).life e = s.life e) ∨
      (id = e ∧ Life.Step (s.life e) (.fence a) ((s₁.pendCleanup now id a w).life e)) := by
  obtain ⟨t, ht, hte, htw, hfin, rfl⟩ := fenceAttempt_eq_some h
  have hta : t.attemptId = a := attempt_id ht
  have hattempts : (({ s with attempts := s.attempts.put (lostAttempt now t) }).life e).attempts =
      if id = e then Function.update (s.life e).attempts a (some ⟨w, true⟩)
      else (s.life e).attempts := by
    rw [life_attempts_put rfl fun x hx => ?_]
    · simp only [lostAttempt, hte, hta, htw, Option.isSome_some]
    · rw [show (lostAttempt now t).attemptId = a from hta, ht] at hx
      rw [← Option.some.inj hx]
      rfl
  rw [life_pendCleanup]
  split <;> rename_i he
  · subst he
    rw [if_pos rfl] at hattempts
    have hstep := Life.Step.fence (L := s.life id) (a := a) (w := w) (v := r.workerId)
      (by rw [life_held hr, hra]) (life_attempts_eq_some.2 ⟨t, ht, hte, by rw [htw, hfin]; rfl⟩)
    refine .inr ⟨rfl, ?_⟩
    convert hstep using 1
    simp only [hattempts]
    rfl
  · rw [if_neg he] at hattempts
    exact .inl ⟨he, life_congr rfl rfl hattempts rfl rfl⟩

theorem life_recoverUnreachable {rs : List LostWorkerRecovery}
    (h : Store.recoverUnreachable now w s = .ok (rs, s')) :
    (s'.life e = s.life e ∧ .cleanupPending e ∉ rs) ∨
      ∃ a, (s.life e).held = some ⟨a, w⟩ ∧ Life.Step (s.life e) (.fence a) (s'.life e) := by
  have hboth : s'.reservations = s.reservations ∧ ((s'.life e = s.life e ∧ .cleanupPending e ∉ rs) ∨
      ∃ a, (s.life e).held = some ⟨a, w⟩ ∧ Life.Step (s.life e) (.fence a) (s'.life e)) := by
    refine recoverUnreachable_ind (P := fun rs t => t.reservations = s.reservations ∧
      ((t.life e = s.life e ∧ .cleanupPending e ∉ rs) ∨
        ∃ a, (s.life e).held = some ⟨a, w⟩ ∧ Life.Step (s.life e) (.fence a) (t.life e))) h
      ⟨rfl, .inl ⟨rfl, by simp⟩⟩ ?_
    rintro rs s₁ s₂ x hx ⟨hres, hrun⟩ hfence
    obtain ⟨hr, hw, _⟩ := mem_reservationsOf.1 hx
    have hnext := life_fence (e := e) (hres.symm ▸ hr) rfl hfence
    obtain ⟨t, _, _, _, _, rfl⟩ := fenceAttempt_eq_some hfence
    refine ⟨hres, ?_⟩
    rcases hnext with ⟨hne, hsame⟩ | ⟨rfl, hst⟩
    · rw [hsame]
      exact hrun.imp_left fun ⟨hs, hnot⟩ => ⟨hs, by simp [hnot, Ne.symm hne]⟩
    · rcases hrun with ⟨hsame, _⟩ | ⟨_, _, hst'⟩
      · rw [hsame] at hst
        exact .inr ⟨_, by rw [life_held hr, hw], hst⟩
      · exact (hst'.no_second_fence hst).elim
  exact hboth.2

theorem performed_fenceLostAttempt {r : LostWorkerRecovery}
    (h : Store.fenceLostAttempt now id a s = .ok (r, s')) :
    (StoreCall.fenceLostAttempt id a).Performed e (s.life e) (s'.life e) := by
  obtain ⟨_, w, _, x, hg, ⟨s₁, hfence, rfl⟩ | ⟨_, _, _, _, _, _, _, _, _, rfl⟩⟩ :=
    fenceLostAttempt_spec h
  · rcases life_fence (e := e) hg.reserved hg.reservedAttempt hfence with ⟨_, hsame⟩ | ⟨he, hst⟩
    · exact .stay hsame
    · exact .step hst ⟨he, rfl⟩
  · exact .stay rfl

theorem finalState_cases (s : Store) (row : ExecutionRow) :
    Life.FinalState row.state (s.cancellationPending row.id) (s.finalState row) := by
  unfold finalState
  split
  · rename_i hr
    rw [hr]
    exact .kept (.inl rfl)
  · rename_i hreview
    by_cases hlost : s.lost row = true
    · have hlive : row.state.isTerminal = false ∧ s.cancellationPending row.id = false := by
        simpa [lost] using hlost
      split
      · exact .lost hreview hlive.1 hlive.2 (.inl rfl)
      · exact .lost hreview hlive.1 hlive.2 (.inr rfl)
    · have hkept : row.state.isTerminal = true ∨ s.cancellationPending row.id = true := by
        by_cases ht : row.state.isTerminal = true
        · exact .inl ht
        · refine .inr ?_
          simpa [lost, ht] using hlost
      rw [if_neg (fun hq => hlost (by simp [requeues] at hq; exact hq.1.1)), if_neg hlost]
      exact .kept (.inr hkept)

theorem attempts_finalized (now : Timestamp) (e : ExecutionId) (hg : Final s id a row c t) :
    ((s.finalized now row c t).life e).attempts = if id = e then
      Function.update (s.life e).attempts a (some ⟨c.workerId, true⟩) else (s.life e).attempts := by
  obtain rfl : t.attemptId = a := attempt_id hg.attempt
  rw [life_attempts_put (t := s.finishedAttempt now row t) rfl fun x hx => ?_]
  · simp only [finishedAttempt, hg.attemptExecution, hg.attemptWorker, Option.isSome_some]
  · rw [show (s.finishedAttempt now row t).attemptId = t.attemptId from rfl, hg.attempt] at hx
    rw [← Option.some.inj hx]
    rfl

theorem step_finalized (hg : Final s e a row c t) :
    Life.Step (s.life e) (.finalize a) ((s.finalized now row c t).life e) := by
  have hattempts := attempts_finalized now e hg
  rw [if_pos rfl] at hattempts
  obtain rfl : row.id = e := execution_id hg.found
  obtain rfl : t.attemptId = a := attempt_id hg.attempt
  have hcid : c.executionId = row.id := authority_id hg.authority
  have hcustody : (s.life row.id).custody = some ⟨t.attemptId, c.workerId, .storageReleased⟩ := by
    rw [life_custody hg.authority, hg.authorityAttempt, hg.phase]
  have hattempt : (s.life row.id).attempts t.attemptId = some ⟨c.workerId, t.finishedAt.isSome⟩ := by
    rw [← hg.attemptExecution, life_attempt hg.attempt, hg.attemptWorker]
  have hheld : ((s.finalized now row c t).life row.id).held =
      (s.life row.id).held.filter fun h => h.attempt ≠ t.attemptId := by
    rw [held_filter_reservationOf]
    by_cases hr : (s.reservationOf row.id t.attemptId).isSome = true <;>
      simp [life, finalized, hr]
  by_cases hcur : row.attemptId = some t.attemptId
  · have hstep := Life.Step.detach (L := s.life row.id) (life_state hg.found) hcustody hattempt
      (by rw [life_current hg.found, hcur]) (s.finalState_cases row)
    convert hstep using 1
    rw [← hheld, ← hattempts]
    simp [life, finalized, hcur, detached, hcid, hg.authorityAttempt, cancellationPending]
  · have hstep := Life.Step.close (L := s.life row.id) hcustody hattempt
      (by rw [life_current hg.found]; exact hcur)
    convert hstep using 1
    rw [← hheld, ← hattempts]
    simp [life, finalized, hcur, hcid, hg.authorityAttempt, cancellationPending]

theorem performed_finalized (hg : Final s id a row c t)
    (hs : s'.life e = (s.finalized now row c t).life e) :
    (StoreCall.finalizeCleanup id a).Performed e (s.life e) (s'.life e) := by
  rw [hs]
  by_cases he : id = e
  · subst he
    exact .step (step_finalized hg) ⟨rfl, rfl⟩
  · have hattempts := attempts_finalized now e hg
    rw [if_neg he] at hattempts
    have hcid : c.executionId = id := authority_id hg.authority
    obtain rfl : row.id = id := execution_id hg.found
    refine .stay (life_congr ?_ ?_ hattempts ?_ rfl)
    · by_cases hcur : row.attemptId = some t.attemptId <;> simp [finalized, hcur, detached, he]
    · by_cases hr : (s.reservationOf row.id t.attemptId).isSome = true <;> simp [finalized, hr, he]
    · simp [finalized, hcid, he]

theorem step_finalizeCleanup {r : LostWorkerRecovery}
    (h : Store.finalizeCleanup now e a s = .ok (r, s')) :
    (∃ w, (s.life e).custody = some ⟨a, w, .reservationReleased⟩) ∨
      Life.Step (s.life e) (.finalize a) (s'.life e) := by
  obtain ⟨_, c, _, hc, rfl, hph, _, rfl⟩ | ⟨_, _, _, hg, _, ⟨_, rfl⟩ | ⟨_, _, _, rfl⟩⟩ :=
    finalizeCleanup_spec h
  · exact .inl ⟨c.workerId, by rw [life_custody hc, hph]⟩
  · exact .inr (step_finalized hg)
  · exact .inr (step_finalized hg)

/-! ## Cleanup authorities -/

theorem performed_put_authority {c' : CleanupAuthority}
    (hs : s' = { s with authorities := s.authorities.put c' }) (hid : c'.executionId = id)
    {act : Life.Act} (hstep : Life.Step (s.life id) act
      { s.life id with custody := some ⟨c'.attemptId, c'.workerId, c'.phase⟩ }) :
    Life.Does (fun x => id = e ∧ x = act) (s.life e) (s'.life e) := by
  rw [life_put_authority hs, hid]
  split <;> rename_i he
  · subst he
    exact .step hstep ⟨rfl, rfl⟩
  · exact .stay rfl

theorem performed_begin (h : Store.begin now id a w s = .ok (u, s')) :
    s'.life e = s.life e ∨ id = e ∧ Life.Step (s.life e) (.begin a w) (s'.life e) := by
  rcases begin_spec h with ⟨hnone, hs⟩ | ⟨c, hc, _, _, hs⟩
  · rw [life_put_authority hs]
    by_cases he : id = e
    · subst he
      rw [if_pos rfl]
      exact .inr ⟨rfl, .begin (by simp [life, hnone])⟩
    · exact .inl (if_neg he)
  · refine .inl ?_
    rw [life_put_authority hs]
    split <;> rename_i he
    · have hid : c.executionId = id := authority_id hc
      obtain rfl : id = e := hid.symm.trans he
      rw [← life_custody hc]
    · rfl

/-- **Refinement.** A committed call takes the life of every execution along acts it performs. -/
theorem life_committed {β : Type} {call : StoreCall β} (h : Committed now s call s')
    (e : ExecutionId) : call.Performed e (s.life e) (s'.life e) := by
  have hframe := h.frame
  cases h with
  | insert h =>
    obtain ⟨hnew, rfl⟩ := insert_spec h
    exact (performed_insert hnew rfl).mono fun _ ⟨he, hact⟩ => hact ▸ ⟨he, rfl, rfl, rfl⟩
  | createIdempotent h =>
    rcases createIdempotent_spec h with rfl | ⟨_, hnew, _, rfl⟩
    · exact .stay rfl
    · exact (performed_insert hnew rfl).mono fun _ ⟨he, hact⟩ => hact ▸ ⟨he, rfl, rfl, rfl⟩
  | requestCancellation h => exact performed_requestCancellation h
  | completeCancellation h => exact performed_completeCancellation h
  | transition h =>
    obtain ⟨row, hrow, hfree, hlegal, rfl⟩ := transition_spec h
    exact (performed_transition hrow hfree hlegal rfl).mono fun _ ⟨he, hact⟩ => hact ▸ ⟨he, rfl⟩
  | transitionWithEvent h =>
    obtain ⟨row, hrow, hfree, hlegal, _, rfl⟩ := transitionWithEvent_spec h
    exact (performed_transition hrow hfree hlegal rfl).mono fun _ ⟨he, hact⟩ => hact ▸ ⟨he, rfl⟩
  | recordProgress h => exact performed_recordProgress h
  | completeControl h => exact performed_completeControl h
  | reserveNext h => exact performed_reserveNext h
  | release h =>
    rcases release_spec h with ⟨_, rfl⟩ | ⟨_, _, rfl⟩
    · exact .stay rfl
    · exact performed_release.mono fun _ ⟨he, hact⟩ => hact ▸ he
  | releaseAttempt h =>
    rcases releaseAttempt_spec h with rfl | ⟨_, _, rfl⟩
    · exact .stay rfl
    · exact performed_release.mono fun _ ⟨he, hact⟩ => hact ▸ he
  | commitRetained h => exact performed_commitRetained h
  | recoverUnreachable h =>
    rcases life_recoverUnreachable (e := e) h with ⟨hsame, _⟩ | ⟨_, _, hst⟩
    · exact .stay hsame
    · exact .step hst trivial
  | fenceLostAttempt h => exact performed_fenceLostAttempt h
  | finalizeCleanup h =>
    obtain ⟨_, _, _, _, _, _, _, rfl⟩ | ⟨_, _, _, hg, _, ⟨_, rfl⟩ | ⟨_, _, _, rfl⟩⟩ :=
      finalizeCleanup_spec h
    · exact .stay rfl
    · exact performed_finalized hg rfl
    · exact performed_finalized hg rfl
  | begin h =>
    rcases performed_begin (e := e) h with hsame | ⟨he, hstep⟩
    · exact .stay hsame
    · exact .step hstep ⟨he, rfl, rfl⟩
  | transitionCleanup h =>
    obtain ⟨_, c, hc, _, hs⟩ := transitionCleanup_spec h
    have hid := authority_id hc
    exact (performed_put_authority hs hid (.advance (life_custody hc))).mono
      fun _ ⟨he, hact⟩ => hact ▸ ⟨he, rfl⟩
  | fenceForCleanup h =>
    obtain ⟨c, _, _, hc, _, _, _, _, _, hs⟩ := fenceForCleanup_spec h
    have hid := authority_id hc
    exact (performed_put_authority hs hid (.advance (life_custody hc))).mono
      fun _ ⟨he, hact⟩ => hact ▸ ⟨he, rfl⟩
  | resolve h =>
    obtain ⟨c, hc, hph, hs⟩ := resolve_spec h
    have hid := authority_id hc
    exact (performed_put_authority hs hid (.resolve (life_custody hc) hph)).mono
      fun _ ⟨he, hact⟩ => hact ▸ he
  | _ =>
    refine .stay (life_congr ?_ ?_ ?_ ?_ ?_)
    · rw [hframe.executions (by simp [StoreCall.writes])]
    · rw [hframe.reservations (by simp [StoreCall.writes])]
    · simp only [life, attemptOf, hframe.attempts (by simp [StoreCall.writes])]
    · rw [hframe.authorities (by simp [StoreCall.writes])]
    · rw [hframe.cancellations (by simp [StoreCall.writes])]

theorem life_step {l : Label} (h : Orchestrator.Step s l s') (e : ExecutionId) :
    l.call.Performed e (s.life e) (s'.life e) := by
  rcases h.cases with rfl | h
  · exact .stay rfl
  · exact life_committed h e

theorem life_of_reachable {I : Life → Prop} (h0 : I Life.unborn)
    (hstep : ∀ L act L', I L → Life.Step L act L' → I L') (h : Reachable s) (e : ExecutionId) :
    I (s.life e) := by
  refine Reaches.invariant (I := fun t => I (t.life e)) (fun s₁ l s₂ hI _ hst => ?_) h h0
  rcases life_step hst e with hsame | ⟨act, _, hact⟩
  · rw [hsame]
    exact hI
  · exact hstep _ act _ hI hact

theorem linked_step {l : Label} (hL : ∀ e, (s.life e).Linked) (h : Orchestrator.Step s l s')
    (e : ExecutionId) : (s'.life e).Linked := by
  rcases life_step h e with hsame | ⟨act, _, hact⟩
  · rw [hsame]
    exact hL e
  · exact (hL e).step hact

theorem linked_of_reachable (h : Reachable s) (e : ExecutionId) : (s.life e).Linked :=
  life_of_reachable Life.linked_unborn (fun _ _ _ hI hst => hI.step hst) h e

end Store
end Orchestrator
