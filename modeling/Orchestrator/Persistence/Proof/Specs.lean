import Orchestrator.Persistence.Calls

/-!
# What each transaction does

One inversion lemma per transaction: the guards a commit passed, and the database it left. Later
proofs use these and never unfold a transaction. Lookups restricted to an attempt (`reservationOf`,
`authorityOf`, `attemptOf`) are turned into lookups by primary key here as well.
-/

namespace Orchestrator.Store

open Txn Relational

variable {s s' : Store} {now : Timestamp} {e : ExecutionId} {a : AttemptId} {w : WorkerId}

/-! ## Lookups -/

variable {r : ReservationRow} {t : AttemptRow} {row : ExecutionRow} {u : Unit}
  {locked : List ExecutionId} {execution : Execution} {event : ExecutionEvent} {requestId : Nat}
  {c : ControlRow} {session : SessionId}

@[simp] theorem reservationOf_eq_some :
    s.reservationOf e a = some r ↔ s.reservations.find? e = some r ∧ r.attemptId = a := by
  simp [reservationOf, Option.filter_eq_some_iff]

@[simp] theorem authorityOf_eq_some {c : CleanupAuthority} :
    s.authorityOf e a = some c ↔ s.authorities.find? e = some c ∧ c.attemptId = a := by
  simp [authorityOf, Option.filter_eq_some_iff]

@[simp] theorem attemptOf_eq_some :
    s.attemptOf e a = some t ↔ s.attempts.find? a = some t ∧ t.executionId = e := by
  simp [attemptOf, Option.filter_eq_some_iff]

theorem execution_id (h : s.executions.find? e = some row) : row.id = e := by
  have := Table.key_of_find? h
  exact this

theorem reservation_id (h : s.reservations.find? e = some r) : r.executionId = e :=
  Table.key_of_find? h

theorem authority_id {c : CleanupAuthority} (h : s.authorities.find? e = some c) :
    c.executionId = e :=
  Table.key_of_find? h

theorem attempt_id (h : s.attempts.find? a = some t) : t.attemptId = a :=
  Table.key_of_find? h

theorem worker_id {x : WorkerRegistration} (h : s.workers.find? w = some x) : x.id = w :=
  Table.key_of_find? h

/-! ## Events -/

theorem le_foldl_max {n : Nat} : ∀ {l : List Nat} {m : Nat}, n ∈ l ∨ n ≤ m → n ≤ l.foldl max m
  | [], _, h => h.resolve_left List.not_mem_nil
  | x :: l, m, h => by
    refine le_foldl_max (l := l) (m := max m x) ?_
    rcases h with h | h
    · rcases List.mem_cons.1 h with rfl | h
      · exact .inr (le_max_right ..)
      · exact .inl h
    · exact .inr (h.trans (le_max_left ..))

theorem events_append (s : Store) (event : ExecutionEvent) :
    (s.append event).2.events.rows = s.events.rows ++
      [⟨event.executionId, (s.append event).1, { event with sequence := (s.append event).1 }⟩] := by
  refine Table.rows_put_of_find?_none ?_
  rw [Table.find?_eq_none, List.mem_map]
  rintro ⟨x, hx, hkey⟩
  obtain ⟨hid, hseq⟩ := Prod.mk.inj hkey
  have hle : x.sequence ≤ ((s.eventsOf event.executionId).map fun r => r.sequence).foldl max 0 :=
    le_foldl_max (.inl (List.mem_map.2
      ⟨x, List.mem_filter.2 ⟨hx, by rw [hid]; exact decide_eq_true rfl⟩, rfl⟩))
  simp only at hseq
  omega

theorem eventsOf_append (s : Store) (event : ExecutionEvent) :
    ∃ row : EventRow, row.executionId = event.executionId ∧
      (s.append event).2.eventsOf e =
        s.eventsOf e ++ if event.executionId = e then [row] else [] := by
  refine ⟨⟨event.executionId, (s.append event).1, { event with sequence := (s.append event).1 }⟩,
    rfl, ?_⟩
  rw [eventsOf, events_append, List.filter_append, eventsOf]
  by_cases he : event.executionId = e <;> simp [he]

theorem eventsOf_append_other {v : ExecutionEvent} (h : v.executionId ≠ e) :
    (s.append v).2.eventsOf e = s.eventsOf e := by
  obtain ⟨row, _, happ⟩ := eventsOf_append (e := e) s v
  rw [happ, if_neg h, List.append_nil]

theorem eventsOf_append_ne (s : Store) (event : ExecutionEvent) :
    (s.append event).2.eventsOf event.executionId ≠ s.eventsOf event.executionId := by
  obtain ⟨row, _, happ⟩ := eventsOf_append (e := event.executionId) s event
  rw [happ, if_pos rfl]
  exact fun h => absurd (congrArg List.length h) (by simp)

/-! ## Workers -/

theorem register_spec {worker : WorkerRegistration} (h : register worker s = .ok (u, s')) :
    (s.workers.find? worker.id = none ∧
        s' = { s with workers := s.workers.put { worker with runningExecutions := 0 } }) ∨
      ∃ old, s.workers.find? worker.id = some old ∧
        s' = { s with workers := s.workers.put (advertised old worker) } := by
  simp only [register, bind_eq_ok] at h
  obtain ⟨_, _, h⟩ := h
  split at h <;> simp only [pure_eq_ok, Prod.mk.injEq, true_and] at h
  · exact .inl ⟨‹_›, h.symm⟩
  · exact .inr ⟨_, ‹_›, h.symm⟩

theorem heartbeat_spec {worker reply : WorkerRegistration}
    (h : heartbeat worker s = .ok (reply, s')) :
    ∃ old, s.workers.find? worker.id = some old ∧
      s' = { s with workers := s.workers.put (advertised old worker) } := by
  simp only [heartbeat, bind_eq_ok, require_eq_ok, pure_eq_ok, Prod.mk.injEq] at h
  obtain ⟨_, _, old, hold, _, h⟩ := h
  exact ⟨old, hold, h.symm⟩

/-! ## Granting and giving back -/

/-- The guards of a grant of `row` to `w` as attempt `a`. -/
structure Grant (s : Store) (worker : WorkerRegistration) (row : ExecutionRow) (w : WorkerId)
    (a : AttemptId) : Prop where
  foundWorker : s.workers.find? w = some worker
  found : s.executions.find? row.id = some row
  queued : row.state = .queued
  notCancelling : s.cancellationPending row.id = false
  cleaned : ∀ c, s.authorities.find? row.id = some c → c.phase = .resolved
  fits : workerFitsWithReservations worker row.manifest.runtime (s.usage w) = true
  unreserved : s.reservations.find? row.id = none
  freshReservation : ∀ r ∈ s.reservations.rows, r.attemptId ≠ a
  freshAttempt : s.attempts.find? a = none
  noActive : ∀ t ∈ s.attempts.rows, t.executionId = row.id → t.finishedAt ≠ none

theorem mem_queue (h : row ∈ s.queue locked) :
    s.executions.find? row.id = some row ∧ row.state = .queued ∧
      s.cancellationPending row.id = false ∧
      ∀ c, s.authorities.find? row.id = some c → c.phase = .resolved := by
  simp only [queue, List.mem_insertionSort, List.mem_filter, claimable, Bool.and_eq_true,
    Bool.not_eq_true', decide_eq_true_eq] at h
  obtain ⟨hmem, ⟨⟨hq, hc⟩, ha⟩, _⟩ := h
  refine ⟨Table.find?_eq_some.2 ⟨hmem, rfl⟩, hq, hc, fun c hfind => ?_⟩
  rw [hfind] at ha
  simpa using ha

theorem reserveNext_spec {r : Option Reservation} (h : reserveNext now w a locked s = .ok (r, s')) :
    (r = none ∧ s' = s) ∨ ∃ worker row, Grant s worker row w a ∧
      r = some ⟨(claimed now row w a).toExecution, w, a, row.manifest.runtime.cpu,
        row.manifest.runtime.memoryMib⟩ ∧
      s' = s.granted now row w a := by
  simp only [reserveNext, bind_eq_ok, require_eq_ok] at h
  obtain ⟨worker, hworker, _, _, h⟩ := h
  split at h
  · simp only [pure_eq_ok, Prod.mk.injEq] at h
    exact .inl ⟨h.1.symm, h.2.symm⟩
  split at h
  · simp only [pure_eq_ok, Prod.mk.injEq] at h
    exact .inl ⟨h.1.symm, h.2.symm⟩
  rename_i row hrow
  obtain ⟨hexec, hq, hc, hcl⟩ := mem_queue (List.mem_of_find?_eq_some hrow)
  have hfits := List.find?_some hrow
  simp only [bind_eq_ok, grantable, ensure_eq_ok, pure_eq_ok, Prod.mk.injEq] at h
  obtain ⟨_, ⟨_, _, _, _, _, _, _, _, _, _, _, hres, _, hfr, _, _, _, hfa, hna⟩, hr, hs⟩ := h
  exact .inr ⟨worker, row,
    ⟨hworker, hexec, hq, hc, hcl, hfits, hres, hfr, hfa, hna⟩, hr.symm, hs.symm⟩

theorem reserveNext_first {r : Reservation} (h : reserveNext now w a locked s = .ok (some r, s')) :
    ∃ worker row, s.workers.find? w = some worker ∧ row.id = r.execution.id ∧
      (s.queue locked).find? (fun x => workerFitsWithReservations worker x.manifest.runtime
        (s.usage w)) = some row := by
  simp only [reserveNext, bind_eq_ok, require_eq_ok] at h
  obtain ⟨worker, hworker, _, _, h⟩ := h
  split at h
  · simp at h
  split at h
  · simp at h
  · rename_i row hrow
    simp only [bind_eq_ok, pure_eq_ok, Prod.mk.injEq, Option.some.injEq] at h
    obtain ⟨_, _, rfl, _⟩ := h
    exact ⟨worker, row, hworker, rfl, hrow⟩

theorem release_spec (h : release e s = .ok (u, s')) : (s.reservations.find? e = none ∧ s' = s) ∨
      ∃ r, s.reservations.find? e = some r ∧ s' = s.dropReservation e r.workerId := by
  unfold release at h
  split at h <;> simp only [Except.ok.injEq, Prod.mk.injEq, true_and] at h
  · exact .inr ⟨_, ‹_›, h.symm⟩
  · exact .inl ⟨‹_›, h.symm⟩

theorem releaseAttempt_spec {b : Bool} (h : releaseAttempt e a s = .ok (b, s')) :
    s' = s ∨ ∃ r, s.reservations.find? e = some r ∧ s' = s.dropReservation e r.workerId := by
  unfold releaseAttempt at h
  split at h <;> simp only [Except.ok.injEq, Prod.mk.injEq] at h
  · rename_i r hr
    exact .inr ⟨r, (reservationOf_eq_some.1 hr).1, h.2.symm⟩
  · exact .inl h.2.symm

/-- The guards of a retention commit. -/
structure Retain (s : Store) (e : ExecutionId) (a : AttemptId) (row : ExecutionRow)
    (c : CleanupAuthority) (t : AttemptRow) : Prop where
  found : s.executions.find? e = some row
  notCancelling : s.cancellationPending e = false
  reviewReady : row.state = .reviewReady
  resumable : row.manifest.persistence = .resumable
  current : row.attemptId = some a
  authority : s.authorities.find? e = some c
  authorityAttempt : c.attemptId = a
  phase : c.phase = .retainRequested ∨ c.phase = .retained
  attempt : s.attempts.find? a = some t
  attemptExecution : t.executionId = e
  attemptWorker : t.workerId = c.workerId

theorem commitRetained_spec (h : commitRetainedAndReleaseCapacity now e a s = .ok (u, s')) :
    ∃ row c t, Retain s e a row c t ∧
      ((s.reservationOf e a = none ∧ c.phase = .retained ∧ s' = s.setPhase now c .retained) ∨
        ∃ r, s.reservations.find? e = some r ∧ r.attemptId = a ∧ r.workerId = c.workerId ∧
          s' = (s.dropReservation e r.workerId).setPhase now c .retained) := by
  simp only [commitRetainedAndReleaseCapacity, bind_eq_ok, require_eq_ok, ensure_eq_ok,
    authorityOf_eq_some, attemptOf_eq_some] at h
  obtain ⟨row, hrow, _, hc, _, ⟨hst, hper, hcur⟩, c, ⟨hauth, hca⟩, _, hph, t, ⟨ht, hte⟩, _, htw,
    _, _, h⟩ := h
  have hc' : s.cancellationPending e = false := by simpa using hc
  refine ⟨row, c, t, ⟨hrow, hc', hst, hper, hcur, hauth, hca, hph, ht, hte, htw⟩, ?_⟩
  split at h <;> simp only [bind_eq_ok, ensure_eq_ok, pure_eq_ok, Prod.mk.injEq, true_and] at h
  · obtain ⟨_, hne, h⟩ := h
    exact .inl ⟨‹_›, hph.resolve_left hne, h.symm⟩
  · rename_i r hr
    obtain ⟨_, hw, h⟩ := h
    obtain ⟨hr, hra⟩ := reservationOf_eq_some.1 hr
    exact .inr ⟨r, hr, hra, hw, by rw [← h, hw]⟩

/-! ## Fencing -/

theorem fenceAttempt_eq_some (h : s.fenceAttempt now e a w = some s') :
    ∃ t, s.attempts.find? a = some t ∧ t.executionId = e ∧ t.workerId = w ∧ t.finishedAt = none ∧
      s' = { s with attempts := s.attempts.put (lostAttempt now t) } := by
  unfold fenceAttempt at h
  split at h
  · cases h
  · rename_i t ht
    obtain ⟨ht, hte⟩ := attemptOf_eq_some.1 ht
    split at h
    · rename_i hg
      exact ⟨t, ht, hte, hg.1, hg.2, (Option.some.inj h).symm⟩
    · cases h

theorem recoverUnreachable_spec {r : List LostWorkerRecovery}
    (h : recoverUnreachable now w s = .ok (r, s')) :
    (∃ worker, s.workers.find? w = some worker ∧ worker.state = .unreachable) ∧
      (s.reservationsOf w).foldl (recoverOne now w) ([], s) = (r, s') := by
  simp only [recoverUnreachable, bind_eq_ok, require_eq_ok, ensure_eq_ok, pure_eq_ok] at h
  obtain ⟨worker, hw, _, hst, h⟩ := h
  exact ⟨⟨worker, hw, hst⟩, h⟩

theorem mem_reservationsOf :
    r ∈ s.reservationsOf w ↔ s.reservations.find? r.executionId = some r ∧ r.workerId = w ∧
      (s.executions.find? r.executionId).isSome := by
  simp only [reservationsOf, List.mem_insertionSort, List.mem_filter, Bool.and_eq_true,
    decide_eq_true_eq, Table.find?_eq_some, and_true]

/-- What a whole recovery preserves: what every fencing of a reserved attempt preserves. -/
theorem recoverUnreachable_ind {P : List LostWorkerRecovery → Store → Prop}
    {r : List LostWorkerRecovery} (h : recoverUnreachable now w s = .ok (r, s')) (h0 : P [] s)
    (hstep : ∀ rs s₁ s₂ x, x ∈ s.reservationsOf w → P rs s₁ →
      s₁.fenceAttempt now x.executionId x.attemptId w = some s₂ →
      P (rs ++ [.cleanupPending x.executionId]) (s₂.pendCleanup now x.executionId x.attemptId w)) :
    P r s' := by
  have key : ∀ (xs : List ReservationRow) (acc : List LostWorkerRecovery × Store),
      (∀ x ∈ xs, x ∈ s.reservationsOf w) → P acc.1 acc.2 →
      P (xs.foldl (recoverOne now w) acc).1 (xs.foldl (recoverOne now w) acc).2 := by
    intro xs
    induction xs with
    | nil => intro acc _ hacc; exact hacc
    | cons x xs ih =>
      intro acc hsub hacc
      refine ih _ (fun y hy => hsub y (List.mem_cons_of_mem _ hy)) ?_
      unfold recoverOne
      split
      · exact hacc
      · exact hstep _ _ _ x (hsub x List.mem_cons_self) hacc ‹_›
  have hfold := (recoverUnreachable_spec h).2
  have := key (s.reservationsOf w) ([], s) (fun _ hx => hx) h0
  rwa [hfold] at this

theorem recoverUnreachable_closed {rs : List LostWorkerRecovery}
    (h : recoverUnreachable now w s = .ok (rs, s')) {x : ReservationRow}
    (hx : x ∈ s.reservationsOf w) (ht : s'.attempts.find? x.attemptId = some t)
    (hte : t.executionId = x.executionId) (htw : t.workerId = w) : t.finishedAt ≠ none := by
  let Closed (s : Store) : Prop := ∀ t, s.attempts.find? x.attemptId = some t →
    t.executionId = x.executionId → t.workerId = w → t.finishedAt ≠ none
  have hkeep : ∀ acc y, Closed acc.2 → Closed (recoverOne now w acc y).2 := by
    intro acc y hacc
    unfold recoverOne
    split
    · exact hacc
    · rename_i s₁ hfence
      obtain ⟨u, _, _, _, _, rfl⟩ := fenceAttempt_eq_some hfence
      intro t ht
      rcases Table.find?_put_eq_some.1 ht with ⟨_, rfl⟩ | ⟨_, ht⟩
      · simp [lostAttempt]
      · exact hacc t ht
  have hdone : ∀ acc, Closed (recoverOne now w acc x).2 := by
    intro acc
    unfold recoverOne
    split
    · rename_i hnone
      intro t ht hte htw hfin
      rw [fenceAttempt, attemptOf_eq_some.2 ⟨ht, hte⟩] at hnone
      simp [htw, hfin] at hnone
    · rename_i s₁ hfence
      obtain ⟨u, hu, _, _, _, rfl⟩ := fenceAttempt_eq_some hfence
      have hid : u.attemptId = x.attemptId := attempt_id hu
      intro t ht
      simp only [pendCleanup, Table.find?_put, show (lostAttempt now u).attemptId = _ from hid,
        if_true] at ht
      obtain rfl := Option.some.inj ht
      simp [lostAttempt]
  have hall : ∀ (xs : List ReservationRow) acc, x ∈ xs ∨ Closed acc.2 →
      Closed (xs.foldl (recoverOne now w) acc).2 := by
    intro xs
    induction xs with
    | nil =>
      rintro acc (hmem | hacc)
      · cases hmem
      · exact hacc
    | cons y ys ih =>
      rintro acc (hmem | hacc)
      · rcases List.mem_cons.1 hmem with rfl | hmem
        · exact ih _ (.inr (hdone acc))
        · exact ih _ (.inl hmem)
      · exact ih _ (.inr (hkeep acc y hacc))
  have hclosed := hall _ ([], s) (.inl hx)
  rw [(recoverUnreachable_spec h).2] at hclosed
  exact hclosed t ht hte htw

/-- The guards `fence_lost_attempt` shares between its two outcomes. -/
structure Lost (s : Store) (e : ExecutionId) (a : AttemptId) (w : WorkerId) (row : ExecutionRow)
    (r : ReservationRow) : Prop where
  found : s.executions.find? e = some row
  current : row.attemptId = some a
  reserved : s.reservations.find? e = some r
  reservedAttempt : r.attemptId = a
  worker : row.workerId = some w

variable {r : LostWorkerRecovery} {handles : CleanupHandles} {next : ExecutionState}

theorem fenceLostAttempt_spec (h : fenceLostAttempt now e a s = .ok (r, s')) :
    r = .cleanupPending e ∧ ∃ w row x, Lost s e a w row x ∧
      ((∃ s₁, s.fenceAttempt now e a w = some s₁ ∧ s' = s₁.pendCleanup now e a w) ∨
        ∃ c t, s.fenceAttempt now e a w = none ∧ s.authorities.find? e = some c ∧
          c.attemptId = a ∧ c.workerId = w ∧ (c.phase = .cleanupPending ∨ c.phase.cleaning = true) ∧
          s.attempts.find? a = some t ∧ t.finishedAt ≠ none ∧ s' = s) := by
  simp only [fenceLostAttempt, bind_eq_ok, require_eq_ok, ensure_eq_ok, reservationOf_eq_some] at h
  obtain ⟨row, hrow, _, hcur, x, ⟨hx, hxa⟩, w, hw, h⟩ := h
  have hlost : Lost s e a w row x := ⟨hrow, hcur, hx, hxa, hw⟩
  split at h
  · simp only [pure_eq_ok, Prod.mk.injEq] at h
    exact ⟨h.1.symm, w, row, x, hlost, .inl ⟨_, ‹_›, h.2.symm⟩⟩
  · simp only [bind_eq_ok, require_eq_ok, ensure_eq_ok, authorityOf_eq_some, pure_eq_ok,
      Prod.mk.injEq] at h
    obtain ⟨c, ⟨hc, hca⟩, t, ht, _, ⟨hcw, hfin, hph⟩, hr, hs⟩ := h
    exact ⟨hr.symm, w, row, x, hlost, .inr ⟨c, t, ‹_›, hc, hca, hcw, hph, ht, hfin, hs.symm⟩⟩

/-! ## Finalizing -/

/-- The guards of a finalization that changes the database. -/
structure Final (s : Store) (e : ExecutionId) (a : AttemptId) (row : ExecutionRow)
    (c : CleanupAuthority) (t : AttemptRow) : Prop where
  found : s.executions.find? e = some row
  authority : s.authorities.find? e = some c
  authorityAttempt : c.attemptId = a
  phase : c.phase = .storageReleased
  attempt : s.attempts.find? a = some t
  attemptExecution : t.executionId = e
  attemptWorker : t.workerId = c.workerId
  reserved : ∀ r, s.reservations.find? e = some r → r.attemptId = a → r.workerId = c.workerId
  evidence : (∃ r, s.reservations.find? e = some r ∧ r.attemptId = a) ∨ t.finishedAt ≠ none ∨
    row.state = .reviewReady ∨ row.state.isTerminal = true

theorem finalizeCleanup_spec (h : finalizeCleanup now e a s = .ok (r, s')) :
    (∃ row c, s.executions.find? e = some row ∧ s.authorities.find? e = some c ∧ c.attemptId = a ∧
        c.phase = .reservationReleased ∧ r = cleanupOutcome row.toExecution ∧ s' = s) ∨
      ∃ row c t, Final s e a row c t ∧ r = cleanupOutcome row.toExecution ∧
        ((s.finalState row = row.state ∧ s' = s.finalized now row c t) ∨
          ∃ kind, s.finalState row ≠ row.state ∧ finalEventKind row (s.finalState row) = some kind ∧
            s' = ((s.finalized now row c t).append
              ⟨e, some a, 0, now, s.finalState row, kind⟩).2) := by
  simp only [finalizeCleanup, bind_eq_ok, require_eq_ok, ensure_eq_ok, authorityOf_eq_some,
    attemptOf_eq_some] at h
  obtain ⟨row, hrow, c, ⟨hc, hca⟩, _, hph, t, ⟨ht, hte⟩, _, htw, h⟩ := h
  split at h
  · simp only [pure_eq_ok, Prod.mk.injEq] at h
    exact .inl ⟨row, c, hrow, hc, hca, ‹_›, h.1.symm, h.2.symm⟩
  rename_i hnot
  simp only [bind_eq_ok, ensure_eq_ok] at h
  obtain ⟨_, hev, _, hres, h⟩ := h
  have hfinal : Final s e a row c t := by
    refine ⟨hrow, hc, hca, hph.resolve_right hnot, ht, hte, htw, ?_, ?_⟩
    · intro x hx hxa
      rw [reservationOf_eq_some.2 ⟨hx, hxa⟩] at hres
      simp only [chargeable, bind_eq_ok, ensure_eq_ok] at hres
      exact hres.choose_spec.1
    · refine hev.imp_left fun hne => ?_
      obtain ⟨x, hx⟩ := Option.ne_none_iff_exists'.1 hne
      exact ⟨x, reservationOf_eq_some.1 hx⟩
  refine .inr ⟨row, c, t, hfinal, ?_⟩
  split at h
  · simp only [pure_eq_ok, Prod.mk.injEq] at h
    exact ⟨h.1.symm, .inl ⟨‹_›, h.2.symm⟩⟩
  · simp only [bind_eq_ok, require_eq_ok, pure_eq_ok, Prod.mk.injEq] at h
    obtain ⟨kind, hkind, hr, hs⟩ := h
    exact ⟨hr.symm, .inr ⟨kind, ‹_›, hkind, hs.symm⟩⟩

/-! ## Cleanup authorities -/

theorem begin_spec (h : begin now e a w s = .ok (u, s')) : (s.authorities.find? e = none ∧
        s' = { s with authorities := s.authorities.put ⟨e, a, w, .active .reserved, {}, now⟩ }) ∨
      ∃ c, s.authorities.find? e = some c ∧ c.attemptId = a ∧ c.workerId = w ∧
        s' = { s with authorities := s.authorities.put { c with updatedAt := now } } := by
  unfold begin at h
  split at h
  · simp only [Except.ok.injEq, Prod.mk.injEq, true_and] at h
    exact .inl ⟨‹_›, h.symm⟩
  · rename_i c hc
    split at h
    · rename_i hg
      simp only [Except.ok.injEq, Prod.mk.injEq, true_and] at h
      exact .inr ⟨c, hc, hg.1, hg.2, h.symm⟩
    · cases h

theorem transitionCleanup_spec {expected next : CleanupDisposition}
    (h : transitionCleanup now e expected next handles s = .ok (u, s')) :
    (expected = next ∨ expected.canTransitionTo next = true) ∧
      ∃ c, s.authorities.find? e = some c ∧ (c.phase = expected ∨ c.phase = next) ∧
        s' = { s with
          authorities := s.authorities.put
            { c with phase := next, handles := handles, updatedAt := now } } := by
  simp only [transitionCleanup, bind_eq_ok, require_eq_ok, ensure_eq_ok, pure_eq_ok,
    Prod.mk.injEq, true_and] at h
  obtain ⟨_, hlegal, c, hc, _, hph, h⟩ := h
  exact ⟨hlegal, c, hc, hph, h.symm⟩

theorem fenceForCleanup_spec (h : fenceForCleanup now e handles s = .ok (u, s')) :
    ∃ c row t, s.authorities.find? e = some c ∧ s.executions.find? e = some row ∧
      s.attempts.find? c.attemptId = some t ∧ t.executionId = e ∧
      (t.finishedAt ≠ none ∨ workEnded row.state = true ∨ s.cancellationPending e = true) ∧
      c.phase.cleaning = false ∧
      s' = { s with
        authorities := s.authorities.put
          { c with phase := .cleanupPending, handles := handles, updatedAt := now } } := by
  simp only [fenceForCleanup, bind_eq_ok, require_eq_ok, ensure_eq_ok, attemptOf_eq_some,
    pure_eq_ok, Prod.mk.injEq, true_and, Bool.not_eq_true'] at h
  obtain ⟨c, hc, row, hrow, t, ⟨ht, hte⟩, _, hev, _, hph, h⟩ := h
  exact ⟨c, row, t, hc, hrow, ht, hte, hev, hph, h.symm⟩

theorem resolve_spec (h : resolve now e s = .ok (u, s')) : ∃ c, s.authorities.find? e = some c ∧
      (c.phase = .reservationReleased ∨ c.phase = .resolved) ∧ s' = s.setPhase now c .resolved := by
  simp only [resolve, bind_eq_ok, require_eq_ok, ensure_eq_ok, pure_eq_ok, Prod.mk.injEq,
    true_and] at h
  obtain ⟨c, hc, _, hph, h⟩ := h
  exact ⟨c, hc, hph, h.symm⟩

/-! ## Executions -/

theorem insertExecution_spec (h : s.insertExecution execution = .ok s') :
    s.executions.find? execution.id = none ∧
      s' = { s with executions := s.executions.put { toExecution := execution, version := 1 } } := by
  unfold insertExecution at h
  split at h
  · cases h
  · exact ⟨‹_›, (Except.ok.inj h).symm⟩

theorem insert_spec (h : insert execution s = .ok (u, s')) :
    s.executions.find? execution.id = none ∧
      s' = { s with executions := s.executions.put { toExecution := execution, version := 1 } } := by
  simp only [insert, bind_eq_ok, pure_eq_ok, Prod.mk.injEq, true_and] at h
  obtain ⟨s₁, h, rfl⟩ := h
  exact insertExecution_spec h

theorem createIdempotent_spec {key scope : String} {r : IdempotentExecution}
    (h : createIdempotent execution event key scope s = .ok (r, s')) :
    s' = s ∨ (s.requests.find? key = none ∧ s.executions.find? execution.id = none ∧
      event.executionId = execution.id ∧
      s' = ({ s with
        executions := s.executions.put { toExecution := execution, version := 1 }
        requests := s.requests.put ⟨key, scope, execution.id⟩ }.append event).2) := by
  simp only [createIdempotent, bind_eq_ok, ensure_eq_ok] at h
  obtain ⟨_, _, _, ⟨hid, _, _⟩, h⟩ := h
  split at h
  · simp only [bind_eq_ok, ensure_eq_ok, require_eq_ok, pure_eq_ok, Prod.mk.injEq] at h
    obtain ⟨_, _, _, _, _, h⟩ := h
    exact .inl h.symm
  · simp only [bind_eq_ok, pure_eq_ok, Prod.mk.injEq] at h
    obtain ⟨s₁, hins, _, h⟩ := h
    obtain ⟨hnone, rfl⟩ := insertExecution_spec hins
    exact .inr ⟨‹_›, hnone, hid.symm, h.symm⟩

theorem requestCancellation_spec {r : Execution} (h : requestCancellation now e s = .ok (r, s')) :
    ∃ row, s.executions.find? e = some row ∧
      ((row.state = .cancelled ∧ s' = s) ∨
        row.state.isTerminal = false ∧
          ((row.state = .queued ∧ row.workerId = none ∧ row.attemptId = none ∧
              s' = (({ (s.noteCancellation now e).staleControls now e
                    "execution cancellation took precedence" with
                  executions := s.executions.put (cancelledRow now row) }).append
                (publish e none now .cancelled .executionCancelled)).2.finishCancellation now e) ∨
            (¬ (row.state = .queued ∧ row.workerId = none ∧ row.attemptId = none) ∧
              s' = (s.noteCancellation now e).staleControls now e
                "execution cancellation took precedence"))) := by
  simp only [requestCancellation, bind_eq_ok, require_eq_ok] at h
  obtain ⟨row, hrow, h⟩ := h
  refine ⟨row, hrow, ?_⟩
  split at h
  · rename_i hc
    simp only [pure_eq_ok, Prod.mk.injEq] at h
    exact .inl ⟨hc.1, h.2.symm⟩
  · simp only [bind_eq_ok, ensure_eq_ok, Bool.not_eq_true'] at h
    obtain ⟨_, hterm, h⟩ := h
    refine .inr ⟨hterm, ?_⟩
    split at h
    · rename_i hq
      simp only [pure_eq_ok, Prod.mk.injEq] at h
      exact .inl ⟨hq.1, hq.2.1, hq.2.2, h.2.symm⟩
    · simp only [pure_eq_ok, Prod.mk.injEq] at h
      exact .inr ⟨‹_›, h.2.symm⟩

/-- The guards of `complete_cancellation`. -/
structure Cancel (s : Store) (e : ExecutionId) (a : AttemptId) (row : ExecutionRow)
    (t : AttemptRow) (c : CleanupAuthority) : Prop where
  found : s.executions.find? e = some row
  pending : s.cancellationPending e = true
  legal : row.state.canTransitionTo .cancelled = true
  unreserved : s.reservations.find? e = none
  attempt : s.attempts.find? a = some t
  attemptExecution : t.executionId = e
  finished : t.finishedAt ≠ none
  authority : s.authorities.find? e = some c
  authorityAttempt : c.attemptId = a
  resolved : c.phase = .resolved

theorem completeCancellation_spec {r : Execution × Nat}
    (h : completeCancellation now e a s = .ok (r, s')) :
    ∃ row t c, Cancel s e a row t c ∧
      s' = ({ s with
          executions := s.executions.put (cancelledRow now row)
          attempts := s.attempts.update (fun r => r.attemptId = a && r.executionId = e)
            cancelledAttempt fun _ => rfl }.append
        (publish e (some a) now .cancelled .executionCancelled)).2.finishCancellation now e := by
  simp only [completeCancellation, bind_eq_ok, require_eq_ok, ensure_eq_ok, pure_eq_ok,
    Prod.mk.injEq] at h
  obtain ⟨row, hrow, _, hpend, _, hlegal, _, ⟨hres, hatt, hauth⟩, _, h⟩ := h
  obtain ⟨t, ht, hfin⟩ := (Option.any_eq_true _ _).1 hatt
  obtain ⟨c, hc, hph⟩ := (Option.any_eq_true _ _).1 hauth
  obtain ⟨ht, hte⟩ := attemptOf_eq_some.1 ht
  obtain ⟨hc, hca⟩ := authorityOf_eq_some.1 hc
  exact ⟨row, t, c, ⟨hrow, hpend, hlegal, hres, ht, hte, Option.isSome_iff_ne_none.1 hfin, hc, hca,
    by simpa using hph⟩, h.symm⟩

theorem transition_spec {r : Execution} (h : transition now e next s = .ok (r, s')) :
    ∃ row, s.executions.find? e = some row ∧ s.cancellationPending e = false ∧
      row.state.canTransitionTo next = true ∧
      s' = { s with executions := s.executions.put (moved now row next) } := by
  simp only [transition, bind_eq_ok, require_eq_ok, ensure_eq_ok, pure_eq_ok, Prod.mk.injEq,
    Bool.not_eq_true'] at h
  obtain ⟨row, hrow, _, hc, _, hlegal, _, h⟩ := h
  exact ⟨row, hrow, hc, hlegal, h.symm⟩

theorem transitionWithEvent_spec
    {r : Execution × Nat} (h : transitionWithEvent now e next event s = .ok (r, s')) :
    ∃ row, s.executions.find? e = some row ∧ s.cancellationPending e = false ∧
      row.state.canTransitionTo next = true ∧ event.executionId = e ∧
      s' = ({ s with executions := s.executions.put (moved now row next) }.append event).2 := by
  simp only [transitionWithEvent, bind_eq_ok, require_eq_ok, ensure_eq_ok, pure_eq_ok,
    Prod.mk.injEq, Bool.not_eq_true'] at h
  obtain ⟨_, ⟨hid, _, _⟩, row, hrow, _, hc, _, _, _, hlegal, _, h⟩ := h
  exact ⟨row, hrow, hc, hlegal, hid.symm, h.symm⟩

/-- The guards of `record_progress`. -/
structure Progress (s : Store) (execution : Execution) (event : ExecutionEvent)
    (row : ExecutionRow) (t : AttemptRow) : Prop where
  found : s.executions.find? execution.id = some row
  published : event.executionId = execution.id
  notCancelling : s.cancellationPending execution.id = false
  worker : execution.workerId = row.workerId
  current : execution.attemptId = row.attemptId
  legal : row.state = execution.state ∨ row.state.canTransitionTo execution.state = true
  attempt : s.attempts.find? t.attemptId = some t
  attemptCurrent : row.attemptId = some t.attemptId
  attemptWorker : row.workerId = some t.workerId
  attemptExecution : t.executionId = execution.id
  unfinished : t.finishedAt = none

/-- The database after progress, before controls are made stale and the event is appended. -/
def progressMade (s : Store) (now : Timestamp) (execution : Execution) (row : ExecutionRow)
    (t : AttemptRow) (retain : Option CleanupAuthority) : Store :=
  { s with
    executions := s.executions.put (progressed row execution)
    attempts := s.attempts.put (attemptProgressed t execution)
    authorities := match retain with
      | none => s.authorities
      | some c => s.authorities.put { c with phase := .retainRequested, updatedAt := now } }

theorem recordProgress_spec {retention : Bool}
    {n : Nat} (h : recordProgress now execution event retention s = .ok (n, s')) :
    ∃ row t retain, Progress s execution event row t ∧
      (∀ c, retain = some c → s.authorities.find? execution.id = some c ∧
        c.attemptId = t.attemptId ∧ c.workerId = t.workerId ∧
        (c.phase = .active .postPiBeforeEvent ∨ c.phase = .retainRequested)) ∧
      s' = (((s.progressMade now execution row t retain).settleControls now execution).append
        event).2 := by
  simp only [recordProgress, bind_eq_ok, require_eq_ok, ensure_eq_ok, Bool.not_eq_true',
    attemptOf_eq_some] at h
  obtain ⟨_, ⟨hid, _, _⟩, row, hrow, _, hc, _, ⟨hw, ha⟩, _, hlegal, a, hea, w, hew, t, ⟨ht, hte⟩, _,
    ⟨htw, hfin⟩, s₂, hs₂, h⟩ := h
  have hta : t.attemptId = a := attempt_id ht
  have hprog : Progress s execution event row t :=
    ⟨hrow, hid.symm, hc, hw.symm, ha.symm, hlegal, by rw [hta]; exact ht, by rw [ha, hea, hta],
      by rw [hw, hew, htw], hte, hfin⟩
  cases retention
  case true =>
    simp only [retain, bind_eq_ok, require_eq_ok, retentionRow, Option.filter_eq_some_iff,
      authorityOf_eq_some, Bool.and_eq_true, Bool.or_eq_true, decide_eq_true_eq, pure_eq_ok] at hs₂
    obtain ⟨c, ⟨⟨hcf, hca⟩, hcw, hph⟩, rfl⟩ := hs₂
    refine ⟨row, t, some c, hprog, ?_, (congrArg Prod.snd (pure_eq_ok.1 h)).symm⟩
    rintro _ ⟨⟩
    exact ⟨hcf, by rw [hca, hta], by rw [hcw, htw], hph⟩
  case false =>
    obtain rfl := Except.ok.inj hs₂
    refine ⟨row, t, none, hprog, fun c hc => ?_, (congrArg Prod.snd (pure_eq_ok.1 h)).symm⟩
    cases hc

theorem recordProgress_of_progress (h : Progress s execution event row t)
    (hstate : event.state = execution.state) (hattempt : event.attemptId = execution.attemptId) :
    recordProgress now execution event false s =
      .ok (((s.progressMade now execution row t none).settleControls now execution).append
        event) := by
  have ha : execution.attemptId = some t.attemptId := h.current.trans h.attemptCurrent
  have hw : execution.workerId = some t.workerId := h.worker.trans h.attemptWorker
  simp only [recordProgress, bind_eq_ok, require_eq_ok, ensure_eq_ok, attemptOf_eq_some]
  refine ⟨(), ⟨h.published.symm, hstate.symm, hattempt.symm⟩, row, h.found, (), ?_, (),
    ⟨h.worker.symm, h.current.symm⟩, (), h.legal, t.attemptId, ha, t.workerId, hw, t,
    ⟨h.attempt, h.attemptExecution⟩, (), ⟨rfl, h.unfinished⟩, _, rfl, rfl⟩
  rw [h.notCancelling]
  rfl

/-! ## Controls -/

/-- The guards of an accepted request, and the row it leaves. -/
structure Accept (s : Store) (now : Timestamp) (e : ExecutionId) (action : ExecutionControlAction)
    (row : ExecutionRow) (c : ControlRow) : Prop where
  found : s.executions.find? e = some row
  notCancelling : s.cancellationPending e = false
  requestId : c.requestId = s.controlSequence + 1
  executionId : c.executionId = e
  phase : c.phase = .accepted
  open_ : c.completedAt = none
  requestedAt : c.requestedAt = now
  allowed : action.allowedIn c.acceptedState = true
  attempt : row.attemptId = some c.acceptedAttemptId
  worker : row.workerId = some c.acceptedWorkerId
  projected : ∃ session, (s.pendingControls e).foldlM Projection.after
    ⟨row.state, session, row.version⟩ =
      .ok ⟨c.acceptedState, c.sourceSessionId, c.acceptedVersion⟩

theorem requestControl_spec {action : ExecutionControlAction} {key : String}
    {r : IdempotentExecutionControl} (h : requestControl now e action key s = .ok (r, s')) :
    s' = s ∨ ∃ row c, Accept s now e action row c ∧
      s' = { s with controls := s.controls.put c, controlSequence := s.controlSequence + 1 } := by
  simp only [requestControl, bind_eq_ok, require_eq_ok, ensure_eq_ok] at h
  obtain ⟨_, _, row, hrow, h⟩ := h
  split at h
  · simp only [bind_eq_ok, ensure_eq_ok, pure_eq_ok, Prod.mk.injEq] at h
    obtain ⟨_, _, _, h⟩ := h
    exact .inl h.symm
  · simp only [bind_eq_ok, require_eq_ok, ensure_eq_ok, pure_eq_ok, Prod.mk.injEq,
      Bool.not_eq_true'] at h
    obtain ⟨_, hc, session, _, p, hp, _, hallowed, w, hw, a, ha, _, _, _, h⟩ := h
    exact .inr ⟨row, _, ⟨hrow, hc, rfl, rfl, rfl, rfl, rfl, hallowed, ha, hw, session, hp⟩, h.symm⟩

theorem version_of_projected {cs : List ControlRow} {p q : Projection}
    (h : cs.foldlM Projection.after p = .ok q) : q.version = p.version + cs.length := by
  induction cs generalizing p with
  | nil =>
    obtain rfl := pure_eq_ok.1 h
    rfl
  | cons c cs ih =>
    simp only [List.foldlM_cons, bind_eq_ok] at h
    obtain ⟨p₁, hp₁, h⟩ := h
    have hone : p₁.version = p.version + 1 := by
      simp only [Projection.after, bind_eq_ok, ensure_eq_ok] at hp₁
      obtain ⟨_, _, hp₁⟩ := hp₁
      split at hp₁
      · rw [← pure_eq_ok.1 hp₁]
      · rw [← pure_eq_ok.1 hp₁]
      · simp only [bind_eq_ok, require_eq_ok, pure_eq_ok] at hp₁
        obtain ⟨_, _, rfl⟩ := hp₁
        rfl
    rw [ih h, hone, List.length_cons]
    omega

theorem beginControl_spec {r : Except StoreError Unit}
    (h : beginControl now requestId w a s = .ok (r, s')) :
    ∃ c row, s.controls.find? requestId = some c ∧ s.executions.find? c.executionId = some row ∧
      c.phase.pending = true ∧
      ((∃ reason, (¬ (c.acceptedWorkerId = w ∧ c.acceptedAttemptId = a ∧ acceptedFor c row) ∨
            s.cancellationPending c.executionId = true) ∧ s' = s.staleControl now c reason) ∨
        (s.cancellationPending c.executionId = false ∧ acceptedFor c row ∧ r = .ok () ∧
          ((c.phase = .accepted ∧
              s' = { s with controls := s.controls.put { c with phase := .applying } }) ∨
            (c.phase ≠ .accepted ∧ s' = s)))) := by
  simp only [beginControl, bind_eq_ok, require_eq_ok, ensure_eq_ok] at h
  obtain ⟨c, hc, row, hrow, _, hph, h⟩ := h
  refine ⟨c, row, hc, hrow, hph, ?_⟩
  split at h
  · simp only [pure_eq_ok, Prod.mk.injEq] at h
    exact .inl ⟨_, ‹_›, h.2.symm⟩
  · rename_i hgood
    simp only [not_or, not_not, Bool.not_eq_true] at hgood
    refine .inr ⟨hgood.2, hgood.1.2.2, ?_⟩
    split at h <;> simp only [pure_eq_ok, Prod.mk.injEq] at h
    · exact ⟨h.1.symm, .inl ⟨‹_›, h.2.symm⟩⟩
    · exact ⟨h.1.symm, .inr ⟨‹_›, h.2.symm⟩⟩

theorem beginControl_of_accepted
    (hc : s.controls.find? requestId = some c) (hrow : s.executions.find? c.executionId = some row)
    (hpending : c.phase.pending = true) (hacc : acceptedFor c row)
    (hcancel : s.cancellationPending c.executionId = false) :
    beginControl now requestId c.acceptedWorkerId c.acceptedAttemptId s =
      .ok (.ok (), if c.phase = .accepted then
        { s with controls := s.controls.put { c with phase := .applying } } else s) := by
  simp only [beginControl, bind_eq_ok, require_eq_ok, ensure_eq_ok]
  refine ⟨c, hc, row, hrow, (), hpending, ?_⟩
  rw [if_neg (by simp [hacc, hcancel])]
  split <;> rfl

theorem markControl_spec {session : Option SessionId} {r : Except StoreError Unit}
    (h : markControlSideEffectApplied now requestId session s = .ok (r, s')) :
    ∃ c, s.controls.find? requestId = some c ∧
      (s' = s ∨ (∃ reason, c.phase.pending = true ∧ s.cancellationPending c.executionId = true ∧
          s' = s.staleControl now c reason) ∨
        ∃ session, c.phase = .applying ∧ s.cancellationPending c.executionId = false ∧
          c.expectedSession = .ok session ∧
          s' = { s with
            controls := s.controls.put
              { c with phase := .sideEffectApplied, sideEffectSessionId := some session } }) := by
  simp only [markControlSideEffectApplied, bind_eq_ok, require_eq_ok] at h
  obtain ⟨c, hc, row, _, h⟩ := h
  refine ⟨c, hc, ?_⟩
  split at h
  · simp only [pure_eq_ok, Prod.mk.injEq] at h
    obtain ⟨_, rfl⟩ := h
    split
    · exact .inr (.inl ⟨_, ‹_›, ‹_›, rfl⟩)
    · exact .inl rfl
  · rename_i hcancel
    simp only [bind_eq_ok, ensure_eq_ok] at h
    obtain ⟨session, hsession, _, _, h⟩ := h
    split at h
    · simp only [pure_eq_ok, Prod.mk.injEq] at h
      exact .inl h.2.symm
    · simp only [bind_eq_ok, ensure_eq_ok, pure_eq_ok, Prod.mk.injEq] at h
      obtain ⟨_, hph, _, h⟩ := h
      exact .inr (.inr ⟨session, hph, by simpa using hcancel, hsession, h.symm⟩)

theorem markControl_of_applying (hc : s.controls.find? requestId = some c)
    (hrow : s.executions.find? c.executionId = some row)
    (hcancel : s.cancellationPending c.executionId = false)
    (hexp : c.expectedSession = .ok session) (hphase : c.phase = .applying) :
    markControlSideEffectApplied now requestId (some session) s =
      .ok (.ok (), { s with
        controls := s.controls.put
          { c with phase := .sideEffectApplied, sideEffectSessionId := some session } }) := by
  simp only [markControlSideEffectApplied, bind_eq_ok, require_eq_ok]
  refine ⟨c, hc, row, hrow, ?_⟩
  rw [if_neg (by simp [hcancel])]
  simp only [bind_eq_ok, ensure_eq_ok]
  refine ⟨session, hexp, (), rfl, ?_⟩
  rw [if_neg (by simp [hphase])]
  simp only [bind_eq_ok, ensure_eq_ok]
  exact ⟨(), hphase, rfl⟩

theorem markControl_of_applied (hc : s.controls.find? requestId = some c)
    (hrow : s.executions.find? c.executionId = some row)
    (hcancel : s.cancellationPending c.executionId = false)
    (hexp : c.expectedSession = .ok session) (hphase : c.phase = .sideEffectApplied)
    (hside : c.sideEffectSessionId = some session) :
    markControlSideEffectApplied now requestId (some session) s = .ok (.ok (), s) := by
  simp only [markControlSideEffectApplied, bind_eq_ok, require_eq_ok]
  refine ⟨c, hc, row, hrow, ?_⟩
  rw [if_neg (by simp [hcancel])]
  simp only [bind_eq_ok, ensure_eq_ok]
  refine ⟨session, hexp, (), rfl, ?_⟩
  rw [if_pos ⟨hphase, hside⟩]
  rfl

/-- What `complete_control` checks about the report and the row. -/
structure Completable (c : ControlRow) (row : ExecutionRow) (execution : Execution)
    (event : ExecutionEvent) (session : SessionId) : Prop where
  expected : c.expectedSession = .ok session
  sideEffect : c.sideEffectSessionId = some session
  newState : execution.state = c.expectedState
  newSession : execution.sessionId = some session
  worktree : execution.worktreePath = some c.worktreePath
  kind : event.kind = c.action.eventKind session
  rowWorker : row.workerId = some c.acceptedWorkerId
  rowAttempt : row.attemptId = some c.acceptedAttemptId
  rowSession : row.sessionId = some c.sourceSessionId
  rowWorktree : row.worktreePath = execution.worktreePath
  rowState : row.state = c.acceptedState
  rowVersion : row.version = c.acceptedVersion
  legal : c.action = .forkConversation ∨ row.state.canTransitionTo execution.state = true

theorem completable_spec :
    completable c row execution event = .ok () ↔ ∃ session, Completable c row execution event session := by
  simp only [completable, bind_eq_ok, ensure_eq_ok]
  constructor
  · rintro ⟨session, hexp, _, hside, _, ⟨h1, h2, h3, h4⟩, _, ⟨h5, h6, h7, h8, h9, h10⟩, h11⟩
    exact ⟨session, hexp, hside, h1, h2, h3, h4, h5, h6, h7, h8, h9, h10, h11⟩
  · rintro ⟨session, h⟩
    exact ⟨session, h.expected, (), h.sideEffect, (), ⟨h.newState, h.newSession, h.worktree, h.kind⟩, (),
      ⟨h.rowWorker, h.rowAttempt, h.rowSession, h.rowWorktree, h.rowState, h.rowVersion⟩, h.legal⟩

theorem Completable.moves
        (h : Completable c row execution event session) :
    row.state = execution.state ∨ row.state.canTransitionTo execution.state = true ∧
      (execution.state = .running ∨ execution.state = .pausedForHuman) := by
  have hstate := h.newState
  have hlegal := h.legal
  cases ha : c.action <;> simp only [ControlRow.expectedState, ha] at hstate hlegal
  · exact .inr ⟨hlegal.resolve_left nofun, .inr hstate⟩
  · exact .inr ⟨hlegal.resolve_left nofun, .inl hstate⟩
  · exact .inl (h.rowState.trans hstate.symm)

/-- The guards of a control that completes. -/
structure Complete (s : Store) (requestId : Nat) (execution : Execution) (event : ExecutionEvent)
    (row : ExecutionRow) (c : ControlRow) : Prop where
  found : s.executions.find? execution.id = some row
  control : s.controls.find? requestId = some c
  ownedBy : c.executionId = execution.id
  applied : c.phase = .sideEffectApplied
  notCancelling : s.cancellationPending execution.id = false
  published : event.executionId = execution.id ∧ event.state = execution.state ∧
    event.attemptId = execution.attemptId ∧ event.sequence = 0
  checked : completable c row execution event = .ok ()

theorem completeControl_spec {r : Except StoreError (Option Nat)}
    (h : completeControl now requestId execution event s = .ok (r, s')) :
    s' = s ∨ (∃ c reason, s.controls.find? requestId = some c ∧ c.phase ≠ .completed ∧
        s.cancellationPending c.executionId = true ∧ s' = s.staleControl now c reason) ∨
      ∃ row c, Complete s requestId execution event row c ∧
        s' = ((s.completed c row execution).append event).2 := by
  simp only [completeControl, bind_eq_ok, require_eq_ok, ensure_eq_ok] at h
  obtain ⟨_, hev, row, hrow, c, hc, _, hown, h⟩ := h
  split at h
  · simp only [pure_eq_ok, Prod.mk.injEq] at h
    exact .inl h.2.symm
  split at h
  · simp only [pure_eq_ok, Prod.mk.injEq] at h
    exact .inr (.inl ⟨c, _, hc, ‹_›, by rw [hown]; assumption, h.2.symm⟩)
  · rename_i hcancel
    simp only [bind_eq_ok, ensure_eq_ok, pure_eq_ok, Prod.mk.injEq] at h
    obtain ⟨_, hph, _, hcomp, _, h⟩ := h
    exact .inr (.inr ⟨row, c, ⟨hrow, hc, hown, hph, by simpa using hcancel, hev, hcomp⟩, h.symm⟩)

theorem completeControl_of_complete
        (h : Complete s requestId execution event row c) :
    completeControl now requestId execution event s =
      .ok (.ok (some ((s.completed c row execution).append event).1),
        ((s.completed c row execution).append event).2) := by
  simp only [completeControl, bind_eq_ok, require_eq_ok, ensure_eq_ok]
  refine ⟨(), h.published, row, h.found, c, h.control, (), h.ownedBy, ?_⟩
  rw [if_neg (by simp [h.applied]), if_neg (by simp [h.notCancelling])]
  simp only [bind_eq_ok, ensure_eq_ok, pure_eq_ok]
  exact ⟨(), h.applied, (), h.checked, trivial⟩

end Orchestrator.Store
