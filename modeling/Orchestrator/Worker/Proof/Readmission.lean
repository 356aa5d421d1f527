import Orchestrator.Persistence.Proof.Capacity
import Orchestrator.Worker.Admission

/-!
# Re-admission

A granted attempt can open its cleanup authority exactly when its execution has none yet. Authority
rows are never deleted, and `begin` refuses every row of another attempt, resolved or not; so the
second attempt of an execution that `finalize_cleanup` put back to `QUEUED` is granted a reservation
and then refused.
-/

namespace Orchestrator

open Txn Relational

namespace Plane

variable {p p' : Plane} {m : Move}

/-! ## Authorities belong to attempts -/

theorem asked_of_produced (hm : Produced p m) {e : ExecutionId} {act : Life.Act}
    (hact : m.performs e act) : (p.store.life e).Asked act := by
  cases m with
  | call l =>
    obtain ⟨β, call, now⟩ := l
    cases call
    case begin => cases hm
    all_goals cases act <;> trivial
  | begin now id a w =>
    cases act
    case begin =>
      obtain ⟨rfl, rfl, rfl⟩ := hact
      obtain ⟨t, ht, htw⟩ := Option.map_eq_some_iff.1 hm
      exact ⟨t.finishedAt.isSome, by simp [Store.life, ht, htw]⟩
    all_goals trivial
  | release id => cases act <;> trivial

theorem opened_of_run {ok : Plane → Move → Prop} (h : Run ok p) (e : ExecutionId) :
    (p.store.life e).Opened := by
  refine h.invariant (I := fun q => (q.store.life e).Opened) Life.opened_unborn ?_
  intro q m q' hI hm _ hst
  obtain rfl := hst
  rcases life_next q m e with hsame | ⟨act, hact, hst⟩
  · rw [hsame]
    exact hI
  · exact hI.step (asked_of_produced hm hact) hst

/-! ## Opening the authority of a granted attempt -/

/-- The authority of `e` is open for attempt `a` on worker `w` and holds nothing yet. -/
def ReservedFor (s : Store) (e : ExecutionId) (a : AttemptId) (w : WorkerId) : Prop :=
  ∃ c, s.authorities.find? e = some c ∧ c.attemptId = a ∧ c.workerId = w ∧
    c.phase = .active .reserved

theorem begin_of_none {s : Store} {now : Timestamp} {e : ExecutionId} {a : AttemptId}
    {w : WorkerId} (h : s.authorities.find? e = none) :
    Store.begin now e a w s = .ok ((), { s with
      authorities := s.authorities.put ⟨e, a, w, .active .reserved, {}, now⟩ }) := by
  rw [Store.begin, h]

/-- **Re-admission.** Whatever run of the repository's code led to the grant of `e` to `w` as attempt
`a`, opening its cleanup authority succeeds, and leaves the row of exactly `(e, a, w)` in
`ACTIVE:RESERVED`, just when no attempt of `e` ever opened one before. -/
theorem begin_after_grant_iff (hp : Run free p) {now now' : Timestamp} {e : ExecutionId}
    {w : WorkerId} {a : AttemptId} {locked : List ExecutionId} {r : Reservation} {s' : Store}
    (hgrant : Store.reserveNext now w a locked p.store = .ok (some r, s'))
    (he : r.execution.id = e) :
    (∃ s'', Store.begin now' e a w s' = .ok ((), s'') ∧ ReservedFor s'' e a w) ↔
      p.store.authorities.find? e = none := by
  rcases Store.reserveNext_spec hgrant with ⟨hr, _⟩ | ⟨worker, row, hg, hr, rfl⟩
  · cases hr
  obtain rfl := Option.some.inj hr
  obtain rfl : row.id = e := he
  constructor
  · rintro ⟨s'', hbegin, _⟩
    rcases Store.begin_spec hbegin with ⟨hnone, _⟩ | ⟨c, hc, hca, _, _⟩
    · exact hnone
    · -- a row of this attempt would make the attempt known before it was granted
      have hc' : p.store.authorities.find? row.id = some c := hc
      obtain ⟨f, hf⟩ := opened_of_run hp row.id _ (Store.life_custody hc')
      obtain ⟨t, ht, _, _⟩ := Store.life_attempts_eq_some.1 hf
      cases ht.symm.trans (hca ▸ hg.freshAttempt)
  · intro hnone
    have hfree : (p.store.granted now row w a).authorities.find? row.id = none := hnone
    exact ⟨_, begin_of_none hfree, ⟨row.id, a, w, .active .reserved, {}, now'⟩, by simp, rfl, rfl, rfl⟩

end Plane

/-! ## The second attempt of the sample execution -/

namespace Sample

open Plane

def queued : List Move := setup.map .call

/-- The first attempt is granted and opened, found lost by a restarted worker, and cleaned up. -/
def requeued : List Move :=
  queued ++
  [.call ⟨_, .reserveNext ⟨"w"⟩ ⟨"a"⟩ [], 2⟩, .begin 3 ⟨"e"⟩ ⟨"a"⟩ ⟨"w"⟩,
    .call ⟨_, .fenceLostAttempt ⟨"e"⟩ ⟨"a"⟩, 4⟩,
    .call ⟨_, .transitionCleanup ⟨"e"⟩ .cleanupPending .runtimeStopped {}, 5⟩,
    .call ⟨_, .transitionCleanup ⟨"e"⟩ .runtimeStopped .runtimeDestroyed {}, 6⟩,
    .call ⟨_, .transitionCleanup ⟨"e"⟩ .runtimeDestroyed .gitRecoveredCleaned {}, 7⟩,
    .call ⟨_, .transitionCleanup ⟨"e"⟩ .gitRecoveredCleaned .storageReleased {}, 8⟩,
    .call ⟨_, .finalizeCleanup ⟨"e"⟩ ⟨"a"⟩, 9⟩, .call ⟨_, .resolve ⟨"e"⟩, 10⟩]

theorem run_requeued : Run free (start.after requeued) := run_after .start (by decide)

def grant (now : Timestamp) (a : AttemptId) : Reservation :=
  { execution :=
      { execution with
        state := .workerAssigned, workerId := some ⟨"w"⟩, attemptId := some a
        labels := { execution.labels with workerId := ⟨"w"⟩ }, updatedAt := now }
    workerId := ⟨"w"⟩, attemptId := a, cpu := 2, memoryMib := 4096 }

end Sample

open Plane Sample in
theorem begin_after_grant_sample : ∃ s' s'',
    Store.reserveNext 2 ⟨"w"⟩ ⟨"a"⟩ [] (start.after queued).store = .ok (some (grant 2 ⟨"a"⟩), s') ∧
      Store.begin 3 ⟨"e"⟩ ⟨"a"⟩ ⟨"w"⟩ s' = .ok ((), s'') ∧ ReservedFor s'' ⟨"e"⟩ ⟨"a"⟩ ⟨"w"⟩ := by
  have hrun : Run free (start.after queued) := run_after .start (by decide)
  obtain ⟨s', hs'⟩ := exists_of_reply (a := some (grant 2 ⟨"a"⟩))
    (x := Store.reserveNext 2 ⟨"w"⟩ ⟨"a"⟩ [] (start.after queued).store) (by decide)
  obtain ⟨s'', hopen⟩ := (begin_after_grant_iff hrun hs' rfl).2 (by decide)
  exact ⟨s', s'', hs', hopen⟩

open Plane Sample in
/-- The requeued execution is granted to attempt `b`, whose authority is then refused. -/
theorem readmission_refused : ¬ ∀ p, Run free p → ∀ now now' e w a locked r s',
    Store.reserveNext now w a locked p.store = .ok (some r, s') → r.execution.id = e →
      ∃ s'', Store.begin now' e a w s' = .ok ((), s'') ∧ ReservedFor s'' e a w := by
  intro h
  obtain ⟨s', hs'⟩ := exists_of_reply (a := some (grant 11 ⟨"b"⟩))
    (x := Store.reserveNext 11 ⟨"w"⟩ ⟨"b"⟩ [] (start.after requeued).store) (by decide)
  obtain ⟨s'', hbegin, _⟩ := h _ run_requeued 11 12 ⟨"e"⟩ _ _ _ _ s' hs' rfl
  have hrefused : (Store.reserveNext 11 ⟨"w"⟩ ⟨"b"⟩ [] (start.after requeued).store >>= fun x =>
      Store.begin 12 ⟨"e"⟩ ⟨"b"⟩ ⟨"w"⟩ x.2).map Prod.fst =
        .error (.conflict "cleanup authority for e belongs to another attempt") := by decide
  rw [hs'] at hrefused
  have hok : (Store.begin 12 ⟨"e"⟩ ⟨"b"⟩ ⟨"w"⟩ s').map Prod.fst = .ok () := by
    rw [hbegin]
    rfl
  exact absurd (hok.symm.trans hrefused) (by simp)

end Orchestrator
