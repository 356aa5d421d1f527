import Orchestrator.Api.Workers
import Orchestrator.Persistence.Proof.Capacity
import Orchestrator.Persistence.Proof.Lifecycle

/-!
# Dead workers are fenced

After one round of the reaper no worker that has been silent for longer than the deadline owns an
unfinished reservation, provided that no such worker was left `OFFLINE` with one: the marking
statement looks at `READY` and `DRAINING` only, and the second recovery at `UNREACHABLE` only.

Two facts about calls that report nobody alive carry the proof: how they age a worker's row (`Ages`),
and that only a grant makes a worker busy, which needs the worker `READY`. So a worker that is idle
and not `READY` stays idle to the end of the round.
-/

namespace Orchestrator

open Relational Prog

namespace Store

variable {s s' : Store} {now : Timestamp} {w : WorkerId}

/-! ## Rows of workers -/

def liveness (s : Store) (w : WorkerId) : Option (WorkerState × Timestamp) :=
  (s.workers.find? w).map fun x => (x.state, x.lastHeartbeat)

variable {β : Type} {st : WorkerState} {ids : List WorkerId}

theorem liveness_eq_some {t : Timestamp} : s.liveness w = some (st, t) ↔
      ∃ x, s.workers.find? w = some x ∧ x.state = st ∧ x.lastHeartbeat = t := by
  simp [liveness]

/-- What time without heartbeats does to a worker: nothing, or it is marked unreachable. -/
inductive Ages : Option (WorkerState × Timestamp) → Option (WorkerState × Timestamp) → Prop
  | refl (p) : Ages p p
  | marked {st t} (h : st = .ready ∨ st = .draining) : Ages (some (st, t)) (some (.unreachable, t))

theorem Ages.trans {p q r : Option (WorkerState × Timestamp)} (h : Ages p q) (h' : Ages q r) :
    Ages p r := by
  cases h' with
  | refl => exact h
  | marked hst =>
    cases h with
    | refl => exact .marked hst
    | marked => cases hst <;> contradiction

theorem Ages.before {p : Option (WorkerState × Timestamp)} {t : Timestamp}
    (h : Ages p (some (st, t))) : p = some (st, t) ∨ st = .unreachable ∧ ∃ st', p = some (st', t) := by
  cases h with
  | refl => exact .inl rfl
  | marked => exact .inr ⟨rfl, _, rfl⟩

theorem Ages.settled {q : Option (WorkerState × Timestamp)} {t : Timestamp}
    (h : Ages (some (st, t)) q) (hst : st ≠ .ready ∧ st ≠ .draining) : q = some (st, t) := by
  cases h with
  | refl => rfl
  | marked h => exact absurd h (not_or.2 hst)

theorem liveness_counted {p : WorkerRegistration → Bool} {n : WorkerRegistration → Nat}
    (hs : s'.workers = s.workers.update p (fun x => { x with runningExecutions := n x })
      fun _ => rfl) : s'.liveness w = s.liveness w := by
  simp only [liveness, hs, Table.find?_update]
  cases s.workers.find? w with
  | none => rfl
  | some x => by_cases hp : p x <;> simp [hp]

theorem liveness_freeSlot (s : Store) (v : WorkerId) : (s.freeSlot v).liveness w = s.liveness w :=
  liveness_counted rfl

theorem liveness_marked {deadline : Timestamp} (h : markStaleBefore deadline s = .ok (ids, s')) :
    s'.liveness w = (s.liveness w).map fun (st, t) =>
      if (st = .ready ∨ st = .draining) ∧ t < deadline then (.unreachable, t) else (st, t) := by
  simp only [markStaleBefore, Except.ok.injEq, Prod.mk.injEq] at h
  obtain ⟨_, rfl⟩ := h
  simp only [liveness, Table.find?_update, Option.map_map]
  cases s.workers.find? w with
  | none => rfl
  | some x => by_cases hx : (x.state = .ready ∨ x.state = .draining) ∧ x.lastHeartbeat < deadline <;>
      simp [stale, hx]

theorem settled_of_marked {deadline t : Timestamp}
    (h : markStaleBefore deadline s = .ok (ids, s')) (hw : s'.liveness w = some (st, t))
    (ht : t < deadline) : st ≠ .ready ∧ st ≠ .draining := by
  rw [liveness_marked h] at hw
  obtain ⟨⟨st₀, t₀⟩, _, hw⟩ := Option.map_eq_some_iff.1 hw
  dsimp only at hw
  split at hw
  · obtain ⟨rfl, _⟩ := Prod.mk.inj hw
    exact ⟨nofun, nofun⟩
  · rename_i hnot
    obtain ⟨rfl, rfl⟩ := Prod.mk.inj hw
    exact not_or.1 fun hst => hnot ⟨hst, ht⟩

theorem ages_committed {call : StoreCall β} (h : Committed now s call s')
    (hq : call.beats = false) : Ages (s.liveness w) (s'.liveness w) := by
  have hframe := h.frame
  have hkept : s'.liveness w = s.liveness w → Ages (s.liveness w) (s'.liveness w) := by
    intro hs
    rw [hs]
    exact .refl _
  cases h with
  | register => cases hq
  | heartbeat => cases hq
  | markStaleBefore h =>
    rw [liveness_marked h]
    cases hl : s.liveness w with
    | none => exact .refl _
    | some p =>
      simp only [Option.map_some]
      split
      · rename_i hp
        exact .marked hp.1
      · exact .refl _
  | reserveNext h =>
    rcases reserveNext_spec h with ⟨_, rfl⟩ | ⟨_, _, _, _, rfl⟩
    · exact .refl _
    · exact hkept (liveness_counted rfl)
  | release h =>
    rcases release_spec h with ⟨_, rfl⟩ | ⟨_, _, rfl⟩
    · exact .refl _
    · exact hkept (liveness_freeSlot ..)
  | releaseAttempt h =>
    rcases releaseAttempt_spec h with rfl | ⟨_, _, rfl⟩
    · exact .refl _
    · exact hkept (liveness_freeSlot ..)
  | commitRetained h =>
    obtain ⟨_, _, _, _, ⟨_, _, rfl⟩ | ⟨_, _, _, _, rfl⟩⟩ := commitRetained_spec h
    · exact .refl _
    · exact hkept (liveness_freeSlot ..)
  | finalizeCleanup h =>
    have hfinal : ∀ row c t, (s.finalized now row c t).liveness w = s.liveness w := by
      intro row c t
      by_cases hr : (s.reservationOf row.id t.attemptId).isSome = true
      · rw [← liveness_freeSlot s c.workerId]
        simp [liveness, finalized, hr]
      · simp [liveness, finalized, hr]
    obtain ⟨_, _, _, _, _, _, _, rfl⟩ | ⟨_, _, _, _, _, ⟨_, rfl⟩ | ⟨_, _, _, rfl⟩⟩ :=
      finalizeCleanup_spec h
    · exact .refl _
    · exact hkept (hfinal ..)
    · exact hkept (hfinal ..)
  | _ =>
    refine hkept ?_
    rw [liveness, liveness, hframe.workers (by simp [StoreCall.writes])]

/-! ## Idle workers -/

theorem holdsUnfinished_iff (hL : ∀ e, (s.life e).Linked) :
    s.holdsUnfinished w = true ↔ ∃ e, (s.life e).Busy w := by
  simp only [holdsUnfinished, List.any_eq_true, Bool.and_eq_true, decide_eq_true_eq,
    Option.any_eq_true, Option.isNone_iff_eq_none]
  constructor
  · rintro ⟨r, hmem, rfl, t, ht, hfin⟩
    have hr : s.reservations.find? r.executionId = some r := Table.find?_eq_some.2 ⟨hmem, rfl⟩
    obtain ⟨f, hf⟩ := (hL r.executionId).attempt _ (life_held hr)
    obtain ⟨t', ht', hte, hx⟩ := life_attempts_eq_some.1 hf
    obtain rfl := Option.mem_unique ht ht'
    exact ⟨r.executionId, r.attemptId, t.workerId, life_held hr,
      life_attempts_eq_some.2 ⟨t, ht, hte, by rw [hfin]; rfl⟩⟩
  · rintro ⟨e, a, v, hheld, hatt⟩
    obtain ⟨r, hr, hx⟩ := Option.map_eq_some_iff.1 hheld
    obtain ⟨t, ht, _, htx⟩ := life_attempts_eq_some.1 hatt
    cases hx
    exact ⟨r, (Table.find?_eq_some.1 hr).1, rfl, t, ht, by simpa using (Trial.mk.inj htx).2.symm⟩

theorem holdsUnfinished_eq_false (hL : ∀ e, (s.life e).Linked) :
    s.holdsUnfinished w = false ↔ ∀ e, ¬ (s.life e).Busy w := by
  rw [← Bool.not_eq_true, holdsUnfinished_iff hL, not_exists]

theorem Grant.ready {worker : WorkerRegistration} {row : ExecutionRow} {a : AttemptId}
    (hg : Grant s worker row w a) : worker.state = .ready := by
  have hfits := hg.fits
  by_contra hst
  simp [workerFitsWithReservations, hst] at hfits

theorem busy_committed {call : StoreCall β} (h : Committed now s call s')
    (hw : ∀ t, s.liveness w ≠ some (.ready, t)) {e : ExecutionId} (hb : (s'.life e).Busy w) :
    (s.life e).Busy w := by
  rcases life_committed h e with hsame | ⟨act, hact, hst⟩
  · exact hsame ▸ hb
  rcases hst.busy_old hb with hold | ⟨a, rfl⟩
  · exact hold
  cases h with
  | reserveNext h =>
    obtain ⟨rfl, rfl⟩ := hact
    rcases reserveNext_spec h with ⟨_, rfl⟩ | ⟨worker, _, hg, _, _⟩
    · exact hb
    · exact absurd (liveness_eq_some.2 ⟨worker, hg.foundWorker, hg.ready, rfl⟩) (hw _)
  | _ => cases hact

/-- `w` is known, not `READY`, and idle. -/
structure Retired (s : Store) (w : WorkerId) : Prop where
  unready : ∀ t, s.liveness w ≠ some (.ready, t)
  idle : ∀ e, ¬ (s.life e).Busy w

theorem Retired.run (h : Retired s w) (hrun : Reaches Step unbeaten s s') : Retired s' w := by
  refine Reaches.invariant (I := fun t => Retired t w) (fun s₁ l s₂ hI hq hst => ?_) hrun h
  rcases hst.cases with rfl | hc
  · exact hI
  refine ⟨fun t ht => ?_, fun e he => hI.idle e (busy_committed hc hI.unready he)⟩
  have hages := ages_committed (w := w) hc hq
  rw [ht] at hages
  rcases hages.before with hold | ⟨hst', _⟩
  · exact hI.unready t hold
  · cases hst'

theorem ages_run (hrun : Reaches Step unbeaten s s') : Ages (s.liveness w) (s'.liveness w) := by
  refine Reaches.invariant (I := fun t => Ages (s.liveness w) (t.liveness w))
    (fun s₁ l s₂ hI hq hst => ?_) hrun (.refl _)
  rcases hst.cases with rfl | hc
  · exact hI
  · exact hI.trans (ages_committed hc hq)

theorem linked_run {ok : Store → Label → Prop} (hL : ∀ e, (s.life e).Linked)
    (hrun : Reaches Step ok s s') : ∀ e, (s'.life e).Linked :=
  Reaches.invariant (I := fun t => ∀ e, (t.life e).Linked)
    (fun _ _ _ hI _ hst => linked_step hI hst) hrun hL

theorem retired_of_recovered {rs : List LostWorkerRecovery} (hL : ∀ e, (s.life e).Linked)
    (h : recoverUnreachable now w s = .ok (rs, s')) : Retired s' w := by
  have hframe := recover_frame h
  refine ⟨fun t ht => ?_, fun e => ?_⟩
  · obtain ⟨⟨x, hx, hst⟩, _⟩ := recoverUnreachable_spec h
    obtain ⟨y, hy, hready, _⟩ := liveness_eq_some.1 ht
    rw [hframe.workers (by simp), hx] at hy
    rw [← Option.some.inj hy, hst] at hready
    cases hready
  · rintro ⟨a, v, hheld, hatt⟩
    obtain ⟨r, hr, hx⟩ := Option.map_eq_some_iff.1 hheld
    cases hx
    rw [hframe.reservations (by simp)] at hr
    obtain ⟨t, ht, hte, htx⟩ := life_attempts_eq_some.1 hatt
    obtain ⟨rfl, hfin⟩ := Trial.mk.inj htx
    have hid : r.executionId = e := reservation_id hr
    have hrow : (s.executions.find? e).isSome := by
      have hcur := (hL e).current _ (life_held hr)
      cases hx : s.executions.find? e with
      | none => simp [life, hx] at hcur
      | some row => rfl
    have hL' := linked_step (l := ⟨_, .recoverUnreachable r.workerId, now⟩) hL
      (congrArg Prod.snd (Txn.run_ok.2 h))
    obtain ⟨f, hf⟩ := (hL' e).attempt _ hheld
    obtain ⟨t', ht', _, hx'⟩ := life_attempts_eq_some.1 hf
    obtain rfl := Option.mem_unique ht ht'
    have hmem : r ∈ s.reservationsOf r.workerId :=
      mem_reservationsOf.2 ⟨hid.symm ▸ hr, rfl, hid.symm ▸ hrow⟩
    exact recoverUnreachable_closed h hmem ht (hte.trans hid.symm) (Trial.mk.inj hx').1.symm
      (by simpa using hfin.symm)

/-! ## A round of the reaper -/

section Round

variable {deadline : Timestamp}

def Reaping {β : Type} : StoreCall β → Prop
  | .markStaleBefore _ | .recoverUnreachable _ | .listWorkers => True
  | _ => False

theorem Reaping.beats {c : StoreCall β} (h : Reaping c) : c.beats = false := by
  cases c <;> first | rfl | cases h

theorem only_recoverEach (ids : List WorkerId) : (recoverEach ids).run.Only Reaping :=
  .forEach (fun _ => .seq (.attempt trivial) fun _ => .pure _) ids

theorem only_recoverStranded : recoverStranded.run.Only Reaping :=
  .seq (.attempt trivial) fun _ => .seq (only_recoverEach _) fun _ => .pure _

theorem only_reap (now : Timestamp) : (reap now).run.Only Reaping :=
  .seq (.seq (.attempt trivial) fun _ =>
    .seq (only_recoverEach _) fun _ => .pure _) fun _ =>
    .seq only_recoverStranded fun _ => .pure _

theorem reaches_of_runs {α : Type} {p : Prog StoreCall α} {a : α} (hp : p.Only Reaping)
    (h : Runs StoreCall.Sem quiet p s a s') : Reaches Step unbeaten s s' :=
  Runs.invariant (P := Reaping) (I := Reaches Step unbeaten s)
    (fun c _ _ _ hc hI ⟨now, hexec⟩ => hI.snoc (l := ⟨_, c, now⟩) hc.beats (by rw [Step, hexec]))
    (fun _ _ hI ⟨_, hq, hst⟩ => hI.snoc hq hst) h hp .refl

theorem marked_of_reapStale {stale : List WorkerId} {now : Timestamp}
    (h : Runs StoreCall.Sem quiet (reapStale now).run s (.ok stale) s') :
    ∃ s₁ s₂ ids, Reaches Step unbeaten s s₁ ∧
      markStaleBefore (now - heartbeatDeadline) s₁ = .ok (ids, s₂) ∧ Reaches Step unbeaten s₂ s' := by
  obtain ⟨ids, s₃, hmark, hrest⟩ := runs_bind_ok.1 h
  obtain ⟨s₁, s₂, hbefore, ⟨_, hexec⟩, hafter⟩ := runs_ask hmark
  have hrest' := reaches_of_runs (.seq (only_recoverEach _) fun _ => .pure _) hrest
  exact ⟨s₁, s₂, ids, hbefore, Txn.run_ok.1 hexec, hafter.trans hrest'⟩

theorem retired_of_recoverStranded (hL : ∀ e, (s.life e).Linked) {t : Timestamp}
    (hw : s.liveness w = some (.unreachable, t))
    (h : Runs StoreCall.Sem quiet recoverStranded.run s (.ok ids) s') : Retired s' w := by
  obtain ⟨workers, s₃, hlist, hrest⟩ := runs_bind_ok.1 h
  obtain ⟨s₁, s₂, hbefore, ⟨_, hexec⟩, hafter⟩ := runs_ask hlist
  obtain ⟨hworkers, rfl⟩ := Prod.mk.inj hexec
  obtain rfl := Except.ok.inj hworkers
  obtain ⟨_, s₄, hloop, hdone⟩ := runs_bind_ok.1 hrest
  -- the row is as it was when the workers are listed
  have hages := ages_run (w := w) hbefore
  rw [hw] at hages
  obtain ⟨x, hx, hst, _⟩ := liveness_eq_some.1 (hages.settled ⟨nofun, nofun⟩)
  have hmem : w ∈ (s₁.listWorkers.filter fun w => w.state = .unreachable).map fun w => w.id := by
    refine List.mem_map.2 ⟨x, List.mem_filter.2 ⟨?_, by simpa using hst⟩, worker_id hx⟩
    exact (List.mem_insertionSort _).2 (Table.find?_eq_some.1 hx).1
  obtain ⟨l₁, l₂, s₅, s₆, hpre, hrec, hpost⟩ := runs_forEach_mem hloop hmem
  obtain ⟨rs, s₉, hask, hret⟩ := runs_bind_ok.1 hrec
  obtain ⟨s₇, s₈, hbefore', ⟨_, hexec'⟩, hafter'⟩ := runs_ask hask
  have hlinked := linked_run (linked_run hL ((hbefore.trans hafter).trans
    (reaches_of_runs (only_recoverEach l₁) hpre))) hbefore'
  have hretired := retired_of_recovered hlinked (Txn.run_ok.1 hexec')
  have htail := (hafter'.trans (runs_pure hret).2).trans
    (reaches_of_runs (only_recoverEach l₂) hpost)
  exact (hretired.run htail).run (runs_pure hdone).2

/-- A worker that is silent at the end of the round is idle, unless it was `OFFLINE` and busy at the
start. -/
theorem retired_of_reap (hL : ∀ e, (s.life e).Linked) {now t : Timestamp}
    (h : Runs StoreCall.Sem quiet (reap now).run s (.ok ()) s') (ht : t < now - heartbeatDeadline)
    (hw : s'.liveness w = some (st, t))
    (hoff : s.liveness w = some (.offline, t) → ∀ e, ¬ (s.life e).Busy w) : Retired s' w := by
  obtain ⟨_, s₄, hstale, hrest⟩ := runs_bind_ok.1 h
  obtain ⟨_, s₅, hstranded, hdone⟩ := runs_bind_ok.1 hrest
  obtain ⟨s₁, s₂, ids, hbefore, hmark, hafter⟩ := marked_of_reapStale hstale
  have hstep : Reaches Step unbeaten s₁ s₂ :=
    .single (l := ⟨_, .markStaleBefore (now - heartbeatDeadline), now⟩)
      (congrArg Prod.snd (Txn.run_ok.2 hmark)) rfl
  have hend := reaches_of_runs only_recoverStranded hstranded
  have hlast := (runs_pure hdone).2
  -- after the marking the row is settled, so it is what it is at the end
  have hages := ages_run (w := w) ((hafter.trans hend).trans hlast)
  obtain ⟨st₂, hw₂⟩ : ∃ st₂, s₂.liveness w = some (st₂, t) := by
    rw [hw] at hages
    rcases hages.before with hsame | ⟨_, hst⟩
    · exact ⟨st, hsame⟩
    · exact hst
  have hsettled := settled_of_marked hmark hw₂ ht
  cases st₂ with
  | ready => exact absurd rfl hsettled.1
  | draining => exact absurd rfl hsettled.2
  | offline =>
    have hstart := ages_run (w := w) (hbefore.trans hstep)
    rw [hw₂] at hstart
    have hw₀ : s.liveness w = some (.offline, t) := hstart.before.resolve_right fun h => nomatch h.1
    have hretired : Retired s w := ⟨fun u hu => (by cases hw₀.symm.trans hu), hoff hw₀⟩
    exact hretired.run ((((hbefore.trans hstep).trans hafter).trans hend).trans hlast)
  | unreachable =>
    have hmid := ages_run (w := w) hafter
    rw [hw₂] at hmid
    have hlinked := linked_run hL ((hbefore.trans hstep).trans hafter)
    exact (retired_of_recoverStranded hlinked (hmid.settled hsettled) hstranded).run hlast

theorem untouched_of_reap {now t : Timestamp} {e : ExecutionId}
    (h : Runs StoreCall.Sem alone (reap now).run s (.ok ()) s')
    (hw : s.liveness w = some (.offline, t)) (hb : (s.life e).Busy w) :
    s'.liveness w = some (.offline, t) ∧ s'.life e = s.life e := by
  refine Runs.invariant (P := Reaping)
    (I := fun u => u.liveness w = some (.offline, t) ∧ u.life e = s.life e) ?_ (fun _ _ _ => False.elim)
    h (only_reap now) ⟨hw, rfl⟩
  rintro β c s₁ b s₂ hc ⟨hw₁, hlife⟩ ⟨now', hexec⟩
  have hst : Step s₁ ⟨β, c, now'⟩ s₂ := by rw [Step, hexec]
  rcases hst.cases with rfl | hcommit
  · exact ⟨hw₁, hlife⟩
  have hages := ages_committed (w := w) hcommit hc.beats
  rw [hw₁] at hages
  have hw₂ := hages.settled (by simp)
  refine ⟨hw₂, ?_⟩
  have hdoes := life_committed hcommit e
  cases hcommit with
  | markStaleBefore =>
    rcases hdoes with hsame | ⟨_, hact, _⟩
    · rw [hsame, hlife]
    · cases hact
  | recoverUnreachable hrec =>
    rcases life_recoverUnreachable (e := e) hrec with ⟨hsame, _⟩ | ⟨a, hheld, _⟩
    · rw [hsame, hlife]
    · -- the recovered worker is unreachable, and so another one
      obtain ⟨a', _, hheld', _⟩ := hb
      rw [hlife] at hheld
      obtain ⟨_, rfl⟩ := Holding.mk.inj (Option.mem_unique hheld hheld')
      obtain ⟨⟨x, hx, hst'⟩, _⟩ := recoverUnreachable_spec hrec
      cases hw₁.symm.trans (liveness_eq_some.2 ⟨x, hx, hst', rfl⟩)
  | _ => cases hc

end Round

end Store

open Store

/-- One round of the reaper fences every worker that has been silent since the deadline if and only
if no such worker was `OFFLINE` with an unfinished reservation when the round began; the condition
also suffices when other calls, none of them a heartbeat, commit during the round. -/
theorem dead_workers_fenced {s : Store} (hs : Reachable s) (now : Timestamp) :
    (∀ s', Runs StoreCall.Sem quiet (reap now).run s (.ok ()) s' →
      s.OfflineIdle (now - heartbeatDeadline) → s'.DeadFenced (now - heartbeatDeadline)) ∧
    ∀ s', Runs StoreCall.Sem alone (reap now).run s (.ok ()) s' →
      (s'.DeadFenced (now - heartbeatDeadline) ↔ s.OfflineIdle (now - heartbeatDeadline)) := by
  have hL := linked_of_reachable hs
  have hfenced : ∀ s', Runs StoreCall.Sem quiet (reap now).run s (.ok ()) s' →
      s.OfflineIdle (now - heartbeatDeadline) → s'.DeadFenced (now - heartbeatDeadline) := by
    intro s' hrun hidle w x hx ht
    have hL' := linked_run hL (reaches_of_runs (only_reap now) hrun)
    refine (holdsUnfinished_eq_false hL').2 (retired_of_reap hL hrun ht
      (liveness_eq_some.2 ⟨x, hx, rfl, rfl⟩) fun hoff => ?_).idle
    obtain ⟨y, hy, hst, hyt⟩ := liveness_eq_some.1 hoff
    exact (holdsUnfinished_eq_false hL).1 (hidle w y hy (hyt ▸ ht) hst)
  refine ⟨hfenced, fun s' hrun => ⟨fun hdead w x hx ht hst => ?_, hfenced s' (hrun.mono nofun)⟩⟩
  rw [holdsUnfinished_eq_false hL]
  intro e hb
  obtain ⟨hw', hlife⟩ := untouched_of_reap hrun (liveness_eq_some.2 ⟨x, hx, hst, rfl⟩) hb
  obtain ⟨y, hy, _, hyt⟩ := liveness_eq_some.1 hw'
  have hL' := linked_run hL (reaches_of_runs (only_reap now) (hrun.mono nofun))
  exact (holdsUnfinished_eq_false hL').1 (hdead w y hy (hyt ▸ ht)) e (hlife ▸ hb)

namespace Sample

/-- The worker's last report, before it goes silent, is that its disk is full. -/
def unwell : List Label :=
  assigned ++ [⟨_, .heartbeat (ownLiveness 3
    { worker with
      capabilities := { worker.capabilities with healthErrors := ["disk-pressure-bytes"] } }), 3⟩]

def reapTime : Timestamp := 200 * 1000000

def reaped (s : Store) : Except StoreError Unit × Store :=
  (reap reapTime).run.eval (fun c s => c.exec reapTime s) s

theorem reaped_runs {env : Store → Store → Prop} {s : Store} (h : (reaped s).1 = .ok ()) :
    Runs StoreCall.Sem env (reap reapTime).run s (.ok ()) (reaped s).2 :=
  h ▸ eval_runs _ (fun _ _ => ⟨reapTime, rfl⟩) _ _

end Sample

open Sample in
theorem dead_workers_fenced_sample : (after initial assigned).holdsUnfinished ⟨"w"⟩ = true ∧
      (after initial assigned).OfflineIdle (reapTime - heartbeatDeadline) ∧
      (reaped (after initial assigned)).2.DeadFenced (reapTime - heartbeatDeadline) := by
  have hok : (reaped (after initial assigned)).1 = .ok () := by decide
  have hidle : (after initial assigned).OfflineIdle (reapTime - heartbeatDeadline) := by
    intro w x hx _ hst
    have hready : ∀ x ∈ (after initial assigned).workers.rows, x.state = .ready := by decide
    cases (hready x (Table.find?_eq_some.1 hx).1).symm.trans hst
  exact ⟨by decide, hidle, (dead_workers_fenced (reachable_after assigned) reapTime).1 _ (reaped_runs hok) hidle⟩

open Sample in
/-- A worker that reported a health error and then went silent is never fenced: the round succeeds
and leaves it its unfinished reservation. -/
theorem offline_worker_unfenced : ∃ s', Reachable (after initial unwell) ∧
    Runs StoreCall.Sem alone (reap reapTime).run (after initial unwell) (.ok ()) s' ∧
    ¬ s'.DeadFenced (reapTime - heartbeatDeadline) := by
  have hok : (reaped (after initial unwell)).1 = .ok () := by decide
  refine ⟨_, reachable_after unwell, reaped_runs hok, fun hdead => ?_⟩
  have hw : (reaped (after initial unwell)).2.liveness ⟨"w"⟩ = some (.offline, 3) := by decide
  have hbusy : (reaped (after initial unwell)).2.holdsUnfinished ⟨"w"⟩ = true := by decide
  obtain ⟨x, hx, _, ht⟩ := liveness_eq_some.1 hw
  have hidle := hdead ⟨"w"⟩ x hx (by rw [ht]; decide)
  cases hbusy.symm.trans hidle

end Orchestrator
