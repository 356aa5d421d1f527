import Orchestrator.Persistence.Proof.Frame

/-!
# Capacity accounting

`workers.running_executions` counts the reservations of the worker, in every reachable database, and
a grant never exceeds what the worker advertises at that moment. Only three things happen to the two
tables involved (`LedgerStep`): a worker advertises itself, a reservation is granted, or one is given
back; every transaction is one of these or leaves both tables alone.
-/

namespace Orchestrator

open Txn Relational

namespace Store

variable {s s' : Store} {now : Timestamp}

def running (s : Store) (w : WorkerId) : Option Nat :=
  (s.workers.find? w).map fun r => r.runningExecutions

def held (s : Store) (w : WorkerId) : Nat := s.reservations.count fun r => r.workerId = w

/-- What can happen to workers and reservations. -/
inductive LedgerStep (s s' : Store) : Prop
  | advertise (same : s'.reservations = s.reservations)
      (counters : ∀ w, s'.running w = s.running w ∨ (s.running w = none ∧ s'.running w = some 0))
  | grant (r : ReservationRow) (n : Nat) (free : s.reservations.find? r.executionId = none)
      (known : s.running r.workerId = some n) (put : s'.reservations = s.reservations.put r)
      (counters : ∀ w, s'.running w = if w = r.workerId then some (n + 1) else s.running w)
  | giveBack (r : ReservationRow) (taken : s.reservations.find? r.executionId = some r)
      (erase : s'.reservations = s.reservations.erase r.executionId)
      (counters : ∀ w, s'.running w =
        if w = r.workerId then (s.running w).map (· - 1) else s.running w)

theorem LedgerStep.refl (hw : s'.workers = s.workers) (hr : s'.reservations = s.reservations) :
    LedgerStep s s' :=
  .advertise hr fun w => .inl (by rw [running, running, hw])

theorem LedgerStep.congr {s₁ : Store} (h : LedgerStep s s₁) (hw : s'.workers = s₁.workers)
    (hr : s'.reservations = s₁.reservations) : LedgerStep s s' := by
  have hrun : ∀ w, s'.running w = s₁.running w := fun w => by rw [running, running, hw]
  cases h with
  | advertise same counters => exact .advertise (hr.trans same) fun w => hrun w ▸ counters w
  | grant r n free known put counters =>
    exact .grant r n free known (hr.trans put) fun w => (hrun w).trans (counters w)
  | giveBack r taken erase counters =>
    exact .giveBack r taken (hr.trans erase) fun w => (hrun w).trans (counters w)

theorem running_dropReservation (s : Store) (e : ExecutionId) (w v : WorkerId) :
    (s.dropReservation e w).running v =
      if v = w then (s.running v).map (· - 1) else s.running v := by
  simp only [running, dropReservation, freeSlot, Table.find?_update, Option.map_map]
  cases hv : s.workers.find? v with
  | none => simp
  | some row =>
    have hid : row.id = v := worker_id hv
    by_cases h : v = w <;> simp [h, hid]

variable {r : ReservationRow} {worker : WorkerRegistration} {row : ExecutionRow} {w : WorkerId}
  {a : AttemptId}

theorem ledger_dropReservation {e : ExecutionId}
    (hr : s.reservations.find? e = some r) (hw : s'.workers = (s.dropReservation e r.workerId).workers)
    (hres : s'.reservations = s.reservations.erase e) : LedgerStep s s' := by
  have he : r.executionId = e := reservation_id hr
  subst he
  refine .giveBack r hr hres fun w => ?_
  rw [← running_dropReservation s r.executionId r.workerId w]
  simp only [running, hw]

theorem running_put_advertised {worker old : WorkerRegistration}
    (hold : s.workers.find? worker.id = some old) (w : WorkerId) :
    (({ s with workers := s.workers.put (advertised old worker) } : Store)).running w =
      s.running w := by
  have hid : old.id = worker.id := worker_id hold
  simp only [running, Table.find?_put, advertised]
  by_cases h : old.id = w
  · rw [if_pos h, ← h, hid, hold]
    rfl
  · rw [if_neg h]

theorem ledger_granted (hg : Grant s worker row w a) : LedgerStep s (s.granted now row w a) := by
  refine .grant _ worker.runningExecutions hg.unreserved (by simp [running, hg.foundWorker]) rfl ?_
  intro v
  simp only [running, granted, Table.find?_update]
  by_cases hv : v = w
  · subst hv
    simp [hg.foundWorker, worker_id hg.foundWorker]
  · rw [if_neg hv]
    cases h : s.workers.find? v with
    | none => rfl
    | some x => simp [worker_id h, hv]

theorem ledger_finalized (now : Timestamp) {e : ExecutionId}
    {c : CleanupAuthority} {t : AttemptRow} (hf : Final s e a row c t) :
    LedgerStep s (s.finalized now row c t) := by
  have hid : row.id = e := execution_id hf.found
  have hta : t.attemptId = a := attempt_id hf.attempt
  by_cases hres : (s.reservationOf row.id t.attemptId).isSome
  · obtain ⟨r, hr⟩ := Option.isSome_iff_exists.1 hres
    obtain ⟨hr, hra⟩ := reservationOf_eq_some.1 hr
    have hw : r.workerId = c.workerId := hf.reserved r (hid ▸ hr) (hra.trans hta)
    refine ledger_dropReservation hr ?_ ?_ <;>
      simp [finalized, hres, dropReservation, freeSlot, hw]
  · exact .refl (by simp [finalized, hres]) (by simp [finalized, hres])

theorem ledger_committed {β : Type} {call : StoreCall β} (h : Committed now s call s') :
    LedgerStep s s' := by
  have hframe := h.frame
  cases h with
  | @register worker _ _ h =>
    rcases register_spec h with ⟨hnone, rfl⟩ | ⟨old, hold, rfl⟩
    · refine .advertise rfl fun w => ?_
      by_cases hw : worker.id = w
      · subst hw
        exact .inr ⟨by simp [running, hnone], by simp [running]⟩
      · exact .inl (by simp [running, hw])
    · exact .advertise rfl fun w => .inl (running_put_advertised hold w)
  | heartbeat h =>
    obtain ⟨old, hold, rfl⟩ := heartbeat_spec h
    exact .advertise rfl fun w => .inl (running_put_advertised hold w)
  | @markStaleBefore deadline _ _ h =>
    simp only [Store.markStaleBefore, Except.ok.injEq, Prod.mk.injEq] at h
    obtain ⟨_, rfl⟩ := h
    refine .advertise rfl fun w => .inl ?_
    simp only [running, Table.find?_update]
    cases s.workers.find? w with
    | none => rfl
    | some x => by_cases hx : stale deadline x <;> simp [hx]
  | reserveNext h =>
    rcases reserveNext_spec h with ⟨_, rfl⟩ | ⟨worker, row, hg, _, rfl⟩
    · exact .refl rfl rfl
    · exact ledger_granted hg
  | release h =>
    rcases release_spec h with ⟨_, rfl⟩ | ⟨r, hr, rfl⟩
    · exact .refl rfl rfl
    · exact ledger_dropReservation hr rfl rfl
  | releaseAttempt h =>
    rcases releaseAttempt_spec h with rfl | ⟨r, hr, rfl⟩
    · exact .refl rfl rfl
    · exact ledger_dropReservation hr rfl rfl
  | commitRetained h =>
    obtain ⟨row, c, t, _, ⟨_, _, rfl⟩ | ⟨r, hr, _, _, rfl⟩⟩ := commitRetained_spec h
    · exact .refl rfl rfl
    · exact ledger_dropReservation hr rfl rfl
  | finalizeCleanup h =>
    obtain ⟨_, _, _, _, _, _, _, rfl⟩ | ⟨row, c, t, hf, _, ⟨_, rfl⟩ | ⟨_, _, _, rfl⟩⟩ :=
      finalizeCleanup_spec h
    · exact .refl rfl rfl
    · exact ledger_finalized now hf
    · exact (ledger_finalized now hf).congr rfl rfl
  | _ =>
    exact .refl (hframe.workers (by simp [StoreCall.writes]))
      (hframe.reservations (by simp [StoreCall.writes]))

/-! ## The invariant -/

/-- Counters count, and reservations name registered workers. -/
structure Ledger (s : Store) : Prop where
  counted : ∀ w n, s.running w = some n → n = s.held w
  registered : ∀ e r, s.reservations.find? e = some r → ∃ n, s.running r.workerId = some n

theorem held_put (h : s.reservations.find? r.executionId = none)
    (hs : s'.reservations = s.reservations.put r) (w : WorkerId) :
    s'.held w = s.held w + if r.workerId = w then 1 else 0 := by
  simp only [held, Table.count, hs, Table.total_put, Table.total_erase_of_none h, Table.weight,
    decide_eq_true_eq]

theorem held_erase (h : s.reservations.find? r.executionId = some r)
    (hs : s'.reservations = s.reservations.erase r.executionId) (w : WorkerId) :
    s.held w = s'.held w + if r.workerId = w then 1 else 0 := by
  simp only [held, Table.count, hs, Table.total_of_find? h, Table.weight, decide_eq_true_eq]

theorem Ledger.step (h : Ledger s) (hs : LedgerStep s s') : Ledger s' := by
  cases hs with
  | advertise same counters =>
    have hheld : ∀ w, s'.held w = s.held w := fun w => by rw [held, held, same]
    refine ⟨fun w n hn => ?_, fun e r hr => ?_⟩
    · rw [hheld]
      rcases counters w with heq | ⟨hnone, hzero⟩
      · exact h.counted w n (heq ▸ hn)
      · -- a worker that was not registered holds nothing
        have hempty : s.held w = 0 := by
          refine Table.total_eq_zero (fun r hr => ?_) _
          obtain ⟨m, hm⟩ := h.registered _ r (Table.find?_eq_some.2 ⟨hr, rfl⟩)
          refine decide_eq_false fun hw => ?_
          rw [hw, hnone] at hm
          cases hm
        rw [hzero] at hn
        rw [hempty, ← Option.some.inj hn]
    · rw [same] at hr
      obtain ⟨n, hn⟩ := h.registered e r hr
      rcases counters r.workerId with heq | ⟨hnone, _⟩
      · exact ⟨n, heq.trans hn⟩
      · rw [hnone] at hn
        cases hn
  | grant x m free known put counters =>
    have hheld := held_put free put
    refine ⟨fun w n hn => ?_, fun e r hr => ?_⟩
    · rw [counters w] at hn
      rw [hheld w]
      by_cases hw : w = x.workerId
      · subst hw
        have hm := h.counted _ m known
        simp only [if_true, Option.some.injEq] at hn ⊢
        omega
      · rw [if_neg hw] at hn
        rw [if_neg (Ne.symm hw), Nat.add_zero]
        exact h.counted w n hn
    · rw [put] at hr
      simp only [counters]
      rcases Table.find?_put_eq_some.1 hr with ⟨_, rfl⟩ | ⟨_, hr⟩
      · exact ⟨m + 1, if_pos rfl⟩
      · obtain ⟨n, hn⟩ := h.registered e r hr
        by_cases hw : r.workerId = x.workerId
        · exact ⟨m + 1, if_pos hw⟩
        · exact ⟨n, (if_neg hw).trans hn⟩
  | giveBack x taken erase counters =>
    have hheld := held_erase taken erase
    refine ⟨fun w n hn => ?_, fun e r hr => ?_⟩
    · rw [counters w] at hn
      have hw' := hheld w
      by_cases hw : w = x.workerId
      · subst hw
        simp only [if_true, Option.map_eq_some_iff] at hn hw'
        obtain ⟨m, hm, rfl⟩ := hn
        have := h.counted _ m hm
        omega
      · rw [if_neg hw] at hn
        rw [if_neg (Ne.symm hw), Nat.add_zero] at hw'
        rw [← hw']
        exact h.counted w n hn
    · rw [erase, Table.find?_erase] at hr
      split at hr
      · cases hr
      obtain ⟨n, hn⟩ := h.registered e r hr
      simp only [counters, hn]
      by_cases hw : r.workerId = x.workerId <;> simp [hw]

theorem ledger_initial : Ledger initial := by
  refine ⟨fun w n hn => ?_, fun e r hr => ?_⟩
  · simp [running, initial] at hn
  · simp [initial] at hr

theorem ledger_of_reachable (h : Reachable s) : Ledger s :=
  Reaches.invariant (fun _ _ _ hI _ hst => hst.cases.elim (fun heq => heq ▸ hI)
    fun hc => hI.step (ledger_committed hc)) h ledger_initial

/-! ## Grants -/

theorem usage_granted (hg : Grant s worker row w a) :
    (s.granted now row w a).usage w =
      { slots := (s.usage w).slots + 1
        cpu := (s.usage w).cpu + row.manifest.runtime.cpu
        memoryMib := (s.usage w).memoryMib + row.manifest.runtime.memoryMib
        diskGib := (s.usage w).diskGib + row.manifest.runtime.diskGib } := by
  simp [usage, granted, Table.count, Table.total_put, Table.total_erase_of_none hg.unreserved,
    Table.weight]

theorem capabilities_granted (now : Timestamp) (hg : Grant s worker row w a) :
    ((s.granted now row w a).workers.find? w).map (fun x => x.capabilities) =
      some worker.capabilities := by
  simp [granted, hg.foundWorker, worker_id hg.foundWorker]

end Store

open Store in
/-- **Capacity safety.** In every reachable database the counter of each registered worker is the
number of its reservations; and whatever reachable database a grant starts from, the worker holds
afterwards no more than the capabilities stored for it at that moment. -/
theorem capacity_safe {s : Store} (hs : Reachable s) : (∀ w x, s.workers.find? w = some x →
      x.runningExecutions = s.reservations.count fun r => r.workerId = w) ∧
    ∀ now w a locked r s', reserveNext now w a locked s = .ok (some r, s') →
      r.execution.manifest.validate = .ok () →
      ∃ x, s'.workers.find? w = some x ∧
        (s'.usage w).slots ≤ x.capabilities.maxConcurrentExecutions ∧
        (s'.usage w).cpu ≤ x.capabilities.cpu ∧
        (s'.usage w).memoryMib ≤ x.capabilities.memoryMib ∧
        (s'.usage w).diskGib ≤ x.capabilities.diskGib := by
  refine ⟨fun w x hx => ?_, fun now w a locked r s' h hvalid => ?_⟩
  · exact (ledger_of_reachable hs).counted w _ (by simp [running, hx])
  · rcases reserveNext_spec h with ⟨hr, _⟩ | ⟨worker, row, hg, hr, rfl⟩
    · cases hr
    obtain rfl := Option.some.inj hr
    obtain ⟨hcpu, hmem, hdisk⟩ := ExecutionManifest.resources_pos hvalid
    obtain ⟨hslots, hroom⟩ := room_of_workerFits hg.fits hcpu hmem hdisk
    obtain ⟨x, hx, hcap⟩ := Option.map_eq_some_iff.1 (capabilities_granted now hg)
    refine ⟨x, hx, ?_⟩
    rw [usage_granted hg, hcap]
    exact ⟨hslots, hroom⟩

/-! ## A sample run

One worker with room for one execution, and one resumable execution. -/

namespace Sample

def worker : WorkerRegistration :=
  { id := ⟨"w"⟩
    capabilities :=
      { os := "linux", arch := "x86_64", cpu := 4, memoryMib := 8192, diskGib := 40,
        runtimes := [.docker], maxConcurrentExecutions := 1 }
    state := .ready, runningExecutions := 0, lastHeartbeat := 0
    capabilityProof := some ⟨"lvm", "pool", "daemon", "probe", "v1"⟩ }

def manifest : ExecutionManifest :=
  { apiVersion := "autospec.dev/v1alpha1", role := .implementation
    repository := { repo := "owner/name", baseRef := "main" }
    agent := { harness := .pi, modelPolicy := {} }
    persistence := .resumable }

def execution : Execution :=
  { id := ⟨"e"⟩, role := .implementation, state := .queued, manifest
    labels := { executionId := ⟨"e"⟩, workerId := ⟨"unassigned"⟩, repository := "owner/name" }
    createdAt := 1, updatedAt := 1 }

def created : ExecutionEvent :=
  { executionId := ⟨"e"⟩, sequence := 0, at_ := 1, state := .queued, kind := .executionCreated }

def setup : List Label :=
  [⟨_, .register worker, 0⟩, ⟨_, .createIdempotent execution created "key" "scope", 1⟩]

def assigned : List Label := setup ++ [⟨_, .reserveNext ⟨"w"⟩ ⟨"a"⟩ [], 2⟩]

end Sample

open Store Sample in
theorem capacity_safe_sample : ∃ r s', reserveNext 2 ⟨"w"⟩ ⟨"a"⟩ [] (after initial setup) =
      .ok (some r, s') ∧ r.execution.manifest.validate = .ok () ∧
    ∃ x, s'.workers.find? ⟨"w"⟩ = some x ∧ (s'.usage ⟨"w"⟩).slots ≤
      x.capabilities.maxConcurrentExecutions := by
  have hr : (reserveNext 2 ⟨"w"⟩ ⟨"a"⟩ [] (after initial setup)).map Prod.fst = .ok (some
      { execution :=
          { execution with
            state := .workerAssigned, workerId := some ⟨"w"⟩, attemptId := some ⟨"a"⟩
            labels := { execution.labels with workerId := ⟨"w"⟩ }, updatedAt := 2 }
        workerId := ⟨"w"⟩, attemptId := ⟨"a"⟩, cpu := 2, memoryMib := 4096 }) := by
    decide
  obtain ⟨s', hs'⟩ := exists_of_reply hr
  have hvalid : manifest.validate = .ok () := by decide
  obtain ⟨x, hx, hslots, _⟩ := (capacity_safe (reachable_after setup)).2 _ _ _ _ _ s' hs' hvalid
  exact ⟨_, s', hs', hvalid, x, hx, hslots⟩

end Orchestrator
