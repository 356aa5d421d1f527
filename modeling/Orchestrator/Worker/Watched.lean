import Orchestrator.Worker.Run

/-!
# A startup whose lifecycle calls succeed

`reconcile_startup` logs the failure of a recovery and goes on, so its result does not tell whether
the calls it made for an execution succeeded. These are the programs of `Worker.Recovery` again, for
the authority of one execution `e`: nothing follows a lifecycle call that fails, and an error that is
only logged is returned. What they return, the original programs return in a run of the same calls
(`runs_reconcileStartup`).
-/

namespace Orchestrator

open Prog Effect

namespace Watched

variable {α : Type}

/-- A call of the lifecycle, in a run in which it succeeds. -/
def lifecycle (p : Effect α) : Effect α := insist (.agent .forever) p

def advance (authority : CleanupAuthority) (execution : Execution)
    (disposition : CleanupDisposition) : Effect CleanupDisposition := do
  lifecycle (provided (disposition ≠ .gitRecoveredCleaned)
    (Lifecycle.ackCleanupAuthorityStep authority disposition))
  let next ← lifecycle (Lifecycle.cleanupAuthorityStep authority execution disposition)
  store (.transitionCleanup authority.executionId disposition next authority.handles)
  pure next

def advanceAll (authority : CleanupAuthority) (execution : Execution) :
    Nat → CleanupDisposition → Effect CleanupDisposition
  | 0, disposition => pure disposition
  | n + 1, disposition => do
    let next ← advance authority execution disposition
    advanceAll authority execution n next

def resolveReleased (authority : CleanupAuthority) : Effect Unit := do
  lifecycle (Lifecycle.ackCleanupAuthorityStep authority .reservationReleased)
  store (.resolve authority.executionId)

def tearDown (authority : CleanupAuthority) (execution : Execution) : Effect Unit := do
  let disposition ← Worker.fencedDisposition authority
  let disposition ← advanceAll authority execution disposition.stepsLeft disposition
  let disposition ← Worker.finalizeReleased authority disposition
  provided (disposition = .reservationReleased) (resolveReleased authority)

def recoverCleanupAuthority (authority : CleanupAuthority) (execution : Execution) :
    Effect Unit := do
  let cancellationPending ← store (.cancellationRequested authority.executionId)
  if authority.phase = .retained ∧ !cancellationPending then pure ()
  else do
    provided (authority.phase ≠ .resolved) (tearDown authority execution)
    provided cancellationPending (Worker.completeCancellation authority)

def reconcileLive (w : WorkerId) (reservations : List Reservation) (authority : CleanupAuthority)
    (execution : Execution) : Effect (Option Execution) :=
  if Worker.adoptable w authority execution then pure (some execution)
  else if Worker.retainable w authority execution then do
    store (.commitRetainedAndReleaseCapacity execution.id authority.attemptId)
    pure none
  else do
    provided (Worker.fenceable w reservations authority execution) (do
      let _ ← store (.fenceLostAttempt execution.id authority.attemptId))
    recoverCleanupAuthority authority execution
    pure none

def reconcileAuthority (w : WorkerId) (reservations : List Reservation)
    (authority : CleanupAuthority) : Effect (Option Execution) := do
  let execution ← store (.getExecution authority.executionId)
  let pending ← store (.cancellationRequested execution.id)
  if pending then do
    recoverCleanupAuthority authority execution
    pure none
  else reconcileLive w reservations authority execution

/-- The authority of `e` is watched, those of other executions are not. -/
def reconcileOne (e : ExecutionId) (w : WorkerId) (reservations : List Reservation)
    (authority : CleanupAuthority) : Effect (Option Execution) :=
  if authority.executionId = e then reconcileAuthority w reservations authority
  else Worker.reconcileAuthority w reservations authority

def reconcileStartup (e : ExecutionId) (w : WorkerId) : Effect (List Execution) := do
  let reservations ← store (.listReservations w)
  let authorities ← store (.listAuthorities w)
  collect authorities (reconcileOne e w reservations)

/-! ## Runs of the original -/

section Runs
variable {sem : {β : Type} → WorkerCall β → World → β → World → Prop} {env : World → World → Prop}
  {e : ExecutionId} {w : WorkerId} {reservations : List Reservation} {authority : CleanupAuthority}
  {execution : Execution} {d d' : CleanupDisposition} {s s' : World}

theorem runs_lifecycle {p : Effect α} {a : α}
    (h : Runs sem env (lifecycle p).run s (.ok a) s') : Runs sem env p.run s (.ok a) s' := by
  obtain ⟨b, hb, hp⟩ := runs_insist h
  exact Except.ok.inj hb ▸ hp

theorem runs_advance (h : Runs sem env (advance authority execution d).run s (.ok d') s') :
    Runs sem env (Worker.advance authority execution d).run s (.ok d') s' := by
  obtain ⟨u, s₁, hack, hrest⟩ := runs_bind_ok.1 h
  obtain ⟨next, s₂, hstep, hrest⟩ := runs_bind_ok.1 hrest
  exact runs_bind_ok.2 ⟨u, s₁, runs_lifecycle hack,
    runs_bind_ok.2 ⟨next, s₂, runs_lifecycle hstep, hrest⟩⟩

theorem runs_advanceAll {n : Nat}
    (h : Runs sem env (advanceAll authority execution n d).run s (.ok d') s') :
    Runs sem env (Worker.advanceAll authority execution n d).run s (.ok d') s' := by
  induction n generalizing d s with
  | zero => exact h
  | succ n ih =>
    obtain ⟨next, s₁, hfirst, hrest⟩ := runs_bind_ok.1 h
    exact runs_bind_ok.2 ⟨next, s₁, runs_advance hfirst, ih hrest⟩

theorem runs_provided {p : Prop} [Decidable p] {t t' : Effect Unit}
    (ht : ∀ s s', Runs sem env t.run s (.ok ()) s' → Runs sem env t'.run s (.ok ()) s')
    (h : Runs sem env (provided p t).run s (.ok ()) s') :
    Runs sem env (provided p t').run s (.ok ()) s' := by
  unfold provided at h ⊢
  by_cases hp : p
  · rw [if_pos hp] at h ⊢
    exact ht s s' h
  · rw [if_neg hp] at h ⊢
    exact h

theorem runs_tearDown (h : Runs sem env (tearDown authority execution).run s (.ok ()) s') :
    Runs sem env (Worker.tearDown authority execution).run s (.ok ()) s' := by
  obtain ⟨d, s₁, hfence, hrest⟩ := runs_bind_ok.1 h
  obtain ⟨d', s₂, hall, hrest⟩ := runs_bind_ok.1 hrest
  obtain ⟨d'', s₃, hfinal, hrest⟩ := runs_bind_ok.1 hrest
  refine runs_bind_ok.2 ⟨d, s₁, hfence, runs_bind_ok.2 ⟨d', s₂, runs_advanceAll hall,
    runs_bind_ok.2 ⟨d'', s₃, hfinal, runs_provided (fun s s' hres => ?_) hrest⟩⟩⟩
  obtain ⟨u, s₄, hack, hresolve⟩ := runs_bind_ok.1 hres
  exact runs_bind_ok.2 ⟨u, s₄, runs_lifecycle hack, hresolve⟩

theorem runs_recoverCleanupAuthority
    (h : Runs sem env (recoverCleanupAuthority authority execution).run s (.ok ()) s') :
    Runs sem env (Worker.recoverCleanupAuthority authority execution).run s (.ok ()) s' := by
  obtain ⟨pending, s₁, hask, hrest⟩ := runs_bind_ok.1 h
  refine runs_bind_ok.2 ⟨pending, s₁, hask, ?_⟩
  by_cases hretained : authority.phase = .retained ∧ !pending
  · rw [if_pos hretained] at hrest ⊢
    exact hrest
  · rw [if_neg hretained] at hrest ⊢
    obtain ⟨u, s₂, htear, hrest⟩ := runs_bind_ok.1 hrest
    exact runs_bind_ok.2 ⟨u, s₂, runs_provided (fun _ _ => runs_tearDown) htear, hrest⟩

theorem runs_observe_recover
    (h : Runs sem env (recoverCleanupAuthority authority execution).run s (.ok ()) s') :
    Runs sem env (observe (Worker.recoverCleanupAuthority authority execution) :
      Effect (Except WorkerError Unit)).run s (.ok (.ok ())) s' :=
  runs_observe (runs_recoverCleanupAuthority h)

theorem runs_reconcileLive {o : Option Execution}
    (h : Runs sem env (reconcileLive w reservations authority execution).run s (.ok o) s') :
    Runs sem env (Worker.reconcileLive w reservations authority execution).run s (.ok o) s' := by
  unfold reconcileLive at h
  unfold Worker.reconcileLive
  by_cases hadopt : Worker.adoptable w authority execution = true
  · rw [if_pos hadopt] at h ⊢
    exact h
  rw [if_neg hadopt] at h ⊢
  by_cases hretain : Worker.retainable w authority execution = true
  · rw [if_pos hretain] at h ⊢
    exact h
  rw [if_neg hretain] at h ⊢
  obtain ⟨u, s₁, hfence, hrest⟩ := runs_bind_ok.1 h
  obtain ⟨v, s₂, hrecover, hpure⟩ := runs_bind_ok.1 hrest
  refine runs_bind_ok.2 ⟨(), s₂, runs_bind_ok.2 ⟨u, s₁, hfence, ?_⟩, hpure⟩
  exact runs_bind_ok.2 ⟨_, s₂, runs_observe_recover hrecover, .done .refl⟩

theorem runs_reconcileOne {o : Option Execution}
    (h : Runs sem env (reconcileOne e w reservations authority).run s (.ok o) s') :
    Runs sem env (Worker.reconcileAuthority w reservations authority).run s (.ok o) s' := by
  unfold reconcileOne at h
  by_cases he : authority.executionId = e
  · rw [if_pos he] at h
    obtain ⟨x, s₁, hget, hrest⟩ := runs_bind_ok.1 h
    obtain ⟨pending, s₂, hask, hrest⟩ := runs_bind_ok.1 hrest
    refine runs_bind_ok.2 ⟨.ok x, s₁, runs_observe hget,
      runs_bind_ok.2 ⟨.ok pending, s₂, runs_observe hask, ?_⟩⟩
    cases pending with
    | false => exact runs_reconcileLive hrest
    | true =>
      obtain ⟨u, s₃, hrecover, hpure⟩ := runs_bind_ok.1 hrest
      exact runs_bind_ok.2 ⟨_, s₃, runs_observe_recover hrecover, hpure⟩
  · rw [if_neg he] at h
    exact h

theorem runs_reconcileStartup {adopted : List Execution}
    (h : Runs sem env (reconcileStartup e w).run s (.ok adopted) s') :
    Runs sem env (Worker.reconcileStartup w).run s (.ok adopted) s' := by
  obtain ⟨reservations, s₁, hlist, hrest⟩ := runs_bind_ok.1 h
  obtain ⟨authorities, s₂, hauth, hrest⟩ := runs_bind_ok.1 hrest
  exact runs_bind_ok.2 ⟨reservations, s₁, hlist, runs_bind_ok.2 ⟨authorities, s₂, hauth,
    runs_collect_mono (fun _ _ _ _ => runs_reconcileOne) hrest⟩⟩

end Runs

end Watched
end Orchestrator
