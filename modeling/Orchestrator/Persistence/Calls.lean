import Orchestrator.Persistence.Cleanup
import Orchestrator.Persistence.Controls
import Orchestrator.Persistence.Workers

/-!
# Store calls as steps

`StoreCall β` is one call of the store traits with reply `β`, and `StoreCall.exec` what it does: each
call is one transaction that locks the rows it reads, so a run of the system is a sequence of calls
in commit order. `Committed` says, once and for all, what a call can do to the database: nothing, or
what its transaction committed. Every invariant is proved from it.
-/

namespace Orchestrator

open Txn

inductive StoreCall : Type → Type
  | register (worker : WorkerRegistration) : StoreCall (Except StoreError Unit)
  | heartbeat (worker : WorkerRegistration) : StoreCall (Except StoreError WorkerRegistration)
  | markStaleBefore (deadline : Timestamp) : StoreCall (Except StoreError (List WorkerId))
  | listWorkers : StoreCall (Except StoreError (List WorkerRegistration))
  | insert (execution : Execution) : StoreCall (Except StoreError Unit)
  | getExecution (id : ExecutionId) : StoreCall (Except StoreError Execution)
  | createIdempotent (execution : Execution) (event : ExecutionEvent) (key scope : String) :
      StoreCall (Except StoreError IdempotentExecution)
  | requestCancellation (id : ExecutionId) : StoreCall (Except StoreError Execution)
  | cancellationRequested (id : ExecutionId) : StoreCall (Except StoreError Bool)
  | listPendingCancellations : StoreCall (Except StoreError (List PendingCancellation))
  | completeCancellation (id : ExecutionId) (a : AttemptId) :
      StoreCall (Except StoreError (Execution × Nat))
  | transition (id : ExecutionId) (next : ExecutionState) : StoreCall (Except StoreError Execution)
  | transitionWithEvent (id : ExecutionId) (next : ExecutionState) (event : ExecutionEvent) :
      StoreCall (Except StoreError (Execution × Nat))
  | recordProgress (execution : Execution) (event : ExecutionEvent) (requestRetention : Bool) :
      StoreCall (Except StoreError Nat)
  | requestControl (id : ExecutionId) (action : ExecutionControlAction) (key : String) :
      StoreCall (Except StoreError IdempotentExecutionControl)
  | listPendingControls (w : WorkerId) : StoreCall (Except StoreError (List PendingExecutionControl))
  | beginControl (requestId : Nat) (w : WorkerId) (a : AttemptId) :
      StoreCall (Except StoreError Unit)
  | markControlSideEffectApplied (requestId : Nat) (session : Option SessionId) :
      StoreCall (Except StoreError Unit)
  | completeControl (requestId : Nat) (execution : Execution) (event : ExecutionEvent) :
      StoreCall (Except StoreError (Option Nat))
  | reserveNext (w : WorkerId) (a : AttemptId) (locked : List ExecutionId) :
      StoreCall (Except StoreError (Option Reservation))
  | release (id : ExecutionId) : StoreCall (Except StoreError Unit)
  | releaseAttempt (id : ExecutionId) (a : AttemptId) : StoreCall (Except StoreError Bool)
  | commitRetainedAndReleaseCapacity (id : ExecutionId) (a : AttemptId) :
      StoreCall (Except StoreError Unit)
  | listReservations (w : WorkerId) : StoreCall (Except StoreError (List Reservation))
  | recoverUnreachable (w : WorkerId) : StoreCall (Except StoreError (List LostWorkerRecovery))
  | fenceLostAttempt (id : ExecutionId) (a : AttemptId) :
      StoreCall (Except StoreError LostWorkerRecovery)
  | finalizeCleanup (id : ExecutionId) (a : AttemptId) :
      StoreCall (Except StoreError LostWorkerRecovery)
  | begin (id : ExecutionId) (a : AttemptId) (w : WorkerId) : StoreCall (Except StoreError Unit)
  | transitionCleanup (id : ExecutionId) (expected next : CleanupDisposition)
      (handles : CleanupHandles) : StoreCall (Except StoreError Unit)
  | fenceForCleanup (id : ExecutionId) (handles : CleanupHandles) :
      StoreCall (Except StoreError Unit)
  | resolve (id : ExecutionId) : StoreCall (Except StoreError Unit)
  | getAuthority (id : ExecutionId) : StoreCall (Except StoreError CleanupAuthority)
  | listAuthorities (w : WorkerId) : StoreCall (Except StoreError (List CleanupAuthority))

def StoreCall.exec {β : Type} (call : StoreCall β) (now : Timestamp) (s : Store) : β × Store :=
  match call with
  | .register worker => run (Store.register worker) s
  | .heartbeat worker => run (Store.heartbeat worker) s
  | .markStaleBefore deadline => run (Store.markStaleBefore deadline) s
  | .listWorkers => (.ok s.listWorkers, s)
  | .insert execution => run (Store.insert execution) s
  | .getExecution id => (s.getExecution id, s)
  | .createIdempotent execution event key scope =>
    run (Store.createIdempotent execution event key scope) s
  | .requestCancellation id => run (Store.requestCancellation now id) s
  | .cancellationRequested id => (.ok (s.cancellationPending id), s)
  | .listPendingCancellations => (.ok s.listPendingCancellations, s)
  | .completeCancellation id a => run (Store.completeCancellation now id a) s
  | .transition id next => run (Store.transition now id next) s
  | .transitionWithEvent id next event => run (Store.transitionWithEvent now id next event) s
  | .recordProgress execution event requestRetention =>
    run (Store.recordProgress now execution event requestRetention) s
  | .requestControl id action key => run (Store.requestControl now id action key) s
  | .listPendingControls w => (.ok (s.listPendingControls w), s)
  | .beginControl requestId w a => runReporting (Store.beginControl now requestId w a) s
  | .markControlSideEffectApplied requestId session =>
    runReporting (Store.markControlSideEffectApplied now requestId session) s
  | .completeControl requestId execution event =>
    runReporting (Store.completeControl now requestId execution event) s
  | .reserveNext w a locked => run (Store.reserveNext now w a locked) s
  | .release id => run (Store.release id) s
  | .releaseAttempt id a => run (Store.releaseAttempt id a) s
  | .commitRetainedAndReleaseCapacity id a =>
    run (Store.commitRetainedAndReleaseCapacity now id a) s
  | .listReservations w => (.ok (s.listReservations w), s)
  | .recoverUnreachable w => run (Store.recoverUnreachable now w) s
  | .fenceLostAttempt id a => run (Store.fenceLostAttempt now id a) s
  | .finalizeCleanup id a => run (Store.finalizeCleanup now id a) s
  | .begin id a w => run (Store.begin now id a w) s
  | .transitionCleanup id expected next handles =>
    run (Store.transitionCleanup now id expected next handles) s
  | .fenceForCleanup id handles => run (Store.fenceForCleanup now id handles) s
  | .resolve id => run (Store.resolve now id) s
  | .getAuthority id => (s.getAuthority id, s)
  | .listAuthorities w => (.ok (s.listAuthorities w), s)

/-- The reply of a call that did not get through. -/
def StoreCall.failed {β : Type} (call : StoreCall β) (e : StoreError) : β :=
  match call with
  | .register _ | .heartbeat _ | .markStaleBefore _ | .listWorkers | .insert _ | .getExecution _
  | .createIdempotent .. | .requestCancellation _ | .cancellationRequested _
  | .listPendingCancellations | .completeCancellation .. | .transition .. | .transitionWithEvent ..
  | .recordProgress .. | .requestControl .. | .listPendingControls _ | .beginControl ..
  | .markControlSideEffectApplied .. | .completeControl .. | .reserveNext .. | .release _
  | .releaseAttempt .. | .commitRetainedAndReleaseCapacity .. | .listReservations _
  | .recoverUnreachable _ | .fenceLostAttempt .. | .finalizeCleanup .. | .begin ..
  | .transitionCleanup .. | .fenceForCleanup .. | .resolve _ | .getAuthority _
  | .listAuthorities _ => .error e

/-- A call together with the time it is made at. -/
structure Label where
  reply : Type
  call : StoreCall reply
  now : Timestamp

def Step (s : Store) (l : Label) (s' : Store) : Prop := (l.call.exec l.now s).2 = s'

def anyCall : Store → Label → Prop := fun _ _ => True

/-- The databases any interleaving of calls can produce. -/
def Reachable (s : Store) : Prop := Reaches Step anyCall Store.initial s

def after (s : Store) (ls : List Label) : Store := ls.foldl (fun t l => (l.call.exec l.now t).2) s

theorem step_after (s : Store) (ls : List Label) (l : Label) :
    Step (after s ls) l (after s (ls ++ [l])) := by
  rw [Step, after, after, List.foldl_append]
  rfl

theorem reaches_after {ok : Store → Label → Prop} (hok : ∀ s l, ok s l) (s : Store)
    (ls : List Label) : Reaches Step ok s (after s ls) := by
  induction ls using List.reverseRecOn with
  | nil => exact .refl
  | append_singleton ls l ih => exact ih.snoc (hok _ l) (step_after s ls l)

def allMet (ok : Store → Label → Prop) [∀ s l, Decidable (ok s l)] : Store → List Label → Bool
  | _, [] => true
  | s, l :: ls => decide (ok s l) && allMet ok (l.call.exec l.now s).2 ls

theorem reaches_of_allMet {ok : Store → Label → Prop} [∀ s l, Decidable (ok s l)] {s : Store}
    {ls : List Label} (h : allMet ok s ls = true) : Reaches Step ok s (after s ls) := by
  induction ls generalizing s with
  | nil => exact .refl
  | cons l ls ih =>
    simp only [allMet, Bool.and_eq_true, decide_eq_true_eq] at h
    exact .head ⟨l, h.1, rfl⟩ (ih h.2)

theorem reachable_after (ls : List Label) : Reachable (after Store.initial ls) :=
  reaches_after (fun _ _ => trivial) _ ls

/-! ## What a call can do -/

/-- The transaction of call `c`, made at `now` in `s`, committed `s'`. -/
inductive Committed (now : Timestamp) (s : Store) : {β : Type} → StoreCall β → Store → Prop
  | register {worker r s'} : Store.register worker s = .ok (r, s') →
      Committed now s (.register worker) s'
  | heartbeat {worker r s'} : Store.heartbeat worker s = .ok (r, s') →
      Committed now s (.heartbeat worker) s'
  | markStaleBefore {deadline r s'} : Store.markStaleBefore deadline s = .ok (r, s') →
      Committed now s (.markStaleBefore deadline) s'
  | insert {execution r s'} : Store.insert execution s = .ok (r, s') →
      Committed now s (.insert execution) s'
  | createIdempotent {execution event key scope r s'} :
      Store.createIdempotent execution event key scope s = .ok (r, s') →
      Committed now s (.createIdempotent execution event key scope) s'
  | requestCancellation {id r s'} : Store.requestCancellation now id s = .ok (r, s') →
      Committed now s (.requestCancellation id) s'
  | completeCancellation {id a r s'} : Store.completeCancellation now id a s = .ok (r, s') →
      Committed now s (.completeCancellation id a) s'
  | transition {id next r s'} : Store.transition now id next s = .ok (r, s') →
      Committed now s (.transition id next) s'
  | transitionWithEvent {id next event r s'} :
      Store.transitionWithEvent now id next event s = .ok (r, s') →
      Committed now s (.transitionWithEvent id next event) s'
  | recordProgress {execution event retention r s'} :
      Store.recordProgress now execution event retention s = .ok (r, s') →
      Committed now s (.recordProgress execution event retention) s'
  | requestControl {id action key r s'} : Store.requestControl now id action key s = .ok (r, s') →
      Committed now s (.requestControl id action key) s'
  | beginControl {requestId w a r s'} : Store.beginControl now requestId w a s = .ok (r, s') →
      Committed now s (.beginControl requestId w a) s'
  | markControlSideEffectApplied {requestId session r s'} :
      Store.markControlSideEffectApplied now requestId session s = .ok (r, s') →
      Committed now s (.markControlSideEffectApplied requestId session) s'
  | completeControl {requestId execution event r s'} :
      Store.completeControl now requestId execution event s = .ok (r, s') →
      Committed now s (.completeControl requestId execution event) s'
  | reserveNext {w a locked r s'} : Store.reserveNext now w a locked s = .ok (r, s') →
      Committed now s (.reserveNext w a locked) s'
  | release {id r s'} : Store.release id s = .ok (r, s') → Committed now s (.release id) s'
  | releaseAttempt {id a r s'} : Store.releaseAttempt id a s = .ok (r, s') →
      Committed now s (.releaseAttempt id a) s'
  | commitRetained {id a r s'} : Store.commitRetainedAndReleaseCapacity now id a s = .ok (r, s') →
      Committed now s (.commitRetainedAndReleaseCapacity id a) s'
  | recoverUnreachable {w r s'} : Store.recoverUnreachable now w s = .ok (r, s') →
      Committed now s (.recoverUnreachable w) s'
  | fenceLostAttempt {id a r s'} : Store.fenceLostAttempt now id a s = .ok (r, s') →
      Committed now s (.fenceLostAttempt id a) s'
  | finalizeCleanup {id a r s'} : Store.finalizeCleanup now id a s = .ok (r, s') →
      Committed now s (.finalizeCleanup id a) s'
  | begin {id a w r s'} : Store.begin now id a w s = .ok (r, s') → Committed now s (.begin id a w) s'
  | transitionCleanup {id expected next handles r s'} :
      Store.transitionCleanup now id expected next handles s = .ok (r, s') →
      Committed now s (.transitionCleanup id expected next handles) s'
  | fenceForCleanup {id handles r s'} : Store.fenceForCleanup now id handles s = .ok (r, s') →
      Committed now s (.fenceForCleanup id handles) s'
  | resolve {id r s'} : Store.resolve now id s = .ok (r, s') → Committed now s (.resolve id) s'

theorem Step.cases {s s' : Store} {l : Label} (h : Step s l s') :
    s' = s ∨ Committed l.now s l.call s' := by
  obtain ⟨β, call, now⟩ := l
  cases call
  case beginControl => exact (runReporting_state h).imp_right fun ⟨_, h⟩ => .beginControl h
  case markControlSideEffectApplied =>
    exact (runReporting_state h).imp_right fun ⟨_, h⟩ => .markControlSideEffectApplied h
  case completeControl => exact (runReporting_state h).imp_right fun ⟨_, h⟩ => .completeControl h
  all_goals
    first
    | exact .inl h.symm
    | exact (run_state h).imp_right fun ⟨_, h⟩ => by constructor; exact h

end Orchestrator
