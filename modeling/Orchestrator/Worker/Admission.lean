import Orchestrator.Persistence.Proof.Lifecycle

/-!
# Admission of claimed executions

A worker that was granted a reservation opens the cleanup authority of the attempt before it touches
any resource, and gives the reservation back when that is refused
(`run.rs: run_with_cancel_and_controls`, lines 41-55). The two calls are separate transactions, so
anything may commit between them: `Plane` records which executions have a task that was refused and
has yet to release.

`Produced` is how the repository's own code uses the store: executions are created queued and
unassigned, `begin` is called for attempts that were granted, the last two cleanup phases are entered
by `finalize_cleanup` and `resolve` only, and the running system makes no other use of `insert`,
`transition`, `transition_with_event` and `release`.
-/

namespace Orchestrator

/-- The store, with the executions whose task was refused a cleanup authority. -/
structure Plane where
  store : Store
  refused : List ExecutionId

namespace Plane

def start : Plane := ⟨Store.initial, []⟩

inductive Move where
  /-- Any other call of the store. -/
  | call (l : Label)
  /-- A task opens its cleanup authority; a refusal sends it to release. -/
  | begin (now : Timestamp) (e : ExecutionId) (a : AttemptId) (w : WorkerId)
  /-- A refused task releases its reservation. -/
  | release (e : ExecutionId)

def next (p : Plane) : Move → Plane
  | .call l => { p with store := (l.call.exec l.now p.store).2 }
  | .begin now e a w =>
    match Store.begin now e a w p.store with
    | .ok (_, s) => { p with store := s }
    | .error _ => { p with refused := e :: p.refused }
  | .release e => ⟨(Txn.run (Store.release e) p.store).2, p.refused.erase e⟩

/-- Calls the repository's code makes of the store directly. -/
def callProduced {β : Type} : StoreCall β → Bool
  | .createIdempotent execution .. =>
    execution.state = .queued && execution.workerId = none && execution.attemptId = none
  | .transitionCleanup _ _ next _ => next ≠ .reservationReleased && next ≠ .resolved
  | .insert _ | .transition .. | .transitionWithEvent .. | .release _ | .releaseAttempt ..
  | .begin .. => false
  | _ => true

/-- Moves of the repository's own code. -/
def Produced (p : Plane) : Move → Prop
  | .call l => callProduced l.call
  | .begin _ e a w => (p.store.attemptOf e a).map (fun t => t.workerId) = some w
  | .release e => e ∈ p.refused

instance (p : Plane) (m : Move) : Decidable (Produced p m) :=
  match m with
  | .call l => inferInstanceAs (Decidable (callProduced l.call = true))
  | .begin _ e a w =>
    inferInstanceAs (Decidable ((p.store.attemptOf e a).map (fun t => t.workerId) = some w))
  | .release e => inferInstanceAs (Decidable (e ∈ p.refused))

def Step (p : Plane) (m : Move) (p' : Plane) : Prop := p.next m = p'

/-- Reached by moves of the repository's own code, each of which also meets `ok`. -/
def Run (ok : Plane → Move → Prop) (p : Plane) : Prop :=
  Reaches Step (fun q m => Produced q m ∧ ok q m) start p

theorem Run.invariant {ok : Plane → Move → Prop} {I : Plane → Prop} {p : Plane} (h : Run ok p)
    (h0 : I start)
    (hstep : ∀ q m q', I q → Produced q m → ok q m → Step q m q' → I q') : I p :=
  Reaches.invariant (fun q m q' hI hok hst => hstep q m q' hI hok.1 hok.2 hst) h h0

def free : Plane → Move → Prop := fun _ _ => True

/-! ## Executing a list of moves -/

def after (p : Plane) (ms : List Move) : Plane := ms.foldl next p

instance (p : Plane) (m : Move) : Decidable (free p m) := inferInstanceAs (Decidable True)

/-- Every move of `ms` is produced, and meets `ok`, where it is taken. -/
def allMet (ok : Plane → Move → Prop) [∀ p m, Decidable (ok p m)] : Plane → List Move → Bool
  | _, [] => true
  | p, m :: ms => decide (Produced p m ∧ ok p m) && allMet ok (p.next m) ms

theorem run_after {ok : Plane → Move → Prop} [∀ p m, Decidable (ok p m)] {p : Plane}
    {ms : List Move} (hp : Run ok p) (h : allMet ok p ms = true) : Run ok (p.after ms) := by
  induction ms generalizing p with
  | nil => exact hp
  | cons m ms ih =>
    simp only [allMet, Bool.and_eq_true, decide_eq_true_eq] at h
    exact ih (hp.snoc h.1 rfl) h.2

theorem Run.start {ok : Plane → Move → Prop} : Run ok start := .refl

/-! ## Lives along a run -/

def Move.performs (e : ExecutionId) : Move → Life.Act → Prop
  | .call l, act => l.call.performs e act
  | .begin _ id a w, .begin b v => id = e ∧ b = a ∧ v = w
  | .release id, .release => id = e
  | _, _ => False

theorem life_next (p : Plane) (m : Move) (e : ExecutionId) :
    Life.Does (m.performs e) (p.store.life e) ((p.next m).store.life e) := by
  cases m with
  | call l => exact Store.life_step (l := l) rfl e
  | begin now id a w =>
    cases h : Store.begin now id a w p.store with
    | error err => exact .stay (by simp only [next, h])
    | ok r =>
      rcases Store.performed_begin (e := e) h with hsame | ⟨he, hstep⟩
      · exact .stay (by simp only [next, h, hsame])
      · refine .step (?_ : Life.Step _ (.begin a w) _) ⟨he, rfl, rfl⟩
        simpa only [next, h] using hstep
  | release id =>
    have hst : Orchestrator.Step p.store ⟨_, .release id, 0⟩ ((p.next (.release id)).store) := rfl
    exact (Store.life_step hst e).mono fun act hact => by cases act <;> exact hact

end Plane
end Orchestrator
