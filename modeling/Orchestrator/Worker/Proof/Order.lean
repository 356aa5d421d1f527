import Orchestrator.Lib.Trace
import Orchestrator.Persistence.Proof.Phases
import Orchestrator.Worker.Traits

/-!
# The order of a teardown

Any number of tasks and recoveries clean up after one execution, side by side or one after the other,
and each may stop anywhere. Each of them leaves a phase only after the step of that phase returned
`Ok` to it, and makes steps only once the execution is fenced (`Follows`); that is a fact about its
own calls, whatever they are answered. The durable phase never goes back and skips nothing once the
cleanup is pending, so whatever phase it has reached, the steps before it were made.
-/

namespace Orchestrator

open Prog

/-! ## Calls that matter -/

/-- The phase the step leads to. -/
def GuardStep.reached : GuardStep → CleanupDisposition
  | stopRuntimeProcess => .runtimeStopped
  | destroyRuntime => .runtimeDestroyed
  | destroyWorktree => .gitRecoveredCleaned
  | releaseStorage => .storageReleased

theorem GuardStep.phase_injective {g g' : GuardStep} (h : g.phase = g'.phase) : g' = g := by
  cases g <;> cases g' <;> first | rfl | cases h

def LifecycleCall.makes (e : ExecutionId) (g : GuardStep) : {β : Type} → LifecycleCall β → Prop
  | _, .guard made x => x.guard.execution.id = e ∧ made = g
  | _, .step authority _ disposition => authority.executionId = e ∧ disposition = g.phase
  | _, .ack _ _ => False

def LifecycleCall.steps : {β : Type} → LifecycleCall β → Bool
  | _, .step _ _ _ => true
  | _, .guard _ _ | _, .ack _ _ => false

def LifecycleCall.succeeded : {β : Type} → LifecycleCall β → β → Bool
  | _, .guard _ _, b => b.isOk
  | _, .step _ _ _, b => b.isOk
  | _, .ack _ _, b => b.isOk

namespace StoreCall

/-- The answer shows that `e` is fenced. -/
def shows (e : ExecutionId) : {β : Type} → StoreCall β → β → Prop
  | _, .fenceForCleanup id _, b => id = e ∧ b.isOk = true
  | _, .getAuthority id, b => id = e ∧ ∃ c, b = .ok c ∧ c.phase = .cleanupPending
  | _, _, _ => False

def resolves (e : ExecutionId) : {β : Type} → StoreCall β → β → Prop
  | _, .resolve id, b => id = e ∧ b.isOk = true
  | _, _, _ => False

variable {β : Type}

def leaves (e : ExecutionId) (g : GuardStep) : StoreCall β → Prop
  | .transitionCleanup id expected _ _ => id = e ∧ expected = g.phase
  | _ => False

def finalizes (e : ExecutionId) : StoreCall β → Prop
  | .finalizeCleanup id _ => id = e
  | _ => False

def completes (e : ExecutionId) : StoreCall β → Prop
  | .completeCancellation id _ => id = e
  | _ => False

end StoreCall

namespace TraitCall

variable {β : Type}

def makes (e : ExecutionId) (g : GuardStep) : TraitCall β → Prop
  | .lifecycle c => c.makes e g
  | _ => False

/-- Step `g` was made for `e` and returned `Ok`. -/
def stepped (e : ExecutionId) (g : GuardStep) : TraitCall β → β → Prop
  | .lifecycle c, b => c.makes e g ∧ c.succeeded b = true
  | _, _ => False

def fences (e : ExecutionId) : TraitCall β → β → Prop
  | .store c, b => c.shows e b
  | _, _ => False

def resolves (e : ExecutionId) : TraitCall β → β → Prop
  | .store c, b => c.resolves e b
  | _, _ => False

def leaves (e : ExecutionId) (g : GuardStep) : TraitCall β → Prop
  | .store c => c.leaves e g
  | _ => False

def finalizes (e : ExecutionId) : TraitCall β → Prop
  | .store c => c.finalizes e
  | _ => False

def completes (e : ExecutionId) : TraitCall β → Prop
  | .store c => c.completes e
  | _ => False

def steps : TraitCall β → Bool
  | .lifecycle c => c.steps
  | _ => false

/-- What a call may answer, whatever the database is. -/
def Answers : TraitCall β → β → Prop
  | .lifecycle c, b => c.Answers b
  | _, _ => True

theorem Does.answers {c : TraitCall β} {s s' : Store} {b : β} (h : c.Does s b s') : c.Answers b := by
  cases c with
  | lifecycle c => exact h.1
  | store c => trivial
  | task c => trivial

end TraitCall

/-! ## Following the order -/

/-- Some call so far was answered as `p` says. -/
def Has (p : {β : Type} → TraitCall β → β → Prop) (es : List (Answered TraitCall)) : Prop :=
  ∃ y ∈ es, p y.call y.answer

/-- `x` is in order for a program that knows that the phase of `e` had reached rank `r`. -/
structure Follows (e : ExecutionId) (r : Nat) (past : List (Answered TraitCall))
    (x : Answered TraitCall) : Prop where
  leave : ∀ g, x.call.leaves e g → Has (TraitCall.stepped e g) past
  make : ∀ g, x.call.makes e g →
    Has (TraitCall.fences e) past ∨ CleanupDisposition.cleanupPending.rank ≤ r
  finalize : x.call.finalizes e → Has (TraitCall.stepped e .releaseStorage) past ∨
    CleanupDisposition.storageReleased.rank ≤ r
  complete : x.call.completes e →
    Has (TraitCall.resolves e) past ∨ CleanupDisposition.resolved.rank ≤ r

def teardown (e : ExecutionId) (r : Nat) : Protocol TraitCall where
  answers := TraitCall.Answers
  allows := Follows e r

/-- What later calls do not undo. -/
def Growing (P : List (Answered TraitCall) → Prop) : Prop := ∀ es x, P es → P (es ++ [x])

section Growing
variable {P Q : List (Answered TraitCall) → Prop} {p : {β : Type} → TraitCall β → β → Prop}
  {β : Type} {c : TraitCall β} {b : β}

theorem growing_has : Growing (Has p) :=
  fun _ _ ⟨y, hy, hp⟩ => ⟨y, List.mem_append_left _ hy, hp⟩

theorem growing_true : Growing fun _ => True := fun _ _ _ => trivial

theorem Growing.and (hP : Growing P) (hQ : Growing Q) : Growing fun es => P es ∧ Q es :=
  fun es x h => ⟨hP es x h.1, hQ es x h.2⟩

theorem Growing.or (hP : Growing P) (φ : Prop) : Growing fun es => P es ∨ φ :=
  fun es x h => h.imp_left (hP es x)

theorem has_last {es : List (Answered TraitCall)} (h : p c b) : Has p (es ++ [⟨c, b⟩]) :=
  ⟨_, List.mem_append_right _ (List.mem_singleton.2 rfl), h⟩

end Growing

namespace Managed

variable {α : Type} {e : ExecutionId} {r : Nat} {P : List (Answered TraitCall) → Prop}

variable {Q : α → List (Answered TraitCall) → Prop} {d : CleanupDisposition}

theorem triple_store
    {c : StoreCall (Except StoreError α)} (hok : ∀ es b, P es → Follows e r es ⟨.store c, b⟩)
    (hQ : ∀ es a, P es → Q a (es ++ [⟨.store c, .ok a⟩])) :
    (teardown e r).Keeps P (store c) Q :=
  Protocol.attemptAs (fun es b hP _ => hok es b hP) (fun es a hP _ => hQ es a hP)
    fun _ _ _ _ => trivial

theorem triple_lifecycle {c : LifecycleCall (Except WorkerError α)}
    (hok : ∀ es b, P es → Follows e r es ⟨.lifecycle c, b⟩)
    (hQ : ∀ es a, P es → c.Answers (.ok a) → Q a (es ++ [⟨.lifecycle c, .ok a⟩])) :
    (teardown e r).Keeps P (lifecycle c) Q :=
  Protocol.attempt (fun es b hP _ => hok es b hP) hQ fun _ _ _ _ => trivial

theorem triple_ack (hP : Growing P) {authority : CleanupAuthority} :
    (teardown e r).Keeps P (lifecycle (.ack authority d)) fun _ => P :=
  triple_lifecycle (fun _ _ _ => ⟨nofun, nofun, nofun, nofun⟩) fun es _ h _ => hP es _ h

/-! ## A task -/

def Own (e : ExecutionId) (x : TaskState) : Prop := x.execution.id = e ∧ x.guard.execution.id = e

/-- The task of `e` followed the order, and `P` holds of its calls. -/
def owned (e : ExecutionId) (P : List (Answered TraitCall) → Prop) (x : TaskState) :
    Assertion (teardown e 0).setting :=
  ((teardown e 0).past P).and (Own e x)

/-- The execution is fenced, and step `g` was made. -/
def Advanced (e : ExecutionId) (g : GuardStep) (es : List (Answered TraitCall)) : Prop :=
  Has (TraitCall.fences e) es ∧ Has (TraitCall.stepped e g) es

theorem growing_advanced {g : GuardStep} : Growing (Advanced e g) := growing_has.and growing_has

theorem triple_own {p : TaskState → Managed α}
    (h : ∀ x, Own e x → (teardown e 0).Keeps P (p x) Q) :
    TripleS (owned e P) (await p) (fun a => owned e (Q a)) (owned e fun _ => True) :=
  .await fun x => .of_and fun hown =>
    (h x hown).weaken (fun _ hs => hs) (fun _ _ hq => ⟨hq, hown⟩) fun _ hs => ⟨hs, hown⟩

theorem triple_guard (g : GuardStep) :
    TripleS (owned e (Has (TraitCall.fences e))) (guard g) (fun _ => owned e (Advanced e g))
      (owned e fun _ => True) := by
  refine .bind (triple_own (Q := fun _ => Advanced e g) fun x hown => ?_) fun _ =>
    .update fun x es hs => ?_
  · refine triple_lifecycle (fun es b hP => ⟨nofun, fun _ _ => .inl hP, nofun, nofun⟩) ?_
    intro es a hP _
    exact ⟨growing_has es _ hP, has_last ⟨⟨hown.2, rfl⟩, rfl⟩⟩
  · refine ⟨hs.1, hs.2.1, ?_⟩
    cases g <;> exact hs.2.2

theorem triple_transitionCleanup (g : GuardStep) :
    TripleS (owned e (Advanced e g)) (transitionCleanup g.phase g.reached)
      (fun _ => owned e (Advanced e g)) (owned e fun _ => True) := by
  refine triple_own fun x hown => triple_store (fun es b hP => ?_) fun es _ hP =>
    growing_advanced es _ hP
  refine ⟨fun g' hg => ?_, nofun, nofun, nofun⟩
  obtain rfl := GuardStep.phase_injective hg.2
  exact hP.2

theorem triple_fence :
    TripleS (owned e fun _ => True) fence (fun _ => owned e (Has (TraitCall.fences e)))
      (owned e fun _ => True) := by
  refine triple_own fun x hown => .bind (Q := fun authority => (teardown e 0).past fun es =>
    authority.phase = .cleanupPending → Has (TraitCall.fences e) es) ?_ fun authority => ?_
  · refine triple_store (fun _ _ _ => ⟨nofun, nofun, nofun, nofun⟩) fun es authority _ hphase => ?_
    exact has_last ⟨hown.1, authority, rfl, hphase⟩
  · refine .provided (fun _ => ?_) fun hphase es hs => ⟨hs.1, hs.2 (not_not.1 hphase)⟩
    refine triple_store (fun _ _ _ => ⟨nofun, nofun, nofun, nofun⟩) fun es u _ => ?_
    exact has_last ⟨hown.1, rfl⟩

theorem triple_phase (g : GuardStep) {Q : α → TaskState → Assertion (teardown e 0).setting}
    {k : Unit → ManagedTask α}
    (hk : TripleS (owned e (Has (TraitCall.fences e))) (k ()) Q (owned e fun _ => True)) :
    TripleS (owned e (Has (TraitCall.fences e)))
      (guard g >>= fun _ => transitionCleanup g.phase g.reached >>= k) Q (owned e fun _ => True) := by
  refine .bind (triple_guard g) fun _ => .bind (triple_transitionCleanup g) fun _ => ?_
  exact hk.weaken (fun _ _ hs => ⟨⟨hs.1.1, hs.1.2.1⟩, hs.2⟩) (fun _ _ _ hq => hq) fun _ _ he => he

theorem triple_cleanupPhases : TripleS (owned e fun _ => True) cleanupPhases
      (fun _ => owned e (Has (TraitCall.stepped e .releaseStorage))) (owned e fun _ => True) := by
  refine .bind triple_fence fun _ => triple_phase .stopRuntimeProcess ?_
  refine triple_phase .destroyRuntime (triple_phase .destroyWorktree ?_)
  refine .bind (triple_guard .releaseStorage) fun _ => ?_
  exact (triple_transitionCleanup .releaseStorage).post fun _ _ _ hq => ⟨⟨hq.1.1, hq.1.2.2⟩, hq.2⟩

theorem triple_logging {Q : List (Answered TraitCall) → Prop} {errors : List String}
    {p : Managed Unit} (hp : (teardown e r).Keeps P p fun _ => Q) :
    (teardown e r).Keeps P (logging errors p) fun left es => left = [] → Q es := by
  refine .bind (.observe hp) fun result => ?_
  cases result with
  | ok u => exact .pure fun es hs => ⟨hs.1, fun _ => hs.2⟩
  | error err => exact .pure fun es hs => ⟨hs.1, fun hnil => by simp at hnil⟩

theorem triple_resolve (hP : Growing P) : (teardown e r).Keeps P (store (.resolve e))
      fun _ es => P es ∧ Has (TraitCall.resolves e) es :=
  triple_store (fun _ _ _ => ⟨nofun, nofun, nofun, nofun⟩) fun es _ h =>
    ⟨hP es _ h, has_last ⟨rfl, rfl⟩⟩

theorem triple_finalizeAndResolve {a : AttemptId} {errors : List String} :
    (teardown e r).Keeps (Has (TraitCall.stepped e .releaseStorage)) (finalizeAndResolve e a errors)
      fun left es => left = [] → Has (TraitCall.resolves e) es := by
  refine .bind (.observe (triple_store (Q := fun _ _ => True)
    (fun es _ hP => ⟨nofun, nofun, fun _ => .inl hP, nofun⟩) fun _ _ _ => trivial)) fun finalized => ?_
  cases finalized with
  | error err => exact .pure fun es hs => ⟨hs.1, fun hnil => by simp at hnil⟩
  | ok outcome =>
    have hack : (teardown e r).Keeps (fun _ => True) (acknowledge e) fun _ _ => True :=
      .bind (triple_store (fun _ _ _ => ⟨nofun, nofun, nofun, nofun⟩) fun _ _ _ => trivial)
        fun _ => triple_ack growing_true
    refine .bind (triple_logging hack) fun left => ?_
    split
    · exact (triple_logging (triple_resolve growing_true)).weaken (fun es hs => ⟨hs.1, trivial⟩)
        (fun _ es hq => ⟨hq.1, fun hnil => (hq.2 hnil).2⟩) fun _ he => he
    · rename_i hleft
      exact .pure fun es hs => ⟨hs.1, fun hnil => absurd hnil hleft⟩

theorem triple_complete {a : AttemptId} (hP : ∀ es, P es → Has (TraitCall.resolves e) es ∨
      CleanupDisposition.resolved.rank ≤ r) :
    (teardown e r).Keeps P (do let _ ← store (.completeCancellation e a)) fun _ _ => True :=
  .bind (triple_store (Q := fun _ _ => True)
    (fun es _ h => ⟨nofun, nofun, nofun, fun _ => hP es h⟩) fun _ _ _ => trivial) fun _ =>
      .pure fun _ hs => hs

theorem triple_cleanUpTask (cancellation : Bool) (a : AttemptId) (errors : List String) :
    KeepsS (owned e fun _ => True) (cleanUpTask cancellation a errors) := by
  have htear : TripleS (owned e fun _ => True) (tearDownTask a errors)
      (fun left => owned e fun es => left = [] → Has (TraitCall.resolves e) es)
      (owned e fun _ => True) := by
    refine .bind (.catchS triple_cleanupPhases) fun cleaned => ?_
    cases cleaned with
    | error err => exact .pure fun x es hs => ⟨⟨hs.1.1, fun hnil => by simp at hnil⟩, hs.2⟩
    | ok u =>
      refine triple_own fun x hown => ?_
      rw [hown.1]
      exact triple_finalizeAndResolve
  refine .bind htear fun left => triple_own fun x hown => ?_
  rw [hown.1]
  split
  · rename_i hleft
    exact (triple_logging (triple_complete fun es hP => .inl (hP hleft.1))).post fun _ _ hq =>
      ⟨hq.1, trivial⟩
  · exact .pure fun es hs => ⟨hs.1, trivial⟩

/-! ## A recovery -/

theorem exists_phase_eq (h : d.stepsLeft ≠ 0) : ∃ g : GuardStep, d = g.phase := by
  cases d with
  | cleanupPending => exact ⟨.stopRuntimeProcess, rfl⟩
  | runtimeStopped => exact ⟨.destroyRuntime, rfl⟩
  | runtimeDestroyed => exact ⟨.destroyWorktree, rfl⟩
  | gitRecoveredCleaned => exact ⟨.releaseStorage, rfl⟩
  | _ => exact absurd rfl h

theorem eq_reached {g : GuardStep} (h : g.phase.canTransitionTo d = true) : d = g.reached := by
  cases g <;> cases d <;> first | rfl | cases h

section Recovery
variable {authority : CleanupAuthority} {execution : Execution} {d : CleanupDisposition}

def Fenced (e : ExecutionId) (r : Nat) (es : List (Answered TraitCall)) : Prop :=
  Has (TraitCall.fences e) es ∨ CleanupDisposition.cleanupPending.rank ≤ r

/-- The storage is released, by this recovery or before it. -/
def Released (e : ExecutionId) (r : Nat) (es : List (Answered TraitCall)) : Prop :=
  Has (TraitCall.stepped e .releaseStorage) es ∨ CleanupDisposition.storageReleased.rank ≤ r

theorem triple_advance (he : authority.executionId = e) (g : GuardStep) :
    TripleE ((teardown e r).past (Fenced e r)) (advance authority execution g.phase)
      (fun next => ((teardown e r).past fun es =>
        Fenced e r es ∧ Has (TraitCall.stepped e g) es).and (next = g.reached))
      ((teardown e r).past fun _ => True) := by
  have hfenced : Growing (Fenced e r) := growing_has.or _
  refine .bind (.provided (fun _ => triple_ack hfenced) fun _ _ hs => hs) fun _ => ?_
  refine .bind (triple_lifecycle (Q := fun next es =>
    (Fenced e r es ∧ Has (TraitCall.stepped e g) es) ∧ next = g.reached) ?_ ?_) fun next => ?_
  · exact fun es b hP => ⟨nofun, fun _ _ => hP, nofun, nofun⟩
  · intro es next hP hanswer
    exact ⟨⟨hfenced es _ hP, has_last ⟨⟨he, rfl⟩, rfl⟩⟩, eq_reached (hanswer next rfl)⟩
  · have hgrow : Growing fun es => (Fenced e r es ∧ Has (TraitCall.stepped e g) es) ∧
        next = g.reached :=
      fun es x h => ⟨hfenced.and growing_has es x h.1, h.2⟩
    refine .bind (triple_store (Q := fun _ es =>
      (Fenced e r es ∧ Has (TraitCall.stepped e g) es) ∧ next = g.reached) (fun es b hP => ?_)
      fun es _ hP => hgrow es _ hP) fun _ => .pure fun _ hs => ⟨⟨hs.1, hs.2.1⟩, hs.2.2⟩
    refine ⟨fun g' hg => ?_, nofun, nofun, nofun⟩
    obtain rfl := GuardStep.phase_injective hg.2
    exact hP.1.2

/-- What a recovery that has come to phase `d` relies on. -/
structure Underway (e : ExecutionId) (r : Nat) (d : CleanupDisposition)
    (es : List (Answered TraitCall)) : Prop where
  fenced : Fenced e r es
  released : CleanupDisposition.storageReleased.rank ≤ d.rank → Released e r es
  pending : CleanupDisposition.cleanupPending.rank ≤ d.rank
  unresolved : d.rank < CleanupDisposition.resolved.rank

theorem triple_advanceWhile (he : authority.executionId = e) (n : Nat) :
    (teardown e r).Keeps (Underway e r d) (advanceWhile authority execution n d)
      fun d' es => Underway e r d' es ∧ (d.stepsLeft ≤ n → d'.stepsLeft = 0) := by
  induction n generalizing d with
  | zero => exact .pure fun es hs => ⟨hs.1, hs.2, Nat.le_zero.1⟩
  | succ n ih =>
    unfold advanceWhile
    split
    · rename_i hleft
      exact .pure fun es hs => ⟨hs.1, hs.2, fun _ => hleft⟩
    · rename_i hleft
      obtain ⟨g, rfl⟩ := exists_phase_eq hleft
      refine .learn ((triple_advance he g).pre fun es hs => ⟨hs.1, hs.2.fenced⟩) fun next hnext => ?_
      subst hnext
      refine ih.weaken ?_ ?_ fun _ he => he
      · rintro es ⟨hes, hfenced, hstep⟩
        refine ⟨hes, hfenced, fun hrank => .inl ?_, ?_, ?_⟩
        · cases g <;> first | exact hstep | exact absurd hrank (by decide)
        · cases g <;> decide
        · cases g <;> decide
      · rintro d' es ⟨hes, hunder, hzero⟩
        refine ⟨hes, hunder, fun hle => hzero ?_⟩
        revert hle
        cases g <;> simp [GuardStep.phase, GuardStep.reached, CleanupDisposition.stepsLeft]

theorem triple_fencedDisposition (he : authority.executionId = e)
    (hr : r = authority.phase.rank) (hne : authority.phase ≠ .resolved) :
    (teardown e r).Keeps (fun _ => True) (fencedDisposition authority) (Underway e r) := by
  unfold fencedDisposition
  split
  · rename_i hphase
    refine .pure fun es hs => ⟨hs.1, ?_⟩
    have hpending : CleanupDisposition.cleanupPending.rank ≤ authority.phase.rank := by
      revert hphase
      cases authority.phase <;> simp [CleanupDisposition.cleaning, CleanupDisposition.rank]
    refine ⟨.inr (hr ▸ hpending), fun hle => .inr (hr ▸ hle), hpending, ?_⟩
    revert hne
    cases authority.phase with
    | active stage => cases stage <;> decide
    | _ => decide
  · refine .bind (triple_store (Q := fun _ => Has (TraitCall.fences e))
      (fun _ _ _ => ⟨nofun, nofun, nofun, nofun⟩) fun es u _ => has_last ⟨he, rfl⟩) fun _ =>
        .pure fun es hs => ⟨hs.1, .inl hs.2, fun hle => absurd hle (by decide), le_rfl, by decide⟩

theorem triple_finalizeReleased :
    TripleE ((teardown e r).past fun es => Underway e r d es ∧ d.stepsLeft = 0)
      (finalizeReleased authority d)
      (fun d' => ((teardown e r).past fun _ => True).and (d' = .reservationReleased))
      ((teardown e r).past fun _ => True) := by
  unfold finalizeReleased
  split
  · rename_i hd
    refine .bind (triple_store (Q := fun _ _ => True) (fun es _ hP => ⟨nofun, nofun, fun _ =>
      hP.1.released (hd ▸ le_rfl), nofun⟩) fun _ _ _ => trivial) fun _ =>
        .pure fun es hs => ⟨hs, rfl⟩
  · rename_i hd
    refine .pure fun es hs => ⟨⟨hs.1, trivial⟩, ?_⟩
    have hpending := hs.2.1.pending
    have hunresolved := hs.2.1.unresolved
    have hleft := hs.2.2
    revert hd hpending hunresolved hleft
    cases d with
    | active stage => cases stage <;> decide
    | _ => decide

theorem triple_tearDown (he : authority.executionId = e) (hr : r = authority.phase.rank)
    (hne : authority.phase ≠ .resolved) (k : Nat) :
    (teardown e r).Keeps (fun _ => True) (tearDown (4 + k) authority execution)
      fun _ => Has (TraitCall.resolves e) := by
  refine .bind (triple_fencedDisposition he hr hne) fun d => ?_
  have henough : d.stepsLeft ≤ 4 + k := by
    have hfour : d.stepsLeft ≤ 4 := by cases d <;> simp [CleanupDisposition.stepsLeft]
    omega
  refine .bind (triple_advanceWhile he (4 + k)) fun d' => ?_
  refine .learn (triple_finalizeReleased.pre fun es hs => ⟨hs.1, hs.2.1, hs.2.2 henough⟩)
    fun d'' hd => .provided (fun _ => ?_) fun hno => absurd hd hno
  refine .bind (triple_ack growing_true) fun _ => ?_
  rw [he]
  exact (triple_resolve growing_true).post fun _ _ hq => ⟨hq.1, hq.2.2⟩

theorem triple_recoverCleanupAuthority (he : authority.executionId = e)
    (hr : r = authority.phase.rank) (k : Nat) :
    (teardown e r).Keeps (fun _ => True) (recoverCleanupAuthority (4 + k) authority execution)
      fun _ _ => True := by
  refine .bind (triple_store (Q := fun _ _ => True)
    (fun _ _ _ => ⟨nofun, nofun, nofun, nofun⟩) fun _ _ _ => trivial) fun pending => ?_
  split
  · exact .pure fun _ hs => hs
  · refine .bind (Q := fun _ => (teardown e r).past fun es => Has (TraitCall.resolves e) es ∨
      CleanupDisposition.resolved.rank ≤ r) ?_ fun _ => ?_
    · refine .provided (fun hne => ?_) fun hphase es hs => ⟨hs.1, .inr ?_⟩
      · exact (triple_tearDown he hr hne k).post fun _ _ hq => ⟨hq.1, .inl hq.2⟩
      · rw [hr, not_not.1 hphase]
    · refine .provided (fun _ => ?_) fun _ es hs => ⟨hs.1, trivial⟩
      unfold completeCancellation
      rw [he]
      exact triple_complete fun _ hP => hP

/-! ### How many steps a recovery makes -/

def fourSteps : Protocol TraitCall where
  answers := TraitCall.Answers
  allows past x := x.call.steps = true → past.countP (fun y => y.call.steps) < 4

/-- After these calls `n` steps more are four or fewer. -/
def Spare (n : Nat) (es : List (Answered TraitCall)) : Prop :=
  es.countP (fun y => y.call.steps) + n ≤ 4

theorem triple_still {n : Nat} {p : Managed α} (hp : p.run.Only fun c => c.steps = false) :
    (fourSteps.past (Spare n)).KeptBy p := by
  refine .of_only hp fun c es b es' hc hs hsem => ?_
  obtain ⟨_, rfl⟩ := hsem
  refine ⟨ordered_snoc hs.1 fun hstep => absurd (hc.symm.trans hstep) nofun, ?_⟩
  show List.countP _ (es ++ [_]) + n ≤ 4
  rw [List.countP_append, List.countP_singleton, if_neg (by simp [hc])]
  exact hs.2

theorem spare_less {n k : Nat} (h : k ≤ n) {es : List (Answered TraitCall)}
    (hs : fourSteps.past (Spare n) es) : fourSteps.past (Spare k) es :=
  ⟨hs.1, Nat.le_trans (Nat.add_le_add_left h _) hs.2⟩

theorem triple_idle {n : Nat} {p : Managed α} (hp : p.run.Only fun c => c.steps = false) :
    TripleE (fourSteps.past (Spare n)) p (fun _ => fourSteps.past (Spare n))
      (fourSteps.past (Spare 0)) :=
  (triple_still hp).err fun _ => spare_less (Nat.zero_le _)

theorem triple_advance_spare (g : GuardStep) :
    TripleE (fourSteps.past (Spare g.phase.stepsLeft)) (advance authority execution g.phase)
      (fun next => (fourSteps.past (Spare g.reached.stepsLeft)).and (next = g.reached))
      (fourSteps.past (Spare 0)) := by
  have hleft : g.phase.stepsLeft = g.reached.stepsLeft + 1 := by cases g <;> rfl
  have hack : (provided (g.phase ≠ .gitRecoveredCleaned)
      (lifecycle (.ack authority g.phase))).run.Only fun c => c.steps = false :=
    .provided fun _ => .attempt rfl
  refine .bind (triple_idle hack) fun _ => ?_
  have hstep : TripleE (fourSteps.past (Spare g.phase.stepsLeft))
      (lifecycle (.step authority execution g.phase))
      (fun next => (fourSteps.past (Spare g.reached.stepsLeft)).and (next = g.reached))
      (fourSteps.past (Spare 0)) := by
    have hcount : ∀ {b} es, Spare g.phase.stepsLeft es →
        Spare g.reached.stepsLeft (es ++ [⟨.lifecycle (.step authority execution g.phase), b⟩]) := by
      intro b es hs
      show List.countP _ (es ++ [_]) + _ ≤ 4
      rw [List.countP_append, List.countP_singleton, if_pos (show TraitCall.steps _ = true from rfl)]
      have hs : List.countP _ es + _ ≤ 4 := hs
      omega
    refine (Protocol.attempt (R := fourSteps) (Q := fun next es =>
      Spare g.reached.stepsLeft es ∧ next = g.reached) ?_ ?_ ?_).post fun _ _ hq =>
        ⟨⟨hq.1, hq.2.1⟩, hq.2.2⟩
    · intro es b hs _ _
      have hs : List.countP _ es + _ ≤ 4 := hs
      omega
    · exact fun es next hs hanswer => ⟨hcount es hs, eq_reached (hanswer next rfl)⟩
    · exact fun es err hs _ => Nat.le_trans (Nat.add_le_add_left (Nat.zero_le _) _) (hcount es hs)
  refine .learn hstep fun next hnext => ?_
  exact .bind (triple_idle (.attemptAs rfl)) fun _ => .pure fun _ hs => ⟨hs, hnext⟩

theorem triple_advanceWhile_spare (n : Nat) :
    TripleE (fourSteps.past (Spare d.stepsLeft)) (advanceWhile authority execution n d)
      (fun _ => fourSteps.past (Spare 0)) (fourSteps.past (Spare 0)) := by
  induction n generalizing d with
  | zero => exact .pure fun _ => spare_less (Nat.zero_le _)
  | succ n ih =>
    unfold advanceWhile
    split
    · exact .pure fun _ => spare_less (Nat.zero_le _)
    · rename_i hleft
      obtain ⟨g, rfl⟩ := exists_phase_eq hleft
      refine .learn (triple_advance_spare g) fun next hnext => ?_
      subst hnext
      exact ih

/-- A recovery makes four steps at most, however long its loop may run. -/
theorem triple_recoverCleanupAuthority_spare (rounds : Nat) :
    TripleE (fourSteps.past (Spare 4)) (recoverCleanupAuthority rounds authority execution)
      (fun _ => fourSteps.past (Spare 0)) (fourSteps.past (Spare 0)) := by
  have hfence : (fencedDisposition authority).run.Only fun c => c.steps = false := by
    unfold fencedDisposition
    split
    · exact .pure _
    · exact .seq (.attemptAs rfl) fun _ => .pure _
  have hfinal : ∀ d, (finalizeReleased authority d).run.Only fun c => c.steps = false := by
    intro d
    unfold finalizeReleased
    split
    · exact .seq (.attemptAs rfl) fun _ => .pure _
    · exact .pure _
  refine .bind (triple_idle (.attemptAs rfl)) fun pending => ?_
  split
  · exact .pure fun _ => spare_less (Nat.zero_le _)
  refine .bind (Q := fun _ => fourSteps.past (Spare 0)) ?_ fun _ => triple_idle ?_
  · refine .provided (fun _ => ?_) fun _ _ => spare_less (Nat.zero_le _)
    refine .bind (triple_idle hfence) fun d => ?_
    have hfour : d.stepsLeft ≤ 4 := by cases d <;> simp [CleanupDisposition.stepsLeft]
    refine .bind ((triple_advanceWhile_spare rounds).pre fun _ => spare_less hfour) fun d' => ?_
    refine .bind (triple_idle (hfinal d')) fun d'' => triple_idle (.provided fun _ => ?_)
    exact .seq (.attempt rfl) fun _ => .attemptAs rfl
  · exact .provided fun _ => .seq (.attemptAs rfl) fun _ => .pure _

end Recovery

end Managed

end Orchestrator
