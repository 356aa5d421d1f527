import Orchestrator.Worker.Proof.Quiet
import Orchestrator.Worker.Proof.Recovery

/-!
# Tasks remove what they created

A task, fresh or adopted, keeps the containment of its execution up to its last call. While it works,
its guard knows the receipt of any storage that is there (`Working`), and from the moment the receipt
is durable it may create and change the runtime freely (`secured`). Its teardown then removes what
the guard knows, in the order of the phases.
-/

namespace Orchestrator

open Prog Effect

variable {e : ExecutionId} {m : Prop}

/-! ## The local state of a task -/

/-- The task is that of `e`, and creates a runtime only with a receipt in hand. -/
structure Own (e : ExecutionId) (x : TaskState) : Prop where
  id : x.execution.id = e
  labels : x.execution.labels.executionId = e
  guardId : x.guard.execution.id = e
  guardLabels : x.guard.execution.labels.executionId = e
  receipt : ∀ r, x.guard.receipt = some r → r.labels.executionId = e
  created : x.guard.runtimeCreated = true → x.guard.receipt.isSome = true

variable {x y : TaskState} {execution : Execution} {w : World} {next : CleanupDisposition}
  {guard : CleanupDisposition → Prop} {call : StoreCall (Except StoreError Unit)}

theorem Own.kept (h : Own e x) (hk : Kept x y) : Own e y where
  id := hk.id.trans h.id
  labels := by rw [hk.labels]; exact h.labels
  guardId := by rw [hk.execution]; exact h.guardId
  guardLabels := by rw [hk.execution]; exact h.guardLabels
  receipt := by rw [hk.receipt]; exact h.receipt
  created := by rw [hk.receipt, hk.runtimeCreated]; exact h.created

theorem Own.new (hid : execution.id = e)
    (hlabels : execution.labels.executionId = e) : Own e (TaskState.new execution) :=
  ⟨hid, hlabels, hid, hlabels, (fun _ h => nomatch h), fun h => nomatch h⟩

/-! ## While the task works -/

/-- The guard knows the receipt of the storage when `k`, and has created the runtime when `up`. -/
structure Working (m : Prop) (k up : Bool) (c : Account) (a : Allocation) (r : RuntimeState) :
    Prop where
  early : Early c
  known : Known k a r
  down : up = false → r.present = false ∧ r.credential = false
  durable : r.present = true → Durable c
  recorded : m → Recorded c a

def Fact.working (m : Prop) (k up : Bool) : Fact m where
  holds := Working m k up
  calm hc h := ⟨h.early.calm hc, h.known, h.down, fun hp => (h.durable hp).calm hc,
    fun hm => (h.recorded hm).calm hc⟩
  contained h := .of_early h.early h.known.sound h.durable
  recorded h := h.recorded

/-- The receipt is durable and nothing has been removed: the runtime may be anything. -/
def Fact.secured (m : Prop) : Fact m where
  holds c a _ := Early c ∧ Durable c ∧ a.Sound
  calm hc h := ⟨h.1.calm hc, h.2.1.calm hc, h.2.2⟩
  contained h := .of_early h.1 h.2.2 fun _ => h.2.1
  recorded h _ := fun _ => h.2.1

def Fact.vacant (m : Prop) : Fact m where
  holds c a r := Early c ∧ a.Sound ∧ a.Vacant ∧ r.present = false ∧ r.credential = false
  calm hc h := ⟨h.1.calm hc, h.2⟩
  contained h := .of_early h.1 h.2.1 fun hp => absurd hp (by rw [h.2.2.2.1]; exact Bool.false_ne_true)
  recorded h _ hl := absurd hl (by rw [h.2.2.1.left]; exact Bool.false_ne_true)

def Fact.housed (hm : ¬m) : Fact m where
  holds c a r := Early c ∧ a.Sound ∧ r.present = false ∧ r.credential = false
  calm hc h := ⟨h.1.calm hc, h.2⟩
  contained h := .of_early h.1 h.2.1 fun hp => absurd hp (by rw [h.2.2.1]; exact Bool.false_ne_true)
  recorded _ hm' := absurd hm' hm

def Fact.stored (m : Prop) : Fact m where
  holds c a r := Early c ∧ Durable c ∧ a.Sound ∧ r.present = false ∧ r.credential = false
  calm hc h := ⟨h.1.calm hc, h.2.1.calm hc, h.2.2⟩
  contained h := .of_early h.1 h.2.2.1 fun _ => h.2.1
  recorded h _ := fun _ => h.2.1

def working (e : ExecutionId) (m : Prop) (x : TaskState) : Assertion (containment e m) :=
  ((Fact.working m x.guard.receipt.isSome x.guard.runtimeCreated).of e).and (Own e x)

/-- A task with a durable receipt and a runtime. -/
def securing (e : ExecutionId) (m : Prop) (x : TaskState) : Assertion (containment e m) :=
  ((Fact.secured m).of e).and
    (Own e x ∧ x.guard.receipt.isSome = true ∧ x.guard.runtimeCreated = true)

theorem working_of_securing {x : TaskState} (h : securing e m x w) : working e m x w := by
  obtain ⟨⟨hn, hearly, hdurable, hsound⟩, hown, hreceipt, hup⟩ := h
  refine ⟨⟨hn, ?_⟩, hown⟩
  rw [hreceipt, hup]
  exact ⟨hearly, .of_sound hsound, (fun h => nomatch h), fun _ => hdurable, fun _ _ => hdurable⟩

section Rules
variable {α : Type} {x : TaskState}

theorem triple_task {t : Task α} {P : TaskState → Assertion (containment e m)}
    (ht : Task.Quiet e t) (hP : ∀ x y w, Kept x y → P x w → P y w) :
    KeepsS P t :=
  .of_mild ht
    (fun _ x _ _ _ hc hw hsem => (P x).stable (others_of_calm hc hsem.1) hw) hP

theorem working_kept (hk : Kept x y) (h : working e m x w) : working e m y w := by
  refine ⟨?_, h.2.kept hk⟩
  rw [hk.receipt, hk.runtimeCreated]
  exact h.1

theorem securing_kept (hk : Kept x y) (h : securing e m x w) : securing e m y w :=
  ⟨h.1, h.2.1.kept hk, hk.receipt ▸ h.2.2.1, hk.runtimeCreated ▸ h.2.2.2⟩

/-- Calls that may change the runtime of `e`, but nothing else of it. -/
def WorkerCall.arming {β : Type} (e : ExecutionId) : WorkerCall β → Prop
  | .store c _ => c.works e = false
  | .storage id _ => id ≠ e
  | .runtime _ _ | .agent _ => True

theorem triple_arming {p : Effect α} (hp : p.run.Only (WorkerCall.arming e)) :
    ((Fact.secured m).of e).KeptBy p := by
  refine .of_only hp fun c w b w' hc hw hsem => ?_
  have hothers : WorkerCall.calm e c → (Fact.secured m).of e w' := fun hcalm =>
    ((Fact.secured m).of e).stable (others_of_calm hcalm hsem.1) hw
  cases c with
  | store c r | storage id c => exact hothers hc
  | agent c => exact hothers trivial
  | runtime id op =>
    obtain ⟨⟨r, _, rfl⟩, _⟩ := hsem
    exact hw

/-- A move of the authority to a phase in which nothing is removed yet, with the handles of the
task. -/
theorem triple_record_handles (hnext : next.cleaning = false)
    (hdoes : ∀ {w b w'}, (WorkerCall.store call false).Does w b w' → ∃ s',
      w' = { w with store := s' } ∧ ((∃ d g, w.store.custody e = some (d, g) ∧ guard d ∧
        s'.custody e = some (next, x.handles)) ∨ s' = w.store ∧ ∃ err, b = .error err)) :
    (working e m x).KeptBy (store call) := by
  refine .of_and fun hown => ?_
  have hearly : Early (some (next, x.handles)) := fun d g h => by cases h; exact hnext
  have hrecorded : x.guard.receipt.isSome = true → Durable (some (next, x.handles)) :=
    fun h => ⟨_, _, rfl, h⟩
  refine (triple_move hdoes (F := .working m x.guard.receipt.isSome x.guard.runtimeCreated)
    (H := .working m x.guard.receipt.isSome x.guard.runtimeCreated) (fun _ _ a r _ h => ?_)
    (fun _ _ _ h => h) fun _ _ _ h => h).weaken (fun _ h => h) (fun _ _ h => ⟨h, hown⟩)
    fun _ h => ⟨h, hown⟩
  exact ⟨hearly, h.known, h.down, fun hp => hrecorded (h.known.runtime hp),
    fun _ hl => hrecorded (h.known.storage hl)⟩

theorem triple_handles {F H E : Fact m} (hnext : next.cleaning = false)
    (hreceipt : x.guard.receipt.isSome = true)
    (hdoes : ∀ {w b w'}, (WorkerCall.store call false).Does w b w' → ∃ s',
      w' = { w with store := s' } ∧ ((∃ d g, w.store.custody e = some (d, g) ∧ guard d ∧
        s'.custody e = some (next, x.handles)) ∨ s' = w.store ∧ ∃ err, b = .error err))
    (hH : ∀ c c' a r, F c a r → Early c' → Durable c' → H c' a r)
    (hHE : ∀ c a r, H c a r → E c a r) (hFE : ∀ c a r, F c a r → E c a r) :
    TripleE (F.of e) (store call) (fun _ => H.of e) (E.of e) :=
  triple_move hdoes (fun _ _ a r _ h => hH _ _ a r h
    (fun d g hd => by cases hd; exact hnext) ⟨_, _, rfl, hreceipt⟩) hHE hFE

end Rules

namespace Lifecycle

variable {execution : Execution}

/-! ## Allocating the storage -/

/-- Nothing is removed and there is no runtime, while storage is allocated for the first time. -/
def allocating (hm : ¬m) : Rest m where
  holds c r := Early c ∧ r.present = false ∧ r.credential = false
  calm hc h := ⟨h.1.calm hc, h.2⟩
  contained h hs := .of_early h.1 hs fun hp => absurd hp (by rw [h.2.1]; exact Bool.false_ne_true)
  recorded _ hm' := absurd hm' hm

theorem triple_allocate (hm : ¬m) {stateRoot : String} (hid : execution.labels.executionId = e) :
    TripleE ((Fact.vacant m).of e) (allocate stateRoot execution)
      (fun receipt => ((Fact.housed hm).of e).and (receipt.labels.executionId = e))
      ((Fact.vacant m).of e) := by
  subst hid
  refine (triple_storage (allocating hm) ExecutionStorage.triple_allocate).weaken (fun w h => ?_)
    (fun receipt w h => ?_) fun w h => ?_
  · obtain ⟨hn, hearly, hs, hv, hr⟩ := h
    exact ⟨⟨hn, hearly, hr⟩, hs, hv⟩
  · obtain ⟨⟨hn, hearly, hr⟩, ⟨hs, _⟩, hlabels⟩ := h
    exact ⟨⟨hn, hearly, hs, hr⟩, by rw [hlabels]⟩
  · obtain ⟨⟨hn, hearly, hr⟩, hs, hv⟩ := h
    exact ⟨hn, hearly, hs, hv, hr⟩

end Lifecycle

namespace Task

section Steps
variable {α : Type}

theorem triple_transition {F H E : Fact m} {φ : TaskState → Prop}
    {expected next : CleanupDisposition} (hnext : next.cleaning = false)
    (hφ : ∀ x, φ x → x.execution.id = e ∧ x.guard.receipt.isSome = true)
    (hH : ∀ c c' a r, F c a r → Early c' → Durable c' → H c' a r)
    (hHE : ∀ c a r, H c a r → E c a r) (hFE : ∀ c a r, F c a r → E c a r) :
    TripleS (fun x => (F.of e).and (φ x)) (transitionCleanup expected next)
      (fun _ x => (H.of e).and (φ x)) (fun x => (E.of e).and (φ x)) := by
  refine .await fun x => .of_and fun hx => ?_
  obtain ⟨hid, hreceipt⟩ := hφ x hx
  rw [hid]
  exact (triple_handles hnext hreceipt does_transitionCleanup hH hHE hFE).weaken (fun _ h => h)
    (fun _ _ h => ⟨h, hx⟩) fun _ h => ⟨h, hx⟩

theorem triple_securedTransition {expected next : CleanupDisposition}
    (hnext : next.cleaning = false) :
    KeepsS (securing e m) (transitionCleanup expected next) :=
  triple_transition hnext (fun _ hx => ⟨hx.1.id, hx.2.1⟩)
    (fun _ _ _ _ h hearly hdurable => ⟨hearly, hdurable, h.2.2⟩) (fun _ _ _ h => h) fun _ _ _ h => h

theorem triple_publishResult : KeepsS (securing e m) publishResult := by
  refine .await fun x => ?_
  refine .bind (triple_quiet ⟨trivial, fun _ => trivial⟩) fun now => ?_
  split
  · exact triple_quiet (.seq (.attemptAs rfl) fun _ => .pure _)
  · refine .learn (triple_quiet (.attemptAs rfl)) fun _ hx => ?_
    rw [hx.1.id]
    exact (triple_handles (F := .secured m) (H := .secured m)
      (E := .secured m) rfl hx.2.1 does_fenceForCleanup
      (fun _ _ _ _ h hearly hdurable => ⟨hearly, hdurable, h.2.2⟩) (fun _ _ _ h => h)
      fun _ _ _ h => h).weaken (fun _ h => h) (fun _ _ h => ⟨h, hx⟩) fun _ h => ⟨h, hx⟩

theorem triple_secured {t : Task α} (ht : Quiet e t) : KeepsS (securing e m) t :=
  triple_task ht fun _ _ _ => securing_kept

variable {session : SessionRef} {x : TaskState} {w : World}

theorem triple_finish {worktree : Worktree} : KeepsS (securing e m) (finish worktree session) := by
  refine .bind (triple_secured (.update fun _ => ⟨rfl, rfl, rfl, rfl, rfl⟩)) fun _ => ?_
  refine .bind (triple_secured plain_stopAgent.quiet) fun _ => ?_
  refine .bind (triple_secured (.await fun _ => .attempt trivial)) fun capture => ?_
  refine .bind (triple_secured (.await fun _ => .attempt trivial)) fun artifact => ?_
  refine .bind (triple_secured .look) fun x => ?_
  split
  · exact triple_secured plain_failWith.quiet
  · refine .bind (triple_secured plain_moveTo.quiet) fun _ => ?_
    refine .bind (triple_secured .look) fun y => ?_
    refine .bind (triple_secured (.update fun _ => ⟨rfl, rfl, rfl, rfl, rfl⟩)) fun _ => ?_
    refine .bind (triple_securedTransition rfl) fun _ => ?_
    exact .bind triple_publishResult fun _ => triple_secured (.pure _)

theorem triple_driveRunning {worktree : Worktree} :
    KeepsS (securing e m) (driveRunning worktree session) := by
  refine .bind (triple_secured quiet_ask) fun startedAt => ?_
  refine .bind (triple_secured .look) fun x => ?_
  refine .bind (triple_secured quiet_ask) fun rounds => ?_
  exact .bind (triple_secured (quiet_eventLoop _ _)) fun _ => triple_finish

end Steps

/-! ## A fresh task -/

section Fresh
variable {stateRoot : String} {α : Type}

/-- The task has not created anything. -/
structure Bare (e : ExecutionId) (x : TaskState) : Prop where
  own : Own e x
  receipt : x.guard.receipt = none
  runtimeCreated : x.guard.runtimeCreated = false

/-- The task has a receipt, but no runtime. -/
structure Stocked (e : ExecutionId) (x : TaskState) : Prop where
  own : Own e x
  receipt : x.guard.receipt.isSome = true
  runtimeCreated : x.guard.runtimeCreated = false

theorem Bare.kept {x y : TaskState} (h : Bare e x) (hk : Kept x y) : Bare e y :=
  ⟨h.own.kept hk, hk.receipt.trans h.receipt, hk.runtimeCreated.trans h.runtimeCreated⟩

theorem Stocked.kept {x y : TaskState} (h : Stocked e x) (hk : Kept x y) : Stocked e y :=
  ⟨h.own.kept hk, hk.receipt ▸ h.receipt, hk.runtimeCreated.trans h.runtimeCreated⟩

def vacant (e : ExecutionId) (m : Prop) (x : TaskState) : Assertion (containment e m) :=
  ((Fact.vacant m).of e).and (Bare e x)

def housed (e : ExecutionId) (hm : ¬m) (x : TaskState) : Assertion (containment e m) :=
  ((Fact.housed hm).of e).and (Stocked e x)

def stored (e : ExecutionId) (m : Prop) (x : TaskState) : Assertion (containment e m) :=
  ((Fact.stored m).of e).and (Stocked e x)

theorem working_of_vacant (h : vacant e m x w) : working e m x w := by
  obtain ⟨⟨hn, hearly, hs, hv, hp, hc⟩, hbare⟩ := h
  refine ⟨⟨hn, ?_⟩, hbare.own⟩
  have hleft : ∀ {φ : Prop}, (w.storage e).left = true → φ := fun hl =>
    absurd hl (by rw [hv.left]; exact Bool.false_ne_true)
  have hpresent : ∀ {φ : Prop}, (w.runtime e).present = true → φ := fun hr =>
    absurd hr (by rw [hp]; exact Bool.false_ne_true)
  exact ⟨hearly, ⟨hs, hleft, hpresent⟩, fun _ => ⟨hp, hc⟩, hpresent, fun _ => hleft⟩

theorem working_of_housed {hm : ¬m} (h : housed e hm x w) : working e m x w := by
  obtain ⟨⟨hn, hearly, hs, hp, hc⟩, hstocked⟩ := h
  refine ⟨⟨hn, ?_⟩, hstocked.own⟩
  rw [hstocked.receipt]
  exact ⟨hearly, .of_sound hs, fun _ => ⟨hp, hc⟩,
    fun hr => absurd hr (by rw [hp]; exact Bool.false_ne_true), fun hm' => absurd hm' hm⟩

theorem working_of_stored (h : stored e m x w) : working e m x w := by
  obtain ⟨⟨hn, hearly, hdurable, hs, hr⟩, hstocked⟩ := h
  refine ⟨⟨hn, ?_⟩, hstocked.own⟩
  rw [hstocked.receipt]
  exact ⟨hearly, .of_sound hs, fun _ => hr, fun _ => hdurable, fun _ _ => hdurable⟩

theorem triple_housedTransition {hm : ¬m} {expected next : CleanupDisposition}
    (hnext : next.cleaning = false) :
    TripleS (housed e hm) (transitionCleanup expected next) (fun _ => stored e m) (housed e hm) :=
  triple_transition hnext (fun _ hx => ⟨hx.own.id, hx.receipt⟩)
    (fun _ _ _ _ h hearly hdurable => ⟨hearly, hdurable, h.2⟩) (fun _ _ _ h => ⟨h.1, h.2.2⟩)
    fun _ _ _ h => h

theorem triple_storedTransition {expected next : CleanupDisposition}
    (hnext : next.cleaning = false) :
    KeepsS (stored e m) (transitionCleanup expected next) :=
  triple_transition hnext (fun _ hx => ⟨hx.own.id, hx.receipt⟩)
    (fun _ _ _ _ h hearly hdurable => ⟨hearly, hdurable, h.2.2⟩) (fun _ _ _ h => h) fun _ _ _ h => h

theorem triple_armed {p : TaskState → Effect α} (hp : ∀ x, (p x).run.Only (WorkerCall.arming e)) :
    KeepsS (securing e m) (await p) :=
  .await fun x => .of_and fun hx => (triple_arming (hp x)).weaken (fun _ h => h)
    (fun _ _ h => ⟨h, hx⟩) fun _ h => ⟨h, hx⟩

/-- `run_inner`: whatever is there at its end is known to the guard. -/
theorem triple_runInner (hm : ¬m) :
    TripleS (vacant e m) (runInner stateRoot) (fun _ => securing e m) (working e m) := by
  have hvacant : ∀ {β : Type} {t : Task β}, Quiet e t →
      KeepsS (vacant e m) t := fun ht =>
    triple_task ht fun _ _ _ hk h => ⟨h.1, h.2.kept hk⟩
  have hstored : ∀ {β : Type} {t : Task β}, Quiet e t →
      KeepsS (stored e m) t := fun ht =>
    triple_task ht fun _ _ _ hk h => ⟨h.1, h.2.kept hk⟩
  refine .seq (hvacant (.await fun _ => .refuse)) (fun _ _ => working_of_vacant)
    fun _ => ?_
  refine .seq (hvacant quiet_ask) (fun _ _ => working_of_vacant) fun cancelled => ?_
  refine .seq (hvacant (plain_perform .refuse).quiet) (fun _ _ => working_of_vacant) fun _ => ?_
  refine .bind (Q := fun receipt x => ((Fact.housed hm).of e).and
    (Bare e x ∧ receipt.labels.executionId = e)) (.await fun x => .of_and fun hx => ?_)
    fun receipt => ?_
  · exact (Lifecycle.triple_allocate hm hx.own.labels).weaken (fun _ h => h)
      (fun _ _ h => ⟨h.1, hx, h.2⟩) fun _ h => working_of_vacant ⟨h, hx⟩
  refine .bind (Q := fun _ => housed e hm) (.update fun x w h => ?_) fun _ => ?_
  · obtain ⟨hw, hbare, hlabels⟩ := h
    refine ⟨hw, ⟨hbare.own.id, hbare.own.labels, hbare.own.guardId, hbare.own.guardLabels, ?_,
      fun _ => rfl⟩, rfl, hbare.runtimeCreated⟩
    rintro _ ⟨⟩
    exact hlabels
  refine .seq (triple_housedTransition rfl) (fun _ _ => working_of_housed) fun _ => ?_
  refine .seq (hstored (.await fun _ => .seq .demand fun _ =>
    .attempt trivial)) (fun _ _ => working_of_stored) fun worktree => ?_
  refine .seq (hstored (.update fun _ => ⟨rfl, rfl, rfl, rfl, rfl⟩))
    (fun _ _ => working_of_stored) fun _ => ?_
  refine .seq (hstored (.update fun _ => ⟨rfl, rfl, rfl, rfl, rfl⟩))
    (fun _ _ => working_of_stored) fun _ => ?_
  refine .seq (triple_storedTransition rfl) (fun _ _ => working_of_stored) fun _ => ?_
  refine .seq (hstored plain_moveTo.quiet) (fun _ _ => working_of_stored) fun _ => ?_
  refine .bind (Q := fun _ => securing e m) (.update fun x w h => ?_) fun _ => ?_
  · obtain ⟨⟨hn, hearly, hdurable, hs, _⟩, hx⟩ := h
    exact ⟨⟨hn, hearly, hdurable, hs⟩, ⟨hx.own.id, hx.own.labels, hx.own.guardId, hx.own.guardLabels,
      hx.own.receipt, fun _ => hx.receipt⟩, hx.receipt, rfl⟩
  refine TripleS.weaken (E := securing e m) (Q := fun _ => securing e m) ?_ (fun _ _ h => h)
    (fun _ _ _ h => h) fun _ _ => working_of_securing
  refine .bind (triple_securedTransition rfl) fun _ => ?_
  refine .bind (triple_armed fun _ => Lifecycle.only_provision fun _ _ => trivial) fun environment => ?_
  refine .bind (triple_secured (.update fun _ => ⟨rfl, rfl, rfl, rfl, rfl⟩)) fun _ => ?_
  refine .bind (triple_secured plain_record.quiet) fun _ => ?_
  refine .bind (triple_secured (.await fun _ => .demand)) fun packet => ?_
  refine .bind (triple_secured (.await fun _ => .attempt trivial)) fun session => ?_
  refine .bind (triple_secured (.update fun _ => ⟨rfl, rfl, rfl, rfl, rfl⟩)) fun _ => ?_
  refine .bind (triple_secured (.update fun _ => ⟨rfl, rfl, rfl, rfl, rfl⟩)) fun _ => ?_
  refine .bind (triple_securedTransition rfl) fun _ => ?_
  refine .bind (triple_secured plain_moveTo.quiet) fun _ => ?_
  exact .bind (triple_securedTransition rfl) fun _ => triple_driveRunning

end Fresh

end Task

/-! ## Teardown -/

theorem Lifecycle.triple_destroyRuntime (hid : execution.id = e)
    (hlabels : execution.labels.executionId = e) :
    TripleE ((Fact.claimed m true .runtimeStopped fun _ _ => True).of e) (destroyRuntime execution)
      (fun _ => (Fact.claimed m true .runtimeStopped fun _ r =>
        r.present = false ∧ r.credential = false).of e) ((Fact.safe m).of e) := by
  subst hid
  refine .seq triple_check (fun _ h => Fact.toSafe _ h) fun _ => ?_
  refine .bind (Q := fun destroyed => (Fact.claimed m true .runtimeStopped fun _ r =>
    destroyed.isOk = true → r.present = false).of execution.id) ?_ fun destroyed => ?_
  · refine (triple_destroy hlabels).observe.post fun destroyed w h => ?_
    cases destroyed with
    | ok u => exact ⟨h.1, h.2.1, fun _ => h.2.2⟩
    | error err => exact ⟨h.1, h.2.1, fun h => nomatch h⟩
  refine .bind (triple_observe_change (D := fun r => r.credential = false)
    (fun _ h => h) fun _ => rfl) fun revoked => ?_
  refine .guard (fun w h herr => ?_) fun w h _ => Fact.toSafe _ h
  have hall := errorsOf_eq_nil.1 (not_not.1 herr)
  exact ⟨h.1, h.2.1, h.2.2.1 (hall _ (by simp)), h.2.2.2 (hall _ (by simp))⟩

namespace Task

section Cleanup
variable {attemptId : AttemptId} {errors : List String}

/-- Phase `d` of the teardown, and `X` of storage and runtime. -/
def phase (e : ExecutionId) (m : Prop) (d : CleanupDisposition)
    (X : TaskState → Allocation → RuntimeState → Prop) (x : TaskState) :
    Assertion (containment e m) :=
  ((Fact.claimed m x.guard.receipt.isSome d (X x)).of e).and (Own e x)

def safely (e : ExecutionId) (m : Prop) (_ : TaskState) : Assertion (containment e m) :=
  (Fact.safe m).of e

theorem triple_enter {F : TaskState → Fact m} {expected next : CleanupDisposition}
    {X : TaskState → Allocation → RuntimeState → Prop}
    (hF : ∀ x c a r, F x c a r → Known x.guard.receipt.isSome a r ∧ Due next a r ∧ X x a r) :
    TripleS (fun x => ((F x).of e).and (Own e x)) (transitionCleanup expected next)
      (fun _ => phase e m next X) (safely e m) := by
  refine .await fun x => .of_and fun hown => ?_
  rw [hown.id]
  exact (triple_next (X := X x) (hF x)).post fun _ _ h => ⟨h, hown⟩

theorem triple_fence : KeepsS (working e m) fence := by
  refine .await fun x => .bind (triple_quiet (.attemptAs rfl)) fun authority => ?_
  refine .provided (fun _ => fun w hw => ?_) fun _ _ h => h
  rw [hw.2.id]
  exact triple_record_handles rfl does_fenceForCleanup w hw

theorem triple_destroyRuntime :
    TripleS (phase e m .runtimeStopped fun x _ r => x.guard.runtimeCreated = false →
        r.present = false ∧ r.credential = false) destroyRuntime
      (fun _ => phase e m .runtimeStopped fun _ _ r => r.present = false ∧ r.credential = false)
      (safely e m) := by
  refine .bind (Q := fun _ => phase e m .runtimeStopped fun _ _ r =>
    r.present = false ∧ r.credential = false) (.await fun x => ?_) fun _ =>
      .update fun x w h => ⟨h.1, ?_⟩
  · refine .of_and fun hown => .provided (fun hup => ?_) fun hup w h => ?_
    · simp only [phase, hown.created hup]
      exact (Lifecycle.triple_destroyRuntime hown.guardId hown.guardLabels).weaken
        (fun _ h => ⟨h.1, h.2.1, trivial⟩) (fun _ _ h => ⟨h, hown⟩) fun _ h => h
    · exact ⟨⟨h.1, h.2.1, h.2.2 (Bool.eq_false_iff.2 hup)⟩, hown⟩
  · exact ⟨h.2.id, h.2.labels, h.2.guardId, h.2.guardLabels, h.2.receipt, fun hup => nomatch hup⟩

theorem triple_releaseStorage :
    TripleS (phase e m .gitRecoveredCleaned fun _ _ _ => True) releaseStorage
      (fun _ => phase e m .gitRecoveredCleaned fun _ a _ => a.left = false) (safely e m) := by
  refine .await fun x => .of_and fun hown => ?_
  refine .whenSome (fun receipt hr => ?_) fun hr w h => ?_
  · simp only [phase, hr, Option.isSome_some]
    exact (Lifecycle.triple_releaseStorage (hown.receipt receipt hr)).post fun _ _ h => ⟨h, hown⟩
  · refine ⟨⟨h.1, h.2.1, Bool.eq_false_iff.2 fun hl => ?_⟩, hown⟩
    have hknown := h.2.1.known.storage hl
    rw [hr] at hknown
    exact nomatch hknown

theorem quiet_destroyWorktree : Quiet e destroyWorktree :=
  .await fun _ => .seq (.whenSome fun _ _ => .attempt trivial) fun _ =>
    .attempt trivial

theorem phase_kept {d : CleanupDisposition} {X : Allocation → RuntimeState → Prop}
    (x y : TaskState) (w : World) (hk : Kept x y) (h : phase e m d (fun _ => X) x w) :
    phase e m d (fun _ => X) y w := by
  refine ⟨?_, h.2.kept hk⟩
  rw [hk.receipt]
  exact h.1

theorem triple_cleanupPhases :
    TripleS (working e m) cleanupPhases (fun _ _ => (Fact.cleared m).of e) (safely e m) := by
  have hsafe : ∀ x w, working e m x w → safely e m x w := fun x w h => Fact.toSafe _ h.1
  refine .seq triple_fence hsafe fun _ => ?_
  refine .seq (triple_task plain_stopAgent.quiet fun _ _ _ => working_kept) hsafe fun _ => ?_
  refine .bind (triple_enter (X := fun x _ r => x.guard.runtimeCreated = false →
    r.present = false ∧ r.credential = false) fun x c a r h =>
      ⟨h.known, ⟨fun h => absurd h (by decide), fun h => absurd h (by decide)⟩, h.down⟩) fun _ => ?_
  refine .bind triple_destroyRuntime fun _ => ?_
  refine .bind (triple_enter (X := fun _ _ _ => True) fun x c a r h =>
    ⟨h.1.known, ⟨fun _ => h.2, fun h => absurd h (by decide)⟩, trivial⟩) fun _ => ?_
  refine .seq (triple_task quiet_destroyWorktree phase_kept)
    (fun _ _ h => Fact.toSafe _ h.1) fun _ => ?_
  refine .bind (triple_enter (X := fun _ _ _ => True) fun x c a r h =>
    ⟨h.1.known, ⟨fun _ => h.1.runtime_gone rfl, fun h => absurd h (by decide)⟩, trivial⟩) fun _ => ?_
  refine .bind triple_releaseStorage fun _ => ?_
  have hlast : TripleS (phase e m .gitRecoveredCleaned fun _ a _ => a.left = false)
      (transitionCleanup .gitRecoveredCleaned .storageReleased)
      (fun _ => phase e m .storageReleased fun _ _ _ => True) (safely e m) :=
    triple_enter fun x c a r h =>
      ⟨h.1.known, ⟨fun _ => h.1.runtime_gone rfl, fun _ => h.2⟩, trivial⟩
  exact hlast.post fun _ x w h => ⟨h.1.1, h.1.2.1.cleared rfl⟩

theorem only_acknowledge {id : ExecutionId} : (acknowledge id).run.Only (WorkerCall.acking e) :=
  .seq (.attemptAs trivial) fun _ => Lifecycle.only_ackCleanupAuthorityStep WorkerCall.acking_of_acks

theorem only_logging {p : Effect Unit} (hp : p.run.Only (WorkerCall.acking e)) :
    (logging errors p).run.Only (WorkerCall.acking e) := by
  refine .seq (.observe hp) fun r => ?_
  cases r with
  | ok u | error err => exact .pure _

theorem only_finalizeAndResolve {id : ExecutionId} :
    (finalizeAndResolve id attemptId errors).run.Only (WorkerCall.acking e) := by
  refine .seq (.observe (.attemptAs trivial)) fun finalized => ?_
  cases finalized with
  | error err => exact .pure _
  | ok done =>
    refine .seq (only_logging only_acknowledge) fun errors => ?_
    split
    · exact only_logging (.attemptAs trivial)
    · exact .pure _

theorem triple_tearDown :
    TripleS (working e m) (tearDown attemptId errors) (fun _ => safely e m) (safely e m) := by
  refine .bind (.catchS triple_cleanupPhases) fun cleaned => ?_
  cases cleaned with
  | error err => exact .pure fun _ _ h => h
  | ok u =>
    refine .await fun x => (triple_cleared only_finalizeAndResolve).weaken (fun _ h => h)
      (fun _ _ h => ?_) fun _ h => ?_
    · exact Fact.toSafe _ h
    · exact Fact.toSafe _ h

theorem quiet_completeCancellation {cancellation : Bool} :
    Quiet e (completeCancellation cancellation attemptId errors) := by
  refine .await fun x => ?_
  split
  · refine .seq (.observe (.seq (.attemptAs rfl) fun _ => .pure _))
      fun r => ?_
    cases r with
    | ok u | error err => exact .pure _
  · exact .pure _

theorem triple_conclude {outcome : Except WorkerError ExecutionResult} {cancellation : Bool} :
    TripleS (working e m) (conclude attemptId outcome cancellation errors) (fun _ => safely e m)
      (safely e m) := by
  have hsafe : ∀ x w, working e m x w → safely e m x w := fun x w h => Fact.toSafe _ h.1
  have hreturn : ∀ result : Except WorkerError ExecutionResult,
      KeepsS (safely e m) (perform (ExceptT.mk (.pure result))) := fun result => .await fun x => by
    cases result with
    | ok r | error err => exact fun _ h => h
  refine .seq (triple_task .look fun _ _ _ => working_kept) hsafe fun x => ?_
  split
  · refine .seq (triple_task (plain_perform (only_store fun _ => rfl)).quiet fun _ _ _ => working_kept)
      hsafe fun _ => ?_
    exact (hreturn outcome).weaken hsafe (fun _ _ _ h => h) fun _ _ h => h
  · refine .bind triple_tearDown fun errors => ?_
    refine .bind (triple_task quiet_completeCancellation fun _ _ _ _ h => h) fun errors => ?_
    exact hreturn _

theorem triple_runBegun (hm : ¬m) {stateRoot : String} :
    TripleS (vacant e m) (runBegun stateRoot attemptId) (fun _ => safely e m) (safely e m) := by
  have hsafe : ∀ x w, working e m x w → safely e m x w := fun x w h => Fact.toSafe _ h.1
  refine TripleS.bind (Q := fun _ => working e m) ((TripleS.catchS (triple_runInner hm)).post
    fun outcome x w h => ?_) fun outcome => ?_
  · cases outcome with
    | ok result => exact working_of_securing h
    | error err => exact h
  refine TripleS.seq (triple_task plain_lookUpCancellation.quiet fun _ _ _ =>
    working_kept) hsafe fun found => ?_
  refine TripleS.seq (triple_task plain_recordFailure.quiet fun _ _ _ => working_kept) hsafe fun errors => ?_
  exact triple_conclude

end Cleanup

end Task

end Orchestrator
