import Orchestrator.Worker.Answers
import Orchestrator.Worker.Proof.Teardown

/-!
# Cleanup does not leak

A process runs an execution for the first time and stops anywhere; processes that start later
reconcile, adopt and recover, and stop anywhere too. As long as no process stops while the host holds
storage whose receipt is not durable, and no call of a storage rollback fails, an execution whose
cleanup authority is resolved has left nothing behind. A process that stops between the allocation
of the storage and the transition that records its receipt leaves storage that no recovery finds.
-/

namespace Orchestrator

open Prog Effect

variable {e : ExecutionId}

/-! ## Adoption -/

namespace Lifecycle

variable {execution : Execution}

theorem planned_of_secured {w : World} (h : (Fact.secured True).of e w) :
    (Worker.planned True).of e w :=
  ⟨h.1, ⟨(Fact.secured True).contained h.2, (Fact.secured True).recorded h.2 trivial⟩, fun _ => h.2.1⟩

/-- Nothing was removed yet, and the storage has this journal. -/
def journaled (j : PhaseJournal) : Fact True where
  holds c a r := Worker.planned True c a r ∧ a.journal = some j
  calm hc h := ⟨(Worker.planned True).calm hc h.1, h.2⟩
  contained h := (Worker.planned True).contained h.1
  recorded h := (Worker.planned True).recorded h.1

theorem triple_readJournal :
    TripleE ((Worker.planned True).of e) (storage e (ExecutionStorage.call false .readJournal))
      (fun j => (journaled j).of e) ((Worker.planned True).of e) := by
  refine Triple.bind (Q := Assertion.outcome (fun j => (journaled j).of e)
    ((Worker.planned True).of e)) (.ask fun w r w' hw hc => ?_) fun r => ?_
  · obtain ⟨⟨a, hdoes, rfl⟩, _⟩ := hc
    obtain ⟨rfl, hread⟩ : a = w.storage e ∧ ∀ j, r = .ok j → (w.storage e).journal = some j := hdoes
    have hsame : w.setStorage e (w.storage e) = w := by
      rw [World.setStorage, Function.update_eq_self]
    rw [hsame]
    cases r with
    | ok j => exact ⟨hw.1, hw.2, hread j rfl⟩
    | error err => exact hw
  · cases r with
    | ok j | error err => exact fun _ h => h

theorem triple_readyReceipt {layout : ExecutionLayout} (hid : execution.id = e) :
    TripleE ((Worker.planned True).of e) (readyReceipt layout execution)
      (fun receipt => ((Fact.secured True).of e).and (receipt.labels = execution.labels))
      ((Worker.planned True).of e) := by
  subst hid
  refine .bind triple_readJournal fun journal => ?_
  cases journal with
  | allocating labels bytes identified | releasing receipt released =>
    exact .throw fun _ h => ⟨h.1, h.2.1⟩
  | ready receipt =>
    refine .learn (.refuse fun _ h _ => ⟨h.1, h.2.1⟩) fun _ hown => ?_
    refine .pure fun w h => ?_
    obtain ⟨hn, ⟨⟨hcontained, hrecorded⟩, hearly⟩, hjournal⟩ := h
    have hleft : (w.storage execution.id).left = true := by
      simp [Allocation.left, hjournal, PhaseJournal.live]
    exact ⟨⟨hn, hearly trivial, hrecorded hleft, hcontained.sound⟩,
      not_not.1 fun hne => hown (.inl hne)⟩

theorem triple_adopt {stateRoot : String} (hid : execution.id = e) :
    TripleE ((Worker.planned True).of e) (adopt stateRoot execution)
      (fun adopted => ((Fact.secured True).of e).and (adopted.receipt.labels = execution.labels))
      ((Worker.planned True).of e) := by
  refine .bind (triple_quiet .demand) fun sessionId => ?_
  refine .bind (triple_quiet trivial) fun layout => ?_
  refine .bind (triple_quiet .refuse) fun _ => ?_
  refine .learn (triple_readyReceipt hid) fun receipt hlabels => ?_
  refine TripleE.weaken (Q := fun adopted => ((Fact.secured True).of e).and
    (adopted.receipt.labels = execution.labels)) (E := (Fact.secured True).of e) ?_ (fun _ h => h)
    (fun _ _ h => h) fun _ => planned_of_secured
  refine .bind (triple_arming (.attempt trivial)) fun _ => ?_
  refine .bind (triple_arming ?_) fun worktree => ?_
  · exact .seq (.attempt trivial) fun _ => .seq .demand fun _ =>
      .seq .refuse fun _ => .pure _
  refine .bind (triple_arming (.attempt trivial)) fun found => ?_
  refine .bind (triple_arming .refuse) fun _ => ?_
  refine .bind (triple_arming (.attemptAs trivial)) fun environment => ?_
  refine .bind (triple_arming (only_buildForAdoption fun _ _ => trivial)) fun _ => ?_
  refine .bind (triple_arming (.attempt trivial)) fun _ => ?_
  refine .bind (triple_arming (.provided fun _ => .attempt trivial)) fun _ => ?_
  refine .bind (triple_arming (.attempt trivial)) fun found => ?_
  exact .bind (triple_arming .refuse) fun _ => .pure fun _ h => ⟨h, hlabels⟩

end Lifecycle

namespace Task

variable {stateRoot : String} {attemptId : AttemptId}

def unclaimed (e : ExecutionId) (x : TaskState) : Assertion (containment e True) :=
  ((Worker.planned True).of e).and (Bare e x)

def stopped (e : ExecutionId) (x : TaskState) : Assertion (containment e True) :=
  if x.guard.receipt.isSome then working e True x else unclaimed e x

theorem stopped_of_unclaimed {x : TaskState} {w : World} (h : unclaimed e x w) : stopped e x w := by
  have hnone : x.guard.receipt = none := h.2.receipt
  rw [stopped, hnone]
  exact h

theorem stopped_of_securing {x : TaskState} {w : World} (h : securing e True x w) :
    stopped e x w := by
  rw [stopped, if_pos h.2.2.1]
  exact working_of_securing h

theorem stopped_kept {x y : TaskState} {w : World} (hk : Kept x y) (h : stopped e x w) :
    stopped e y w := by
  unfold stopped at h ⊢
  rw [hk.receipt]
  split at h
  · next hr =>
    rw [if_pos hr]
    exact working_kept hk h
  · next hr =>
    rw [if_neg hr]
    exact ⟨h.1, h.2.kept hk⟩

theorem safely_of_stopped {x : TaskState} {w : World} (h : stopped e x w) :
    safely e True x w ∧ Own e x := by
  unfold stopped at h
  split at h
  · exact ⟨Fact.toSafe _ h.1, h.2⟩
  · exact ⟨Fact.toSafe _ h.1, h.2.own⟩

theorem triple_adoptInner :
    TripleS (unclaimed e) (adoptInner stateRoot) (fun _ => securing e True) (stopped e) := by
  refine .seq (triple_task plain_enterAdopted.quiet fun _ _ _ hk h => ⟨h.1, h.2.kept hk⟩)
    (fun _ _ => stopped_of_unclaimed) fun _ => ?_
  refine .bind (Q := fun adopted x => ((Fact.secured True).of e).and
    (Bare e x ∧ adopted.receipt.labels.executionId = e)) (.await fun x =>
      .of_and fun hx => ?_) fun adopted => ?_
  · refine (Lifecycle.triple_adopt hx.own.id).weaken (fun _ h => h) (fun _ _ h => ⟨h.1, hx, ?_⟩)
      fun _ h => stopped_of_unclaimed ⟨h, hx⟩
    rw [h.2]
    exact hx.own.labels
  refine .bind (Q := fun _ => securing e True) (.update fun x w h => ?_) fun _ => ?_
  · obtain ⟨hw, hbare, hlabels⟩ := h
    refine ⟨hw, ⟨hbare.own.id, hbare.own.labels, hbare.own.guardId, hbare.own.guardLabels, ?_,
      fun _ => rfl⟩, rfl, rfl⟩
    rintro _ ⟨⟩
    exact hlabels
  refine TripleS.weaken (Q := fun _ => securing e True) (E := securing e True) ?_ (fun _ _ h => h)
    (fun _ _ _ h => h) fun _ _ => stopped_of_securing
  refine .bind (triple_secured plain_resumeAdopted.quiet) fun _ => ?_
  exact .bind (triple_securedTransition rfl) fun _ => triple_driveRunning

theorem triple_recoverDurably {execution : Execution} (hid : execution.id = e) :
    ((Fact.safe True).of e).KeptBy (recoverDurably execution) := by
  subst hid
  refine .learn Worker.triple_getAuthority fun authority hid => ?_
  rw [← hid]
  exact Worker.triple_recoverCleanupAuthority rfl

theorem triple_recoverAdoption {outcome : Except WorkerError ExecutionResult}
    {errors : List String} :
    TripleS (fun x => (safely e True x).and (Own e x)) (recoverAdoption outcome errors)
      (fun _ => safely e True) (safely e True) := by
  have hreturn : ∀ result : Except WorkerError ExecutionResult,
      ((Fact.safe True).of e).KeptBy (ExceptT.mk (.pure result)) :=
    fun result => match result with
      | .ok _ | .error _ => fun _ h => h
  refine .await fun x => .of_and fun hown => ?_
  refine .bind (Q := fun _ => (Fact.safe True).of e)
    ((triple_recoverDurably hown.id).observe.post fun r _ h => ?_)
    fun recovered => ?_
  · cases r with
    | ok u => exact h
    | error err => exact h
  · cases recovered with
    | ok u | error err => exact hreturn _

theorem triple_adoptBegun :
    TripleS (unclaimed e) (adoptBegun stateRoot attemptId) (fun _ => safely e True)
      (safely e True) := by
  -- what a task returned it returned with a receipt in hand
  refine TripleS.bind (Q := fun outcome x => (stopped e x).and
    (outcome.isOk = true → x.guard.receipt.isSome = true))
    ((TripleS.catchS triple_adoptInner).post fun outcome x w h => ?_) fun outcome => ?_
  · cases outcome with
    | ok result => exact ⟨stopped_of_securing h, fun _ => h.2.2.1⟩
    | error err => exact ⟨h, fun h => nomatch h⟩
  have hkept : ∀ (x y : TaskState) (w : World), Kept x y → ((stopped e x).and
      (outcome.isOk = true → x.guard.receipt.isSome = true)) w → ((stopped e y).and
        (outcome.isOk = true → y.guard.receipt.isSome = true)) w :=
    fun x y w hk h => ⟨stopped_kept hk h.1, hk.receipt ▸ h.2⟩
  refine TripleS.seq (triple_task plain_lookUpCancellation.quiet hkept)
    (fun x w h => (safely_of_stopped h.1).1) fun found => ?_
  refine TripleS.seq (triple_task plain_recordFailure.quiet hkept)
    (fun x w h => (safely_of_stopped h.1).1) fun errors => ?_
  refine TripleS.bind TripleS.look fun y => ?_
  split
  · exact triple_recoverAdoption.weaken (fun x w h => safely_of_stopped h.1.1) (fun _ _ _ h => h)
      fun _ _ h => h
  · next hcont =>
    refine triple_conclude.weaken (fun x w h => ?_) (fun _ _ _ h => h) fun _ _ h => h
    obtain ⟨⟨hstopped, hok⟩, rfl⟩ := h
    have hreceipt : x.guard.receipt.isSome = true := by
      cases hres : outcome.isOk with
      | true => exact hok hres
      | false =>
        rw [Option.isSome_iff_ne_none]
        exact fun hnone => hcont ⟨by rw [hres]; rfl, hnone⟩
    rw [stopped, if_pos hreceipt] at hstopped
    exact hstopped

theorem triple_runFrom {α : Type} {m : Prop} {t : Task α} {P : TaskState → Assertion (containment e m)}
    {x : TaskState} (h : TripleS P t (fun _ => safely e m) (safely e m)) :
    TripleE (P x) (runFrom x t) (fun _ => (Fact.safe m).of e) ((Fact.safe m).of e) :=
  Triple.bind (h x) fun r => match r with
    | (.ok _, _) | (.error _, _) => fun _ hs => hs

end Task

/-! ## Processes -/

namespace Worker

variable {stateRoot : String} {execution : Execution}

theorem triple_runWithCancelAndControls {m : Prop} (hm : ¬m) (hid : execution.id = e)
    (hlabels : execution.labels.executionId = e) :
    TripleE ((Fact.vacant m).of e) (runWithCancelAndControls stateRoot execution)
      (fun _ => (Fact.safe m).of e) ((Fact.safe m).of e) := by
  have hsafe : ∀ w, (Fact.vacant m).of e w → (Fact.safe m).of e w := fun w h => Fact.toSafe _ h
  refine .seq (triple_quiet .demand) hsafe fun attemptId => ?_
  refine .seq (triple_quiet .demand) hsafe fun workerId => ?_
  refine .seq (triple_quiet (.observe (.attemptAs rfl))) hsafe fun begun => ?_
  cases begun with
  | error authority =>
    refine .seq (triple_quiet (.observe (.attemptAs rfl))) hsafe fun released => ?_
    cases released with
    | ok u | error err => exact .throw hsafe
  | ok u =>
    exact (Task.triple_runFrom (Task.triple_runBegun hm)).pre fun w h =>
      ⟨h, Own.new hid hlabels, rfl, rfl⟩

theorem triple_runAdopted (hid : execution.id = e) (hlabels : execution.labels.executionId = e) :
    TripleE ((planned True).of e) (runAdopted stateRoot execution)
      (fun _ => (Fact.safe True).of e) ((Fact.safe True).of e) := by
  have hsafe : ∀ w, (planned True).of e w → (Fact.safe True).of e w := fun w h => Fact.toSafe _ h
  refine .seq (triple_quiet .demand) hsafe fun attemptId => ?_
  refine .seq (triple_quiet .demand) hsafe fun workerId => ?_
  refine .seq (triple_quiet (.attemptAs rfl)) hsafe fun _ => ?_
  exact (Task.triple_runFrom Task.triple_adoptBegun).pre fun w h =>
    ⟨h, Own.new hid hlabels, rfl, rfl⟩

/-- What a process that starts on the host does about `e`: it reconciles, and runs the task of `e`
if it adopts it. Its tasks for other executions count among the others. -/
def restart (stateRoot : String) (w : WorkerId) (e : ExecutionId) : Effect Unit := do
  let adopted ← reconcileStartup w
  whenSome (adoptee e adopted) fun execution => do
    let _ ← runAdopted stateRoot execution

theorem triple_restart {w : WorkerId} : ((Fact.safe True).of e).KeptBy (restart stateRoot w e) := by
  refine .bind triple_reconcileStartup fun adopted => ?_
  refine .whenSome (fun x hx => fun world h => ?_) fun hnone world h => Fact.toSafe _ h.1
  obtain ⟨⟨hn, hplanned, hearly⟩, hown⟩ := h
  obtain ⟨hid, hlabels⟩ := hown x hx
  exact TripleE.bind (triple_runAdopted hid hlabels) (fun _ => TripleE.pure fun _ h => h) world
    ⟨hn, hplanned, fun _ => hearly (by rw [hx]; rfl)⟩

end Worker

/-! ## Histories -/

/-- Nothing of `e` is on the host, and nothing was removed. -/
structure Fresh (e : ExecutionId) (w : World) : Prop where
  named : Named e w.store
  early : Early (w.store.custody e)
  storage : (w.storage e).Vacant
  runtime : (w.runtime e).present = false
  credential : (w.runtime e).credential = false

/-- A process first runs `e` and stops anywhere, with its storage recorded; later ones start or
recover, and stop anywhere. No call of a storage rollback fails. -/
inductive History (stateRoot : String) (e : ExecutionId) : World → World → Prop
  | first {execution w w'} (id : execution.id = e) (labels : execution.labels.executionId = e)
      (stop : Dies WorkerCall.Tidy (Others e)
        (Worker.runWithCancelAndControls stateRoot execution).run w w')
      (recorded : Recorded (w'.store.custody e) (w'.storage e)) : History stateRoot e w w'
  | restart {w₀ w w'} (worker : WorkerId) (before : History stateRoot e w₀ w)
      (stop : Dies WorkerCall.Tidy (Others e) (Worker.restart stateRoot worker e).run w w') :
      History stateRoot e w₀ w'
  | recover {execution w₀ w w'} (id : execution.id = e) (before : History stateRoot e w₀ w)
      (stop : Dies WorkerCall.Tidy (Others e) (Task.recoverDurably execution).run w w') :
      History stateRoot e w₀ w'

variable {stateRoot : String} {w w' : World}

theorem History.safe (h : History stateRoot e w w') (hw : Fresh e w) : (Fact.safe True).of e w' := by
  induction h with
  | first hid hlabels hstop hrecorded =>
    have hvacant : (Fact.vacant False).of e _ :=
      ⟨hw.named, hw.early, ⟨fun r hr => ?_, fun _ l b i hj => ?_⟩, hw.storage, hw.runtime, hw.credential⟩
    · have hend := ((Worker.triple_runWithCancelAndControls not_false hid hlabels) _ hvacant).of_dies hstop
      exact ⟨hend.1, hend.2.1, fun _ => hrecorded⟩
    · exact absurd hr (hw.storage.unready r)
    · have hnone := hw.storage.2.2
      rw [hj] at hnone
      exact nomatch hnone
  | restart worker _ hstop ih =>
    have hend := (Worker.triple_restart _ (ih hw)).of_dies hstop
    exact ⟨hend.1, hend.2⟩
  | recover hid _ hstop ih =>
    have hend := (Task.triple_recoverDurably hid _ (ih hw)).of_dies hstop
    exact ⟨hend.1, hend.2⟩

/-- An execution whose cleanup authority is resolved has left nothing behind. -/
theorem cleanup_never_leaks {c : CleanupAuthority} (hfresh : Fresh e w)
    (h : History stateRoot e w w') (hc : w'.store.authorities.find? e = some c)
    (hphase : c.phase = .resolved) :
    (w'.storage e).left = false ∧ (w'.runtime e).present = false ∧
      (w'.runtime e).credential = false := by
  have hcontained := (h.safe hfresh).2.1
  have hcustody := custody_of_find hc
  have hgone := hcontained.runtime _ _ hcustody (by rw [hphase]; rfl)
  exact ⟨hcontained.storage _ _ hcustody (by rw [hphase]; rfl), hgone.1, hgone.2⟩

namespace Sample

def granted : Execution :=
  { execution with
    state := .workerAssigned, workerId := some ⟨"w"⟩, attemptId := some ⟨"a"⟩
    labels := { execution.labels with workerId := ⟨"w"⟩ }, updatedAt := 2 }

/-- The host of the worker, when it was granted the execution. -/
def idle : Host :=
  { world := { store := after Store.initial assigned, storage := fun _ => {}, runtime := fun _ => {} }
    cues := [], clock := 3 }

theorem fresh_idle : Fresh ⟨"e"⟩ idle.world where
  named := by
    have hrow : (idle.world.store.executions.find? ⟨"e"⟩).map (fun row => row.labels.executionId) =
        some ⟨"e"⟩ := by decide
    exact Option.map_eq_some_iff.1 hrow
  early := by
    have hnone : (idle.world.store.custody ⟨"e"⟩).isNone = true := by decide
    rw [Option.isNone_iff_eq_none.1 hnone]
    exact fun _ _ h => nomatch h
  storage := ⟨rfl, rfl, rfl⟩
  runtime := rfl
  credential := rfl

/-- The first transition of the authority, and the later ones. -/
def transition {β : Type} : WorkerCall β → Bool
  | .store c _ => c.works ⟨"e"⟩
  | _ => false

end Sample

open Sample in
/-- A task that fails before it has a worktree tears down what it allocated. -/
theorem cleanup_never_leaks_sample : ∃ w' c, History "/state" ⟨"e"⟩ idle.world w' ∧
    w'.store.authorities.find? ⟨"e"⟩ = some c ∧ c.phase = .resolved ∧
    (w'.storage ⟨"e"⟩).left = false := by
  let p := (Worker.runWithCancelAndControls "/state" granted).run
  let last := (play (Host.crashing (fun _ _ => false) fun _ => false) p idle).2
  have hphase : (last.world.store.authorities.find? ⟨"e"⟩).map (fun c => c.phase) =
      some .resolved := by decide
  have hleft : (last.world.storage ⟨"e"⟩).left = false := by decide
  obtain ⟨c, hc, hres⟩ := Option.map_eq_some_iff.1 hphase
  have hhist : History "/state" ⟨"e"⟩ idle.world last.world :=
    .first rfl rfl (dies_of_play _ Host.world Host.tidy_of_crashing p idle) fun hl => by
      rw [hleft] at hl
      exact nomatch hl
  exact ⟨last.world, c, hhist, hc, hres, (cleanup_never_leaks fresh_idle hhist hc hres).1⟩

open Sample in
/-- The process goes down between the allocation and the transition that records its receipt; the next
one resolves the authority and leaves the storage. -/
theorem unrecorded_storage_leaks : Reachable idle.world.store ∧ Fresh ⟨"e"⟩ idle.world ∧
    ∃ w' w'' c,
      Dies WorkerCall.Tidy (Others ⟨"e"⟩) (Worker.runWithCancelAndControls "/state" granted).run
        idle.world w' ∧
      Dies WorkerCall.Tidy (Others ⟨"e"⟩) (Worker.restart "/state" ⟨"w"⟩ ⟨"e"⟩).run w' w'' ∧
      w''.store.authorities.find? ⟨"e"⟩ = some c ∧ c.phase = .resolved ∧
      (w''.storage ⟨"e"⟩).left = true := by
  let p := (Worker.runWithCancelAndControls "/state" granted).run
  let cut := (play (Host.crashing (fun _ _ => false) transition) p idle).2
  let q := (Worker.restart "/state" ⟨"w"⟩ ⟨"e"⟩).run
  let last := (play (Host.crashing (fun _ _ => false) fun _ => false) q cut).2
  have hphase : (last.world.store.authorities.find? ⟨"e"⟩).map (fun c => c.phase) =
      some .resolved := by decide
  have hleft : (last.world.storage ⟨"e"⟩).left = true := by decide
  obtain ⟨c, hc, hres⟩ := Option.map_eq_some_iff.1 hphase
  exact ⟨reachable_after assigned, fresh_idle, cut.world, last.world, c,
    dies_of_play _ Host.world Host.tidy_of_crashing p idle,
    dies_of_play _ Host.world Host.tidy_of_crashing q cut, hc, hres, hleft⟩

end Orchestrator
