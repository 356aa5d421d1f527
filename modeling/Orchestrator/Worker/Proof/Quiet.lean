import Orchestrator.Worker.Proof.Custody

/-!
# What a task does between its cleanup transitions

Recording progress, moving the tracked execution and handling controls are plain: their calls leave
the custody, the storage and the runtime of every execution alone, and neither poll the agent nor
publish what was polled; the guard keeps what it holds. The whole event loop is quiet: it leaves the
custody, the storage and the runtime of its execution alone.
-/

namespace Orchestrator

open Prog Effect

/-- What quiet steps leave alone in the local state. -/
structure Kept (x y : TaskState) : Prop where
  id : y.execution.id = x.execution.id
  labels : y.execution.labels = x.execution.labels
  execution : y.guard.execution = x.guard.execution
  receipt : y.guard.receipt = x.guard.receipt
  runtimeCreated : y.guard.runtimeCreated = x.guard.runtimeCreated

theorem Kept.refl (x : TaskState) : Kept x x := ⟨rfl, rfl, rfl, rfl, rfl⟩

instance : Std.Refl Kept := ⟨Kept.refl⟩

instance : IsTrans TaskState Kept where
  trans _ _ _ h h' := ⟨h'.id.trans h.id, h'.labels.trans h.labels, h'.execution.trans h.execution,
    h'.receipt.trans h.receipt, h'.runtimeCreated.trans h.runtimeCreated⟩

def AgentCall.polls : {β : Type} → AgentCall β → Bool
  | _, .poll _ _ => true
  | _, _ => false

/-- Calls that neither poll nor publish, and touch nothing of any execution on the host. -/
def WorkerCall.plain {β : Type} : WorkerCall β → Prop
  | .store c relayed => relayed = false ∧ ∀ e, c.works e = false
  | .agent c => c.polls = false
  | .storage _ _ | .runtime _ _ => False

theorem WorkerCall.calm_of_plain {e : ExecutionId} {β : Type} (c : WorkerCall β) (h : c.plain) :
    c.calm e := by
  cases c with
  | store c relayed => exact h.2 e
  | agent c => trivial
  | storage id c => exact h.elim
  | runtime id op => exact h.elim

namespace Task

variable {e : ExecutionId} {α : Type} {m : Monitor}

/-- All calls are plain, and the guard keeps what it holds. -/
def Plain (t : Task α) : Prop := Mild WorkerCall.plain Kept t

theorem plain_perform {p : Effect α} (hp : p.run.Only WorkerCall.plain) : Plain (perform p) :=
  .await fun _ => hp

theorem plain_ask {c : AgentCall α} (hc : c.polls = false) : Plain (perform (ask c)) :=
  plain_perform ⟨hc, fun _ => trivial⟩

theorem plain_agent {c : TaskState → AgentCall (Except WorkerError α)}
    (hc : ∀ x, (c x).polls = false) : Plain (await fun x => agent (c x)) :=
  .await fun x => .attempt (hc x)

theorem only_store {c : StoreCall (Except StoreError α)} (hc : ∀ e, c.works e = false) :
    (store c).run.Only WorkerCall.plain :=
  .attemptAs ⟨rfl, hc⟩

theorem plain_refuse {p : TaskState → Prop} [∀ x, Decidable (p x)] {err : TaskState → WorkerError} :
    Plain (await fun x => refuse (p x) (err x)) :=
  .await fun _ => .refuse

/-! ## The tracked execution -/

theorem plain_moveTo {next : ExecutionState} : Plain (moveTo next) := by
  refine .bind (plain_ask rfl) fun now => .compute fun x y hy => ?_
  cases hmove : x.execution.transition now next with
  | error pair =>
    rw [hmove] at hy
    exact nomatch hy
  | ok z =>
    rw [hmove] at hy
    obtain rfl := Except.ok.inj hy
    obtain ⟨_, rfl⟩ := Execution.transition_eq_ok.1 hmove
    exact ⟨rfl, rfl, rfl, rfl, rfl⟩

theorem plain_record {kind : ExecutionEventKind} : Plain (record kind) :=
  .await fun _ => .seq ⟨rfl, fun _ => trivial⟩ fun _ =>
    .seq (only_store fun _ => rfl) fun _ => .pure _

variable {failure : FailureClass} {session : SessionRef} {control : PendingExecutionControl}
  {sample : ResourceSample} {events : List ExecutionEvent}

theorem plain_persistFailure : Plain (persistFailure failure) :=
  .bind plain_moveTo fun _ => .bind (.update fun _ => ⟨rfl, rfl, rfl, rfl, rfl⟩) fun _ =>
    plain_record

theorem plain_failWith : Plain (failWith failure : Task α) :=
  .bind plain_persistFailure fun _ => .throw _

theorem plain_stopAgent : Plain stopAgent := by
  refine .bind .look fun x => ?_
  split
  · exact .pure _
  split
  · exact .pure _
  · exact .bind (plain_perform (.attempt rfl)) fun _ =>
      .update fun _ => ⟨rfl, rfl, rfl, rfl, rfl⟩

/-! ## Controls -/

theorem plain_resumeAgent {what : String} : Plain (resumeAgent what session) := by
  refine .await fun x => .seq ?_ fun _ => .attempt rfl
  exact .seq .demand fun _ => .seq .demand fun _ => .pure _

theorem plain_applyPause {applied : Bool} : Plain (applyPause m applied) :=
  .bind plain_refuse fun _ => .bind (.await fun _ => .provided fun _ =>
    .attempt rfl) fun _ => .bind (plain_ask rfl) fun _ => .bind plain_moveTo fun _ =>
      .pure _

theorem plain_applyResume : Plain (applyResume m) :=
  .bind plain_refuse fun _ => .bind plain_resumeAgent fun _ => .bind (plain_ask rfl) fun _ =>
    .bind plain_moveTo fun _ => .pure _

theorem plain_pauseFor {running : Bool} : Plain (pauseFor running m) := by
  unfold pauseFor
  split
  · exact .bind (plain_agent fun _ => rfl) fun _ => .bind (plain_ask rfl) fun _ => .pure _
  · exact .pure _

theorem plain_resumeFor {running : Bool} : Plain (resumeFor running m session) := by
  unfold resumeFor
  split
  · exact .bind plain_resumeAgent fun _ => .bind (plain_ask rfl) fun _ => .pure _
  · exact .pure _

theorem plain_forkSession {applied running : Bool} {target : SessionId} :
    Plain (forkSession m applied running target) := by
  unfold forkSession
  split
  · exact .bind .look fun _ => .bind plain_resumeFor fun _ => .pure _
  · exact .bind plain_pauseFor fun _ => .bind (plain_agent fun _ => rfl) fun _ =>
      .bind (plain_agent fun _ => rfl) fun _ => .bind plain_resumeFor fun _ => .pure _

theorem plain_applyFork {applied : Bool} : Plain (applyFork m control applied) :=
  .bind (plain_perform .demand) fun _ => .bind plain_forkSession fun _ =>
    .bind plain_refuse fun _ => .bind (.update fun _ => ⟨rfl, rfl, rfl, rfl, rfl⟩) fun _ =>
      .bind (plain_ask rfl) fun _ => .bind (.update fun _ => ⟨rfl, rfl, rfl, rfl, rfl⟩) fun _ =>
        .pure _

theorem plain_handleControl : Plain (handleControl m control) := by
  have happly : Plain (applyControl m control) := by
    unfold applyControl
    split
    · exact plain_applyPause
    · exact plain_applyResume
    · exact plain_applyFork
  refine .bind plain_refuse fun _ => .bind (.await fun _ => .seq .demand
    fun _ => .seq .demand fun _ => only_store fun _ => rfl) fun _ => ?_
  refine .bind happly fun _ => .bind (.await fun _ => only_store fun _ => rfl) fun _ => ?_
  exact .bind (.await fun _ => .seq (only_store fun _ => rfl) fun _ => .pure _)
    fun _ => .pure _

/-! ## The event loop -/

theorem plain_takeControl {closed : String} {c : Option PendingExecutionControl} :
    Plain (takeControl m closed c) :=
  .bind (plain_perform .demand) fun _ => .bind plain_handleControl fun _ => .pure _

theorem plain_pausedRound : Plain (pausedRound m) := by
  refine .bind (plain_ask rfl) fun wake => ?_
  cases wake with
  | done a => exact nomatch a
  | control c => exact plain_takeControl
  | cancelled => exact .throw _

theorem plain_publishSample {now : Instant} {verdict : WatchdogVerdict} :
    Plain (publishSample m now verdict sample) := by
  unfold publishSample
  split
  · exact .bind (plain_ask rfl) fun _ => .bind plain_record fun _ => .pure _
  · exact .pure _

theorem plain_reactTo (assessment : HealthAssessment) : Plain (reactTo assessment) := by
  cases assessment with
  | healthy | quietHealthy seconds => exact .pure _
  | inactiveWarning seconds => exact plain_record
  | failed failure => exact plain_failWith

theorem plain_noteEvents : Plain (noteEvents m events) := by
  unfold noteEvents
  split
  · exact .pure _
  · exact .bind (plain_ask rfl) fun _ => .pure _

/-! ## Around the loop -/

theorem plain_enterAdopted : Plain enterAdopted := by
  refine .bind .look fun x => ?_
  dsimp only
  split
  · exact plain_moveTo
  · exact plain_perform .refuse

theorem plain_resumeAdopted {adopted : Lifecycle.AdoptedExecution} : Plain (resumeAdopted adopted) :=
  .await fun _ => .seq .demand fun _ => .seq (only_store fun _ => rfl)
    fun _ => .provided fun _ => .attempt rfl

theorem plain_lookUpCancellation : Plain (await fun x => lookUpCancellation x.execution.id) := by
  refine .await fun x => .seq (.observe (only_store fun _ => rfl)) fun found => ?_
  cases found with
  | ok pending | error err => exact .pure _

theorem plain_recordFailure {outcome : Except WorkerError ExecutionResult} {cancellation : Bool}
    {errors : List String} {failure : CleanupGuard → FailureClass} :
    Plain (recordFailure outcome cancellation errors failure) := by
  refine .bind .look fun x => ?_
  split
  · refine .bind (.catchS plain_persistFailure) fun recorded => ?_
    cases recorded with
    | ok u | error err => exact .pure _
  · exact .pure _

/-! ## The whole loop -/

/-- The task leaves `e` to others, and keeps what its guard holds. -/
def Quiet (e : ExecutionId) (t : Task α) : Prop := Mild (WorkerCall.calm e) Kept t

theorem Plain.quiet {t : Task α} (h : Plain t) : Quiet e t := h.mono WorkerCall.calm_of_plain

theorem quiet_ask {c : AgentCall α} : Quiet e (perform (ask c)) :=
  .await fun _ => ⟨trivial, fun _ => trivial⟩

theorem quiet_relayEvents (events : List ExecutionEvent) : Quiet e (relayEvents m events) := by
  induction events with
  | nil => exact .pure _
  | cons event rest ih =>
    unfold relayEvents
    split
    · exact .pure _
    · exact plain_failWith.quiet
    · exact .bind (.await fun _ => .seq (.attemptAs rfl) fun _ => .pure _)
        fun _ => ih

theorem quiet_assessRound : Quiet e (assessRound m events sample) :=
  .bind quiet_ask fun _ => .bind quiet_ask fun _ => .bind plain_publishSample.quiet fun _ =>
    .bind (plain_reactTo _).quiet fun _ => quiet_relayEvents events

theorem quiet_probeRound : Quiet e (probeRound m events) := by
  refine .bind .look fun x => .bind quiet_ask fun wake => ?_
  match wake with
  | .control c => exact plain_takeControl.quiet
  | .cancelled | .done (.error err) => exact .throw _
  | .done (.ok sample) => exact quiet_assessRound

theorem quiet_runningRound : Quiet e (runningRound m) := by
  refine .bind .look fun x => .bind quiet_ask fun wake => ?_
  match wake with
  | .control c => exact plain_takeControl.quiet
  | .cancelled | .done (.error err) => exact .throw _
  | .done (.ok events) => exact .bind plain_noteEvents.quiet fun _ => quiet_probeRound

theorem quiet_eventLoop (n : Nat) (m : Monitor) : Quiet e (eventLoop n m) := by
  induction n generalizing m with
  | zero => exact .bind quiet_ask fun never => nomatch never
  | succ n ih =>
    refine .bind (.bind quiet_ask fun _ => .bind (plain_perform .refuse).quiet fun _ =>
      .bind .look fun x => ?_) fun r => ?_
    · split
      · exact plain_pausedRound.quiet
      · exact quiet_runningRound
    · cases r with
      | again m' => exact ih m'
      | reviewReady session => exact .pure _

end Task

end Orchestrator
