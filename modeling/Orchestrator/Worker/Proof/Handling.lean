import Orchestrator.Persistence.Proof.Controls
import Orchestrator.Worker.Answers

/-!
# Controls in the event loop

While a task watches its agent, clients file control requests and the task records progress, each
record a new version of the execution row. `Attached` is what the task and the store agree on all
the time. A control that reaches the loop is handled without an error exactly when its request is
still pending and the execution row is still the one it was accepted for (`Current`); then the task
stays attached. A request that a record overtook is an error of the loop, and the task records the
execution as failed.
-/

namespace Orchestrator

open Relational Prog Effect Store

/-! ## What the task and the store agree on -/

/-- The row of an execution, as the task that runs it knows it. -/
structure Tracked (x : Execution) (row : ExecutionRow) : Prop where
  worker : row.workerId = x.workerId
  attempt : row.attemptId = x.attemptId
  /-- The first record after the start is still to come, in the second case. -/
  state : row.state = x.state ∨ row.state = .provisioning ∧ x.state = .running
  session : ∀ id, row.sessionId = some id → x.sessionId = some id
  worktree : ∀ path, row.worktreePath = some path → x.worktreePath = some path

/-- Nobody cancels the execution, and its attempt is open. -/
structure Serves (x : Execution) (s : Store) : Prop where
  uncancelled : s.cancellationPending x.id = false
  row : ∃ row, s.executions.find? x.id = some row ∧ Tracked x row
  attempt : ∃ t, s.attempts.find? t.attemptId = some t ∧ t.executionId = x.id ∧
    x.attemptId = some t.attemptId ∧ x.workerId = some t.workerId ∧ t.finishedAt = none

/-- The task of `e` watches the session `m.session` of an execution that runs or is paused. -/
structure Attached (e : ExecutionId) (m : Task.Monitor) (x : TaskState) (s : Store) : Prop where
  id : x.execution.id = e
  serves : Serves x.execution s
  active : x.execution.state = .running ∨ x.execution.state = .pausedForHuman
  session : x.execution.sessionId = some m.session.id
  owned : m.session.executionId = x.execution.id
  receipt : x.guard.receipt.isSome = true
  environment : x.guard.environment.isSome = true

/-- The control is what was read of request `r`. -/
structure ControlRow.Describes (r : ControlRow) (c : PendingExecutionControl) : Prop where
  execution : c.request.executionId = r.executionId
  action : c.request.action = r.action
  state : c.acceptedState = r.acceptedState
  target : c.targetSessionId = r.targetSessionId

instance (r : ControlRow) (c : PendingExecutionControl) : Decidable (r.Describes c) :=
  decidable_of_iff (c.request.executionId = r.executionId ∧ c.request.action = r.action ∧
    c.acceptedState = r.acceptedState ∧ c.targetSessionId = r.targetSessionId)
    ⟨fun h => ⟨h.1, h.2.1, h.2.2.1, h.2.2.2⟩, fun h => ⟨h.execution, h.action, h.state, h.target⟩⟩

def Delivered (e : ExecutionId) (s : Store) (c : PendingExecutionControl) : Bool :=
  c.request.executionId = e && (s.controls.find? c.request.requestId).any fun r => r.Describes c

/-- The request of the control is pending, and the execution row is the one it was accepted for. -/
def Current (s : Store) (c : PendingExecutionControl) : Bool :=
  (s.controls.find? c.request.requestId).any fun r => r.phase.pending &&
    (s.executions.find? r.executionId).any fun row => acceptedFor r row

/-! ## Clients file requests -/

def Filing (w w' : World) : Prop := ∃ now e action key,
  w' = { w with store := ((StoreCall.requestControl e action key).exec now w.store).2 }

/-- The two invariants of the control protocol. -/
structure Orderly (s : Store) : Prop where
  filed : s.Filed
  applicable : s.Applicable

variable {s : Store}

theorem Orderly.exec (h : Orderly s) {β : Type} (call : StoreCall β)
    (now : Timestamp) : Orderly (call.exec now s).2 :=
  have hst : Step s ⟨β, call, now⟩ (call.exec now s).2 := rfl
  ⟨h.filed.step hst, h.applicable.step h.filed hst⟩

theorem orderly_of_reachable (h : Reachable s) : Orderly s :=
  ⟨filed_of_run h, applicable_of_run h⟩

/-- What filing a request leaves alone. -/
structure Steady (s s' : Store) : Prop where
  executions : s'.executions = s.executions
  attempts : s'.attempts = s.attempts
  cancellations : s'.cancellations = s.cancellations
  controls : ∀ {r c}, s.controls.find? r = some c → s'.controls.find? r = some c

theorem Filing.steady {w w' : World} (h : Filing w w') (ho : Orderly w.store) :
    Orderly w'.store ∧ Steady w.store w'.store := by
  obtain ⟨now, e, action, key, rfl⟩ := h
  refine ⟨ho.exec _ now, ?_⟩
  have hsame : Steady w.store w.store := ⟨rfl, rfl, rfl, fun h => h⟩
  rcases Txn.run_state (rfl : (Txn.run (requestControl now e action key) w.store).2 = _) with
    heq | ⟨reply, hcom⟩
  · exact heq.symm ▸ hsame
  rcases requestControl_spec hcom with heq | ⟨row, c, hg, heq⟩
  · exact heq.symm ▸ hsame
  show Steady w.store (Txn.run (requestControl now e action key) w.store).2
  rw [heq]
  refine ⟨rfl, rfl, rfl, fun {r d} hd => ?_⟩
  have hne : c.requestId ≠ r := by
    intro hr
    have hle := ho.filed.numbered r d hd
    rw [← hr, hg.requestId] at hle
    omega
  rw [Table.find?_put, if_neg hne]
  exact hd

/-! ## Rules -/

/-- Nothing fails, the controls in `hears` are delivered, and clients file requests. -/
def attending (hears : World → PendingExecutionControl → Prop) : Setting WorkerCall World where
  sem := WorkerCall.Answers hears
  env := Filing
  safe _ := True

/-- A statement about the store that filing a request does not change. -/
structure StoreFact where
  holds : Store → Prop
  steady : ∀ {s s'}, Steady s s' → holds s → holds s'

section Rules
variable {hears : World → PendingExecutionControl → Prop} {α : Type}

def StoreFact.of (hears : World → PendingExecutionControl → Prop) (F : StoreFact) :
    Assertion (attending hears) where
  holds w := Orderly w.store ∧ F.holds w.store
  stable hst h :=
    have hsteady := hst.steady h.1
    ⟨hsteady.1, F.steady hsteady.2 h.2⟩
  within _ := trivial

variable {P E : Assertion (attending hears)} {F : StoreFact} {G : α → StoreFact}

variable {event : ExecutionEvent} {kind : ExecutionEventKind} {c : PendingExecutionControl}
  {Q : α → TaskState → Assertion (attending hears)} {session : SessionRef} {sample : ResourceSample}
  {call : StoreCall (Except StoreError α)}

theorem triple_storeFact {relayed : Bool} {f : StoreError → WorkerError}
    (h : ∀ now s, Orderly s → F.holds s →
      ∃ a s', call.exec now s = (.ok a, s') ∧ (G a).holds s') :
    TripleE (F.of hears) (attemptAs f (.store call relayed)) (fun a => (G a).of hears) E := by
  refine .attemptAs (fun w a w' hw hc => ?_) fun w err w' hw hc => ?_
  all_goals
    obtain ⟨now, hb, rfl⟩ := hc
    obtain ⟨a', s', ha, hG⟩ := h now w.store hw.1 hw.2
    rw [ha] at hb
  · obtain rfl := Except.ok.inj hb
    exact ⟨hw.1.exec call now, by rw [ha]; exact hG⟩
  · exact nomatch hb

theorem triple_done {c : AgentCall (Except WorkerError α)}
    (hc : ∀ heard b, c.Succeeds heard b → b.isOk = true) :
    TripleE P (Effect.agent c) (fun _ => P) E := by
  refine .attempt (fun w a w' hw h => ?_) fun w err w' hw h => nomatch hc _ _ h.1
  obtain ⟨_, rfl⟩ := h
  exact hw

theorem triple_ask {c : AgentCall α} {Q : α → Assertion (attending hears)}
    (h : ∀ w b, P w → c.Succeeds (hears w) b → Q b w) : TripleE P (Effect.ask c) Q E :=
  Triple.bind (Triple.ask (Q := Q) fun w b w' hw hc => by
    obtain ⟨hs, rfl⟩ := hc
    exact h _ b hw hs) fun _ => fun _ hs => hs

def gaveUp (φ : Prop) : StoreFact := ⟨fun _ => φ, fun _ h => h⟩

theorem triple_anyhow {φ : Prop} : ((gaveUp φ).of hears).KeptBy (Effect.store call) := by
  refine .attemptAs (fun w a w' hw hc => ?_) fun w err w' hw hc => ?_
  all_goals
    obtain ⟨now, _, rfl⟩ := hc
    exact ⟨hw.1.exec call now, hw.2⟩

end Rules

/-! ## Progress -/

section Progress
variable {x : Execution} {s s' : Store}

theorem Serves.steady (h : Serves x s) (hs : Steady s s') : Serves x s' where
  uncancelled := by
    rw [cancellationPending, hs.cancellations]
    exact h.uncancelled
  row := hs.executions ▸ h.row
  attempt := hs.attempts ▸ h.attempt

theorem Attached.steady {e : ExecutionId} {m : Task.Monitor} {y : TaskState}
    (h : Attached e m y s) (hs : Steady s s') : Attached e m y s' :=
  { h with serves := h.serves.steady hs }

def attached (e : ExecutionId) (m : Task.Monitor) (y : TaskState) : StoreFact :=
  ⟨Attached e m y, fun hs h => h.steady hs⟩

/-- The task watches `m`. -/
abbrev watches (e : ExecutionId) (hears : World → PendingExecutionControl → Prop) (m : Task.Monitor)
    (x : TaskState) : Assertion (attending hears) :=
  (attached e m x).of hears

theorem Serves.record (h : Serves x s) (hid : event.executionId = x.id)
    (hstate : event.state = x.state) (hattempt : event.attemptId = x.attemptId)
    (hlive : x.state.isTerminal = false) (now : Timestamp) :
    ∃ n s', recordProgress now x event false s = .ok (n, s') ∧ Serves x s' := by
  obtain ⟨row, hrow, htrack⟩ := h.row
  obtain ⟨t, ht, hte, hta, htw, hopen⟩ := h.attempt
  have hlegal : row.state = x.state ∨ row.state.canTransitionTo x.state = true := by
    rcases htrack.state with hsame | ⟨hold, hnew⟩
    · exact .inl hsame
    · rw [hold, hnew]
      exact .inr rfl
  have hprog : Progress s x event row t :=
    ⟨hrow, hid, h.uncancelled, htrack.worker.symm, htrack.attempt.symm, hlegal, ht,
      htrack.attempt.trans hta, htrack.worker.trans htw, hte, hopen⟩
  refine ⟨_, _, recordProgress_of_progress hprog hstate hattempt, h.uncancelled, ?_, ?_⟩
  · refine ⟨progressed row x, ?_, rfl, rfl, .inl rfl, fun _ hs => hs, fun _ hp => hp⟩
    have hkey : row.id = x.id := execution_id hrow
    simp [settleControls, progressMade, progressed, hkey]
  · refine ⟨attemptProgressed t x, ?_, hte, hta, htw, ?_⟩
    · simp [settleControls, progressMade]
    · simp [attemptProgressed, hlive]

end Progress

/-! ## A request and the execution it was accepted for -/

theorem begun_of_pending {p : ControlPhase} (hp : p.pending = true) (hne : p ≠ .accepted) :
    p = .applying ∨ p = .sideEffectApplied := by
  cases p with
  | accepted => exact absurd rfl hne
  | applying => exact .inl rfl
  | sideEffectApplied => exact .inr rfl
  | completed | stale => exact nomatch hp

/-- Request `r`, of which control `c` was read, fits the execution the task tracks. -/
structure Fits (x : Execution) (c : PendingExecutionControl) (r : ControlRow) (s : Store) :
    Prop where
  serves : Serves x s
  control : s.controls.find? c.request.requestId = some r
  described : r.Describes c
  owner : r.executionId = x.id
  row : ∃ row, s.executions.find? x.id = some row ∧ acceptedFor r row

def fitting (x : Execution) (c : PendingExecutionControl) (φ : ControlRow → Prop) : StoreFact where
  holds s := ∃ r, Fits x c r s ∧ φ r
  steady hs := fun ⟨r, h, hφ⟩ =>
    ⟨r, ⟨h.serves.steady hs, hs.controls h.control, h.described, h.owner, hs.executions ▸ h.row⟩, hφ⟩

/-- The task knows what the request was accepted for. -/
structure Matches (x : Execution) (r : ControlRow) : Prop where
  worker : x.workerId = some r.acceptedWorkerId
  attempt : x.attemptId = some r.acceptedAttemptId
  session : x.sessionId = some r.sourceSessionId
  worktree : x.worktreePath = some r.worktreePath
  state : x.state = r.acceptedState

section Fitting
variable {x : Execution} {c : PendingExecutionControl} {r : ControlRow} {s : Store}

theorem Fits.sound (h : Fits x c r s) (ho : Orderly s) : r.Sound := ho.applicable _ r h.control

theorem Fits.matching (h : Fits x c r s) (ho : Orderly s) : Matches x r := by
  obtain ⟨row, hrow, htrack⟩ := h.serves.row
  obtain ⟨row', hrow', hw, ha, hsession, hworktree, _, hstate⟩ := h.row
  obtain rfl := Option.mem_unique hrow hrow'
  refine ⟨htrack.worker.symm.trans hw, htrack.attempt.symm.trans ha, htrack.session _ hsession,
    htrack.worktree _ hworktree, ?_⟩
  rcases htrack.state with hsame | ⟨hold, _⟩
  · exact hsame.symm.trans hstate
  · -- no control is accepted before the execution runs
    have hallowed := (h.sound ho).allowed
    rw [← hstate, hold] at hallowed
    cases ha : r.action <;> rw [ha] at hallowed <;> exact nomatch hallowed

theorem fits_of_current (hs : Serves x s) (hd : Delivered x.id s c = true)
    (hc : Current s c = true) : ∃ r, Fits x c r s ∧ r.phase.pending = true := by
  simp only [Delivered, Bool.and_eq_true, decide_eq_true_eq, Option.any_eq_true] at hd
  obtain ⟨hid, r, hr, hdesc⟩ := hd
  simp only [Current, Bool.and_eq_true, decide_eq_true_eq, Option.any_eq_true] at hc
  obtain ⟨r', hr', hpending, row, hrow, hacc⟩ := hc
  obtain rfl := Option.mem_unique hr hr'
  have howner : r.executionId = x.id := hdesc.execution.symm.trans hid
  exact ⟨r, ⟨hs, hr, hdesc, howner, row, howner ▸ hrow, hacc⟩, hpending⟩

theorem Fits.put (h : Fits x c r s) {r' : ControlRow} (hid : r'.requestId = r.requestId)
    (hdesc : r'.Describes c) (hown : r'.executionId = r.executionId)
    (hacc : ∀ row, acceptedFor r row → acceptedFor r' row) :
    Fits x c r' { s with controls := s.controls.put r' } where
  serves := ⟨h.serves.uncancelled, h.serves.row, h.serves.attempt⟩
  control := by
    have hkey : r.requestId = c.request.requestId := control_id h.control
    rw [Table.find?_put, if_pos (hid.trans hkey)]
  described := hdesc
  owner := hown.trans h.owner
  row := by
    obtain ⟨row, hrow, ha⟩ := h.row
    exact ⟨row, hrow, hacc row ha⟩

theorem Fits.begin (h : Fits x c r s) (ho : Orderly s) (hpending : r.phase.pending = true)
    (now : Timestamp) {w : WorkerId} {a : AttemptId} (hw : x.workerId = some w)
    (ha : x.attemptId = some a) : ∃ s' r', beginControl now c.request.requestId w a s = .ok (.ok (), s') ∧
      Fits x c r' s' ∧ (r'.phase = .applying ∨ r'.phase = .sideEffectApplied) := by
  have hm := h.matching ho
  obtain rfl := Option.mem_unique hw hm.worker
  obtain rfl := Option.mem_unique ha hm.attempt
  obtain ⟨row, hrow, hacc⟩ := h.row
  have hbegin : beginControl now c.request.requestId _ _ s = _ :=
    beginControl_of_accepted h.control (h.owner.symm ▸ hrow) hpending hacc
      (h.owner.symm ▸ h.serves.uncancelled)
  split at hbegin
  · refine ⟨_, { r with phase := .applying }, hbegin, ?_, .inl rfl⟩
    exact h.put rfl ⟨h.described.execution, h.described.action, h.described.state,
      h.described.target⟩ rfl fun _ hr => hr
  · rename_i hph
    exact ⟨_, r, hbegin, h, begun_of_pending hpending hph⟩

structure Applied (x : Execution) (c : PendingExecutionControl) (kind : ExecutionEventKind)
    (y : Execution) : Prop where
  id : y.id = x.id
  worker : y.workerId = x.workerId
  attempt : y.attemptId = x.attemptId
  worktree : y.worktreePath = x.worktreePath
  state : ∀ r : ControlRow, r.Describes c → y.state = r.expectedState
  session : ∃ t, y.sessionId = some t ∧ kind = c.request.action.eventKind t ∧
    ∀ r : ControlRow, r.Describes c → x.sessionId = some r.sourceSessionId →
      r.expectedSession = .ok t
  legal : c.request.action = .forkConversation ∨ x.state.canTransitionTo y.state = true

theorem Fits.mark (h : Fits x c r s) (ho : Orderly s)
    (hph : r.phase = .applying ∨ r.phase = .sideEffectApplied)
    {y : Execution} (hy : Applied x c kind y) (now : Timestamp) :
    ∃ s' r', markControlSideEffectApplied now c.request.requestId y.sessionId s = .ok (.ok (), s') ∧
      Fits x c r' s' ∧ r'.phase = .sideEffectApplied ∧ r'.sideEffectSessionId = y.sessionId := by
  obtain ⟨row, hrow, hacc⟩ := h.row
  obtain ⟨t, ht, _, hexp⟩ := hy.session
  have hexpected := hexp r h.described (h.matching ho).session
  have hrow' : s.executions.find? r.executionId = some row := h.owner.symm ▸ hrow
  have hcancel : s.cancellationPending r.executionId = false := h.owner.symm ▸ h.serves.uncancelled
  rw [ht]
  rcases hph with hph | hph
  · refine ⟨_, { r with phase := .sideEffectApplied, sideEffectSessionId := some t },
      markControl_of_applying h.control hrow' hcancel hexpected hph, ?_, rfl, rfl⟩
    exact h.put rfl ⟨h.described.execution, h.described.action, h.described.state,
      h.described.target⟩ rfl fun _ hr => hr
  · obtain ⟨t', hexp', hside⟩ := (h.sound ho).applied hph
    obtain rfl := Except.ok.inj (hexpected.symm.trans hexp')
    exact ⟨s, r, markControl_of_applied h.control hrow' hcancel hexpected hph hside, h, hph, hside⟩

theorem Fits.complete (h : Fits x c r s) (ho : Orderly s) (hph : r.phase = .sideEffectApplied)
    {y : Execution} (hside : r.sideEffectSessionId = y.sessionId)
    (hy : Applied x c kind y) (now : Timestamp) :
    ∃ n s', completeControl now c.request.requestId y (Task.eventOf y y.updatedAt kind) s =
      .ok (.ok n, s') ∧ Serves y s' := by
  obtain ⟨row, hrow, hw, ha, hsession, hworktree, hversion, hstate⟩ := h.row
  have hm := h.matching ho
  obtain ⟨t, ht, hkind, hexp⟩ := hy.session
  have hcheck : completable r row y (Task.eventOf y y.updatedAt kind) = .ok () := by
    refine completable_spec.2 ⟨t, hexp r h.described hm.session, hside.trans ht,
      hy.state r h.described, ht, hy.worktree.trans hm.worktree, ?_, hw, ha, hsession, ?_, hstate,
      hversion, ?_⟩
    · rw [← h.described.action]
      exact hkind
    · exact hworktree.trans (hy.worktree.trans hm.worktree).symm
    · rw [← h.described.action, hstate, ← hm.state]
      exact hy.legal
  have hcomplete : Complete s c.request.requestId y (Task.eventOf y y.updatedAt kind) row r :=
    ⟨hy.id ▸ hrow, h.control, h.owner.trans hy.id.symm, hph, hy.id ▸ h.serves.uncancelled,
      ⟨rfl, rfl, rfl, rfl⟩, hcheck⟩
  refine ⟨_, _, completeControl_of_complete hcomplete, ?_, ?_, ?_⟩
  · exact hy.id ▸ h.serves.uncancelled
  · refine ⟨controlled row y, ?_, hw.trans (hy.worker.trans hm.worker).symm,
      ha.trans (hy.attempt.trans hm.attempt).symm, .inl rfl, fun _ hs => hs, fun p hp => ?_⟩
    · have hkey : row.id = y.id := (execution_id hrow).trans hy.id.symm
      simp [append, completed, controlled, hkey]
    · rw [hy.worktree, hm.worktree, ← hworktree]
      exact hp
  · obtain ⟨t, ht, hte, hta, htw, hopen⟩ := h.serves.attempt
    have hown : some t.attemptId = y.attemptId := (hy.attempt.trans hta).symm
    have hfind : (s.completed r row y).attempts.find? t.attemptId =
        some (controlledAttempt y t) := by
      refine (Table.find?_update s.attempts _ (controlledAttempt y) (fun _ => rfl) _).trans ?_
      rw [ht, Option.map_some, if_pos (by simp [hown, hte, hy.id, hopen])]
    exact ⟨controlledAttempt y t, hfind, hte.trans hy.id.symm, hy.attempt.trans hta,
      hy.worker.trans htw, hopen⟩

end Fitting

/-! ## Applying a control -/

/-- What the task needs to apply the control. -/
structure Ready (e : ExecutionId) (m : Task.Monitor) (c : PendingExecutionControl)
    (x : TaskState) : Prop where
  id : x.execution.id = e
  state : x.execution.state = c.acceptedState
  allowed : c.request.action.allowedIn c.acceptedState = true
  target : c.request.action = .forkConversation →
    ∃ t, c.targetSessionId = some t ∧ t ≠ m.session.id
  session : x.execution.sessionId = some m.session.id
  owned : m.session.executionId = x.execution.id
  receipt : x.guard.receipt.isSome = true
  environment : x.guard.environment.isSome = true

/-- What it has made of itself, from `x₀`, once it is applied. -/
structure Handled (c : PendingExecutionControl) (x₀ : TaskState)
    (r : ExecutionEventKind × Task.Monitor) (x : TaskState) : Prop where
  applied : Applied x₀.execution c r.1 x.execution
  active : x.execution.state = .running ∨ x.execution.state = .pausedForHuman
  session : x.execution.sessionId = some r.2.session.id
  owned : r.2.session.executionId = x.execution.id
  receipt : x.guard.receipt.isSome = true
  environment : x.guard.environment.isSome = true

theorem Fits.ready {e : ExecutionId} {m : Task.Monitor} {x : TaskState}
    {r : ControlRow} (h : Fits x.execution c r s)
    (ho : Orderly s) (ha : Attached e m x s) : Ready e m c x where
  id := ha.id
  state := (h.matching ho).state.trans h.described.state.symm
  allowed := by
    rw [h.described.action, h.described.state]
    exact (h.sound ho).allowed
  target hfork := by
    obtain ⟨t, ht, hne⟩ := (h.sound ho).target (h.described.action.symm.trans hfork)
    refine ⟨t, h.described.target.trans ht, fun heq => hne ?_⟩
    have hsame := ha.session.symm.trans (h.matching ho).session
    exact heq.trans (Option.some.inj hsame)
  session := ha.session
  owned := ha.owned
  receipt := ha.receipt
  environment := ha.environment

section Apply
variable {hears : World → PendingExecutionControl → Prop} {F : Assertion (attending hears)}
  {E : TaskState → Assertion (attending hears)} {e : ExecutionId} {m : Task.Monitor}
  {c : PendingExecutionControl} {x₀ : TaskState} {φ ψ : TaskState → Prop} {α : Type}

def held (F : Assertion (attending hears)) (φ : TaskState → Prop) (x : TaskState) :
    Assertion (attending hears) :=
  F.and (φ x)

theorem triple_perform {p : Effect α} {P : TaskState → Assertion (attending hears)}
    (h : ∀ x, TripleE (P x) p (fun a => Q a x) (E x)) : TripleS P (Task.perform p) Q E :=
  .await h

theorem triple_clock {c : AgentCall α} {P : TaskState → Assertion (attending hears)} :
    TripleS P (Task.perform (ask c)) (fun _ => P) E :=
  triple_perform fun _ => triple_ask fun _ _ hw _ => hw

theorem triple_moveTo {next : ExecutionState}
    (h : ∀ x now, φ x → x.execution.state.canTransitionTo next = true ∧
      ψ { x with execution := { x.execution with state := next, updatedAt := now } }) :
    TripleS (held F φ) (Task.moveTo next) (fun _ => held F ψ) E := by
  refine .bind triple_clock fun now => ?_
  refine .bind (Q := fun y => held F fun x => ψ { x with execution := y })
    (.await fun x => fun w hw => ?_) fun y => .update fun x w hw => hw
  obtain ⟨hlegal, hψ⟩ := h x now hw.2
  have hmove : x.execution.transition now next = .ok _ :=
    Execution.transition_eq_ok.2 ⟨hlegal, rfl⟩
  show Assertion.outcome _ _ ((x.execution.transition now next).mapError _) w
  rw [hmove]
  exact ⟨hw.1, hψ⟩

theorem triple_looking {f : TaskState → Task α}
    (h : TripleS (held F (· = x₀)) (f x₀) Q E) : TripleS (held F (· = x₀)) (look >>= f) Q E := by
  refine .bind (Q := fun y => held F fun x => x = x₀ ∧ y = x₀)
    (fun x w hw => ⟨hw.1, hw.2, hw.2⟩) fun y x w hw => ?_
  obtain ⟨hF, hx, rfl⟩ := hw
  exact h x w ⟨hF, hx⟩

theorem triple_given {t : Task α} {p : Prop}
    (h : p → TripleS (held F φ) t Q E) : TripleS (held F fun x => φ x ∧ p) t Q E :=
  fun x w hw => h hw.2.2 x w ⟨hw.1, hw.2.1⟩

theorem triple_refuse {p : TaskState → Prop} [∀ x, Decidable (p x)] {err : WorkerError}
    (h : ∀ x, φ x → ¬ p x) :
    TripleS (held F φ) (await fun x => refuse (p x) err) (fun _ => held F φ) E :=
  .await fun x => .guard (fun _ hw _ => hw) fun _ hw hp => absurd hp (h x hw.2)

/-- How a pause and a resume end. -/
theorem triple_switch {old next : ExecutionState} {f : Instant → HealthMonitor}
    (hr : Ready e m c x₀) (hold : x₀.execution.state = old) (hlegal : old.canTransitionTo next = true)
    (hactive : next = .running ∨ next = .pausedForHuman)
    (hkind : kind = c.request.action.eventKind m.session.id)
    (hrow : ∀ r : ControlRow, r.Describes c →
      next = r.expectedState ∧ r.expectedSession = .ok r.sourceSessionId) :
    TripleS (held F (· = x₀)) (do
      let at_ ← Task.perform (ask .instant)
      Task.moveTo next
      pure (kind, { m with health := f at_ })) (fun r => held F (Handled c x₀ r)) E := by
  subst hold
  refine .bind triple_clock fun at_ => ?_
  refine .bind (triple_moveTo (ψ := Handled c x₀ (kind, { m with health := f at_ })) ?_) fun _ =>
    .pure fun _ _ hw => hw
  rintro x now rfl
  refine ⟨hlegal, ?_, hactive, hr.session, hr.owned, hr.receipt, hr.environment⟩
  refine ⟨rfl, rfl, rfl, rfl, fun r hd => (hrow r hd).1,
    ⟨m.session.id, hr.session, hkind, fun r hd hs => ?_⟩, .inr hlegal⟩
  rw [(hrow r hd).2, Option.mem_unique hs hr.session]

theorem triple_applyPause {applied : Bool} (hr : Ready e m c x₀) (haction : c.request.action = .pause) :
    TripleS (held F (· = x₀)) (Task.applyPause m applied)
      (fun r => held F (Handled c x₀ r)) E := by
  have hrunning : x₀.execution.state = .running := by
    have hallowed := hr.allowed
    rw [haction, ← hr.state] at hallowed
    exact of_decide_eq_true hallowed
  refine .bind (triple_refuse fun x hx => ?_) fun _ => ?_
  · rw [hx, hrunning]
    exact fun h => h rfl
  refine .bind (Q := fun _ => held F (· = x₀)) (.await fun x =>
    .provided (fun _ => triple_done fun _ _ h => h) fun _ _ hw => hw) fun _ => ?_
  refine triple_switch hr hrunning rfl (.inr rfl) (by rw [haction]; rfl) fun r hd => ?_
  rw [ControlRow.expectedState, ControlRow.expectedSession, ← hd.action, haction]
  exact ⟨rfl, rfl⟩

theorem triple_resumeAgent {what : String}
    (hreceipt : x₀.guard.receipt.isSome = true) (henv : x₀.guard.environment.isSome = true) :
    TripleS (held F (· = x₀)) (Task.resumeAgent what session) (fun _ => held F (· = x₀)) E := by
  obtain ⟨receipt, hr⟩ := Option.isSome_iff_exists.1 hreceipt
  obtain ⟨environment, he⟩ := Option.isSome_iff_exists.1 henv
  have hfound : Task.resumeAuthority what x₀ = Pure.pure (receipt, environment) := by
    rw [Task.resumeAuthority, hr, he]
    rfl
  refine .await fun x => ?_
  refine .bind (Q := fun _ => held F (· = x₀) x) (fun w hw => ?_) fun found =>
    triple_done fun _ _ h => h
  obtain rfl := hw.2
  rw [hfound]
  exact hw

theorem triple_applyResume (hr : Ready e m c x₀) (haction : c.request.action = .resume) :
    TripleS (held F (· = x₀)) (Task.applyResume m) (fun r => held F (Handled c x₀ r)) E := by
  have hpaused : x₀.execution.state = .pausedForHuman := by
    have hallowed := hr.allowed
    rw [haction, ← hr.state] at hallowed
    exact of_decide_eq_true hallowed
  refine .bind (triple_refuse fun x hx => ?_) fun _ => ?_
  · rw [hx, hpaused]
    exact fun h => h rfl
  refine .bind (triple_resumeAgent hr.receipt hr.environment) fun _ => ?_
  refine triple_switch hr hpaused rfl (.inl rfl) (by rw [haction]; rfl) fun r hd => ?_
  rw [ControlRow.expectedState, ControlRow.expectedSession, ← hd.action, haction]
  exact ⟨rfl, rfl⟩

theorem triple_pauseFor {running : Bool} : TripleS (held F (· = x₀)) (Task.pauseFor running m)
      (fun m' => held F fun x => x = x₀ ∧ m'.session = m.session) E := by
  cases running with
  | false => exact .pure fun _ _ hw => ⟨hw.1, hw.2, rfl⟩
  | true =>
    refine .bind (Q := fun _ => held F (· = x₀))
      (.await fun x => triple_done fun _ _ h => h) fun _ => ?_
    exact .bind triple_clock fun at_ => .pure fun _ _ hw => ⟨hw.1, hw.2, rfl⟩

theorem triple_resumeFor {running : Bool}
    (hreceipt : x₀.guard.receipt.isSome = true) (henv : x₀.guard.environment.isSome = true) :
    TripleS (held F (· = x₀)) (Task.resumeFor running m session) (fun _ => held F (· = x₀)) E := by
  cases running with
  | false => exact .pure fun _ _ hw => hw
  | true =>
    refine .bind (triple_resumeAgent hreceipt henv) fun _ => ?_
    exact .bind triple_clock fun at_ => .pure fun _ _ hw => hw

theorem triple_forkSession {applied running : Bool} {target : SessionId}
    (hreceipt : x₀.guard.receipt.isSome = true) (henv : x₀.guard.environment.isSome = true)
    (howned : m.session.executionId = x₀.execution.id) :
    TripleS (held F (· = x₀)) (Task.forkSession m applied running target)
      (fun r => held F fun x => x = x₀ ∧ r.1 = { m.session with id := target }) E := by
  cases applied with
  | true =>
    refine triple_looking ?_
    refine .bind (triple_resumeFor hreceipt henv) fun m' => .pure fun x w hw => ?_
    exact ⟨hw.1, hw.2, by rw [← howned]⟩
  | false =>
    refine .bind triple_pauseFor fun m' => triple_given fun hsame => ?_
    refine .bind (Q := fun forked => held F fun x => x = x₀ ∧
      forked = { m.session with id := target }) (.await fun x => ?_) fun forked =>
        triple_given fun hforked => ?_
    · refine .attempt (fun w forked w' hw hc => ?_) fun w err w' hw hc => nomatch hc.1
      obtain ⟨hforked, rfl⟩ := hc
      exact ⟨hw.1, hw.2, by rw [Except.ok.inj hforked, hsame]⟩
    refine .bind (Q := fun _ => held F (· = x₀))
      (.await fun x => triple_done fun _ _ h => h) fun _ => ?_
    refine .bind (triple_resumeFor hreceipt henv) fun m'' => ?_
    exact .pure fun x w hw => ⟨hw.1, hw.2, hforked⟩

theorem triple_applyFork {applied : Bool} (hr : Ready e m c x₀)
    (haction : c.request.action = .forkConversation) :
    TripleS (held F (· = x₀)) (Task.applyFork m c applied) (fun r => held F (Handled c x₀ r)) E := by
  obtain ⟨target, htarget, hne⟩ := hr.target haction
  have hactive : x₀.execution.state = .running ∨ x₀.execution.state = .pausedForHuman := by
    have hallowed := hr.allowed
    rw [haction, ← hr.state] at hallowed
    simpa [ExecutionControlAction.allowedIn] using hallowed
  refine .bind (Q := fun t => held F fun x => x = x₀ ∧ t = target)
    (triple_perform fun x w hw => ?_) fun t => triple_given ?_
  · rw [htarget]
    exact ⟨hw.1, hw.2, rfl⟩
  rintro rfl
  refine .bind (triple_forkSession hr.receipt hr.environment hr.owned) fun r =>
    triple_given fun hforked => ?_
  obtain ⟨forked, m'⟩ := r
  obtain rfl : forked = _ := hforked
  refine .bind (triple_refuse fun x hx => ?_) fun _ => ?_
  · rintro (hid | hpath | hid)
    · exact hid (hx ▸ hr.owned)
    · exact hpath rfl
    · exact hne hid
  refine .bind (.update (R := held F fun x => ∃ g, x = { x₀ with guard := g } ∧
    g.receipt = x₀.guard.receipt ∧ g.environment = x₀.guard.environment) fun x w hw => ?_) fun _ => ?_
  · obtain ⟨hF, rfl⟩ := hw
    exact ⟨hF, _, rfl, rfl, rfl⟩
  refine .bind triple_clock fun now => ?_
  refine .bind (.update (R := held F (Handled c x₀
    (.conversationForked t, { m' with session := { m.session with id := t } })))
      fun x w hw => ?_) fun _ => .pure fun _ _ hw => hw
  obtain ⟨hF, g, rfl, hgr, hge⟩ := hw
  refine ⟨hF, ?_, hactive, rfl, hr.owned, hgr ▸ hr.receipt, hge ▸ hr.environment⟩
  refine ⟨rfl, rfl, rfl, rfl, fun r hd => ?_, ⟨t, rfl, ?_, fun r hd _ => ?_⟩, .inl haction⟩
  · rw [ControlRow.expectedState, ← hd.action, haction]
    exact hr.state.trans hd.state
  · rw [haction]
    rfl
  · rw [ControlRow.expectedSession, ← hd.action, haction, ← hd.target, htarget]
    rfl

theorem triple_applyControl (hr : Ready e m c x₀) :
    TripleS (held F (· = x₀)) (Task.applyControl m c) (fun r => held F (Handled c x₀ r)) E := by
  unfold Task.applyControl
  cases haction : c.request.action with
  | pause => exact triple_applyPause hr haction
  | resume => exact triple_applyResume hr haction
  | forkConversation => exact triple_applyFork hr haction

end Apply

/-! ## Handling a control -/

section Handle
variable {hears : World → PendingExecutionControl → Prop} {e : ExecutionId} {m : Task.Monitor}
  {c : PendingExecutionControl} {E : TaskState → Assertion (attending hears)}

def heeded (e : ExecutionId) (m : Task.Monitor) (c : PendingExecutionControl) (x : TaskState) :
    StoreFact where
  holds s := Attached e m x s ∧ ∃ r, Fits x.execution c r s ∧ r.phase.pending = true
  steady hs h := ⟨h.1.steady hs, (fitting x.execution c fun r => r.phase.pending = true).steady hs h.2⟩

def begunAs (x : Execution) (c : PendingExecutionControl) : StoreFact :=
  fitting x c fun r => r.phase = .applying ∨ r.phase = .sideEffectApplied

def effected (x : Execution) (c : PendingExecutionControl) (session : Option SessionId) : StoreFact :=
  fitting x c fun r => r.phase = .sideEffectApplied ∧ r.sideEffectSessionId = session

theorem triple_beginControl {x : TaskState} {E : Assertion (attending hears)} :
    TripleE ((heeded e m c x).of hears)
      (do
        let attemptId ← demand x.execution.attemptId (.invalid "interactive control lacks attempt")
        let workerId ← demand x.execution.workerId (.invalid "interactive control lacks worker")
        store (.beginControl c.request.requestId workerId attemptId))
      (fun _ => ((begunAs x.execution c).of hears).and (Ready e m c x)) E := by
  intro w hw
  obtain ⟨ho, hattached, r, hfits, hpending⟩ := hw
  have hm := hfits.matching ho
  have hready := hfits.ready ho hattached
  rw [hm.attempt, hm.worker]
  have hstore : TripleE ((heeded e m c x).of hears)
      (store (.beginControl c.request.requestId r.acceptedWorkerId r.acceptedAttemptId))
      (fun _ => (begunAs x.execution c).of hears) E := by
    refine triple_storeFact fun now s ho' h => ?_
    obtain ⟨_, q, hq, hqp⟩ := h
    obtain ⟨s', r', hbegin, hfits', hph⟩ := hq.begin ho' hqp now hm.worker hm.attempt
    exact ⟨(), s', by rw [StoreCall.exec, Txn.runReporting, hbegin], r', hfits', hph⟩
  refine TripleE.weaken hstore (fun _ h => h) (fun _ _ h => ?_) (fun _ h => h) w
    ⟨ho, hattached, r, hfits, hpending⟩
  exact ⟨h, hready⟩

theorem triple_handleControl : TripleS (fun x => (heeded e m c x).of hears) (Task.handleControl m c)
      (watches e hears) E := by
  refine .named fun x₀ => ?_
  refine .bind (Q := fun _ x => ((heeded e m c x).of hears).and (x = x₀))
    (.await fun x => .guard (fun _ hw _ => hw) fun w hw hne => ?_) fun _ => ?_
  · obtain ⟨⟨_, _, r, hfits, _⟩, _⟩ := hw
    exact absurd (hfits.described.execution.trans hfits.owner) hne
  refine .bind (Q := fun _ => held ((begunAs x₀.execution c).of hears)
    fun x => x = x₀ ∧ Ready e m c x₀) (.await fun x => .of_and ?_) fun _ =>
      triple_given fun hready => ?_
  · rintro rfl
    exact triple_beginControl.post fun _ _ h => ⟨h.1, rfl, h.2⟩
  refine .bind (triple_applyControl hready) fun r => ?_
  obtain ⟨kind, m'⟩ := r
  refine .bind (Q := fun _ x => ((effected x₀.execution c x.execution.sessionId).of hears).and
    (Handled c x₀ (kind, m') x)) (.await fun x => .of_and fun hdone => ?_) fun _ => ?_
  · have hmark : TripleE ((begunAs x₀.execution c).of hears)
        (store (.markControlSideEffectApplied c.request.requestId x.execution.sessionId))
        (fun _ => (effected x₀.execution c x.execution.sessionId).of hears) (E x) := by
      refine triple_storeFact fun now s ho h => ?_
      obtain ⟨q, hq, hph⟩ := h
      obtain ⟨s', q', hmark, hfits', hph'⟩ := hq.mark ho hph hdone.applied now
      exact ⟨(), s', by rw [StoreCall.exec, Txn.runReporting, hmark], q', hfits', hph'⟩
    exact hmark.post fun _ _ h => ⟨h, hdone⟩
  refine .bind (Q := fun _ => watches e hears m')
    (.await fun x => .of_and fun hdone => ?_) fun _ => .pure fun _ _ hw => hw
  refine .bind (Q := fun _ => watches e hears m' x) ?_ fun _ =>
    .pure fun _ hw => hw
  refine triple_storeFact fun now s ho h => ?_
  obtain ⟨q, hq, hph, hside⟩ := h
  obtain ⟨n, s', hcomplete, hserves⟩ := hq.complete ho hph hside hdone.applied now
  exact ⟨n, s', by rw [StoreCall.exec, Txn.runReporting, hcomplete],
    hdone.applied.id.trans hready.id, hserves, hdone.active, hdone.session, hdone.owned,
    hdone.receipt, hdone.environment⟩

end Handle

/-! ## The event loop -/

section Loop
variable {e : ExecutionId} {hears : World → PendingExecutionControl → Prop} {m : Task.Monitor}
  {E : TaskState → Assertion (attending hears)} {α : Type}

def failing (hears : World → PendingExecutionControl → Prop) (x : TaskState) :
    Assertion (attending hears) :=
  (gaveUp (x.execution.state = .failed)).of hears

variable {x : TaskState} {w : World} {events : List ExecutionEvent}

theorem triple_progress {relayed : Bool}
    {f : StoreError → WorkerError} {E : Assertion (attending hears)}
    (hid : event.executionId = x.execution.id) (hstate : event.state = x.execution.state)
    (hattempt : event.attemptId = x.execution.attemptId) :
    TripleE (watches e hears m x)
      (attemptAs f (.store (.recordProgress x.execution event false) relayed))
      (fun _ => watches e hears m x) E := by
  refine triple_storeFact fun now s _ h => ?_
  have hlive : x.execution.state.isTerminal = false := by
    rcases h.active with hst | hst <;> rw [hst] <;> rfl
  obtain ⟨n, s', hrecord, hserves⟩ := h.serves.record hid hstate hattempt hlive now
  exact ⟨n, s', by rw [StoreCall.exec, Txn.run, hrecord], { h with serves := hserves }⟩

theorem triple_record : TripleS (watches e hears m) (Task.record kind)
      (fun _ => watches e hears m) E := by
  refine .await fun x => ?_
  refine .bind (triple_ask fun _ _ hw _ => hw) fun now => ?_
  exact .bind (triple_progress rfl rfl rfl) fun _ => .pure fun _ hw => hw

theorem triple_persistFailure {failure : FailureClass} :
    TripleS (watches e hears m) (Task.persistFailure failure)
      (fun _ => failing hears) (failing hears) := by
  refine .bind (Q := fun _ => failing hears) ?_ fun _ =>
    .bind (Q := fun _ => failing hears) (.update fun _ _ hw => hw) fun _ =>
      .await fun x => .bind (triple_ask fun _ _ hw _ => hw) fun now => ?_
  · refine TripleS.weaken (triple_moveTo (F := (gaveUp True).of hears)
        (φ := fun x => x.execution.state = .running ∨ x.execution.state = .pausedForHuman)
        (ψ := fun x => x.execution.state = .failed) fun x now hx => ⟨?_, rfl⟩)
      (fun x w hw => ⟨⟨hw.1, trivial⟩, hw.2.active⟩) (fun _ x w hw => ⟨hw.1.1, hw.2⟩) fun _ _ h => h
    rcases hx with hx | hx <;> rw [hx] <;> rfl
  · exact .bind triple_anyhow fun _ => .pure fun _ hw => hw

theorem triple_failWith {failure : FailureClass} :
    TripleS (watches e hears m) (Task.failWith failure) Q (failing hears) :=
  .bind triple_persistFailure fun _ => .throw fun _ _ hw => hw

def roundDone (e : ExecutionId) (hears : World → PendingExecutionControl → Prop) :
    Task.Round → TaskState → Assertion (attending hears)
  | .again m, x => watches e hears m x
  | .reviewReady _, _ => (gaveUp True).of hears

theorem triple_relayEvents (events : List ExecutionEvent)
    (hown : ∀ event ∈ events, event.executionId = e) :
    TripleS (watches e hears m) (Task.relayEvents m events)
      (roundDone e hears) (failing hears) := by
  induction events with
  | nil => exact TripleS.pure fun _ _ hw => hw
  | cons event rest ih =>
    have hrest := ih fun ev hev => hown ev (.tail _ hev)
    unfold Task.relayEvents
    split
    · exact TripleS.pure fun _ _ hw => ⟨hw.1, trivial⟩
    · exact triple_failWith
    · refine TripleS.bind (Q := fun _ => watches e hears m)
        (TripleS.await fun x => fun w hw => ?_) fun _ => hrest
      have hid : ({ event with
          state := x.execution.state, attemptId := x.execution.attemptId } : ExecutionEvent).executionId =
          x.execution.id := (hown event (.head _)).trans hw.2.id.symm
      exact TripleE.bind (R := fun _ : Unit => watches e hears m x)
        (triple_progress hid rfl rfl) (fun _ => TripleE.pure fun _ hw => hw) w hw

theorem attached_congr {m' : Task.Monitor} (hm : m'.session = m.session)
    (hw : watches e hears m x w) : watches e hears m' x w :=
  ⟨hw.1, { hw.2 with session := hm ▸ hw.2.session, owned := hm ▸ hw.2.owned }⟩

theorem triple_publishSample {now : Instant} {verdict : WatchdogVerdict} :
    TripleS (watches e hears m) (Task.publishSample m now verdict sample)
      (fun m' x => (watches e hears m x).and (m'.session = m.session)) E := by
  unfold Task.publishSample
  split
  · refine .bind triple_clock fun clock => .bind triple_record fun _ => ?_
    exact .pure fun _ _ hw => ⟨hw, rfl⟩
  · exact .pure fun _ _ hw => ⟨hw, rfl⟩

theorem triple_reactTo (assessment : HealthAssessment) :
    TripleS (watches e hears m) (Task.reactTo assessment)
      (fun _ => watches e hears m) (failing hears) := by
  cases assessment with
  | healthy | quietHealthy _ => exact .pure fun _ _ hw => hw
  | inactiveWarning seconds => exact triple_record
  | failed failure => exact triple_failWith

theorem triple_assessRound (hown : ∀ event ∈ events, event.executionId = e) :
    TripleS (watches e hears m) (Task.assessRound m events sample)
      (roundDone e hears) (failing hears) := by
  refine .bind triple_clock fun now => .bind triple_clock fun later => ?_
  refine .bind (Q := watches e hears) ?_ fun m' =>
    .bind (triple_reactTo _) fun _ => triple_relayEvents events hown
  exact triple_publishSample.weaken (fun x w hw => attached_congr (by rfl) hw)
    (fun m' x w hw => attached_congr hw.2 hw.1) fun _ _ h => h

/-- The control was read from the store, and nothing has overtaken it since. -/
def Timely (e : ExecutionId) (w : World) (c : PendingExecutionControl) : Prop :=
  (Delivered e w.store c && Current w.store c) = true

instance (e : ExecutionId) (w : World) (c : PendingExecutionControl) : Decidable (Timely e w c) :=
  inferInstanceAs (Decidable (_ = true))

theorem heeded_of_timely (hw : watches e (Timely e) m x w) (hc : Timely e w c) :
    (heeded e m c x).of (Timely e) w :=
  have hboth := (Bool.and_eq_true _ _).mp hc
  ⟨hw.1, hw.2, fits_of_current hw.2.serves (hw.2.id.symm ▸ hboth.1) hboth.2⟩

theorem triple_takeControl {closed : String} :
    TripleS (fun x => (heeded e m c x).of (Timely e)) (Task.takeControl m closed (some c))
      (roundDone e (Timely e)) (failing (Timely e)) := by
  refine .bind (Q := fun c' x => ((heeded e m c x).of (Timely e)).and (c' = c))
    (triple_perform fun x w hw => ⟨hw, rfl⟩) fun c' => ?_
  refine .bind (Q := watches e (Timely e)) ?_ fun m' =>
    .pure fun _ _ hw => hw
  rintro x w ⟨hw, rfl⟩
  exact triple_handleControl x w hw

/-- What ends a wait of the loop: a control that fits, or the call waited for. -/
def woken (e : ExecutionId) (m : Task.Monitor) (φ : α → Prop) :
    Wake (Except WorkerError α) → TaskState → Assertion (attending (Timely e))
  | .done (.ok a), x => (watches e (Timely e) m x).and (φ a)
  | .control (some c), x => (heeded e m c x).of (Timely e)
  | _, _ => (gaveUp False).of (Timely e)

theorem woken_of_succeeds {φ : α → Prop}
    {b : Wake (Except WorkerError α)} (hw : watches e (Timely e) m x w)
    (hb : b.Succeeds (Timely e w)) (hφ : ∀ a, b = .done (.ok a) → φ a) : woken e m φ b x w := by
  cases b with
  | done r =>
    cases r with
    | ok a => exact ⟨hw, hφ a rfl⟩
    | error err => exact nomatch hb
  | control c =>
    cases c with
    | none => exact hb.elim
    | some c => exact heeded_of_timely hw hb
  | cancelled => exact hb.elim

theorem triple_pausedRound : TripleS (watches e (Timely e) m) (Task.pausedRound m)
      (roundDone e (Timely e)) (failing (Timely e)) := by
  refine .bind (Q := fun b x => (Assertion.some fun c =>
    ((heeded e m c x).of (Timely e)).and (b = .control (some c)))) (triple_perform fun x =>
      triple_ask fun w b hw hb => ?_) fun b => ?_
  · obtain ⟨c, rfl, hc⟩ := hb
    exact ⟨c, heeded_of_timely hw hc, rfl⟩
  · rintro x w ⟨c, hw, rfl⟩
    exact triple_takeControl x w hw

theorem triple_probeRound (hown : ∀ event ∈ events, event.executionId = e) :
    TripleS (watches e (Timely e) m) (Task.probeRound m events)
      (roundDone e (Timely e)) (failing (Timely e)) := by
  refine .bind .look fun y => ?_
  refine .bind (Q := woken e m fun _ : ResourceSample => True) (triple_perform fun x =>
    triple_ask fun w b hw hb => woken_of_succeeds hw.1 hb fun _ _ => trivial) fun b => ?_
  match b with
  | .done (.ok sample) => exact fun x w hw => triple_assessRound hown x w hw.1
  | .done (.error err) | .control none | .cancelled => exact fun _ _ hw => hw.2.elim
  | .control (some c) => exact triple_takeControl

theorem triple_noteEvents : TripleS (watches e hears m) (Task.noteEvents m events)
      (watches e hears) E := by
  unfold Task.noteEvents
  split
  · exact .pure fun _ _ hw => hw
  · exact .bind triple_clock fun at_ => .pure fun _ _ hw => attached_congr (by rfl) hw

theorem triple_runningRound :
    TripleS (watches e (Timely e) m) (Task.runningRound m)
      (roundDone e (Timely e)) (failing (Timely e)) := by
  refine .bind .look fun y => ?_
  refine .bind (Q := woken e m fun events : List ExecutionEvent =>
    ∀ event ∈ events, event.executionId = e) (triple_perform fun x =>
      triple_ask fun w b hw hb => woken_of_succeeds hw.1 hb.1 fun events heq event hev =>
        (hb.2 events heq event hev).trans (hw.1.2.owned.trans hw.1.2.id)) fun b => ?_
  match b with
  | .done (.ok events) =>
    intro x w hw
    exact TripleS.bind triple_noteEvents (fun m' => triple_probeRound hw.2) x w hw.1
  | .done (.error err) | .control none | .cancelled => exact fun _ _ hw => hw.2.elim
  | .control (some c) => exact triple_takeControl

theorem triple_round : TripleS (watches e (Timely e) m) (Task.round m)
      (roundDone e (Timely e)) (failing (Timely e)) := by
  refine .bind (Q := fun b x => (watches e (Timely e) m x).and (b = false))
    (triple_perform fun x => triple_ask fun w b hw hb => ⟨hw, hb⟩) fun b => ?_
  refine .bind (Q := fun _ => watches e (Timely e) m) (triple_perform fun x =>
    .guard (fun _ hw _ => hw.1) fun _ hw hb => ?_) fun _ => ?_
  · exact absurd hb (by rw [hw.2]; exact Bool.false_ne_true)
  refine .bind .look fun y => TripleS.weaken (P := watches e (Timely e) m) ?_
    (fun _ _ hw => hw.1) (fun _ _ _ hw => hw) fun _ _ hw => hw
  split
  · exact triple_pausedRound
  · exact triple_runningRound

theorem triple_eventLoop (n : Nat) (m : Task.Monitor) :
    TripleS (watches e (Timely e) m) (Task.eventLoop n m)
      (fun _ _ => (gaveUp True).of (Timely e)) (failing (Timely e)) := by
  induction n generalizing m with
  | zero => exact .bind triple_clock fun b => nomatch b
  | succ n ih =>
    refine .bind triple_round fun r => ?_
    cases r with
    | again m' => exact ih m'
    | reviewReady session => exact .pure fun _ _ hw => hw

end Loop

namespace Sample

def requested : List Label :=
  Sample.running ++ [⟨_, .requestControl ⟨"e"⟩ .pause "pause", 5⟩]

def control : PendingExecutionControl :=
  { request := ⟨1, ⟨"e"⟩, .pause, 5, none⟩, execution := inState .running (some ⟨"session"⟩)
    phase := .accepted, acceptedWorkerId := ⟨"w"⟩, acceptedAttemptId := ⟨"a"⟩
    sourceSessionId := ⟨"session"⟩, worktreePath := "/work", acceptedVersion := 3
    acceptedState := .running, targetSessionId := none, sideEffectSessionId := none }

def monitor : Task.Monitor :=
  { health := .defaultAt 0, session := ⟨⟨"session"⟩, "/session", ⟨"e"⟩, "/work"⟩ }

def watching : TaskState :=
  let execution := inState .running (some ⟨"session"⟩)
  { execution
    guard :=
      { execution, receipt := some ⟨execution.labels, 0, "/mount"⟩
        environment :=
          some ⟨⟨"e"⟩, "network", "agent", "container", "daemon", execution.labels, [], [], none⟩
        session := some monitor.session } }

/-- The client has asked, and these cues are next for the event loop. -/
def host (cues : List Cue) : Host :=
  { world := { store := after Store.initial requested, storage := fun _ => {}, runtime := fun _ => {} }
    cues, clock := 6 }

theorem attached_watching : Attached ⟨"e"⟩ monitor watching (after Store.initial requested) where
  id := rfl
  serves := by
    refine ⟨by decide, ?_, ?_⟩
    · have hrow : ((after Store.initial requested).executions.find? ⟨"e"⟩).any (fun row =>
          row.workerId = some ⟨"w"⟩ && row.attemptId = some ⟨"a"⟩ && row.state = .running &&
          row.sessionId = some ⟨"session"⟩ && row.worktreePath = some "/work") = true := by decide
      simp only [Option.any_eq_true, Bool.and_eq_true, decide_eq_true_eq] at hrow
      obtain ⟨row, hfind, ⟨⟨⟨hw, ha⟩, hst⟩, hs⟩, hp⟩ := hrow
      refine ⟨row, hfind, hw, ha, .inl hst, fun _ h => ?_, fun _ h => ?_⟩
      · exact (hs.symm.trans h : some _ = _)
      · exact (hp.symm.trans h : some _ = _)
    · have hrow : ((after Store.initial requested).attempts.find? ⟨"a"⟩).map (fun t =>
          (t.attemptId, t.executionId, t.workerId, t.finishedAt)) =
          some (⟨"a"⟩, ⟨"e"⟩, ⟨"w"⟩, none) := by decide
      obtain ⟨t, hfind, heq⟩ := Option.map_eq_some_iff.1 hrow
      simp only [Prod.mk.injEq] at heq
      obtain ⟨ha, he, hw, hopen⟩ := heq
      exact ⟨t, ha.symm ▸ hfind, he, by rw [ha]; rfl, by rw [hw]; rfl, hopen⟩
  active := .inl rfl
  session := rfl
  owned := rfl
  receipt := rfl
  environment := rfl

end Sample

end Orchestrator
