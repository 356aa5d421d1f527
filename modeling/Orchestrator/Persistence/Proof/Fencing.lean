import Orchestrator.Persistence.Proof.Lifecycle
import Orchestrator.Persistence.Proof.Capacity
import Orchestrator.Persistence.Proof.Rows

/-!
# What a fenced attempt can still do

`recover_unreachable` and `fence_lost_attempt` finish the attempt row and leave the execution row
alone, so every transaction a worker makes for its attempt has to look at the attempt row itself.
`record_progress` does; `begin_control` and `mark_control_side_effect_applied` write nothing but the
request; `complete_control` compares the request with the execution row only, so a request whose side
effect was applied completes for a fenced attempt as it does for a live one.
-/

namespace Orchestrator

open Relational

def StoreCall.fences {β : Type} : StoreCall β → Bool
  | .recoverUnreachable _ | .fenceLostAttempt .. => true
  | _ => false

namespace Store

variable {s s' : Store} {now : Timestamp} {e : ExecutionId} {a : AttemptId}

def attemptOpen (s : Store) (e : ExecutionId) (a : AttemptId) : Bool :=
  (s.attemptOf e a).any fun t => t.finishedAt.isNone

def attemptClosed (s : Store) (e : ExecutionId) (a : AttemptId) : Bool :=
  (s.attemptOf e a).any fun t => t.finishedAt.isSome

/-- A fencing call took `s` to `s'` and finished attempt `a` of `e`. -/
structure Fences (s : Store) (e : ExecutionId) (a : AttemptId) (s' : Store) : Prop where
  call : ∃ l : Label, l.call.fences = true ∧ Step s l s'
  before : s.attemptOpen e a = true
  after : s'.attemptClosed e a = true

/-- The call is one a worker makes for its attempt `a`. -/
def OnBehalf (s : Store) (a : AttemptId) {β : Type} : StoreCall β → Prop
  | .recordProgress execution _ _ => execution.attemptId = some a
  | .beginControl _ _ b => b = a
  | .markControlSideEffectApplied requestId _ =>
    ∃ c, s.controls.find? requestId = some c ∧ c.acceptedAttemptId = a
  | .completeControl requestId execution _ => execution.attemptId = some a ∨
    ∃ c, s.controls.find? requestId = some c ∧ c.acceptedAttemptId = a
  | _ => False

/-- What a worker may publish about an execution. -/
structure Published where
  state : ExecutionState
  session : Option SessionId
  worktree : Option String
  result : Option ExecutionResult
deriving DecidableEq

def published (s : Store) (e : ExecutionId) : Option Published :=
  (s.executions.find? e).map fun row => ⟨row.state, row.sessionId, row.worktreePath, row.result⟩

/-- State, session, worktree and result of `e` and its events are what they were. -/
def Unaffected (e : ExecutionId) (s s' : Store) : Prop :=
  s'.published e = s.published e ∧ s'.eventsOf e = s.eventsOf e

/-- The call completes a control of `e`: the request's side effect is applied, no cancellation is
pending, and request, report and execution row agree. -/
def Completes (s : Store) (e : ExecutionId) {β : Type} : StoreCall β → Prop
  | .completeControl requestId execution event =>
    execution.id = e ∧ ∃ row c, Complete s requestId execution event row c
  | _ => False

/-- The call takes `e` away from attempt `a`: it finalizes its cleanup, completes its cancellation or
grants another attempt. -/
def Supersedes (e : ExecutionId) (a : AttemptId) {β : Type} : StoreCall β → Prop
  | .finalizeCleanup id _ | .completeCancellation id _ => id = e
  | .reserveNext _ b _ => b ≠ a
  | _ => False

/-- The plain state changes of the store, which no worker makes. -/
def Moves (e : ExecutionId) {β : Type} : StoreCall β → Prop
  | .transition id _ | .transitionWithEvent id _ _ => id = e
  | _ => False

/-! ## Fenced for good -/

theorem attemptClosed_iff :
    s.attemptClosed e a = true ↔ ∃ v, (s.life e).attempts a = some ⟨v, true⟩ := by
  simp only [attemptClosed, Option.any_eq_true, life_attempts_eq_some, attemptOf_eq_some]
  constructor
  · rintro ⟨t, ⟨ht, hte⟩, hfin⟩
    exact ⟨t.workerId, t, ht, hte, by rw [hfin]⟩
  · rintro ⟨v, t, ht, hte, hx⟩
    exact ⟨t, ⟨ht, hte⟩, (Trial.mk.inj hx).2.symm⟩

theorem attemptClosed_run {ok : Store → Label → Prop} (h : s.attemptClosed e a = true)
    (hrun : Reaches Orchestrator.Step ok s s') : s'.attemptClosed e a = true := by
  refine Reaches.invariant (I := fun t => t.attemptClosed e a = true) (fun s₁ l s₂ hI _ hst => ?_)
    hrun h
  rcases life_step hst e with hsame | ⟨act, _, hact⟩
  · rw [attemptClosed_iff] at hI ⊢
    rwa [hsame]
  · obtain ⟨v, hv⟩ := attemptClosed_iff.1 hI
    obtain ⟨⟨u, f⟩, ht, _, hfin⟩ := hact.attempt_kept hv
    cases hfin rfl
    exact attemptClosed_iff.2 ⟨u, ht⟩

theorem attempt_of_closed (h : s.attemptClosed e a = true) {t : AttemptRow}
    (ht : s.attempts.find? a = some t) : t.executionId = e ∧ t.finishedAt ≠ none := by
  obtain ⟨u, hu, hfin⟩ := (Option.any_eq_true _ _).1 h
  obtain ⟨hu, hue⟩ := attemptOf_eq_some.1 hu
  obtain rfl := Option.mem_unique ht hu
  exact ⟨hue, Option.isSome_iff_ne_none.1 hfin⟩

/-! ## What each call publishes -/

theorem Unaffected.of_tables (hx : s'.executions = s.executions) (hv : s'.events = s.events) :
    Unaffected e s s' := by
  constructor
  · rw [published, published, hx]
  · rw [eventsOf, eventsOf, hv]

theorem Unaffected.of_frame {ws : List TableName} (h : Frame ws s s') (hx : .executions ∉ ws)
    (hv : .events ∉ ws) : Unaffected e s s' :=
  .of_tables (h.executions hx) (h.events hv)

theorem published_put_other {r : ExecutionRow} (hs : s'.executions = s.executions.put r)
    (hne : r.id ≠ e) : s'.published e = s.published e := by
  rw [published, published, hs, Table.find?_put, if_neg hne]

variable {execution : Execution} {event : ExecutionEvent} {row : ExecutionRow}

theorem Progress.not_closed {t : AttemptRow} (hg : Progress s execution event row t)
    (h : s.attemptClosed e a = true) (ha : execution.attemptId = some a) : False := by
  have hta : t.attemptId = a := by
    have hcur := hg.attemptCurrent
    rw [← hg.current, ha] at hcur
    exact (Option.some.inj hcur).symm
  exact (attempt_of_closed h (hta ▸ hg.attempt)).2 hg.unfinished

theorem Unaffected.of_other {r : ExecutionRow} (hput : s'.executions = s.executions.put r)
    (hev : s'.events = s.events ∨
      ∃ event, event.executionId = r.id ∧ s'.events = (s.append event).2.events)
    (hne : r.id ≠ e) : Unaffected e s s' := by
  refine ⟨published_put_other hput hne, ?_⟩
  rcases hev with hev | ⟨event, hid, hev⟩
  · rw [eventsOf, eventsOf, hev]
  · rw [← eventsOf_append_other (s := s) (v := event) (hid ▸ hne), eventsOf, eventsOf, hev]

theorem affected_of_complete {requestId : Nat}
    {c : ControlRow} (hg : Complete s requestId execution event row c)
    (hs : s' = ((s.completed c row execution).append event).2) :
    ¬ Unaffected execution.id s s' := by
  rintro ⟨_, hev⟩
  rw [hs, ← hg.published.1] at hev
  exact eventsOf_append_ne (s.completed c row execution) event hev

theorem unaffected_of_complete {requestId : Nat}
    {c : ControlRow} (hg : Complete s requestId execution event row c)
    (hs : s' = ((s.completed c row execution).append event).2) (hne : execution.id ≠ e) :
    Unaffected e s s' := by
  have hid : row.id = execution.id := execution_id hg.found
  refine .of_other (r := controlled row execution) (by rw [hs]; rfl)
    (.inr ⟨event, hg.published.1.trans hid.symm, by rw [hs]; rfl⟩) ?_
  rw [show (controlled row execution).id = execution.id from hid]
  exact hne

theorem unaffected_iff {β : Type} {call : StoreCall β} (hclosed : s.attemptClosed e a = true)
    (hcall : s.OnBehalf a call) (hst : Orchestrator.Step s ⟨β, call, now⟩ s') :
    Unaffected e s s' ↔ ¬ s.Completes e call := by
  have hsame : Unaffected e s s := ⟨rfl, rfl⟩
  have hcases : s' = s ∨ Committed now s call s' := hst.cases
  cases call
  case recordProgress execution event retention =>
    refine iff_of_true ?_ id
    have hrun : s' = s ∨ ∃ n, recordProgress now execution event retention s = .ok (n, s') :=
      Txn.run_state hst
    rcases hrun with rfl | ⟨n, h⟩
    · exact hsame
    · obtain ⟨row, t, _, hg, _, _⟩ := recordProgress_spec h
      exact (hg.not_closed hclosed hcall).elim
  case beginControl =>
    refine iff_of_true ?_ id
    rcases hcases with rfl | hc
    · exact hsame
    · exact .of_frame hc.frame (by simp [StoreCall.writes]) (by simp [StoreCall.writes])
  case markControlSideEffectApplied =>
    refine iff_of_true ?_ id
    rcases hcases with rfl | hc
    · exact hsame
    · exact .of_frame hc.frame (by simp [StoreCall.writes]) (by simp [StoreCall.writes])
  case completeControl requestId execution event =>
    constructor
    · rintro hun ⟨rfl, row, c, hg⟩
      have hs : s' = ((s.completed c row execution).append event).2 := by
        rw [← show _ = s' from hst]
        simp only [StoreCall.exec, Txn.runReporting, completeControl_of_complete hg]
      exact affected_of_complete hg hs hun
    · intro hnot
      have hrun : s' = s ∨ ∃ r, completeControl now requestId execution event s = .ok (r, s') :=
        Txn.runReporting_state hst
      rcases hrun with rfl | ⟨r, h⟩
      · exact hsame
      rcases completeControl_spec h with rfl | ⟨_, _, _, _, _, rfl⟩ | ⟨row, c, hg, hs⟩
      · exact hsame
      · exact .of_tables rfl rfl
      · exact unaffected_of_complete hg hs fun he => hnot ⟨he, row, c, hg⟩
  all_goals exact hcall.elim

theorem Rewrites.publisher {β : Type} {call : StoreCall β} {row' : ExecutionRow}
    (h : Rewrites now s e call row') (hrow : s.executions.find? e = some row)
    (hcur : row.attemptId = some a) (hclosed : s.attemptClosed e a = true) :
    Supersedes e a call ∨ s.Completes e call ∨ Moves e call := by
  cases h with
  | inserted new | created new => cases new.symm.trans hrow
  | cancelled found _ unassigned =>
    obtain rfl := Option.mem_unique hrow found
    cases hcur.symm.trans unassigned.2
  | settled | detached => exact .inl rfl
  | moved | announced => exact .inr (.inr rfl)
  | progressed hg id =>
    obtain rfl := Option.mem_unique hrow (id ▸ hg.found)
    exact (hg.not_closed hclosed (hg.current.trans hcur)).elim
  | controlled hg id => exact .inr (.inl ⟨id, _, _, hg⟩)
  | claimed hg =>
    -- the new attempt was unknown, and `a` is known
    refine .inl ?_
    rintro rfl
    obtain ⟨t, ht, _⟩ := (Option.any_eq_true _ _).1 hclosed
    cases hg.freshAttempt.symm.trans (attemptOf_eq_some.1 ht).1

theorem publisher_cases {β : Type} {call : StoreCall β}
    (hrow : s.executions.find? e = some row) (hcur : row.attemptId = some a)
    (hclosed : s.attemptClosed e a = true) (hst : Orchestrator.Step s ⟨β, call, now⟩ s')
    (haff : ¬ Unaffected e s s') : Supersedes e a call ∨ s.Completes e call ∨ Moves e call := by
  have hcases : s' = s ∨ Committed now s call s' := hst.cases
  rcases hcases with rfl | hc
  · exact (haff ⟨rfl, rfl⟩).elim
  -- a call that writes the row of another execution affects nothing
  have hsame : ∀ {row' : ExecutionRow}, s'.executions = s.executions.put row' →
      (s'.events = s.events ∨
        ∃ event, event.executionId = row'.id ∧ s'.events = (s.append event).2.events) →
      row'.id = e :=
    fun hput hev => by_contra fun hne => haff (.of_other hput hev hne)
  cases writes_committed hc with
  | nothing rows log => exact (haff (.of_tables rows log)).elim
  | row hr put log =>
    obtain rfl := hsame put (.inl log)
    exact hr.publisher hrow hcur hclosed
  | told hr put id _ log =>
    obtain rfl := hsame put (.inr ⟨_, id, log⟩)
    exact hr.publisher hrow hcur hclosed
  | late rows id log =>
    refine .inl (by_contra fun hne => haff ⟨by rw [published, published, rows], ?_⟩)
    rw [← eventsOf_append_other (s := s) (id ▸ hne), eventsOf, eventsOf, log]

end Store

open Store

/-- After attempt `a` of `e` was fenced, a call made for it leaves what is published about `e` alone
if and only if it is not the completion of a control that passes the checks on the execution row; and
while `a` is still the current attempt, only cleanup, cancellation, a new attempt, such a completion
or a plain state change publish anything about `e`. -/
theorem fenced_powerless {s s₁ s₂ : Store} {e : ExecutionId} {a : AttemptId}
    (hf : s.Fences e a s₁) (hrun : Reaches Step anyCall s₁ s₂) :
    (∀ {β : Type} (call : StoreCall β) now s₃, s₂.OnBehalf a call → Step s₂ ⟨β, call, now⟩ s₃ →
      (Unaffected e s₂ s₃ ↔ ¬ s₂.Completes e call)) ∧
    ∀ {β : Type} (call : StoreCall β) now s₃ row, s₂.executions.find? e = some row →
      row.attemptId = some a → Step s₂ ⟨β, call, now⟩ s₃ → ¬ Unaffected e s₂ s₃ →
      Supersedes e a call ∨ s₂.Completes e call ∨ Moves e call := by
  have hclosed := attemptClosed_run hf.after hrun
  exact ⟨fun call now s₃ hcall hst => unaffected_iff hclosed hcall hst,
    fun call now s₃ row hrow hcur hst haff => publisher_cases hrow hcur hclosed hst haff⟩

namespace Sample

def inState (state : ExecutionState) (session : Option SessionId) : Execution :=
  { execution with
    state, sessionId := session, workerId := some ⟨"w"⟩, attemptId := some ⟨"a"⟩
    labels := { execution.labels with workerId := ⟨"w"⟩ }
    worktreePath := session.map fun _ => "/work" }

def eventOf (x : Execution) (kind : ExecutionEventKind) : ExecutionEvent :=
  { executionId := x.id, attemptId := x.attemptId, sequence := 0, at_ := 3, state := x.state, kind }

/-- The worker runs the execution, is asked to pause it and does, and then goes silent before it
reports so. -/
def paused : List Label :=
  let provisioning := inState .provisioning none
  let running := inState .running (some ⟨"session"⟩)
  assigned ++
    [⟨_, .begin ⟨"e"⟩ ⟨"a"⟩ ⟨"w"⟩, 2⟩,
      ⟨_, .recordProgress provisioning (eventOf provisioning .environmentReady) false, 3⟩,
      ⟨_, .recordProgress running (eventOf running (.agentStarted ⟨"session"⟩)) false, 4⟩,
      ⟨_, .requestControl ⟨"e"⟩ .pause "pause", 5⟩, ⟨_, .beginControl 1 ⟨"w"⟩ ⟨"a"⟩, 6⟩,
      ⟨_, .markControlSideEffectApplied 1 none, 7⟩, ⟨_, .markStaleBefore 8, 8⟩]

def lost : List Label := paused ++ [⟨_, .recoverUnreachable ⟨"w"⟩, 9⟩]

def lateProgress : StoreCall (Except StoreError Nat) :=
  let running := inState .running (some ⟨"session"⟩)
  .recordProgress running (eventOf running .testsStarted) false

/-- The report of the lost worker that the execution is paused. -/
def report : StoreCall (Except StoreError (Option Nat)) :=
  let pausedExecution := inState .pausedForHuman (some ⟨"session"⟩)
  .completeControl 1 pausedExecution (eventOf pausedExecution .executionPaused)

theorem fences_lost : (after initial paused).Fences ⟨"e"⟩ ⟨"a"⟩ (after initial lost) where
  call := ⟨_, rfl, step_after initial paused _⟩
  before := by decide
  after := by decide

end Sample

open Sample in
theorem fenced_powerless_sample : (after initial paused).Fences ⟨"e"⟩ ⟨"a"⟩ (after initial lost) ∧
      Unaffected ⟨"e"⟩ (after initial lost) (lateProgress.exec 10 (after initial lost)).2 := by
  have hcall : (after initial lost).OnBehalf ⟨"a"⟩ lateProgress := by
    show (inState .running (some ⟨"session"⟩)).attemptId = some ⟨"a"⟩
    rfl
  exact ⟨fences_lost, ((fenced_powerless fences_lost .refl).1 _ 10 _ hcall rfl).2 id⟩

open Sample in
/-- A worker that was recovered as lost still moves its execution to `PAUSED_FOR_HUMAN` and publishes
an event. -/
theorem zombie_publishes : ∃ s₃, (after initial paused).Fences ⟨"e"⟩ ⟨"a"⟩ (after initial lost) ∧
    (after initial lost).OnBehalf ⟨"a"⟩ report ∧ Step (after initial lost) ⟨_, report, 10⟩ s₃ ∧
    (s₃.published ⟨"e"⟩).map Published.state = some .pausedForHuman ∧
    ¬ Unaffected ⟨"e"⟩ (after initial lost) s₃ := by
  refine ⟨_, fences_lost, .inl rfl, rfl, by decide, fun h => ?_⟩
  have hstate : (((report.exec 10 (after initial lost)).2.published ⟨"e"⟩).map Published.state) =
    some .pausedForHuman := by decide
  have hbefore : ((after initial lost).published ⟨"e"⟩).map Published.state = some .running := by
    decide
  rw [h.1] at hstate
  cases hbefore.symm.trans hstate

end Orchestrator
