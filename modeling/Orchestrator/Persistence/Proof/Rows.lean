import Orchestrator.Persistence.Proof.Frame

/-!
# What a call does to one row

Two inversion lemmas over all calls, for the tables whose rows several calls rewrite.
`writes_committed`: a committed call leaves executions and log alone, or writes one row with one of
ten statements and the guards it passed (`Rewrites`), and perhaps its event. `controls_committed`:
a committed call leaves the control requests alone, accepts one, takes one a phase further, or makes
those of one execution stale (`Requests`). The invariants of executions and of controls are case
analyses of these.
-/

namespace Orchestrator

open Relational

/-- The call may rewrite the row of `e`. -/
def StoreCall.rewrites {β : Type} (e : ExecutionId) : StoreCall β → Prop
  | .insert x | .createIdempotent x .. | .recordProgress x .. | .completeControl _ x _ => x.id = e
  | .requestCancellation id | .completeCancellation id _ | .transition id _
  | .transitionWithEvent id .. | .finalizeCleanup id _ => id = e
  | .reserveNext .. => True
  | _ => False

/-- Calls that leave the pending requests of an execution alone when they rewrite its row. -/
def StoreCall.plain {β : Type} : StoreCall β → Bool
  | .completeControl .. | .requestCancellation _ => false
  | .recordProgress x .. => !x.state.isTerminal
  | _ => true

/-- The call may write a row and no event. -/
def StoreCall.untold {β : Type} : StoreCall β → Bool
  | .insert _ | .transition .. | .reserveNext .. | .finalizeCleanup .. => true
  | _ => false

namespace Store

variable {s s' : Store} {now : Timestamp} {e : ExecutionId}

/-! ## Executions -/

/-- The call overwrites the row of `e`, or adds it. -/
inductive Rewrites (now : Timestamp) (s : Store) (e : ExecutionId) :
    {β : Type} → StoreCall β → ExecutionRow → Prop
  | inserted {x} (new : s.executions.find? e = none) (id : x.id = e) :
      Rewrites now s e (.insert x) { toExecution := x, version := 1 }
  | created {x event key scope} (new : s.executions.find? e = none) (id : x.id = e) :
      Rewrites now s e (.createIdempotent x event key scope) { toExecution := x, version := 1 }
  | cancelled {row} (found : s.executions.find? e = some row) (queued : row.state = .queued)
      (unassigned : row.workerId = none ∧ row.attemptId = none) :
      Rewrites now s e (.requestCancellation e) (cancelledRow now row)
  | settled {a row t c} (hg : Cancel s e a row t c) :
      Rewrites now s e (.completeCancellation e a) (cancelledRow now row)
  | moved {next row} (found : s.executions.find? e = some row)
      (free : s.cancellationPending e = false) (legal : row.state.canTransitionTo next = true) :
      Rewrites now s e (.transition e next) (Store.moved now row next)
  | announced {next event row} (found : s.executions.find? e = some row)
      (free : s.cancellationPending e = false) (legal : row.state.canTransitionTo next = true) :
      Rewrites now s e (.transitionWithEvent e next event) (Store.moved now row next)
  | progressed {x event retention row t} (hg : Progress s x event row t) (id : x.id = e) :
      Rewrites now s e (.recordProgress x event retention) (Store.progressed row x)
  | controlled {requestId x event row c} (hg : Complete s requestId x event row c) (id : x.id = e) :
      Rewrites now s e (.completeControl requestId x event) (Store.controlled row x)
  | claimed {w a locked worker row} (hg : Grant s worker row w a) (id : row.id = e) :
      Rewrites now s e (.reserveNext w a locked) (Store.claimed now row w a)
  | detached {a row c t} (hg : Final s e a row c t) (current : row.attemptId = some a) :
      Rewrites now s e (.finalizeCleanup e a)
        (Store.detached now row (s.finalState row) (s.finalResult row))

variable {β : Type} {call : StoreCall β}

theorem Rewrites.rewrites {row : ExecutionRow}
    (h : Rewrites now s e call row) : call.rewrites e := by
  cases h with
  | claimed => trivial
  | inserted _ id | created _ id | progressed _ id | controlled _ id => exact id
  | _ => rfl

/-- What a call writes to the execution rows and to the log: nothing, or one row and perhaps the event
that tells its state. A finalization may come after its attempt and find the row another's. -/
inductive Writes (now : Timestamp) (s : Store) : {β : Type} → StoreCall β → Store → Prop
  | nothing {β : Type} {call : StoreCall β} {s'} (rows : s'.executions = s.executions)
      (log : s'.events = s.events) : Writes now s call s'
  | row {β : Type} {call : StoreCall β} {s' row} (hr : Rewrites now s row.id call row)
      (put : s'.executions = s.executions.put row) (log : s'.events = s.events)
      (untold : call.untold = true) : Writes now s call s'
  | told {β : Type} {call : StoreCall β} {s' row event} (hr : Rewrites now s row.id call row)
      (put : s'.executions = s.executions.put row) (id : event.executionId = row.id)
      (state : event.state = row.state) (log : s'.events = (s.append event).2.events) :
      Writes now s call s'
  | late {e a s' event} (rows : s'.executions = s.executions) (id : event.executionId = e)
      (log : s'.events = (s.append event).2.events) : Writes now s (.finalizeCleanup e a) s'

section Events
variable {x : Execution} {event : ExecutionEvent}

theorem createIdempotent_event {key scope : String} {r : IdempotentExecution}
    (h : createIdempotent x event key scope s = .ok (r, s')) : event.state = x.state := by
  simp only [createIdempotent, Txn.bind_eq_ok, Txn.ensure_eq_ok] at h
  obtain ⟨_, _, _, ⟨_, hstate, _⟩, _⟩ := h
  exact hstate.symm

theorem transitionWithEvent_event {next : ExecutionState} {r : Execution × Nat}
    (h : transitionWithEvent now e next event s = .ok (r, s')) : event.state = next := by
  simp only [transitionWithEvent, Txn.bind_eq_ok, Txn.ensure_eq_ok] at h
  obtain ⟨_, ⟨_, hstate, _⟩, _⟩ := h
  exact hstate.symm

theorem recordProgress_event {retention : Bool} {n : Nat}
    (h : recordProgress now x event retention s = .ok (n, s')) : event.state = x.state := by
  simp only [recordProgress, Txn.bind_eq_ok, Txn.ensure_eq_ok] at h
  obtain ⟨_, ⟨_, hstate, _⟩, _⟩ := h
  exact hstate.symm

end Events

theorem writes_committed (h : Committed now s call s') : Writes now s call s' := by
  have hframe := h.frame
  cases h with
  | insert h =>
    obtain ⟨hnew, rfl⟩ := insert_spec h
    exact .row (.inserted hnew rfl) rfl rfl rfl
  | createIdempotent h =>
    have hstate := createIdempotent_event h
    rcases createIdempotent_spec h with rfl | ⟨_, hnew, hid, rfl⟩
    · exact .nothing rfl rfl
    · exact .told (.created hnew rfl) rfl hid hstate rfl
  | requestCancellation h =>
    obtain ⟨row, hrow, ⟨_, rfl⟩ | ⟨_, ⟨hq, hw, ha, rfl⟩ | ⟨_, rfl⟩⟩⟩ := requestCancellation_spec h
    · exact .nothing rfl rfl
    · obtain rfl : row.id = _ := execution_id hrow
      exact .told (.cancelled hrow hq ⟨hw, ha⟩) rfl rfl rfl rfl
    · exact .nothing rfl rfl
  | completeCancellation h =>
    obtain ⟨row, t, c, hg, rfl⟩ := completeCancellation_spec h
    obtain rfl : row.id = _ := execution_id hg.found
    exact .told (.settled hg) rfl rfl rfl rfl
  | transition h =>
    obtain ⟨row, hrow, hfree, hlegal, rfl⟩ := transition_spec h
    obtain rfl : row.id = _ := execution_id hrow
    exact .row (.moved hrow hfree hlegal) rfl rfl rfl
  | transitionWithEvent h =>
    have hstate := transitionWithEvent_event h
    obtain ⟨row, hrow, hfree, hlegal, hid, rfl⟩ := transitionWithEvent_spec h
    obtain rfl : row.id = _ := execution_id hrow
    exact .told (.announced hrow hfree hlegal) rfl hid hstate rfl
  | recordProgress h =>
    have hstate := recordProgress_event h
    obtain ⟨row, t, retain, hg, _, rfl⟩ := recordProgress_spec h
    have hid := execution_id hg.found
    exact .told (.progressed hg hid.symm) rfl (hg.published.trans hid.symm) hstate rfl
  | completeControl h =>
    rcases completeControl_spec h with rfl | ⟨_, _, _, _, _, rfl⟩ | ⟨row, c, hg, rfl⟩
    · exact .nothing rfl rfl
    · exact .nothing rfl rfl
    · have hid := execution_id hg.found
      exact .told (.controlled hg hid.symm) rfl (hg.published.1.trans hid.symm) hg.published.2.1 rfl
  | reserveNext h =>
    rcases reserveNext_spec h with ⟨_, rfl⟩ | ⟨_, row, hg, _, rfl⟩
    · exact .nothing rfl rfl
    · exact .row (.claimed hg rfl) rfl rfl rfl
  | finalizeCleanup h =>
    obtain ⟨_, _, _, _, _, _, _, rfl⟩ | ⟨row, c, t, hg, _, hfin⟩ := finalizeCleanup_spec h
    · exact .nothing rfl rfl
    obtain rfl : row.id = _ := execution_id hg.found
    obtain rfl : t.attemptId = _ := attempt_id hg.attempt
    by_cases hcur : row.attemptId = some t.attemptId
    · have hput : (s.finalized now row c t).executions =
          s.executions.put (detached now row (s.finalState row) (s.finalResult row)) := by
        rw [finalized, if_pos hcur]
      rcases hfin with ⟨_, rfl⟩ | ⟨_, _, _, rfl⟩
      · exact .row (.detached hg hcur) hput rfl rfl
      · exact .told (.detached hg hcur) hput rfl rfl rfl
    · have hkept : (s.finalized now row c t).executions = s.executions := by
        rw [finalized, if_neg hcur]
      rcases hfin with ⟨_, rfl⟩ | ⟨_, _, _, rfl⟩
      · exact .nothing hkept rfl
      · exact .late hkept rfl rfl
  | _ =>
    exact .nothing (hframe.executions (by simp [StoreCall.writes]))
      (hframe.events (by simp [StoreCall.writes]))

theorem row_committed (h : Committed now s call s')
    (e : ExecutionId) : s'.executions.find? e = s.executions.find? e ∨
      ∃ row, s'.executions.find? e = some row ∧ Rewrites now s e call row := by
  have hput : ∀ row, Rewrites now s row.id call row → s'.executions = s.executions.put row →
      s'.executions.find? e = s.executions.find? e ∨
        ∃ row, s'.executions.find? e = some row ∧ Rewrites now s e call row := by
    intro row hr hs
    rw [hs, Table.find?_put]
    split
    · next he => exact .inr ⟨row, rfl, he ▸ hr⟩
    · exact .inl rfl
  cases writes_committed h with
  | nothing rows _ | late rows _ _ => exact .inl (by rw [rows])
  | row hr put _ _ | told hr put _ _ _ => exact hput _ hr put

theorem Rewrites.over {row row' : ExecutionRow}
    (h : Rewrites now s e call row') (hrow : s.executions.find? e = some row) :
    row'.version = row.version + 1 ∧ row'.manifest = row.manifest ∧
      row'.labels.executionId = row.labels.executionId := by
  have hsame : ∀ {r}, s.executions.find? e = some r → row = r :=
    fun hr => Option.mem_unique hrow hr
  cases h with
  | inserted new | created new => cases new.symm.trans hrow
  | cancelled found | moved found | announced found => rw [hsame found]; exact ⟨rfl, rfl, rfl⟩
  | settled hg | detached hg => rw [hsame hg.found]; exact ⟨rfl, rfl, rfl⟩
  | progressed hg id | controlled hg id | claimed hg id => rw [hsame (id ▸ hg.found)]; exact ⟨rfl, rfl, rfl⟩

/-! ## Control requests -/

/-- What a call makes of one control request. -/
inductive Handles (now : Timestamp) (s : Store) (c : ControlRow) :
    {β : Type} → StoreCall β → ControlRow → Prop
  | begun {w a} (phase : c.phase = .accepted) :
      Handles now s c (.beginControl c.requestId w a) { c with phase := .applying }
  | overtaken {w a row reason} (found : s.executions.find? c.executionId = some row)
      (pending : c.phase.pending = true)
      (changed : ¬ (c.acceptedWorkerId = w ∧ c.acceptedAttemptId = a ∧ acceptedFor c row) ∨
        s.cancellationPending c.executionId = true) :
      Handles now s c (.beginControl c.requestId w a)
        { c with phase := .stale, staleReason := some reason, completedAt := some now }
  | applied {session target} (phase : c.phase = .applying) :
      Handles now s c (.markControlSideEffectApplied c.requestId session)
        { c with phase := .sideEffectApplied, sideEffectSessionId := some target }
  | unapplied {session reason} (pending : c.phase.pending = true)
      (cancelling : s.cancellationPending c.executionId = true) :
      Handles now s c (.markControlSideEffectApplied c.requestId session)
        { c with phase := .stale, staleReason := some reason, completedAt := some now }
  | uncompleted {x event reason} (unfinished : c.phase ≠ .completed)
      (cancelling : s.cancellationPending c.executionId = true) :
      Handles now s c (.completeControl c.requestId x event)
        { c with phase := .stale, staleReason := some reason, completedAt := some now }
  | completed {x event row} (hg : Complete s c.requestId x event row c) :
      Handles now s c (.completeControl c.requestId x event)
        { c with phase := .completed, completedAt := some x.updatedAt }

/-- What a call makes of the control requests. -/
inductive Requests (now : Timestamp) (s : Store) : {β : Type} → StoreCall β → Store → Prop
  | kept {β : Type} {call : StoreCall β} {s'} (calm : s' = s ∨ call.plain = true)
      (controls : s'.controls = s.controls) (ids : s'.controlSequence = s.controlSequence) :
      Requests now s call s'
  | accepted {e action key row c} (hg : Accept s now e action row c) :
      Requests now s (.requestControl e action key)
        { s with controls := s.controls.put c, controlSequence := s.controlSequence + 1 }
  | handled {β : Type} {call : StoreCall β} {s' c c'} (found : s.controls.find? c.requestId = some c)
      (hc : Handles now s c call c') (unfinished : c'.phase ≠ .completed)
      (row : s'.executions = s.executions) (controls : s'.controls = s.controls.put c')
      (ids : s'.controlSequence = s.controlSequence) : Requests now s call s'
  | completed {x event row c s'} (hg : Complete s c.requestId x event row c)
      (row : s'.executions = s.executions.put (Store.controlled row x))
      (controls : s'.controls =
        s.controls.put { c with phase := .completed, completedAt := some x.updatedAt })
      (ids : s'.controlSequence = s.controlSequence) :
      Requests now s (.completeControl c.requestId x event) s'
  | cancelled {e reason s'} (controls : s'.controls = (s.staleControls now e reason).controls)
      (ids : s'.controlSequence = s.controlSequence) : Requests now s (.requestCancellation e) s'
  | ended {x event retention reason s'} (terminal : x.state.isTerminal = true)
      (controls : s'.controls = (s.staleControls now x.id reason).controls)
      (ids : s'.controlSequence = s.controlSequence) :
      Requests now s (.recordProgress x event retention) s'

theorem control_id {requestId : Nat} {c : ControlRow} (h : s.controls.find? requestId = some c) :
    c.requestId = requestId :=
  Table.key_of_find? h

theorem controls_committed (h : Committed now s call s') : Requests now s call s' := by
  have hframe := h.frame
  cases h with
  | requestCancellation h =>
    obtain ⟨_, _, ⟨_, rfl⟩ | ⟨_, ⟨_, _, _, hs⟩ | ⟨_, hs⟩⟩⟩ := requestCancellation_spec h
    · exact .kept (.inl rfl) rfl rfl
    · exact .cancelled (by rw [hs]; rfl) (by rw [hs]; rfl)
    · exact .cancelled (by rw [hs]; rfl) (by rw [hs]; rfl)
  | @recordProgress x _ _ _ _ h =>
    obtain ⟨_, _, _, _, _, hs⟩ := recordProgress_spec h
    by_cases hterm : x.state.isTerminal = true
    · have hcontrols : s'.controls =
          (s.staleControls now x.id "execution entered a terminal state").controls := by
        rw [hs, append, settleControls, if_pos hterm]
        rfl
      exact .ended hterm hcontrols (by rw [hs]; rfl)
    · refine .kept (.inr (by simp [StoreCall.plain, hterm])) ?_ (by rw [hs]; rfl)
      rw [hs, append, settleControls, if_neg hterm]
      rfl
  | requestControl h =>
    rcases requestControl_spec h with rfl | ⟨_, _, hg, rfl⟩
    · exact .kept (.inl rfl) rfl rfl
    · exact .accepted hg
  | beginControl h =>
    obtain ⟨c, row, hc, hrow, hph, ⟨_, hcond, rfl⟩ | ⟨_, _, _, ⟨hacc, rfl⟩ | ⟨_, rfl⟩⟩⟩ :=
      beginControl_spec h
    · obtain rfl := control_id hc
      exact .handled hc (.overtaken hrow hph hcond) nofun rfl rfl rfl
    · obtain rfl := control_id hc
      exact .handled hc (.begun hacc) nofun rfl rfl rfl
    · exact .kept (.inl rfl) rfl rfl
  | markControlSideEffectApplied h =>
    obtain ⟨c, hc, rfl | ⟨_, hph, hcan, rfl⟩ | ⟨_, hph, _, _, rfl⟩⟩ := markControl_spec h
    · exact .kept (.inl rfl) rfl rfl
    · obtain rfl := control_id hc
      exact .handled hc (.unapplied hph hcan) nofun rfl rfl rfl
    · obtain rfl := control_id hc
      exact .handled hc (.applied hph) nofun rfl rfl rfl
  | completeControl h =>
    rcases completeControl_spec h with rfl | ⟨c, _, hc, hph, hcan, rfl⟩ | ⟨row, c, hg, rfl⟩
    · exact .kept (.inl rfl) rfl rfl
    · obtain rfl := control_id hc
      exact .handled hc (.uncompleted hph hcan) nofun rfl rfl rfl
    · obtain rfl := control_id hg.control
      exact .completed hg rfl rfl rfl
  | _ =>
    exact .kept (.inr rfl) (hframe.controls (by simp [StoreCall.writes]))
      (hframe.ids (by simp [StoreCall.writes]))

/-- A request found completed was so before, or has just been. -/
theorem completed_cases {r : Nat} {c : ControlRow}
    (h : Committed now s call s') (hc : s'.controls.find? r = some c) (hdone : c.phase = .completed) :
    s.controls.find? r = some c ∨ ∃ d, Handles now s d call c ∧
      s.controls.find? d.requestId = some d ∧ s'.controls = s.controls.put c := by
  have hput : ∀ {d}, s'.controls = s.controls.put d → s.controls.find? r = some c ∨ c = d := by
    intro d hs
    rw [hs] at hc
    rcases Table.find?_put_eq_some.1 hc with ⟨_, rfl⟩ | ⟨_, hc⟩
    · exact .inr rfl
    · exact .inl hc
  cases controls_committed h with
  | kept _ controls _ => exact .inl (controls ▸ hc)
  | accepted hg =>
    refine .inl ((hput rfl).resolve_right fun he => ?_)
    cases hg.phase.symm.trans (he ▸ hdone)
  | handled _ _ unfinished _ controls _ =>
    exact .inl ((hput controls).resolve_right fun he => unfinished (he ▸ hdone))
  | completed hg _ controls _ =>
    rcases hput controls with hold | rfl
    · exact .inl hold
    · exact .inr ⟨_, .completed hg, hg.control, controls⟩
  | cancelled controls _ | ended _ controls _ =>
    rw [controls, staleControls, Table.find?_update] at hc
    obtain ⟨d, hd, rfl⟩ := Option.map_eq_some_iff.1 hc
    split at hdone
    · cases hdone
    · exact .inl (by rwa [if_neg ‹_›])

end Store
end Orchestrator
