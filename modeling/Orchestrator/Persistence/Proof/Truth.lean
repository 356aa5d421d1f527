import Orchestrator.Persistence.Proof.Cancellation
import Orchestrator.Persistence.Proof.Phases

/-!
# The log tells the truth

Every transaction that changes an execution's state appends the event that says so, in the same
commit; a grant is the one that does not (`told_committed`). `finalize_cleanup` appends its event
without looking whether the row still is the attempt's, where it leaves the row alone. That needs
`Life.Tied`: an attempt whose reservation is not released yet is the current one. It rests on phases
that only move forward, since a phase set back would be finalized twice.
-/

namespace Orchestrator

open Relational Txn

/-! ## The attempt under cleanup is the current one -/

namespace Life

variable {L L' : Life} {act : Act}

structure Tied (L : Life) : Prop where
  /-- Before custody is opened there is one attempt at most. -/
  sole : L.custody = none → ∀ a t, L.attempts a = some t → L.current = some a
  kept : ∀ c t, L.custody = some c →
    c.phase.rank < CleanupDisposition.reservationReleased.rank →
    L.attempts c.attempt = some t → L.current = some c.attempt

theorem tied_unborn : Tied unborn := ⟨nofun, nofun⟩

/-- Custody that was open already. -/
theorem Tied.step_some (hT : Tied L) (hO : Orderly L) (h : Step L act L') {c : Custody}
    (hc : L.custody = some c)
    (hmono : ∀ c', L'.custody = some c' → c.phase.rank ≤ c'.phase.rank) : Tied L' := by
  obtain ⟨ph, hc'⟩ := h.custody_kept hc
  refine ⟨fun hnone => ?_, fun d t hd hlt ht => ?_⟩
  · cases hnone.symm.trans hc'
  obtain rfl := Option.mem_unique hc' hd
  have hbefore : c.phase.rank < CleanupDisposition.reservationReleased.rank :=
    (hmono _ hc').trans_lt hlt
  -- grants wait for the cleanup to be resolved
  have hgrant : ∀ {b w}, act ≠ .grant b w := by
    rintro b w rfl
    cases h with
    | grant _ _ _ _ _ cleaned =>
      rw [cleaned c hc] at hbefore
      exact absurd hbefore (by decide)
  obtain ⟨u, hu⟩ := (h.attempt_old ht).resolve_right fun ⟨_, hw⟩ => hgrant hw
  have hcurrent := hT.kept c u hc hbefore hu
  cases h with
  | create absent => cases ((hO.linked.unborn absent).2 _).symm.trans hu
  | grant => exact absurd rfl hgrant
  | detach =>
    obtain rfl : .reservationReleased = ph := congrArg Custody.phase (Option.some.inj hc')
    exact absurd hlt (lt_irrefl _)
  | _ => exact hcurrent

theorem Tied.step_none (hT : Tied L) (hO : Orderly L) (h : Step L act L')
    (hc : L.custody = none) : Tied L' := by
  have hsole := hT.sole hc
  -- attempts and assignment stay
  have hsame : L'.custody = L.custody → L'.attempts = L.attempts → L'.current = L.current →
      Tied L' := by
    intro hc' hattempts hcurrent
    refine ⟨fun _ a t ht => hcurrent ▸ hsole a t (hattempts ▸ ht), fun d t hd => ?_⟩
    cases (hc'.trans hc).symm.trans hd
  cases h with
  | create absent =>
    have hnone := (hO.linked.unborn absent).2
    exact ⟨fun _ a t ht => (nomatch (hnone a).symm.trans ht),
      fun d t _ _ ht => (nomatch (hnone d.attempt).symm.trans ht)⟩
  | @progress _ _ a w _ _ _ current _ _ active retention =>
    obtain rfl := retention.resolve_right fun ⟨_, hd, _⟩ => nomatch hc.symm.trans hd
    refine ⟨fun _ b t ht => ?_, fun d t hd => nomatch hc.symm.trans hd⟩
    by_cases hab : b = a
    · exact hab ▸ current
    · exact hsole b t ((Function.update_of_ne hab ..).symm.trans ht)
  | @grant a w queued _ _ _ _ _ =>
    refine ⟨fun _ b t ht => ?_, fun d t hd => nomatch hc.symm.trans hd⟩
    by_cases hab : b = a
    · rw [hab]
    · -- a queued execution has no attempt before its custody is opened
      have hold : L.attempts b = some t := (Function.update_of_ne hab ..).symm.trans ht
      cases (hO.fresh queued b (hsole b t hold)).symm.trans hold
  | @fence a w v held active =>
    refine ⟨nofun, fun d t hd _ _ => ?_⟩
    rw [hc] at hd
    obtain rfl := Option.some.inj hd
    exact hO.linked.current _ held
  | begin =>
    refine ⟨nofun, fun d t hd _ ht => ?_⟩
    obtain rfl := Option.some.inj hd
    exact hsole _ t ht
  | retain _ _ _ custody _ | detach _ custody _ _ _ | close custody _ _ | advance custody
  | resolve custody _ => cases hc.symm.trans custody
  | _ => exact hsame rfl rfl rfl

end Life

/-- The call appends an event when it changes a state. -/
def StoreCall.recorded {β : Type} : StoreCall β → Bool
  | .insert _ | .transition .. => false
  | _ => true

def StoreCall.concludes {β : Type} : StoreCall β → Bool
  | .finalizeCleanup .. => true
  | _ => false

/-- Every call but those that change a state without an event. -/
def recorded : Store → Label → Prop := fun _ l => l.call.recorded

instance (s : Store) (l : Label) : Decidable (recorded s l) :=
  inferInstanceAs (Decidable (l.call.recorded = true))

namespace Store

variable {s s' : Store} {now : Timestamp} {e : ExecutionId}

theorem tied_step {l : Label} (hT : (s.life e).Tied) (hO : (s.life e).Orderly)
    (h : Orchestrator.Step s l s') : (s'.life e).Tied := by
  rcases life_step h e with hsame | ⟨act, _, hact⟩
  · rwa [hsame]
  cases hc : s.authorities.find? e with
  | none => exact hT.step_none hO hact (by simp [life, hc])
  | some c =>
    refine hT.step_some hO hact (life_custody hc) fun d hd => ?_
    obtain ⟨c', hc', rfl⟩ := Option.map_eq_some_iff.1 hd
    rcases authority_step h hc with ⟨d, hd, _, _, hq⟩ | ⟨q, ⟨d, hd, _, _, hq⟩, hshift⟩
    · rw [Option.mem_unique hc' hd, hq]
    · rw [Option.mem_unique hc' hd, hq]
      exact hshift.rank_le

/-! ## What the log says -/

def logged (s : Store) (e : ExecutionId) : Option ExecutionState :=
  (s.eventsOf e).getLast?.map fun r => r.payload.state

theorem logged_congr (h : s'.events = s.events) : s'.logged e = s.logged e := by
  rw [logged, logged, eventsOf, eventsOf, h]

theorem logged_append (s : Store) (event : ExecutionEvent) :
    (s.append event).2.logged e = if event.executionId = e then some event.state else s.logged e := by
  rw [logged, eventsOf, events_append, List.filter_append]
  by_cases he : event.executionId = e
  · simp [he]
  · simp [he, logged, eventsOf]

/-- What a call says about `e`. -/
inductive Told (s : Store) (e : ExecutionId) (s' : Store) : Prop
  /-- Nothing, and the state stays. -/
  | silent (log : s'.logged e = s.logged e) (state : s'.stateOf e = s.stateOf e)
  /-- The state it is in afterwards. -/
  | told {st} (log : s'.logged e = some st) (state : s'.stateOf e = some st)
  /-- Nothing, though it is assigned to a worker. -/
  | granted (log : s'.logged e = s.logged e) (queued : s.stateOf e = some .queued)
      (state : s'.stateOf e = some .workerAssigned)

variable {event : ExecutionEvent}

theorem told_put (row' : ExecutionRow) (hlog : s'.events = (append s event).2.events)
    (hx : s'.executions = s.executions.put row')
    (hid : event.executionId = row'.id) (hstate : event.state = row'.state) : Told s e s' := by
  have hlogged : s'.logged e = if event.executionId = e then some event.state else s.logged e := by
    rw [logged_congr hlog, logged_append]
  by_cases he : row'.id = e
  · refine .told (?_ : _ = some row'.state) ?_
    · rw [hlogged, hid, if_pos he, hstate]
    · rw [stateOf, hx, Table.find?_put, if_pos he]
      rfl
  · refine .silent ?_ ?_
    · rw [hlogged, hid, if_neg he]
    · rw [stateOf, hx, Table.find?_put, if_neg he, stateOf]

/-- A finalization says what it does to the row of its attempt. -/
theorem told_finalizeCleanup {a : AttemptId} {r : LostWorkerRecovery} {id : ExecutionId}
    (h : finalizeCleanup now id a s = .ok (r, s')) (htied : ∀ e, (s.life e).Tied) : Told s e s' := by
  obtain ⟨_, _, _, _, _, _, _, rfl⟩ | ⟨row, c, t, hg, _, hfin⟩ := finalizeCleanup_spec h
  · exact .silent rfl rfl
  obtain rfl : row.id = _ := execution_id hg.found
  obtain rfl : t.attemptId = _ := attempt_id hg.attempt
  -- the attempt is the row's own
  have hcurrent : row.attemptId = some t.attemptId := by
    rw [← life_current hg.found, ← hg.authorityAttempt]
    refine (htied row.id).kept _ ⟨t.workerId, t.finishedAt.isSome⟩ (life_custody hg.authority) ?_ ?_
    · exact (congrArg CleanupDisposition.rank hg.phase).trans_lt (by decide)
    · rw [hg.authorityAttempt]
      exact hg.attemptExecution ▸ life_attempt hg.attempt
  have hx : (s.finalized now row c t).executions =
      s.executions.put (detached now row (s.finalState row) (s.finalResult row)) := by
    rw [finalized, if_pos hcurrent]
  rcases hfin with ⟨hsame, rfl⟩ | ⟨kind, _, _, rfl⟩
  · refine .silent (logged_congr rfl) ?_
    rw [stateOf, hx, Table.find?_put, stateOf]
    split
    · rename_i he
      obtain rfl : row.id = e := he
      rw [hg.found]
      exact congrArg some hsame
    · rfl
  · exact told_put _ rfl hx rfl rfl

theorem told_committed {β : Type} {call : StoreCall β} (h : Committed now s call s')
    (htied : ∀ e, (s.life e).Tied) (hok : call.recorded = true) : Told s e s' := by
  have hfinal : call.concludes = true → Told s e s' := by
    intro hf
    cases h with
    | finalizeCleanup h => exact told_finalizeCleanup h htied
    | _ => cases hf
  cases writes_committed h with
  | nothing rows log =>
    refine .silent (logged_congr log) ?_
    rw [stateOf, rows, stateOf]
  | told _ put id state log => exact told_put _ log put id state
  | late => exact hfinal rfl
  | row hr put log untold =>
    cases hr with
    | inserted | moved => cases hok
    | detached => exact hfinal rfl
    | @claimed w a _ _ row hg =>
      have hstate : s'.stateOf e =
          if row.id = e then some .workerAssigned else s.stateOf e := by
        rw [stateOf, put, Table.find?_put]
        exact apply_ite _ _ _ _
      by_cases he : row.id = e
      · refine .granted (logged_congr log) ?_ (hstate.trans (if_pos he))
        rw [← he, stateOf, hg.found, Option.map_some, hg.queued]
      · exact .silent (logged_congr log) (hstate.trans (if_neg he))
    | _ => cases untold

/-- The log is right about `e`, or has not been told of its worker yet. -/
def Truthful (s : Store) (e : ExecutionId) : Prop :=
  ∀ st, s.stateOf e = some st →
    s.logged e = some st ∨ st = .workerAssigned ∧ s.logged e = some .queued

theorem Truthful.told (h : Truthful s e) (ht : Told s e s') : Truthful s' e := by
  intro st hst
  cases ht with
  | silent log state =>
    rw [log]
    exact h st (state ▸ hst)
  | told log state => exact .inl (log.trans (state.symm.trans hst))
  | granted log queued state =>
    obtain rfl := Option.mem_unique state hst
    rcases h _ queued with hlog | ⟨hne, _⟩
    · exact .inr ⟨rfl, log.trans hlog⟩
    · cases hne

theorem truthful_of_reaches (h : Reaches Orchestrator.Step recorded initial s) (e : ExecutionId) :
    Truthful s e := by
  let I (s : Store) : Prop := Reachable s ∧ (∀ e, (s.life e).Tied) ∧ Truthful s e
  refine (h.invariant (I := I) ?_ ⟨.refl, fun _ => Life.tied_unborn, nofun⟩).2.2
  rintro s l s' ⟨hreach, htied, htrue⟩ hok hst
  refine ⟨hreach.snoc trivial hst,
    fun e => tied_step (htied e) (orderly_of_reachable hreach e) hst, ?_⟩
  rcases hst.cases with rfl | hc
  · exact htrue
  · exact htrue.told (told_committed hc htied hok)

end Store

/-- In every database that any interleaving of calls produces, the last event of an execution carries
the state of its row, but for a grant: the row may say `WORKER_ASSIGNED` while the log says
`QUEUED`. -/
theorem log_tells_truth {s : Store} (h : Reaches Step recorded Store.initial s) {e : ExecutionId}
    {row : ExecutionRow} (hrow : s.executions.find? e = some row) :
    ∃ r, (s.eventsOf e).getLast? = some r ∧
      (r.payload.state = row.state ∨
        row.state = .workerAssigned ∧ r.payload.state = .queued) := by
  have hstate : s.stateOf e = some row.state := by rw [Store.stateOf, hrow, Option.map_some]
  rcases Store.truthful_of_reaches h e _ hstate with hlog | ⟨hassigned, hlog⟩
  · obtain ⟨r, hr, hst⟩ := Option.map_eq_some_iff.1 hlog
    exact ⟨r, hr, .inl hst⟩
  · obtain ⟨r, hr, hst⟩ := Option.map_eq_some_iff.1 hlog
    exact ⟨r, hr, .inr ⟨hassigned, hst⟩⟩

open Sample in
/-- Both cases: a granted execution, and one that is back in the queue. -/
theorem log_tells_truth_sample :
    (∃ row r, (after Store.initial assigned).executions.find? ⟨"e"⟩ = some row ∧
      row.state = .workerAssigned ∧
      ((after Store.initial assigned).eventsOf ⟨"e"⟩).getLast? = some r ∧
      r.payload.state = .queued) ∧
    ∃ row r, (after Store.initial (emptied ++ [finalizing])).executions.find? ⟨"e"⟩ = some row ∧
      ((after Store.initial (emptied ++ [finalizing])).eventsOf ⟨"e"⟩).getLast? = some r ∧
      r.payload.state = row.state := by
  have hlast : ((after Store.initial assigned).eventsOf ⟨"e"⟩).getLast?.map
      (fun r => r.payload.state) = some .queued := by decide
  obtain ⟨r, hr, hst⟩ := Option.map_eq_some_iff.1 hlast
  refine ⟨⟨_, r, (Option.some_get (by decide)).symm, by decide, hr, hst⟩, ?_⟩
  have hmet : allMet recorded Store.initial (emptied ++ [finalizing]) = true := by decide
  obtain ⟨r', hr', htrue⟩ := log_tells_truth (e := ⟨"e"⟩)
    (reaches_of_allMet hmet) (Option.some_get (by decide)).symm
  exact ⟨_, r', (Option.some_get (by decide)).symm, hr', htrue.resolve_right fun h => absurd h.1 (by decide)⟩

end Orchestrator
