import Mathlib.Algebra.Ring.Int.Defs
import Mathlib.Algebra.Group.Prod
import Orchestrator.Persistence.Proof.States

/-!
# Control requests along a run

A request is filed once, goes through its phases forwards, and is paid for by exactly one update of
its execution when it completes (`controls_applied_once`).
-/

namespace Orchestrator

open Relational Txn

/-- The phases a request may enter next. -/
def ControlPhase.next : ControlPhase → ControlPhase → Bool
  | accepted, applying | applying, sideEffectApplied | sideEffectApplied, completed => true
  | p, stale => p.pending
  | _, _ => false

@[simp] theorem ControlPhase.next_stale (p : ControlPhase) : p.next .stale = p.pending := by
  cases p <;> rfl

/-- The call belongs to the control protocol of request `r`. -/
def StoreCall.concerns {β : Type} (r : Nat) : StoreCall β → Bool
  | .requestControl .. => true
  | .beginControl q .. | .markControlSideEffectApplied q _ | .completeControl q .. => q = r
  | _ => false

/-- The call may complete a request. -/
def StoreCall.completing {β : Type} : StoreCall β → Bool
  | .completeControl .. => true
  | _ => false

/-- The call files a request, or records a side effect. -/
def StoreCall.shaping {β : Type} : StoreCall β → Bool
  | .requestControl .. | .markControlSideEffectApplied .. => true
  | _ => false

/-- Whoever applies the request to the state and session it was accepted for can complete it. -/
structure ControlRow.Sound (c : ControlRow) : Prop where
  allowed : c.action.allowedIn c.acceptedState = true
  target : c.action = .forkConversation → ∃ t, c.targetSessionId = some t ∧ t ≠ c.sourceSessionId
  applied : c.phase = .sideEffectApplied →
    ∃ t, c.expectedSession = .ok t ∧ c.sideEffectSessionId = some t

namespace Store

variable {s s' : Store} {now : Timestamp} {e : ExecutionId} {r : Nat} {c : ControlRow}

/-! ## One request -/

/-- Request identifiers come from the sequence, and a request is closed once it is settled. -/
structure Filed (s : Store) : Prop where
  numbered : ∀ r c, s.controls.find? r = some c → r ≤ s.controlSequence
  closed : ∀ r c, s.controls.find? r = some c → (c.completedAt = none ↔ c.phase.pending = true)

theorem staleControls_find? (s : Store) (now : Timestamp) (e : ExecutionId) (reason : String)
    (r : Nat) : (s.staleControls now e reason).controls.find? r =
      (s.controls.find? r).map fun c => if c.executionId = e && c.phase.pending then
        { c with phase := .stale, staleReason := some reason, completedAt := some now } else c := by
  simp [staleControls]

inductive Treats (now : Timestamp) (s : Store) (r : Nat) : {β : Type} → StoreCall β → Store → Prop
  | kept {β : Type} {call : StoreCall β} {s'} (same : s'.controls.find? r = s.controls.find? r) :
      Treats now s r call s'
  | accepted {e action key row c s'} (hg : Accept s now e action row c)
      (new : s.controls.find? r = none) (found : s'.controls.find? r = some c)
      (id : r = s'.controlSequence) : Treats now s r (.requestControl e action key) s'
  | handled {β : Type} {call : StoreCall β} {s' c c'} (old : s.controls.find? r = some c)
      (found : s'.controls.find? r = some c') (hc : Handles now s c call c') : Treats now s r call s'
  | swept {β : Type} {call : StoreCall β} {s' c reason} (old : s.controls.find? r = some c)
      (pending : c.phase.pending = true)
      (found : s'.controls.find? r = some
        { c with phase := .stale, staleReason := some reason, completedAt := some now }) :
      Treats now s r call s'

variable {β : Type} {c' : ControlRow} {l : Label} {ok : Store → Label → Prop} {call : StoreCall β}

theorem treats_of_swept {reason : String}
    (h : s'.controls = (s.staleControls now e reason).controls) : Treats now s r call s' := by
  have hfind := staleControls_find? s now e reason r
  rw [← h] at hfind
  cases hc : s.controls.find? r with
  | none =>
    rw [hc] at hfind
    exact .kept (hfind.trans hc.symm)
  | some c =>
    rw [hc, Option.map_some] at hfind
    split at hfind
    · rename_i hp
      exact .swept hc (Bool.and_eq_true_iff.1 hp).2 hfind
    · exact .kept (hfind.trans hc.symm)

theorem Handles.requestId (h : Handles now s c call c') : c'.requestId = c.requestId := by
  cases h <;> rfl

theorem Handles.executionId (h : Handles now s c call c') : c'.executionId = c.executionId := by
  cases h <;> rfl

theorem Handles.phase
    (h : Handles now s c call c') : c'.phase = c.phase ∨ c.phase.next c'.phase = true := by
  cases h with
  | begun phase | applied phase => rw [phase]; exact .inr rfl
  | overtaken _ pending _ | unapplied pending _ => exact .inr (c.phase.next_stale.trans pending)
  | uncompleted unfinished _ =>
    simp only [ControlPhase.next_stale]
    cases hp : c.phase with
    | completed => exact absurd hp unfinished
    | stale => exact .inl rfl
    | _ => exact .inr rfl
  | completed hg => rw [hg.applied]; exact .inr rfl

theorem Handles.completing
    (h : Handles now s c call c') (hc : c'.phase = .completed) : call.completing = true := by
  cases h with
  | completed => rfl
  | _ => cases hc

theorem Handles.closed
    (h : Handles now s c call c') (hc : c.completedAt = none ↔ c.phase.pending = true) :
    c'.completedAt = none ↔ c'.phase.pending = true := by
  cases h with
  | begun phase | applied phase =>
    refine ⟨fun _ => rfl, fun _ => hc.2 ?_⟩
    rw [phase]
    rfl
  | _ => exact ⟨nofun, nofun⟩

theorem treats_of_put (found : s.controls.find? c.requestId = some c)
    (hc : Handles now s c call c') (hs : s'.controls = s.controls.put c') :
    Treats now s r call s' := by
  by_cases hr : c'.requestId = r
  · obtain rfl : c.requestId = r := hc.requestId.symm.trans hr
    exact .handled found (by simp [hs, hr]) hc
  · exact .kept (by simp [hs, hr])

theorem treats_committed (hf : s.Filed)
    (h : Committed now s call s') (r : Nat) : Treats now s r call s' := by
  cases controls_committed h with
  | kept _ controls _ => exact .kept (by rw [controls])
  | @accepted _ _ _ _ c hg =>
    by_cases hr : c.requestId = r
    · refine .accepted hg ?_ (by simp [hr]) (hr.symm.trans hg.requestId)
      cases hold : s.controls.find? r with
      | none => rfl
      | some d =>
        have hle := hf.numbered r d hold
        rw [← hr, hg.requestId] at hle
        omega
    · exact .kept (by simp [hr])
  | handled found hc _ _ controls _ => exact treats_of_put found hc controls
  | completed hg _ controls _ => exact treats_of_put hg.control (.completed hg) controls
  | cancelled controls _ | ended _ controls _ => exact treats_of_swept controls

theorem numbered_committed (h : Committed now s call s') :
    s.controlSequence ≤ s'.controlSequence := by
  cases controls_committed h with
  | accepted => exact Nat.le_succ _
  | kept _ _ ids | handled _ _ _ _ _ ids | completed _ _ _ ids | cancelled _ ids | ended _ _ ids => exact ids.ge

theorem Filed.committed (hf : s.Filed) (h : Committed now s call s') : s'.Filed := by
  have hle := numbered_committed h
  refine ⟨fun r c hc => ?_, fun r c hc => ?_⟩
  · cases treats_committed hf h r with
    | kept same => exact (hf.numbered r c (same ▸ hc)).trans hle
    | accepted _ _ _ id => exact id.le
    | handled old | swept old => exact (hf.numbered r _ old).trans hle
  · cases treats_committed hf h r with
    | kept same => exact hf.closed r c (same ▸ hc)
    | accepted hg _ found _ =>
      obtain rfl := Option.mem_unique hc found
      exact ⟨fun _ => by rw [hg.phase]; rfl, fun _ => hg.open_⟩
    | handled old found hh =>
      obtain rfl := Option.mem_unique hc found
      exact hh.closed (hf.closed r _ old)
    | swept _ _ found =>
      obtain rfl := Option.mem_unique hc found
      exact ⟨nofun, nofun⟩

theorem Filed.step (hf : s.Filed) (h : Orchestrator.Step s l s') : s'.Filed := by
  rcases h.cases with rfl | hc
  · exact hf
  · exact hf.committed hc

theorem filed_initial : initial.Filed := by
  constructor <;> intro r c hc <;> simp [initial] at hc

theorem filed_of_run (h : Reaches Orchestrator.Step ok initial s) : s.Filed :=
  Reaches.invariant (fun _ _ _ hf _ hst => hf.step hst) h filed_initial

theorem phase_step (hf : s.Filed) (h : Orchestrator.Step s l s')
    (hc : s.controls.find? r = some c) : ∃ c', s'.controls.find? r = some c' ∧
      c'.executionId = c.executionId ∧ (c'.phase = c.phase ∨ c.phase.next c'.phase = true) := by
  obtain ⟨β, call, now⟩ := l
  rcases h.cases with rfl | hcom
  · exact ⟨c, hc, rfl, .inl rfl⟩
  cases treats_committed hf hcom r with
  | kept same => exact ⟨c, same.trans hc, rfl, .inl rfl⟩
  | accepted _ new => cases hc.symm.trans new
  | handled old found hh =>
    obtain rfl := Option.mem_unique hc old
    exact ⟨_, found, hh.executionId, hh.phase⟩
  | swept old pending found =>
    obtain rfl := Option.mem_unique hc old
    exact ⟨_, found, rfl, .inr (c.phase.next_stale.trans pending)⟩

theorem settled_run (hf : s.Filed)
    (hc : s.controls.find? r = some c) (hdone : c.phase.pending = false)
    (h : Reaches Orchestrator.Step ok s s') :
    ∃ c', s'.controls.find? r = some c' ∧ c'.phase = c.phase := by
  refine (Reaches.invariant (I := fun t => t.Filed ∧ ∃ c', t.controls.find? r = some c' ∧
    c'.phase = c.phase) ?_ h ⟨hf, c, hc, rfl⟩).2
  rintro t l t' ⟨hft, c', hc', hsame⟩ _ hst
  obtain ⟨c'', hc'', _, hph | hnext⟩ := phase_step hft hst hc'
  · exact ⟨hft.step hst, c'', hc'', hph.trans hsame⟩
  · -- no phase follows a final one
    rw [hsame] at hnext
    revert hnext hdone
    cases c.phase <;> cases c''.phase <;> nofun

/-! ## Requests that can be applied -/

/-- Every request can be applied. -/
def Applicable (s : Store) : Prop := ∀ r c, s.controls.find? r = some c → c.Sound

/-- The name of a fork's session is longer than the one it is derived from. -/
theorem fork_ne (session : SessionId) (n : Nat) : (⟨s!"{session}-fork-{n}"⟩ : SessionId) ≠ session := by
  intro h
  have hlen := congrArg (fun id : SessionId => id.value.length) h
  have hfork : "-fork-".length = 6 := by decide
  simp [toString] at hlen
  omega

theorem requestControl_applicable {action : ExecutionControlAction} {key : String}
    {reply : IdempotentExecutionControl} (hs : s.Applicable)
    (h : requestControl now e action key s = .ok (reply, s')) : s'.Applicable := by
  simp only [requestControl, bind_eq_ok, require_eq_ok, ensure_eq_ok] at h
  obtain ⟨_, _, row, hrow, h⟩ := h
  split at h
  · simp only [bind_eq_ok, ensure_eq_ok, pure_eq_ok, Prod.mk.injEq] at h
    obtain ⟨_, _, _, rfl⟩ := h
    exact hs
  · simp only [bind_eq_ok, require_eq_ok, ensure_eq_ok, pure_eq_ok, Prod.mk.injEq] at h
    obtain ⟨_, _, _, _, p, _, _, hallowed, _, _, _, _, _, _, _, rfl⟩ := h
    intro r c hc
    rcases Table.find?_put_eq_some.1 hc with ⟨_, rfl⟩ | ⟨_, hc⟩
    · refine ⟨hallowed, fun hfork => ?_, by simp⟩
      exact ⟨_, if_pos hfork, fork_ne _ _⟩
    · exact hs r c hc

theorem markControl_applicable {session : Option SessionId} {reply : Except StoreError Unit}
    (hs : s.Applicable) (h : markControlSideEffectApplied now r session s = .ok (reply, s')) :
    s'.Applicable := by
  obtain ⟨c, hc, rfl | ⟨_, _, _, rfl⟩ | ⟨t, _, _, hexp, rfl⟩⟩ := markControl_spec h
  · exact hs
  all_goals
    intro q d hd
    rcases Table.find?_put_eq_some.1 hd with ⟨_, rfl⟩ | ⟨_, hd⟩
  · exact ⟨(hs r c hc).allowed, (hs r c hc).target, by simp⟩
  · exact hs q d hd
  · exact ⟨(hs r c hc).allowed, (hs r c hc).target, fun _ => ⟨t, hexp, rfl⟩⟩
  · exact hs q d hd

theorem Handles.sound
    (h : Handles now s c call c') (hcall : call.shaping = false) (hc : c.Sound) : c'.Sound := by
  cases h with
  | applied => cases hcall
  | _ => exact ⟨hc.allowed, hc.target, fun hph => nomatch hph⟩

theorem Applicable.committed (hs : s.Applicable) (hf : s.Filed)
    (h : Committed now s call s') : s'.Applicable := by
  have htreats := treats_committed hf h
  have hrest : call.shaping = false → s'.Applicable := by
    intro hcall r c hc
    cases htreats r with
    | kept same => exact hs r c (same ▸ hc)
    | accepted => cases hcall
    | handled old found hh =>
      obtain rfl := Option.mem_unique hc found
      exact hh.sound hcall (hs r _ old)
    | swept old _ found =>
      obtain rfl := Option.mem_unique hc found
      exact ⟨(hs r _ old).allowed, (hs r _ old).target, fun hph => nomatch hph⟩
  cases h with
  | requestControl h => exact requestControl_applicable hs h
  | markControlSideEffectApplied h => exact markControl_applicable hs h
  | _ => exact hrest rfl

theorem Applicable.step (hs : s.Applicable) (hf : s.Filed)
    (h : Orchestrator.Step s l s') : s'.Applicable := by
  rcases h.cases with rfl | hc
  · exact hs
  · exact hs.committed hf hc

theorem applicable_of_run (h : Reaches Orchestrator.Step ok initial s) : s.Applicable := by
  have hboth : s.Filed ∧ s.Applicable :=
    Reaches.invariant (I := fun s => s.Filed ∧ s.Applicable)
      (fun _ _ _ hs _ hst => ⟨hs.1.step hst, hs.2.step hs.1 hst⟩) h
      ⟨filed_initial, fun _ _ hc => by simp [initial] at hc⟩
  exact hboth.2

/-! ## What a request costs -/

/-- Version and number of events of `e`. -/
def ledger (s : Store) (e : ExecutionId) : ℤ × ℤ :=
  (((s.executions.find? e).elim 0 fun row => row.version : ℕ), (s.eventsOf e).length)

/-- By how much call `l` moves the version and the number of events of `e`, if it belongs to the
protocol of request `r`. -/
def spent (r : Nat) (e : ExecutionId) (s : Store) (l : Label) : ℤ × ℤ :=
  if l.call.concerns r then (l.call.exec l.now s).2.ledger e - s.ledger e else 0

/-- The same for the calls `ls`, made in order. -/
def caused (r : Nat) (e : ExecutionId) : Store → List Label → ℤ × ℤ
  | _, [] => 0
  | s, l :: ls => spent r e s l + caused r e (l.call.exec l.now s).2 ls

theorem caused_snoc (r : Nat) (e : ExecutionId) (s : Store) (ls : List Label) (l : Label) :
    caused r e s (ls ++ [l]) = caused r e s ls + spent r e (after s ls) l := by
  induction ls generalizing s with
  | nil => simp [caused, after]
  | cons x ls ih =>
    rw [List.cons_append, caused, caused, ih, add_assoc]
    rfl

/-- What request `r` is entitled to: one update of its own execution once it is completed. -/
def due (s : Store) (r : Nat) (e : ExecutionId) : ℤ × ℤ :=
  if (s.controls.find? r).any fun c => c.executionId = e && c.phase = .completed then (1, 1) else 0

theorem due_eq (hc : s.controls.find? r = some c) :
    s.due r e = if c.executionId = e ∧ c.phase = .completed then (1, 1) else 0 := by
  simp [due, hc]

theorem due_none (hc : s.controls.find? r = none) : s.due r e = 0 := by
  simp [due, hc]

theorem ledger_congr (hx : s'.executions = s.executions) (hv : s'.events = s.events) :
    s'.ledger e = s.ledger e := by
  rw [ledger, ledger, eventsOf, eventsOf, hx, hv]

theorem ledger_completed {requestId : Nat} {x : Execution} {event : ExecutionEvent}
    {row : ExecutionRow} (hg : Complete s requestId x event row c) :
    ((s.completed c row x).append event).2.ledger e =
      s.ledger e + if c.executionId = e then (1, 1) else 0 := by
  have hid : row.id = x.id := execution_id hg.found
  obtain ⟨_, _, hevents⟩ := eventsOf_append (e := e) (s.completed c row x) event
  have hother : (s.completed c row x).eventsOf e = s.eventsOf e := rfl
  have hrow : ((s.completed c row x).append event).2.executions.find? e =
      if x.id = e then some (controlled row x) else s.executions.find? e := by
    simp [append, completed, controlled, hid]
  rw [ledger, ledger, hevents, hother, hrow, hg.published.1, hg.ownedBy]
  split
  · rename_i he
    rw [← he, hg.found]
    simp [controlled]
  · simp

theorem due_eq_zero (hc : s.controls.find? r = some c) (hph : c.phase ≠ .completed) :
    s.due r e = 0 := by
  rw [due_eq hc, if_neg fun h => hph h.2]

theorem ne_completed_of_pending (h : c.phase.pending = true) : c.phase ≠ .completed := by
  intro hc
  rw [hc] at h
  cases h

theorem due_kept (h : Treats now s r call s')
    (hcall : call.completing = false) : s'.due r e = s.due r e := by
  cases h with
  | kept same => rw [due, due, same]
  | accepted hg new found _ => rw [due_none new, due_eq_zero found (by rw [hg.phase]; nofun)]
  | @handled _ _ _ c c' old found hh =>
    have hc' : c'.phase ≠ .completed := fun hc' => by cases hcall.symm.trans (hh.completing hc')
    have hc : c.phase ≠ .completed := by
      intro hc
      rcases hh.phase with hsame | hnext
      · exact hc' (hsame.trans hc)
      · rw [hc] at hnext
        cases hp : c'.phase <;> rw [hp] at hnext <;> cases hnext
    rw [due_eq_zero old hc, due_eq_zero found hc']
  | swept old pending found =>
    rw [due_eq_zero old (ne_completed_of_pending pending), due_eq_zero found nofun]

theorem due_completeControl {q : Nat} {x : Execution} {event : ExecutionEvent}
    {reply : Except StoreError (Option Nat)}
    (h : completeControl now q x event s = .ok (reply, s')) :
    s'.due r e = s.due r e + if q = r then s'.ledger e - s.ledger e else 0 := by
  have hsame : s'.due r e = s.due r e → s'.ledger e = s.ledger e →
      s'.due r e = s.due r e + if q = r then s'.ledger e - s.ledger e else 0 := by
    intro hdue hledger
    rw [hdue, hledger, sub_self, ite_self, add_zero]
  rcases completeControl_spec h with rfl | ⟨c, reason, hc, hph, _, rfl⟩ | ⟨row, c, hg, rfl⟩
  · exact hsame rfl rfl
  · refine hsame ?_ rfl
    have hid : c.requestId = q := control_id hc
    by_cases hr : q = r
    · subst hr
      have hstale : (s.staleControl now c reason).controls.find? q =
          some { c with phase := .stale, staleReason := some reason, completedAt := some now } := by
        simp [staleControl, hid]
      rw [due_eq_zero hc hph, due_eq_zero hstale (by simp)]
    · simp [due, staleControl, hid, hr]
  · have hid : c.requestId = q := control_id hg.control
    by_cases hr : q = r
    · subst hr
      have hdone : ((s.completed c row x).append event).2.controls.find? q =
          some { c with phase := .completed, completedAt := some x.updatedAt } := by
        simp [append, completed, hid]
      rw [if_pos rfl, ledger_completed hg, add_sub_cancel_left, due_eq hdone,
        due_eq_zero hg.control (by simp [hg.applied]), zero_add]
      simp only [and_true]
    · rw [if_neg hr, add_zero]
      simp [due, append, completed, hid, hr]

theorem due_committed (hf : s.Filed) (h : Committed now s call s') :
    s'.due r e = s.due r e + if call.concerns r then s'.ledger e - s.ledger e else 0 := by
  have hframe := h.frame
  have htreats := treats_committed hf h r
  -- a call of the protocol that leaves executions and events alone
  have hfree : .executions ∉ call.writes → .events ∉ call.writes →
      s'.due r e = s.due r e → s'.due r e = s.due r e +
        if call.concerns r then s'.ledger e - s.ledger e else 0 := by
    intro hx hv hdue
    rw [hdue, ledger_congr (hframe.executions hx) (hframe.events hv), sub_self, ite_self, add_zero]
  cases h with
  | completeControl h => simpa [StoreCall.concerns] using due_completeControl h
  | requestControl | beginControl | markControlSideEffectApplied =>
    exact hfree (by simp [StoreCall.writes]) (by simp [StoreCall.writes])
      (due_kept htreats rfl)
  | _ =>
    rw [due_kept htreats rfl]
    simp [StoreCall.concerns]

theorem due_step (hf : s.Filed) : (l.call.exec l.now s).2.due r e = s.due r e + spent r e s l := by
  have hst : Orchestrator.Step s l (l.call.exec l.now s).2 := rfl
  rcases hst.cases with heq | hc
  · simp [spent, heq]
  · exact due_committed hf hc

theorem caused_eq_due (r : Nat) (e : ExecutionId) (ls : List Label) :
    caused r e initial ls = (after initial ls).due r e := by
  induction ls using List.reverseRecOn with
  | nil => rw [caused, due_none (by simp [after, initial])]
  | append_singleton ls l ih =>
    rw [caused_snoc, ih, ← due_step (filed_of_run (reachable_after ls))]
    exact congrArg (fun t => due t r e) (step_after initial ls l)

end Store

open Store

/-- Control requests are applied at most once. In whatever order calls are made, and made again: the
phase of a request stays or goes one step forward, `COMPLETED` and `STALE` are final, and the calls
made for the request have, taken together, added one version and one event to its execution if it is
completed, and nothing otherwise, nor anything to another execution. -/
theorem controls_applied_once (ls : List Label) (r : Nat) (c : ControlRow)
    (hc : (after initial ls).controls.find? r = some c) :
    (∀ l s', Step (after initial ls) l s' → ∃ c', s'.controls.find? r = some c' ∧
      c'.executionId = c.executionId ∧ (c'.phase = c.phase ∨ c.phase.next c'.phase = true)) ∧
    (c.phase = .completed ∨ c.phase = .stale → ∀ s', Reaches Step anyCall (after initial ls) s' →
      ∃ c', s'.controls.find? r = some c' ∧ c'.phase = c.phase) ∧
    ∀ e, caused r e initial ls =
      if c.executionId = e ∧ c.phase = .completed then (1, 1) else (0, 0) := by
  have hf := filed_of_run (reachable_after ls)
  refine ⟨fun l s' hst => phase_step hf hst hc, fun hdone s' hrun => settled_run hf hc ?_ hrun,
    fun e => (caused_eq_due r e ls).trans (due_eq hc)⟩
  rcases hdone with h | h <;> rw [h] <;> rfl

namespace Sample

def running : List Label :=
  let provisioning := inState .provisioning none
  let started := inState .running (some ⟨"session"⟩)
  assigned ++
    [⟨_, .begin ⟨"e"⟩ ⟨"a"⟩ ⟨"w"⟩, 2⟩,
      ⟨_, .recordProgress provisioning (eventOf provisioning .environmentReady) false, 3⟩,
      ⟨_, .recordProgress started (eventOf started (.agentStarted ⟨"session"⟩)) false, 4⟩]

def pausing (r : Nat) (now : Timestamp) : List Label :=
  let stopped := inState .pausedForHuman (some ⟨"session"⟩)
  [⟨_, .beginControl r ⟨"w"⟩ ⟨"a"⟩, now⟩, ⟨_, .markControlSideEffectApplied r none, now⟩,
    ⟨_, .completeControl r stopped (eventOf stopped .executionPaused), now⟩]

end Sample

open Sample in
theorem controls_applied_once_sample :
    let ls := Sample.running ++ [⟨_, .requestControl ⟨"e"⟩ .pause "pause", 5⟩] ++ pausing 1 6 ++ pausing 1 7
    (∃ c, (after initial ls).controls.find? 1 = some c ∧ c.phase = .completed) ∧
      caused 1 ⟨"e"⟩ initial ls = (1, 1) := by
  intro ls
  have hc : ((after initial ls).controls.find? 1).map (fun c => (c.executionId, c.phase)) =
      some (⟨"e"⟩, .completed) := by decide
  obtain ⟨c, hfind, hx⟩ := Option.map_eq_some_iff.1 hc
  obtain ⟨he, hph⟩ := Prod.mk.inj hx
  refine ⟨⟨c, hfind, hph⟩, ?_⟩
  rw [(controls_applied_once ls 1 c hfind).2.2 ⟨"e"⟩, if_pos ⟨he, hph⟩]

end Orchestrator
