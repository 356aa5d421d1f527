import Orchestrator.Persistence.Proof.Phases
import Orchestrator.Worker.Run

/-!
# The custody of an execution

Which phase the cleanup authority of an execution is in and which handles it records is changed by
its own worker alone. What every other call may do is `Calm`: open an authority without handles, or
move it among the phases in which nothing has been removed yet, with its handles kept. `Others` says
the same of a whole world: nobody else touches what the worker's host holds of the execution.
-/

namespace Orchestrator

open Relational Store

/-- Phase and handles of the authority of `e`. -/
def Store.custody (s : Store) (e : ExecutionId) : Option (CleanupDisposition × CleanupHandles) :=
  (s.authorities.find? e).map fun c => (c.phase, c.handles)

/-- What others may do to an authority. -/
inductive Calm : Option (CleanupDisposition × CleanupHandles) →
    Option (CleanupDisposition × CleanupHandles) → Prop
  | same {c} : Calm c c
  | opened {d} (hd : d.cleaning = false) : Calm none (some (d, {}))
  | moved {d d' h} (hd : d.cleaning = false) (hd' : d'.cleaning = false) :
      Calm (some (d, h)) (some (d', h))

variable {s s' : Store} {e : ExecutionId} {now : Timestamp}

variable {β : Type} {c : CleanupAuthority} {id : ExecutionId} {r : Bool} {w w' : World} {b : β}

theorem custody_of_find (h : s.authorities.find? e = some c) :
    s.custody e = some (c.phase, c.handles) := by
  rw [custody, h]
  rfl

theorem custody_put (h : s'.authorities = s.authorities.put c) :
    s'.custody e = if c.executionId = e then some (c.phase, c.handles) else s.custody e := by
  rw [custody, h, Table.find?_put]
  split <;> rfl

/-! ## Calls of others -/

theorem StoreCall.Shifts.calm {call : StoreCall β} {p q : CleanupDisposition}
    (h : call.Shifts e p q) (hw : call.works e = false) : p.cleaning = false ∧ q.cleaning = false := by
  cases call
  case transitionCleanup | fenceForCleanup | finalizeCleanup | resolve =>
    exact absurd h.1 (of_decide_eq_false hw)
  case fenceLostAttempt =>
    obtain ⟨_, hp, rfl⟩ := h
    exact ⟨hp, rfl⟩
  case recoverUnreachable =>
    obtain ⟨hp, rfl⟩ := h
    exact ⟨hp, rfl⟩
  case recordProgress | commitRetainedAndReleaseCapacity =>
    obtain ⟨_, rfl, rfl⟩ := h
    exact ⟨rfl, rfl⟩
  all_goals exact h.elim

theorem calm_committed {call : StoreCall β} (h : Committed now s call s')
    (hw : call.works e = false) : Calm (s.custody e) (s'.custody e) := by
  have hturn := turn_committed h e
  unfold custody
  generalize s.authorities.find? e = x at hturn
  generalize s'.authorities.find? e = y at hturn
  cases hturn with
  | same => exact .same
  | opened hhandles hphase =>
    simp only [Option.map_none, Option.map_some, hhandles]
    rcases hphase with hphase | hphase <;> rw [hphase] <;> exact .opened rfl
  | moved _ hhandles hphase =>
    simp only [Option.map_some, hhandles hw]
    rcases hphase with hphase | hphase
    · rw [hphase]
      exact .same
    · exact .moved (hphase.calm hw).1 (hphase.calm hw).2

/-! ## Names -/

/-- The execution exists and its labels name it. -/
def Named (e : ExecutionId) (s : Store) : Prop :=
  ∃ row, s.executions.find? e = some row ∧ row.labels.executionId = e

theorem named_committed {call : StoreCall β} (h : Committed now s call s')
    (hn : Named e s) : Named e s' := by
  obtain ⟨old, hold, hlabel⟩ := hn
  rcases row_committed h e with hsame | ⟨row, hrow, hrew⟩
  · exact ⟨old, hsame.trans hold, hlabel⟩
  · exact ⟨row, hrow, (hrew.over hold).2.2.trans hlabel⟩

/-! ## Worlds -/

/-- What everybody but the worker of `e` may do. -/
structure Others (e : ExecutionId) (w w' : World) : Prop where
  storage : w'.storage e = w.storage e
  runtime : w'.runtime e = w.runtime e
  custody : Calm (w.store.custody e) (w'.store.custody e)
  named : Named e w.store → Named e w'.store

/-- Calls that leave `e` to others. -/
def WorkerCall.calm {β : Type} (e : ExecutionId) : WorkerCall β → Prop
  | .store c _ => c.works e = false
  | .storage id _ | .runtime id _ => id ≠ e
  | .agent _ => True

theorem does_store {c : StoreCall β} (h : (WorkerCall.store c r).Does w b w') :
    ∃ s', w' = { w with store := s' } ∧
      (s' = w.store ∨ ∃ now, Committed now w.store c s') := by
  have hstep : ∀ now, (c.exec now w.store).2 = w.store ∨
      ∃ now', Committed now' w.store c (c.exec now w.store).2 := fun now =>
    (Step.cases (l := ⟨β, c, now⟩) rfl).imp_right fun hc => ⟨now, hc⟩
  obtain ⟨now, ⟨_, rfl⟩ | ⟨_, _, rfl | rfl⟩⟩ := h
  · exact ⟨_, rfl, hstep now⟩
  · exact ⟨_, rfl, .inl rfl⟩
  · exact ⟨_, rfl, hstep now⟩

theorem named_store {c : StoreCall β}
    (h : (WorkerCall.store c r).Does w b w') (hn : Named e w.store) : Named e w'.store := by
  obtain ⟨s', rfl, rfl | ⟨now, hc⟩⟩ := does_store h
  · exact hn
  · exact named_committed hc hn

theorem others_of_calm {c : WorkerCall β} (hc : c.calm e) (h : c.Does w b w') : Others e w w' := by
  cases c with
  | store c r =>
    refine ⟨?_, ?_, ?_, named_store h⟩ <;> obtain ⟨s', rfl, hs⟩ := does_store h
    · rfl
    · rfl
    · rcases hs with rfl | ⟨now, hcom⟩
      · exact .same
      · exact calm_committed hcom hc
  | storage id c =>
    obtain ⟨a, _, rfl⟩ := h
    exact ⟨Function.update_of_ne (Ne.symm hc) _ _, rfl, .same, fun hn => hn⟩
  | runtime id op =>
    obtain ⟨r, _, rfl⟩ := h
    exact ⟨rfl, Function.update_of_ne (Ne.symm hc) _ _, .same, fun hn => hn⟩
  | agent c =>
    obtain rfl : w' = w := h
    exact ⟨rfl, rfl, .same, fun hn => hn⟩

/-! ## Calls of the worker's own cleanup -/

theorem does_run {α : Type} {c : StoreCall (Except StoreError α)}
    {tx : Timestamp → Transaction α} (hexec : ∀ now s, c.exec now s = Txn.run (tx now) s)
    (hfail : ∀ e, c.failed e = .error e) {b : Except StoreError α}
    (h : (WorkerCall.store c r).Does w b w') :
    ∃ s', w' = { w with store := s' } ∧
      ((∃ now a, tx now w.store = .ok (a, s')) ∨ s' = w.store ∧ ∃ err, b = .error err) := by
  obtain ⟨now, ⟨rfl, rfl⟩ | ⟨err, rfl, rfl | rfl⟩⟩ := h
  · refine ⟨_, rfl, ?_⟩
    rw [hexec]
    unfold Txn.run
    cases htx : tx now w.store with
    | ok x => exact .inl ⟨now, x.1, htx⟩
    | error err => exact .inr ⟨rfl, err, rfl⟩
  · exact ⟨_, rfl, .inr ⟨rfl, err, hfail err⟩⟩
  · refine ⟨_, rfl, ?_⟩
    rw [hexec]
    rcases Txn.run_state (f := tx now) (s := w.store) rfl with hs | ⟨a, ha⟩
    · exact .inr ⟨hs, err, hfail err⟩
    · exact .inl ⟨now, a, ha⟩

section Works
variable {w w' : World} {expected next : CleanupDisposition} {handles : CleanupHandles}

theorem does_transitionCleanup {b : Except StoreError Unit}
    (h : (WorkerCall.store (.transitionCleanup e expected next handles) false).Does w b w') :
    ∃ s', w' = { w with store := s' } ∧
      ((∃ d g, w.store.custody e = some (d, g) ∧ (d = expected ∨ d = next) ∧
          s'.custody e = some (next, handles)) ∨ s' = w.store ∧ ∃ err, b = .error err) := by
  obtain ⟨s', hw, ⟨now, _, htx⟩ | herr⟩ := does_run (fun _ _ => rfl) (fun _ => rfl) h
  · refine ⟨s', hw, .inl ?_⟩
    obtain ⟨_, c, hc, hph, rfl⟩ := transitionCleanup_spec htx
    have hid : c.executionId = e := authority_id hc
    exact ⟨_, _, custody_of_find hc, hph, (custody_put rfl).trans (if_pos hid)⟩
  · exact ⟨s', hw, .inr herr⟩

theorem does_fenceForCleanup {b : Except StoreError Unit}
    (h : (WorkerCall.store (.fenceForCleanup e handles) false).Does w b w') :
    ∃ s', w' = { w with store := s' } ∧
      ((∃ d g, w.store.custody e = some (d, g) ∧ d.cleaning = false ∧
          s'.custody e = some (.cleanupPending, handles)) ∨
        s' = w.store ∧ ∃ err, b = .error err) := by
  obtain ⟨s', hw, ⟨now, _, htx⟩ | herr⟩ := does_run (fun _ _ => rfl) (fun _ => rfl) h
  · refine ⟨s', hw, .inl ?_⟩
    obtain ⟨c, _, _, hc, _, _, _, _, hph, rfl⟩ := fenceForCleanup_spec htx
    have hid : c.executionId = e := authority_id hc
    exact ⟨_, _, custody_of_find hc, hph, (custody_put rfl).trans (if_pos hid)⟩
  · exact ⟨s', hw, .inr herr⟩

end Works

end Orchestrator
