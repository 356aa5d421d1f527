import Orchestrator.Persistence.Proof.Capacity
import Orchestrator.Persistence.Proof.Lifecycle
import Orchestrator.Persistence.Proof.Rows

/-!
# Cleanup phases along a run

What the calls do to a cleanup authority. `turn_committed`: a committed call leaves an authority as it
is, opens one, or moves its phase as `StoreCall.Shifts` says, each statement under its own guard.
`rank` is the order in which a cleanup goes through its phases; that no run goes back in it, and that
nothing is skipped once cleanup is pending, are case analyses of `Shifts`.
-/

namespace Orchestrator

open Relational Txn

namespace CleanupDisposition

def rank : CleanupDisposition → Nat
  | active .reserved => 0
  | active .storage => 1
  | active .worktree => 2
  | active .runtime => 3
  | active .piStarted => 4
  | active .running => 5
  | active .postPiBeforeEvent => 6
  | retainRequested => 7
  | retained => 8
  | cleanupPending => 9
  | runtimeStopped => 10
  | runtimeDestroyed => 11
  | gitRecoveredCleaned => 12
  | storageReleased => 13
  | reservationReleased => 14
  | resolved => 15

theorem rank_of_canTransitionTo {p q : CleanupDisposition} (h : p.canTransitionTo q = true) :
    q.rank = p.rank + 1 := by
  unfold canTransitionTo at h
  split at h <;> first | rfl | cases h

theorem rank_le_of_not_cleaning {p : CleanupDisposition} (h : p.cleaning = false) :
    p.rank ≤ cleanupPending.rank := by
  cases p with
  | active stage => cases stage <;> decide
  | _ => first | decide | cases h

end CleanupDisposition

/-- How a call may move the phase of the authority of `e`. -/
def StoreCall.Shifts {β : Type} (e : ExecutionId) (p q : CleanupDisposition) : StoreCall β → Prop
  | .transitionCleanup id expected next _ => id = e ∧ p = expected ∧ q = next ∧
      p.canTransitionTo q = true
  | .fenceForCleanup id _ | .fenceLostAttempt id _ => id = e ∧ p.cleaning = false ∧
      q = .cleanupPending
  | .recoverUnreachable _ => p.cleaning = false ∧ q = .cleanupPending
  | .resolve id => id = e ∧ p = .reservationReleased ∧ q = .resolved
  | .recordProgress x .. => x.id = e ∧ p = .active .postPiBeforeEvent ∧ q = .retainRequested
  | .commitRetainedAndReleaseCapacity id _ => id = e ∧ p = .retainRequested ∧ q = .retained
  | .finalizeCleanup id _ => id = e ∧ p = .storageReleased ∧ q = .reservationReleased
  | _ => False

def StoreCall.Finalizes {β : Type} (e : ExecutionId) (a : AttemptId) : StoreCall β → Prop
  | .finalizeCleanup id b => id = e ∧ b = a
  | _ => False

/-- The call asks the state machine for `RESERVATION_RELEASED`. -/
def StoreCall.AsksReleased {β : Type} (e : ExecutionId) : StoreCall β → Prop
  | .transitionCleanup id _ next _ => id = e ∧ next = .reservationReleased
  | _ => False

/-- The calls by which a worker moves the cleanup of `e` on. -/
def StoreCall.works {β : Type} (e : ExecutionId) : StoreCall β → Bool
  | .transitionCleanup id _ _ _ | .fenceForCleanup id _ | .finalizeCleanup id _ | .resolve id => id = e
  | _ => false

/-- What a call may make of the authority of `e`. -/
inductive Turn {β : Type} (call : StoreCall β) (e : ExecutionId) :
    Option CleanupAuthority → Option CleanupAuthority → Prop
  | same {c} : Turn call e c c
  | opened {c} (handles : c.handles = {})
      (phase : c.phase = .active .reserved ∨ c.phase = .cleanupPending) : Turn call e none (some c)
  | moved {c c'} (owner : c'.attemptId = c.attemptId ∧ c'.workerId = c.workerId)
      (handles : call.works e = false → c'.handles = c.handles)
      (phase : c'.phase = c.phase ∨ call.Shifts e c.phase c'.phase) : Turn call e (some c) (some c')

namespace StoreCall

variable {β : Type} {call : StoreCall β} {e : ExecutionId} {p q : CleanupDisposition}

theorem Shifts.rank_le (h : call.Shifts e p q) : p.rank ≤ q.rank := by
  cases call
  case transitionCleanup =>
    rw [CleanupDisposition.rank_of_canTransitionTo h.2.2.2]
    omega
  case fenceForCleanup | fenceLostAttempt =>
    obtain ⟨_, hp, rfl⟩ := h
    exact CleanupDisposition.rank_le_of_not_cleaning hp
  case recoverUnreachable =>
    obtain ⟨hp, rfl⟩ := h
    exact CleanupDisposition.rank_le_of_not_cleaning hp
  case resolve | recordProgress | commitRetainedAndReleaseCapacity | finalizeCleanup =>
    obtain ⟨_, rfl, rfl⟩ := h
    decide
  all_goals exact h.elim

theorem Shifts.rank_le_succ (h : call.Shifts e p q)
    (hp : CleanupDisposition.cleanupPending.rank ≤ p.rank) : q.rank ≤ p.rank + 1 := by
  cases call
  case transitionCleanup => exact (CleanupDisposition.rank_of_canTransitionTo h.2.2.2).le
  case fenceForCleanup | fenceLostAttempt =>
    obtain ⟨_, _, rfl⟩ := h
    omega
  case recoverUnreachable =>
    obtain ⟨_, rfl⟩ := h
    omega
  case resolve | recordProgress | commitRetainedAndReleaseCapacity | finalizeCleanup =>
    obtain ⟨_, rfl, rfl⟩ := h
    decide
  all_goals exact h.elim

theorem Shifts.released (h : call.Shifts e p .reservationReleased) :
    (∃ a, call.Finalizes e a) ∨ call.AsksReleased e := by
  cases call
  case transitionCleanup => exact .inr ⟨h.1, h.2.2.1.symm⟩
  case finalizeCleanup id a => exact .inl ⟨a, h.1, rfl⟩
  case fenceForCleanup | fenceLostAttempt => cases h.2.2
  case recoverUnreachable => cases h.2
  case resolve | recordProgress | commitRetainedAndReleaseCapacity => cases h.2.2
  all_goals exact h.elim

end StoreCall

namespace Store

variable {s s' : Store} {now : Timestamp} {e : ExecutionId} {c : CleanupAuthority}

/-- The authority of `e` is still that of the same attempt and worker, and its phase is `q`. -/
def Holds (s : Store) (e : ExecutionId) (c : CleanupAuthority) (q : CleanupDisposition) : Prop :=
  ∃ c', s.authorities.find? e = some c' ∧ c'.attemptId = c.attemptId ∧ c'.workerId = c.workerId ∧
    c'.phase = q

theorem holds_self (hc : s.authorities.find? e = some c) : s.Holds e c c.phase :=
  ⟨c, hc, rfl, rfl, rfl⟩

variable {β : Type} {call : StoreCall β} {id : ExecutionId} {d d' : CleanupAuthority}

theorem turn_put (hd : s.authorities.find? id = some d)
    (hs : s'.authorities = s.authorities.put d')
    (hkey : d'.executionId = d.executionId ∧ d'.attemptId = d.attemptId ∧ d'.workerId = d.workerId)
    (hhandles : id = e → call.works e = false → d'.handles = d.handles)
    (hphase : id = e → d'.phase = d.phase ∨ call.Shifts e d.phase d'.phase) :
    Turn call e (s.authorities.find? e) (s'.authorities.find? e) := by
  have hid : d'.executionId = id := hkey.1.trans (authority_id hd)
  rw [hs, Table.find?_put, hid]
  split
  · next he =>
    subst he
    rw [hd]
    exact .moved hkey.2 (hhandles rfl) (hphase rfl)
  · exact .same

theorem turn_open (hnone : s.authorities.find? d.executionId = none)
    (hs : s'.authorities = s.authorities.put d) (hhandles : d.handles = {})
    (hphase : d.phase = .active .reserved ∨ d.phase = .cleanupPending) :
    Turn call e (s.authorities.find? e) (s'.authorities.find? e) := by
  rw [hs, Table.find?_put]
  split
  · next he =>
    rw [← he, hnone]
    exact .opened hhandles hphase
  · exact .same

theorem turn_pendCleanup {a : AttemptId} {w : WorkerId}
    (hshift : ∀ p, id = e → p.cleaning = false → call.Shifts e p .cleanupPending) :
    Turn call e (s.authorities.find? e) ((s.pendCleanup now id a w).authorities.find? e) := by
  cases hd : s.authorities.find? id with
  | none =>
    refine turn_open (d := ⟨id, a, w, .cleanupPending, {}, now⟩) hd ?_ rfl (.inr rfl)
    simp only [pendCleanup, hd]
  | some d =>
    by_cases hg : d.attemptId = a ∧ d.workerId = w ∧ !d.phase.cleaning
    · have hput : (s.pendCleanup now id a w).authorities =
          s.authorities.put { d with phase := .cleanupPending, updatedAt := now } := by
        simp only [pendCleanup, hd, if_pos hg]
      refine turn_put hd hput ⟨rfl, rfl, rfl⟩ (fun _ _ => rfl) fun he => ?_
      exact .inr (hshift _ he (by simpa using hg.2.2))
    · simp only [pendCleanup, hd, if_neg hg]
      exact .same

/-- Several attempts may be fenced in turn; the phase is `CLEANUP_PENDING` from the first fence on. -/
theorem turn_recoverUnreachable_trans {w : WorkerId} {x y z : Option CleanupAuthority}
    (h : Turn (.recoverUnreachable w) e x y) (h' : Turn (.recoverUnreachable w) e y z) :
    Turn (.recoverUnreachable w) e x z := by
  cases h' with
  | same => exact h
  | opened hhandles hphase =>
    cases h
    exact .opened hhandles hphase
  | moved howner hhandles hphase =>
    cases h with
    | same => exact .moved howner hhandles hphase
    | opened hhandles₀ hphase₀ =>
      refine .opened ((hhandles rfl).trans hhandles₀) ?_
      rcases hphase with hphase | ⟨_, hphase⟩
      · rwa [hphase]
      · exact .inr hphase
    | moved howner₀ hhandles₀ hphase₀ =>
      refine .moved ⟨howner.1.trans howner₀.1, howner.2.trans howner₀.2⟩
        (fun hw => (hhandles hw).trans (hhandles₀ hw)) ?_
      rcases hphase with hphase | ⟨hclean, hphase⟩ <;> rcases hphase₀ with hphase₀ | hphase₀
      · exact .inl (hphase.trans hphase₀)
      · exact .inr ⟨hphase₀.1, hphase.trans hphase₀.2⟩
      · exact .inr ⟨hphase₀ ▸ hclean, hphase⟩
      · exact .inr ⟨hphase₀.1, hphase⟩

/-- A committed call leaves an authority, opens it or moves its phase. -/
theorem turn_committed (h : Committed now s call s') (e : ExecutionId) :
    Turn call e (s.authorities.find? e) (s'.authorities.find? e) := by
  have hframe := h.frame
  cases h with
  | begin h =>
    obtain ⟨hnone, rfl⟩ | ⟨d, hd, _, _, rfl⟩ := begin_spec h
    · exact turn_open hnone rfl rfl (.inl rfl)
    · exact turn_put hd rfl ⟨rfl, rfl, rfl⟩ (fun _ _ => rfl) fun _ => .inl rfl
  | @transitionCleanup _ expected next handles _ _ h =>
    obtain ⟨hlegal, d, hd, hph, rfl⟩ := transitionCleanup_spec h
    refine turn_put hd rfl ⟨rfl, rfl, rfl⟩ (fun he hw => absurd he (of_decide_eq_false hw))
      fun he => ?_
    by_cases hsame : d.phase = next
    · exact .inl hsame.symm
    · have hexp := hph.resolve_right hsame
      refine .inr ⟨he, hexp, rfl, hexp ▸ hlegal.resolve_left ?_⟩
      rintro rfl
      exact hsame hexp
  | fenceForCleanup h =>
    obtain ⟨d, _, _, hd, _, _, _, _, hph, rfl⟩ := fenceForCleanup_spec h
    exact turn_put hd rfl ⟨rfl, rfl, rfl⟩ (fun he hw => absurd he (of_decide_eq_false hw))
      fun he => .inr ⟨he, hph, rfl⟩
  | resolve h =>
    obtain ⟨d, hd, hph, rfl⟩ := resolve_spec h
    exact turn_put hd rfl ⟨rfl, rfl, rfl⟩ (fun _ _ => rfl) fun he =>
      hph.symm.imp Eq.symm fun hph => ⟨he, hph, rfl⟩
  | recordProgress h =>
    obtain ⟨row, t, retain, _, hretain, rfl⟩ := recordProgress_spec h
    cases retain with
    | none => exact .same
    | some d =>
      obtain ⟨hd, _, _, hph⟩ := hretain d rfl
      exact turn_put hd rfl ⟨rfl, rfl, rfl⟩ (fun _ _ => rfl) fun he =>
        hph.symm.imp Eq.symm fun hph => ⟨he, hph, rfl⟩
  | commitRetained h =>
    obtain ⟨row, d, t, hg, hfin⟩ := commitRetained_spec h
    have hs : s'.authorities = s.authorities.put { d with phase := .retained, updatedAt := now } := by
      rcases hfin with ⟨_, _, rfl⟩ | ⟨_, _, _, _, rfl⟩ <;> rfl
    exact turn_put hg.authority hs ⟨rfl, rfl, rfl⟩ (fun _ _ => rfl) fun he =>
      hg.phase.symm.imp Eq.symm fun hph => ⟨he, hph, rfl⟩
  | @recoverUnreachable w _ _ h =>
    refine recoverUnreachable_ind (P := fun _ t => Turn (.recoverUnreachable w) e
      (s.authorities.find? e) (t.authorities.find? e)) h .same ?_
    intro _ s₁ s₂ x _ hs₁ hfence
    obtain ⟨t, _, _, _, _, rfl⟩ := fenceAttempt_eq_some hfence
    exact turn_recoverUnreachable_trans hs₁ (turn_pendCleanup (s :=
      { s₁ with attempts := s₁.attempts.put (lostAttempt now t) }) fun _ _ hp => ⟨hp, rfl⟩)
  | fenceLostAttempt h =>
    obtain ⟨_, w, _, _, _, ⟨s₁, hfence, rfl⟩ | ⟨_, _, _, _, _, _, _, _, _, rfl⟩⟩ :=
      fenceLostAttempt_spec h
    · obtain ⟨t, _, _, _, _, rfl⟩ := fenceAttempt_eq_some hfence
      exact turn_pendCleanup (s := { s with attempts := s.attempts.put (lostAttempt now t) })
        fun _ he hp => ⟨he, hp, rfl⟩
    · exact .same
  | finalizeCleanup h =>
    obtain ⟨_, _, _, _, _, _, _, rfl⟩ | ⟨row, d, t, hg, _, hfin⟩ := finalizeCleanup_spec h
    · exact .same
    have hs : s'.authorities =
        s.authorities.put { d with phase := .reservationReleased, updatedAt := now } := by
      rcases hfin with ⟨_, rfl⟩ | ⟨_, _, _, rfl⟩ <;> rfl
    exact turn_put hg.authority hs ⟨rfl, rfl, rfl⟩ (fun _ _ => rfl) fun he =>
      .inr ⟨he, hg.phase, rfl⟩
  | _ =>
    rw [hframe.authorities (by simp [StoreCall.writes])]
    exact .same

theorem authority_step {l : Label} (h : Orchestrator.Step s l s')
    (hc : s.authorities.find? e = some c) :
    s'.Holds e c c.phase ∨ ∃ q, s'.Holds e c q ∧ l.call.Shifts e c.phase q := by
  rcases h.cases with rfl | h
  · exact .inl (holds_self hc)
  have hturn := turn_committed h e
  rw [hc] at hturn
  generalize hc' : s'.authorities.find? e = o at hturn
  cases hturn with
  | same => exact .inl (holds_self hc')
  | moved howner _ hphase =>
    rcases hphase with hphase | hphase
    · exact .inl ⟨_, hc', howner.1, howner.2, hphase⟩
    · exact .inr ⟨_, ⟨_, hc', howner.1, howner.2, rfl⟩, hphase⟩

theorem rank_run (h : Reaches Orchestrator.Step anyCall s s')
    (hc : s.authorities.find? e = some c) : ∃ q, s'.Holds e c q ∧ c.phase.rank ≤ q.rank := by
  refine h.invariant (I := fun t => ∃ q, t.Holds e c q ∧ c.phase.rank ≤ q.rank) ?_
    ⟨_, holds_self hc, le_rfl⟩
  rintro t l t' ⟨_, ⟨d, hd, ha, hw, rfl⟩, hle⟩ _ hst
  rcases authority_step hst hd with ⟨d', hd', ha', hw', hq⟩ | ⟨q, ⟨d', hd', ha', hw', hq⟩, hshift⟩
  · exact ⟨_, ⟨d', hd', ha'.trans ha, hw'.trans hw, hq⟩, hle⟩
  · exact ⟨q, ⟨d', hd', ha'.trans ha, hw'.trans hw, hq⟩, hle.trans hshift.rank_le⟩

theorem unreserved_of_finalizes {l : Label} {a : AttemptId} (h : Orchestrator.Step s l s')
    (hfin : l.call.Finalizes e a) (hc : s.authorities.find? e = some c)
    (hph : c.phase ≠ .reservationReleased) (hmoved : s'.Holds e c .reservationReleased) :
    a = c.attemptId ∧ s'.reservationOf e a = none := by
  obtain ⟨β, call, now⟩ := l
  cases call
  case finalizeCleanup id b =>
    obtain ⟨rfl, rfl⟩ := hfin
    have hback : s' ≠ s := by
      rintro rfl
      obtain ⟨c', hc', _, _, hq⟩ := hmoved
      exact hph (Option.mem_unique hc hc' ▸ hq)
    obtain ⟨r, hcommit⟩ := (run_state h).resolve_left hback
    obtain ⟨_, _, _, _, _, _, _, hsame⟩ | ⟨row, d, t, hg, _, hfin⟩ := finalizeCleanup_spec hcommit
    · exact absurd hsame hback
    obtain rfl := Option.mem_unique hg.authority hc
    refine ⟨hg.authorityAttempt.symm, ?_⟩
    have hid : row.id = id := execution_id hg.found
    have hta : t.attemptId = b := attempt_id hg.attempt
    have hs : s'.reservations = (s.finalized now row d t).reservations := by
      rcases hfin with ⟨_, rfl⟩ | ⟨_, _, _, rfl⟩ <;> rfl
    rw [reservationOf, hs]
    simp only [finalized, hid, hta]
    split
    · simp
    · rename_i hnone
      exact Option.not_isSome_iff_eq_none.1 hnone
  all_goals exact hfin.elim

theorem phase_of_new {l : Label} (h : Orchestrator.Step s l s') (hnone : s.authorities.find? e = none)
    (hc : s'.authorities.find? e = some c) :
    c.phase = .active .reserved ∨ c.phase = .cleanupPending := by
  rcases h.cases with rfl | h
  · cases hnone.symm.trans hc
  have hturn := turn_committed h e
  rw [hnone, hc] at hturn
  cases hturn with
  | opened _ hphase => exact hphase

end Store

namespace Sample

/-- The worker is lost, its attempt is fenced and cleaned up to the storage. -/
def emptied : List Label := assigned ++
  [⟨_, .begin ⟨"e"⟩ ⟨"a"⟩ ⟨"w"⟩, 3⟩, ⟨_, .fenceLostAttempt ⟨"e"⟩ ⟨"a"⟩, 4⟩,
    ⟨_, .transitionCleanup ⟨"e"⟩ .cleanupPending .runtimeStopped {}, 5⟩,
    ⟨_, .transitionCleanup ⟨"e"⟩ .runtimeStopped .runtimeDestroyed {}, 6⟩,
    ⟨_, .transitionCleanup ⟨"e"⟩ .runtimeDestroyed .gitRecoveredCleaned {}, 7⟩,
    ⟨_, .transitionCleanup ⟨"e"⟩ .gitRecoveredCleaned .storageReleased {}, 8⟩]

def finalizing : Label := ⟨_, .finalizeCleanup ⟨"e"⟩ ⟨"a"⟩, 9⟩

end Sample
end Orchestrator
