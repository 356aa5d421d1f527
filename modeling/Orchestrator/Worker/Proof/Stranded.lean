import Orchestrator.Worker.Proof.Readmission

/-!
# No stranded execution

An execution a worker is busy with is either reserved, with its attempt unfinished, or in the custody
of an unresolved cleanup authority of that attempt; nothing else would ever finish or requeue it.
This holds in every run in which no execution is granted a second attempt (`firstGrants`): then an
execution has one attempt, custody is of that attempt, and opening it is never refused. A second
attempt is refused (`Worker.Proof.Readmission`), releases its reservation and leaves the execution
assigned to nobody.
-/

namespace Orchestrator

open Txn Relational

def ExecutionState.active : ExecutionState → Bool
  | workerAssigned | provisioning | running | pausedForHuman => true
  | _ => false

theorem ExecutionState.active_of_canTransitionTo {a b : ExecutionState}
    (h : a.canTransitionTo b = true) (hb : b.active = true) :
    a.active = true ∨ a = queued ∧ b = workerAssigned := by
  revert h hb
  cases a <;> cases b <;> decide

theorem ExecutionState.isTerminal_of_active {a : ExecutionState} (h : a.active = true) :
    a.isTerminal = false := by
  revert h
  cases a <;> decide

namespace Life

variable {L L' : Life} {act : Act}

/-- Acts of the repository's code, in runs that grant an execution once. -/
def Admissible (L : Life) : Act → Prop
  | .create st w a => st = .queued ∧ w = none ∧ a = none
  | .begin a w => ∃ f, L.attempts a = some ⟨w, f⟩
  | .grant _ _ => L.custody = none
  | .advance ph => ph ≠ .reservationReleased ∧ ph ≠ .resolved
  | .move _ | .release => False
  | _ => True

theorem Admissible.asked (h : Admissible L act) : Asked L act := by
  cases act <;> trivial

/-- The current attempt is reserved and unfinished, or in custody. -/
def Backed (L : Life) : Prop :=
  ∃ a, L.current = some a ∧
    ((∃ v w, L.held = some ⟨a, v⟩ ∧ L.attempts a = some ⟨w, false⟩) ∨
      ∃ c, L.custody = some c ∧ c.attempt = a)

/-- The invariant of runs that grant an execution once. -/
structure Attended (L : Life) : Prop where
  linked : Linked L
  opened : Opened L
  /-- An execution has one attempt. -/
  single : ∀ a b t u, L.attempts a = some t → L.attempts b = some u → a = b
  /-- Until custody is opened that attempt is the current one. -/
  current : L.custody = none → ∀ a t, L.attempts a = some t → L.current = some a
  queued : L.state = some .queued → L.current = none
  /-- Cleanup is finished for attempts that are no longer current. -/
  closed : ∀ c, L.custody = some c → c.phase = .reservationReleased ∨ c.phase = .resolved →
    L.current ≠ some c.attempt
  backed : ∀ st, L.state = some st → st.active = true → L.pending = false → Backed L

theorem attended_unborn : Attended unborn :=
  ⟨linked_unborn, opened_unborn, nofun, nofun, nofun, nofun, nofun⟩

theorem Attended.no_attempts (hL : Attended L) (hq : L.state = some .queued)
    (hc : L.custody = none) (a : AttemptId) : L.attempts a = none := by
  cases ht : L.attempts a with
  | none => rfl
  | some t =>
    have := hL.current hc a t ht
    rw [hL.queued hq] at this
    cases this

theorem Attended.custody_eq (hL : Attended L) {c : Custody} {a : AttemptId} {t : Trial}
    (hc : L.custody = some c) (ha : L.attempts a = some t) : c.attempt = a := by
  obtain ⟨f, hf⟩ := hL.opened c hc
  exact hL.single _ _ _ _ hf ha

/-! ## One step -/

theorem Attended.single_step (hL : Attended L) (hok : Admissible L act) (h : Step L act L') :
    ∀ a b t u, L'.attempts a = some t → L'.attempts b = some u → a = b := by
  intro a b t u ha hb
  cases act with
  | grant x w =>
    cases h with
    | grant queued =>
      have hx : ∀ y v, Function.update L.attempts x (some ⟨w, false⟩) y = some v → y = x := by
        intro y v hy
        by_contra hne
        rw [Function.update_of_ne hne, hL.no_attempts queued hok y] at hy
        cases hy
      rw [hx a t ha, hx b u hb]
  | _ =>
    obtain ⟨t', ht'⟩ := (h.attempt_old ha).resolve_right nofun
    obtain ⟨u', hu'⟩ := (h.attempt_old hb).resolve_right nofun
    exact hL.single a b t' u' ht' hu'

theorem Attended.current_step (hL : Attended L) (hok : Admissible L act) (h : Step L act L')
    (hc : L'.custody = none) : ∀ a t, L'.attempts a = some t → L'.current = some a := by
  intro a t ht
  have hc' : L.custody = none := by
    cases hold : L.custody with
    | none => rfl
    | some c =>
      obtain ⟨ph, hph⟩ := h.custody_kept hold
      cases hc.symm.trans hph
  rcases h.attempt_old ht with ⟨u, hu⟩ | ⟨w, rfl⟩
  · have hcur := hL.current hc' a u hu
    cases h with
    | create absent => cases ((hL.linked.unborn absent).2 a).symm.trans hu
    | grant queued => cases (hL.no_attempts queued hc' a).symm.trans hu
    | detach => cases hc
    | _ => exact hcur
  · cases h
    rfl

theorem Attended.queued_step (hL : Attended L) (hok : Admissible L act) (h : Step L act L')
    (hq : L'.state = some .queued) : L'.current = none := by
  cases h with
  | create => exact hok.2.2
  | move => exact hok.elim
  | progress found _ current _ legal =>
    -- an execution with a current attempt is not queued, and none becomes so by progress
    obtain rfl := Option.some.inj hq
    rcases legal with rfl | hlegal
    · cases (hL.queued found).symm.trans current
    · rw [ExecutionState.canTransitionTo_queued] at hlegal
      cases hlegal
  | control found _ legal =>
    obtain rfl := Option.some.inj hq
    rcases legal with rfl | ⟨hlegal, _⟩
    · exact hL.queued found
    · rw [ExecutionState.canTransitionTo_queued] at hlegal
      cases hlegal
  | detach => rfl
  | cancel | complete | grant => cases hq
  | _ => exact hL.queued hq

theorem Attended.closed_step (hL : Attended L) (hok : Admissible L act) (h : Step L act L') :
    ∀ c, L'.custody = some c → c.phase = .reservationReleased ∨ c.phase = .resolved →
      L'.current ≠ some c.attempt := by
  intro c hc hph
  cases h with
  | create absent =>
    obtain ⟨f, hf⟩ := hL.opened c hc
    cases ((hL.linked.unborn absent).2 _).symm.trans hf
  | grant => cases hok.symm.trans hc
  | progress _ _ _ _ _ _ retention =>
    rcases retention with rfl | ⟨_, _, rfl⟩
    · exact hL.closed c hc hph
    · obtain rfl := Option.some.inj hc
      rcases hph with hph | hph <;> cases hph
  | retain | begin =>
    obtain rfl := Option.some.inj hc
    rcases hph with hph | hph <;> cases hph
  | @fence a w _ _ _ =>
    obtain rfl := Option.some.inj hc
    cases hold : L.custody with
    | none =>
      rw [hold] at hph
      rcases hph with hph | hph <;> cases hph
    | some d =>
      simp only [hold, pended] at hph ⊢
      split at hph
      · rcases hph with hph | hph <;> cases hph
      · rename_i hg
        rw [if_neg hg]
        exact hL.closed d hold hph
  | detach => simp
  | close _ _ notCurrent =>
    obtain rfl := Option.some.inj hc
    exact notCurrent
  | advance custody =>
    obtain rfl := Option.some.inj hc
    exact (hph.elim hok.1 hok.2).elim
  | @resolve d custody phase =>
    obtain rfl := Option.some.inj hc
    exact hL.closed d custody phase
  | _ => exact hL.closed c hc hph

theorem Attended.backed_step (hL : Attended L) (hok : Admissible L act) (h : Step L act L')
    {st : ExecutionState} (hst : L'.state = some st) (hact : st.active = true)
    (hfree : L'.pending = false) : Backed L' := by
  -- steps that keep assignment, reservation and attempts, and custody up to its phase
  have hkept : L'.current = L.current → L'.held = L.held → L'.attempts = L.attempts →
      L.state = some st → L.pending = false → Backed L' := by
    intro hcur hheld hatt hold hfree'
    obtain ⟨a, ha, hcase⟩ := hL.backed st hold hact hfree'
    refine ⟨a, hcur.trans ha, ?_⟩
    rcases hcase with ⟨v, w, hv, hw⟩ | ⟨c, hc, hca⟩
    · exact .inl ⟨v, w, hheld.trans hv, hatt ▸ hw⟩
    · obtain ⟨ph, hph⟩ := h.custody_kept hc
      exact .inr ⟨_, hph, hca⟩
  have hinactive : ∀ {x : ExecutionState}, some x = some st → x.active = false → Backed L' := by
    intro x hx hxa
    rw [Option.some.inj hx, hact] at hxa
    cases hxa
  cases h with
  | create => exact hinactive hst (by rw [hok.1]; rfl)
  | request => cases hfree
  | cancel | complete => exact hinactive hst rfl
  | move | release => exact hok.elim
  | @progress st₀ next a w custody' found free current _ legal active retention =>
    obtain rfl := Option.some.inj hst
    have hbusy : st₀.active = true := by
      rcases legal with rfl | hlegal
      · exact hact
      · refine (ExecutionState.active_of_canTransitionTo hlegal hact).resolve_right fun hq => ?_
        cases (hL.queued (hq.1 ▸ found)).symm.trans current
    obtain ⟨b, hb, hcase⟩ := hL.backed st₀ found hbusy free
    obtain rfl := Option.mem_unique current hb
    refine ⟨a, current, ?_⟩
    rcases hcase with ⟨v, _, hv, _⟩ | ⟨c, hc, hca⟩
    · refine .inl ⟨v, w, hv, ?_⟩
      show Function.update L.attempts a (some ⟨w, next.isTerminal⟩) a = some ⟨w, false⟩
      rw [Function.update_self, ExecutionState.isTerminal_of_active hact]
    · rcases retention with rfl | ⟨_, _, rfl⟩
      · exact .inr ⟨c, hc, hca⟩
      · exact .inr ⟨_, rfl, rfl⟩
  | @control st₀ next found free legal =>
    obtain rfl := Option.some.inj hst
    have hbusy : st₀.active = true := by
      rcases legal with rfl | ⟨hlegal, hnext⟩
      · exact hact
      · refine (ExecutionState.active_of_canTransitionTo hlegal hact).resolve_right fun hq => ?_
        rcases hnext with hn | hn <;> cases hn.symm.trans hq.2
    obtain ⟨a, ha, hcase⟩ := hL.backed st₀ found hbusy free
    exact ⟨a, ha, hcase⟩
  | @grant a w => exact ⟨a, rfl, .inl ⟨w, w, rfl, Function.update_self ..⟩⟩
  | retain found => exact hinactive (found.symm.trans hst) rfl
  | @fence a w v held active =>
    refine ⟨a, hL.linked.current _ held, .inr ⟨_, rfl, ?_⟩⟩
    cases hold : L.custody with
    | none => rfl
    | some c =>
      have hca := hL.custody_eq hold active
      simp only [pended]
      split <;> exact hca
  | detach found _ _ _ final =>
    obtain rfl := Option.some.inj hst
    cases final with
    | kept hwhy =>
      rcases hwhy with rfl | hterm | hpend
      · cases hact
      · rw [ExecutionState.isTerminal_of_active hact] at hterm
        cases hterm
      · cases hfree.symm.trans hpend
    | lost _ _ _ hnext => rcases hnext with rfl | rfl <;> cases hact
  | @close a w f custody attempt notCurrent =>
    obtain ⟨b, hb, hcase⟩ := hL.backed st hst hact hfree
    have hne : b ≠ a := fun hba => notCurrent (hba ▸ hb)
    refine ⟨b, hb, ?_⟩
    rcases hcase with ⟨v, x, hv, hx⟩ | ⟨c, hc, hca⟩
    · refine .inl ⟨v, x, by simp [hv, Option.filter, hne], ?_⟩
      rw [← hx]
      exact Function.update_of_ne hne ..
    · obtain rfl := Option.mem_unique custody hc
      exact absurd hca.symm hne
  | _ => exact hkept rfl rfl rfl hst hfree

/-- **One step** of a run that grants an execution once. -/
theorem Attended.step (hL : Attended L) (hok : Admissible L act) (h : Step L act L') :
    Attended L' where
  linked := hL.linked.step h
  opened := hL.opened.step hok.asked h
  single := hL.single_step hok h
  current := hL.current_step hok h
  queued := hL.queued_step hok h
  closed := hL.closed_step hok h
  backed _ := hL.backed_step hok h

theorem Attended.unresolved (hL : Attended L) {c : Custody} (hc : L.custody = some c)
    (hcur : L.current = some c.attempt) : c.phase ≠ .resolved :=
  fun hph => hL.closed c hc (.inr hph) hcur

end Life

/-! ## Whole runs -/

namespace Plane

variable {p : Plane} {m : Move} {e : ExecutionId}

/-- The execution `reserve_next` would grant has no cleanup authority from an earlier attempt. -/
def firstGrant (s : Store) (w : WorkerId) (locked : List ExecutionId) : Bool :=
  (s.workers.find? w).all fun worker =>
    ((s.queue locked).find? fun x => workerFitsWithReservations worker x.manifest.runtime
      (s.usage w)).all fun row => (s.authorities.find? row.id).isNone

/-- The move grants no second attempt. -/
def grantsFirst (p : Plane) : Move → Bool
  | .call ⟨_, .reserveNext w _ locked, _⟩ => firstGrant p.store w locked
  | _ => true

/-- Every execution is granted once. -/
def firstGrants (p : Plane) (m : Move) : Prop := grantsFirst p m = true

instance (p : Plane) (m : Move) : Decidable (firstGrants p m) :=
  inferInstanceAs (Decidable (grantsFirst p m = true))

/-- The repository's moves, grants and releases apart, are admissible. -/
theorem admissible_of_produced {act : Life.Act} (hm : Produced p m) (hact : m.performs e act)
    (hgrant : ∀ a w, act ≠ .grant a w) (hrelease : act ≠ .release) :
    (p.store.life e).Admissible act := by
  cases act with
  | grant a w => exact absurd rfl (hgrant a w)
  | release => exact absurd rfl hrelease
  | begin a w => exact asked_of_produced hm hact
  | create st w a =>
    cases m with
    | call l =>
      obtain ⟨β, call, now⟩ := l
      cases call
      case createIdempotent x _ _ _ =>
        obtain ⟨_, rfl, rfl, rfl⟩ := hact
        have hx : x.state = .queued ∧ x.workerId = none ∧ x.attemptId = none := by
          simpa [Produced, callProduced, and_assoc] using hm
        exact hx
      case insert => cases hm
      all_goals cases hact
    | begin => cases hact
    | release => cases hact
  | advance ph =>
    cases m with
    | call l =>
      obtain ⟨β, call, now⟩ := l
      cases call
      case transitionCleanup next _ =>
        obtain ⟨_, rfl⟩ := hact
        have hnext : ph ≠ .reservationReleased ∧ ph ≠ .resolved := by
          simpa [Produced, callProduced] using hm
        exact hnext
      case fenceForCleanup =>
        obtain ⟨_, rfl⟩ := hact
        exact ⟨nofun, nofun⟩
      all_goals cases hact
    | begin => cases hact
    | release => cases hact
  | move next =>
    cases m with
    | call l =>
      obtain ⟨β, call, now⟩ := l
      cases call
      case transition => cases hm
      case transitionWithEvent => cases hm
      all_goals cases hact
    | begin => cases hact
    | release => cases hact
  | _ => trivial

/-- A task is never refused: custody, if opened, is its own. -/
theorem begin_ok (hL : (p.store.life e).Attended) {now : Timestamp} {a : AttemptId} {w : WorkerId}
    (hm : Produced p (.begin now e a w)) : ∃ s', Store.begin now e a w p.store = .ok ((), s') := by
  obtain ⟨t, ht, htw⟩ := Option.map_eq_some_iff.1 hm
  have hattempt : (p.store.life e).attempts a = some ⟨w, t.finishedAt.isSome⟩ := by
    simp [Store.life, ht, htw]
  unfold Store.begin
  split
  · exact ⟨_, rfl⟩
  · rename_i c hc
    have hcustody := Store.life_custody hc
    have hca := hL.custody_eq hcustody hattempt
    obtain ⟨f, hf⟩ := hL.opened _ hcustody
    have hcw : c.workerId = w := by
      rw [hca, hattempt] at hf
      exact (congrArg Trial.worker (Option.some.inj hf)).symm
    rw [if_pos ⟨hca, hcw⟩]
    exact ⟨_, rfl⟩

theorem attended_next (hL : ∀ e, (p.store.life e).Attended) (hm : Produced p m)
    (hok : firstGrants p m) (hnone : p.refused = []) :
    (p.next m).refused = [] ∧ ∀ e, ((p.next m).store.life e).Attended := by
  -- every move but a grant and a release
  have hstep : (∀ e a w, ¬ m.performs e (.grant a w)) → (∀ e, ¬ m.performs e .release) →
      ∀ e, ((p.next m).store.life e).Attended := by
    intro hgrant hrelease e
    rcases life_next p m e with hsame | ⟨act, hact, hst⟩
    · rw [hsame]
      exact hL e
    · refine (hL e).step (admissible_of_produced hm hact ?_ ?_) hst
      · rintro a w rfl
        exact hgrant e a w hact
      · rintro rfl
        exact hrelease e hact
  cases m with
  | release e =>
    rw [show Produced p (.release e) = (e ∈ p.refused) from rfl, hnone] at hm
    cases hm
  | begin now e a w =>
    obtain ⟨s', hs'⟩ := begin_ok (hL e) hm
    refine ⟨?_, hstep (fun _ _ _ => id) fun _ => id⟩
    simp only [next, hs']
    exact hnone
  | call l =>
    refine ⟨hnone, ?_⟩
    obtain ⟨β, call, now⟩ := l
    cases call
    case reserveNext w a locked =>
      intro e
      simp only [next, StoreCall.exec, run]
      cases hr : Store.reserveNext now w a locked p.store with
      | error => exact hL e
      | ok r =>
        obtain ⟨r, s'⟩ := r
        rcases Store.reserveNext_spec hr with ⟨_, rfl⟩ | ⟨worker, row, hg, rfl, rfl⟩
        · exact hL e
        rcases Store.life_granted (e := e) now hg with ⟨he, hst⟩ | ⟨_, hsame⟩
        · obtain ⟨worker', row', hw, hid, hfirst⟩ := Store.reserveNext_first hr
          have hfree : p.store.authorities.find? row'.id = none := by
            simpa [firstGrants, grantsFirst, firstGrant, hw, hfirst] using hok
          have hid' : row'.id = e := hid.trans he
          exact (hL e).step (by simp [Life.Admissible, Store.life, ← hid', hfree]) hst
        · rw [hsame]
          exact hL e
    case release => cases hm
    case releaseAttempt => cases hm
    all_goals exact hstep (fun _ _ _ => id) fun _ => id

theorem attended_of_run (h : Run firstGrants p) :
    p.refused = [] ∧ ∀ e, (p.store.life e).Attended := by
  refine h.invariant (I := fun q => q.refused = [] ∧ ∀ e, (q.store.life e).Attended)
    ⟨rfl, fun _ => Life.attended_unborn⟩ ?_
  rintro q m q' ⟨hnone, hL⟩ hm hok hst
  obtain rfl := hst
  exact attended_next hL hm hok hnone

end Plane

/-! ## What is left of an execution in the tables -/

namespace Store

variable {s s' : Store} {now : Timestamp} {e : ExecutionId}

/-- The current attempt of `e` has a reservation and is unfinished. -/
def atWork (s : Store) (e : ExecutionId) : Bool :=
  (s.executions.find? e).any fun row => row.attemptId.any fun a =>
    (s.reservationOf e a).isSome && (s.attemptOf e a).any fun t => t.finishedAt.isNone

/-- The current attempt of `e` has a cleanup authority that is not resolved. -/
def inCustody (s : Store) (e : ExecutionId) : Bool :=
  (s.executions.find? e).any fun row => row.attemptId.any fun a =>
    (s.authorityOf e a).any fun c => c.phase ≠ .resolved

theorem inCustody_of_life (hL : (s.life e).Attended) {c : Custody}
    (hc : (s.life e).custody = some c) (hcur : (s.life e).current = some c.attempt) :
    s.inCustody e = true := by
  have hph := hL.unresolved hc hcur
  obtain ⟨row, hrow, ha⟩ := Option.bind_eq_some_iff.1 hcur
  obtain ⟨c', hc', rfl⟩ := Option.map_eq_some_iff.1 hc
  have hauth := authorityOf_eq_some.2 ⟨hc', rfl⟩
  simp only [inCustody, hrow, ha, hauth, Option.any_some, decide_eq_true_eq]
  exact hph

theorem cared_for (hL : (s.life e).Attended) {row : ExecutionRow}
    (hrow : s.executions.find? e = some row) (hact : row.state.active = true)
    (hfree : s.cancellationPending e = false) : s.atWork e = true ∨ s.inCustody e = true := by
  obtain ⟨a, hcur, hcase⟩ := hL.backed _ (life_state hrow) hact hfree
  rcases hcase with ⟨v, w, hheld, hatt⟩ | ⟨c, hc, rfl⟩
  · refine .inl ?_
    rw [life_current hrow] at hcur
    obtain ⟨r, hr, hrv⟩ := Option.map_eq_some_iff.1 hheld
    obtain ⟨t, ht, hte, hfin⟩ := life_attempts_eq_some.1 hatt
    have hra : r.attemptId = a := congrArg Holding.attempt hrv
    have hopen : t.finishedAt.isSome = false := (congrArg Trial.finished hfin).symm
    have hreserved := reservationOf_eq_some.2 ⟨hr, hra⟩
    have hattempt := attemptOf_eq_some.2 ⟨ht, hte⟩
    simp only [atWork, hrow, hcur, hreserved, hattempt, Option.any_some, Option.isSome_some,
      Bool.true_and]
    cases hf : t.finishedAt with
    | none => rfl
    | some => rw [hf] at hopen; cases hopen
  · exact .inr (inCustody_of_life hL hc hcur)

theorem inCustody_of_fence (hL : (s.life e).Attended) {a : AttemptId}
    (hst : Life.Step (s.life e) (.fence a) (s'.life e)) : s'.inCustody e = true := by
  have hok : (s.life e).Admissible (.fence a) := trivial
  have hL' := hL.step hok hst
  have hkey : ∃ c, (s'.life e).custody = some c ∧ (s'.life e).current = some c.attempt := by
    generalize s'.life e = L' at hst
    cases hst with
    | fence held active =>
      refine ⟨_, rfl, ?_⟩
      have hcur := hL.linked.current _ held
      cases hold : (s.life e).custody with
      | none => exact hcur
      | some c =>
        have hca := hL.custody_eq hold active
        simp only [Life.pended]
        split <;> rw [hcur, hca]
  obtain ⟨c, hc, hcur⟩ := hkey
  exact inCustody_of_life hL' hc hcur

end Store

namespace Sample

/-- The requeued execution is granted again; the task is refused and releases. -/
def abandoned : List Plane.Move :=
  requeued ++ [.call ⟨_, .reserveNext ⟨"w"⟩ ⟨"b"⟩ [], 11⟩, .begin 12 ⟨"e"⟩ ⟨"b"⟩ ⟨"w"⟩,
    .release ⟨"e"⟩]

end Sample

end Orchestrator
