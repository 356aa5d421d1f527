import Mathlib.Logic.Function.Basic
import Orchestrator.Persistence.Schema

/-!
# The life of one execution

What the database is for, seen from a single execution: it is created, granted to a worker as an
attempt, moved along by that attempt, cancelled, fenced and cleaned up. `Life` is what the tables
hold about it and `Life.Step` is everything that may happen to it; each step names its guards. The
tables of `Store` and the transactions over them are not mentioned here: that every transaction is
such steps, for every execution, is proved in `Persistence.Proof.Lifecycle`.
-/

namespace Orchestrator

structure Holding where
  attempt : AttemptId
  worker : WorkerId

/-- One attempt: its worker, and whether it is finished. -/
structure Trial where
  worker : WorkerId
  finished : Bool

/-- Which attempt may own resources, and how far their cleanup has come. -/
structure Custody where
  attempt : AttemptId
  worker : WorkerId
  phase : CleanupDisposition

/-- What the database holds about one execution. -/
structure Life where
  /-- `none` when there is no such execution. -/
  state : Option ExecutionState
  worker : Option WorkerId
  current : Option AttemptId
  held : Option Holding
  attempts : AttemptId → Option Trial
  custody : Option Custody
  /-- A cancellation was requested and is not completed. -/
  pending : Bool

namespace Life

def unborn : Life where
  state := none
  worker := none
  current := none
  held := none
  attempts _ := none
  custody := none
  pending := false

inductive Act where
  | create (state : ExecutionState) (worker : Option WorkerId) (current : Option AttemptId)
  /-- A cancellation is requested and left to the worker. -/
  | request
  /-- A cancellation is requested before any worker was involved. -/
  | cancel
  /-- A pending cancellation is completed. -/
  | complete
  | move (next : ExecutionState)
  | progress (a : AttemptId) (next : ExecutionState)
  | control (next : ExecutionState)
  | grant (a : AttemptId) (w : WorkerId)
  | release
  | retain
  /-- The attempt is closed as lost and its cleanup is made pending. -/
  | fence (a : AttemptId)
  | finalize (a : AttemptId)
  | begin (a : AttemptId) (w : WorkerId)
  | advance (next : CleanupDisposition)
  | resolve

/-- Custody after the attempt was fenced; a row of another attempt, or one whose cleanup has begun,
stays as it is. -/
def pended (a : AttemptId) (w : WorkerId) : Option Custody → Custody
  | none => ⟨a, w, .cleanupPending⟩
  | some c =>
    if c.attempt = a ∧ c.worker = w ∧ !c.phase.cleaning then { c with phase := .cleanupPending }
    else c

/-- How `finalize_cleanup` may leave the state. -/
inductive FinalState (st : ExecutionState) (pending : Bool) : ExecutionState → Prop
  | kept (h : st = .reviewReady ∨ st.isTerminal = true ∨ pending = true) : FinalState st pending st
  | lost {next : ExecutionState} (review : st ≠ .reviewReady) (live : st.isTerminal = false)
      (free : pending = false) (h : next = .queued ∨ next = .failed) : FinalState st pending next

/-- Everything that may happen to an execution. -/
inductive Step (L : Life) : Act → Life → Prop
  | create {st w a} (absent : L.state = none) :
      Step L (.create st w a) { L with state := some st, worker := w, current := a }
  | request {st} (found : L.state = some st) (live : st.isTerminal = false)
      (started : ¬ (st = .queued ∧ L.worker = none ∧ L.current = none)) :
      Step L .request { L with pending := true }
  | cancel (queued : L.state = some .queued) (noWorker : L.worker = none)
      (unassigned : L.current = none) :
      Step L .cancel { L with state := some .cancelled, pending := false }
  | complete {st c t} (found : L.state = some st) (legal : st.canTransitionTo .cancelled = true)
      (asked : L.pending = true) (unheld : L.held = none) (custody : L.custody = some c)
      (resolved : c.phase = .resolved) (attempt : L.attempts c.attempt = some t)
      (finished : t.finished = true) :
      Step L .complete { L with state := some .cancelled, pending := false }
  | move {st next} (found : L.state = some st) (free : L.pending = false)
      (legal : st.canTransitionTo next = true) : Step L (.move next) { L with state := some next }
  | progress {st next a w custody'} (found : L.state = some st) (free : L.pending = false)
      (current : L.current = some a) (worker : L.worker = some w)
      (legal : st = next ∨ st.canTransitionTo next = true)
      (active : L.attempts a = some ⟨w, false⟩)
      (retention : custody' = L.custody ∨
        ∃ ph, L.custody = some ⟨a, w, ph⟩ ∧ custody' = some ⟨a, w, .retainRequested⟩) :
      Step L (.progress a next)
        { L with
          state := some next, custody := custody'
          attempts := Function.update L.attempts a (some ⟨w, next.isTerminal⟩) }
  | control {st next} (found : L.state = some st) (free : L.pending = false)
      (legal : st = next ∨ (st.canTransitionTo next = true ∧
        (next = .running ∨ next = .pausedForHuman))) :
      Step L (.control next) { L with state := some next }
  | grant {a w} (queued : L.state = some .queued) (free : L.pending = false)
      (unheld : L.held = none) (fresh : L.attempts a = none)
      (ended : ∀ b t, L.attempts b = some t → t.finished = true)
      (cleaned : ∀ c, L.custody = some c → c.phase = .resolved) :
      Step L (.grant a w)
        { L with
          state := some .workerAssigned, worker := some w, current := some a
          held := some ⟨a, w⟩, attempts := Function.update L.attempts a (some ⟨w, false⟩) }
  | release : Step L .release { L with held := none }
  | retain {c} (found : L.state = some .reviewReady) (free : L.pending = false)
      (current : L.current = some c.attempt) (custody : L.custody = some c)
      (phase : c.phase = .retainRequested ∨ c.phase = .retained) :
      Step L .retain
        { L with
          held := L.held.filter fun h => h.attempt ≠ c.attempt
          custody := some { c with phase := .retained } }
  | fence {a w v} (held : L.held = some ⟨a, v⟩) (active : L.attempts a = some ⟨w, false⟩) :
      Step L (.fence a)
        { L with
          attempts := Function.update L.attempts a (some ⟨w, true⟩)
          custody := some (pended a w L.custody) }
  | detach {st next a w f} (found : L.state = some st)
      (custody : L.custody = some ⟨a, w, .storageReleased⟩) (attempt : L.attempts a = some ⟨w, f⟩)
      (current : L.current = some a) (final : FinalState st L.pending next) :
      Step L (.finalize a)
        { L with
          state := some next, worker := none, current := none
          held := L.held.filter fun h => h.attempt ≠ a
          attempts := Function.update L.attempts a (some ⟨w, true⟩)
          custody := some ⟨a, w, .reservationReleased⟩ }
  | close {a w f} (custody : L.custody = some ⟨a, w, .storageReleased⟩)
      (attempt : L.attempts a = some ⟨w, f⟩) (notCurrent : L.current ≠ some a) :
      Step L (.finalize a)
        { L with
          held := L.held.filter fun h => h.attempt ≠ a
          attempts := Function.update L.attempts a (some ⟨w, true⟩)
          custody := some ⟨a, w, .reservationReleased⟩ }
  | begin {a w} (closed : L.custody = none) :
      Step L (.begin a w) { L with custody := some ⟨a, w, .active .reserved⟩ }
  | advance {c next} (custody : L.custody = some c) :
      Step L (.advance next) { L with custody := some { c with phase := next } }
  | resolve {c} (custody : L.custody = some c)
      (phase : c.phase = .reservationReleased ∨ c.phase = .resolved) :
      Step L .resolve { L with custody := some { c with phase := .resolved } }

variable {L L' : Life} {act : Act}

/-- `L'` is `L`, or one act of `P` away from it. -/
def Does (P : Act → Prop) (L L' : Life) : Prop := L' = L ∨ ∃ act, P act ∧ Step L act L'

theorem Does.stay {P : Act → Prop} (h : L' = L) : Does P L L' := .inl h

theorem Does.step {P : Act → Prop} (h : Step L act L') (hP : P act) : Does P L L' :=
  .inr ⟨act, hP, h⟩

theorem Does.mono {P Q : Act → Prop} (hPQ : ∀ act, P act → Q act) (h : Does P L L') : Does Q L L' :=
  h.imp_right fun ⟨act, hP, hst⟩ => ⟨act, hPQ act hP, hst⟩

/-- An execution is fenced once: the attempt its reservation is for is finished then. -/
theorem Step.no_second_fence {L'' : Life} {a b : AttemptId} (h : Step L (.fence a) L')
    (h' : Step L' (.fence b) L'') : False := by
  cases h with
  | fence held active =>
    cases h' with
    | fence held' active' =>
      obtain ⟨rfl, rfl⟩ := Holding.mk.inj (Option.mem_unique held held')
      cases (Function.update_self ..).symm.trans active'

/-! ## What every step keeps -/

theorem Step.attempt_kept (h : Step L act L') {a : AttemptId} {t : Trial}
    (ht : L.attempts a = some t) :
    ∃ t', L'.attempts a = some t' ∧ t'.worker = t.worker ∧ (t.finished = true → t'.finished = true) := by
  have hupdate : ∀ {b w f f'}, L.attempts b = some ⟨w, f⟩ → (f = true → f' = true) →
      ∃ t', Function.update L.attempts b (some ⟨w, f'⟩) a = some t' ∧ t'.worker = t.worker ∧
        (t.finished = true → t'.finished = true) := by
    intro b w f f' hb hf
    by_cases hab : a = b
    · subst hab
      obtain rfl : t = ⟨w, f⟩ := Option.mem_unique ht hb
      exact ⟨_, Function.update_self .., rfl, hf⟩
    · exact ⟨t, by rw [Function.update_of_ne hab]; exact ht, rfl, id⟩
  cases h with
  | progress _ _ _ _ _ active _ | fence _ active => exact hupdate active nofun
  | @grant b _ _ _ _ fresh _ _ =>
    have hab : a ≠ b := by
      rintro rfl
      rw [fresh] at ht
      cases ht
    exact ⟨t, by rw [← ht]; exact Function.update_of_ne hab .., rfl, id⟩
  | detach _ _ attempt _ _ | close _ attempt _ => exact hupdate attempt fun _ => rfl
  | _ => exact ⟨t, ht, rfl, id⟩

theorem held_of_filter {a : AttemptId} {x : Holding}
    (h : L.held.filter (fun h => h.attempt ≠ a) = some x) : L.held = some x ∧ x.attempt ≠ a := by
  simpa [Option.filter_eq_some_iff] using h

theorem Step.attempt_old (h : Step L act L') {a : AttemptId} {t : Trial}
    (ht : L'.attempts a = some t) : (∃ u, L.attempts a = some u) ∨ ∃ w, act = .grant a w := by
  have hupdate : ∀ {b u x}, L.attempts b = some u → Function.update L.attempts b x a = some t →
      ∃ u, L.attempts a = some u := by
    intro b u x hb hx
    by_cases hab : a = b
    · exact ⟨u, hab ▸ hb⟩
    · rw [Function.update_of_ne hab] at hx
      exact ⟨t, hx⟩
  cases h with
  | progress _ _ _ _ _ active _ | fence _ active => exact .inl (hupdate active ht)
  | @grant b w _ _ _ _ _ _ =>
    by_cases hab : a = b
    · exact .inr ⟨w, by rw [hab]⟩
    · exact .inl ⟨t, by rw [← ht]; exact (Function.update_of_ne hab ..).symm⟩
  | detach _ _ attempt _ _ | close _ attempt _ => exact .inl (hupdate attempt ht)
  | _ => exact .inl ⟨t, ht⟩

theorem Step.held_old (h : Step L act L') {x : Holding} (hx : L'.held = some x) :
    L.held = some x ∨ act = .grant x.attempt x.worker := by
  cases h with
  | grant =>
    obtain rfl := Option.some.inj hx
    exact .inr rfl
  | release => cases hx
  | retain | detach | close => exact .inl (held_of_filter hx).1
  | _ => exact .inl hx

def Busy (L : Life) (w : WorkerId) : Prop :=
  ∃ a v, L.held = some ⟨a, w⟩ ∧ L.attempts a = some ⟨v, false⟩

theorem Step.busy_old (h : Step L act L') {w : WorkerId} (hb : L'.Busy w) :
    L.Busy w ∨ ∃ a, act = .grant a w := by
  obtain ⟨a, v, hheld, hatt⟩ := hb
  rcases h.held_old hheld with hold | rfl
  · rcases h.attempt_old hatt with ⟨⟨u, f⟩, hu⟩ | ⟨u, rfl⟩
    · obtain ⟨t', ht', _, hfin⟩ := h.attempt_kept hu
      obtain rfl := Option.mem_unique hatt ht'
      cases f with
      | false => exact .inl ⟨a, u, hold, hu⟩
      | true => cases hfin rfl
    · cases h with
      | grant _ _ unheld => cases unheld.symm.trans hold
  · exact .inr ⟨a, rfl⟩

/-- A reservation is for the current attempt, which is one of the execution's attempts. -/
structure Linked (L : Life) : Prop where
  current : ∀ h, L.held = some h → L.current = some h.attempt
  worker : ∀ h, L.held = some h → L.worker = some h.worker
  attempt : ∀ h, L.held = some h → ∃ f, L.attempts h.attempt = some ⟨h.worker, f⟩
  unborn : L.state = none → L.current = none ∧ ∀ a, L.attempts a = none

theorem Linked.kept (hL : Linked L) (h : Step L act L') (hcur : L'.current = L.current)
    (hworker : L'.worker = L.worker) (hheld : ∀ x, L'.held = some x → L.held = some x)
    (hborn : L'.state = none → L.state = none ∧ L'.attempts = L.attempts) : Linked L' where
  current x hx := hcur.trans (hL.current x (hheld x hx))
  worker x hx := hworker.trans (hL.worker x (hheld x hx))
  attempt x hx := by
    obtain ⟨f, hf⟩ := hL.attempt x (hheld x hx)
    obtain ⟨⟨w, f'⟩, ht, rfl, _⟩ := h.attempt_kept hf
    exact ⟨f', ht⟩
  unborn hnone := by
    obtain ⟨hstate, hattempts⟩ := hborn hnone
    rw [hcur, hattempts]
    exact hL.unborn hstate

theorem Linked.step (hL : Linked L) (h : Step L act L') : Linked L' := by
  have hstep := h
  -- an attempt is there, so the execution is
  have hborn : ∀ {a t}, L.attempts a = some t → L.state ≠ none := by
    intro a t ht hnone
    rw [(hL.unborn hnone).2 a] at ht
    cases ht
  cases h with
  | create absent =>
    have hfree : ∀ x, L.held ≠ some x := by
      intro x hx
      have := hL.current x hx
      rw [(hL.unborn absent).1] at this
      cases this
    exact ⟨fun x hx => absurd hx (hfree x), fun x hx => absurd hx (hfree x),
      fun x hx => absurd hx (hfree x), nofun⟩
  | grant =>
    refine ⟨?_, ?_, ?_, nofun⟩
    all_goals
      intro x hx
      obtain rfl := Option.some.inj hx
    · rfl
    · rfl
    · exact ⟨false, Function.update_self ..⟩
  | @detach _ _ a _ _ _ _ _ current _ =>
    -- the reservation was for the detached attempt
    have hfree : ∀ x, L.held.filter (fun h => h.attempt ≠ a) ≠ some x := by
      intro x hx
      obtain ⟨hheld, hne⟩ := held_of_filter hx
      exact hne (Option.some.inj ((hL.current x hheld).symm.trans current))
    exact ⟨fun x hx => absurd hx (hfree x), fun x hx => absurd hx (hfree x),
      fun x hx => absurd hx (hfree x), nofun⟩
  | fence _ active =>
    exact hL.kept hstep rfl rfl (fun _ hx => hx) fun hnone => absurd hnone (hborn active)
  | close _ attempt _ =>
    exact hL.kept hstep rfl rfl (fun _ hx => (held_of_filter hx).1) fun hnone =>
      absurd hnone (hborn attempt)
  | retain => exact hL.kept hstep rfl rfl (fun _ hx => (held_of_filter hx).1) fun hnone => ⟨hnone, rfl⟩
  | release => exact hL.kept hstep rfl rfl nofun fun hnone => ⟨hnone, rfl⟩
  | progress => exact hL.kept hstep rfl rfl (fun _ hx => hx) nofun
  | _ =>
    refine hL.kept hstep rfl rfl (fun _ hx => hx) fun hnone => ?_
    first | exact ⟨hnone, rfl⟩ | cases hnone

theorem linked_unborn : Linked unborn := ⟨nofun, nofun, nofun, fun _ => ⟨rfl, fun _ => rfl⟩⟩

/-! ## Cancellation -/

/-- A queued execution has no attempt yet, and is cancelled at once if it has no worker either. -/
structure Orderly (L : Life) : Prop where
  linked : Linked L
  born : L.pending = true → L.state ≠ none
  fresh : L.state = some .queued → ∀ a, L.current = some a → L.attempts a = none
  asked : L.pending = true → L.state = some .queued → ¬ (L.worker = none ∧ L.current = none)

theorem orderly_unborn : Orderly unborn := ⟨linked_unborn, nofun, nofun, nofun⟩

theorem Orderly.step (hO : Orderly L) (h : Step L act L') : Orderly L' := by
  have hlinked := hO.linked.step h
  -- while nothing is pending only freshness is to be shown
  have hfree : L.pending = false → L'.pending = L.pending →
      (L'.state = some .queued → ∀ a, L'.current = some a → L'.attempts a = none) → Orderly L' := by
    intro hf hsame hfresh
    refine ⟨hlinked, fun hp => ?_, hfresh, fun hp => ?_⟩ <;>
    · rw [hsame, hf] at hp
      cases hp
  -- closing an attempt leaves unknown attempts unknown
  have hupdate : ∀ {a : AttemptId} {t x : Trial}, L.attempts a = some t → L.state = some .queued →
      ∀ b, L.current = some b → Function.update L.attempts a (some x) b = none := by
    intro a t x ha hq b hb
    have hnone := hO.fresh hq b hb
    have hne : b ≠ a := by
      rintro rfl
      cases hnone.symm.trans ha
    rw [Function.update_of_ne hne]
    exact hnone
  cases h with
  | create absent =>
    exact ⟨hlinked, fun _ => nofun, fun _ a _ => (hO.linked.unborn absent).2 a,
      fun hp => absurd absent (hO.born hp)⟩
  | request found _ started =>
    refine ⟨hlinked, fun _ hnone => ?_, hO.fresh, fun _ hq hun => started ⟨?_, hun⟩⟩
    · cases found.symm.trans hnone
    · exact Option.mem_unique found hq
  | cancel | complete => exact ⟨hlinked, nofun, nofun, nofun⟩
  | move _ free legal =>
    refine hfree free rfl fun hq => ?_
    rw [Option.some.inj hq, ExecutionState.canTransitionTo_queued] at legal
    cases legal
  | progress found free current _ legal active _ =>
    refine hfree free rfl fun hq => ?_
    obtain rfl := Option.some.inj hq
    rcases legal with rfl | legal
    · cases (hO.fresh found _ current).symm.trans active
    · rw [ExecutionState.canTransitionTo_queued] at legal
      cases legal
  | control found free legal =>
    refine hfree free rfl fun hq => ?_
    obtain rfl := Option.some.inj hq
    rcases legal with rfl | ⟨legal, _⟩
    · exact hO.fresh found
    · rw [ExecutionState.canTransitionTo_queued] at legal
      cases legal
  | grant _ free => exact hfree free rfl nofun
  | fence _ active => exact ⟨hlinked, hO.born, hupdate active, hO.asked⟩
  | detach found _ attempt current final =>
    refine ⟨hlinked, fun _ => nofun, nofun, fun hp hq => ?_⟩
    obtain rfl := Option.some.inj hq
    cases final with
    | kept => cases (hO.fresh found _ current).symm.trans attempt
    | lost _ _ free => cases free.symm.trans hp
  | close _ attempt _ => exact ⟨hlinked, hO.born, hupdate attempt, hO.asked⟩
  | _ => exact ⟨hlinked, hO.born, hO.fresh, hO.asked⟩

/-- While a cancellation is pending nothing but its completion changes the state, and nothing is
granted. -/
theorem Orderly.frozen (hO : Orderly L) (h : Step L act L') (hp : L.pending = true)
    (hact : act ≠ .complete) :
    L'.pending = true ∧ L'.state = L.state ∧ ∀ x, L'.held = some x → L.held = some x := by
  have hpending : L.pending ≠ false := fun hf => by cases hp.symm.trans hf
  cases h with
  | create absent => exact absurd absent (hO.born hp)
  | request => exact ⟨rfl, rfl, fun _ hx => hx⟩
  | cancel queued noWorker unassigned => exact (hO.asked hp queued ⟨noWorker, unassigned⟩).elim
  | complete => exact absurd rfl hact
  | move _ free _ | progress _ free | control _ free _ | grant _ free | retain _ free =>
    exact absurd free hpending
  | release => exact ⟨hp, rfl, nofun⟩
  | detach found _ _ _ final =>
    cases final with
    | kept => exact ⟨hp, found.symm, fun _ hx => (held_of_filter hx).1⟩
    | lost _ _ free => exact absurd free hpending
  | close => exact ⟨hp, rfl, fun _ hx => (held_of_filter hx).1⟩
  | _ => exact ⟨hp, rfl, fun _ hx => hx⟩

theorem Step.pending_old (h : Step L act L') (hp : L'.pending = true) :
    L.pending = true ∨ act = .request := by
  cases h with
  | request => exact .inr rfl
  | cancel => cases hp
  | complete => cases hp
  | _ => exact .inl hp

theorem Step.cancelled_stays (h : Step L act L') (hL : L.state = some .cancelled) :
    L'.state = some .cancelled ∧ ∀ x, L'.held = some x → L.held = some x := by
  have hstate : ∀ {st}, L.state = some st → st = .cancelled := fun h => Option.mem_unique h hL
  have hstuck : ∀ {next}, ExecutionState.cancelled.canTransitionTo next ≠ true := by
    intro next hlegal
    rw [ExecutionState.canTransitionTo_of_isTerminal rfl] at hlegal
    cases hlegal
  cases h with
  | create absent => cases absent.symm.trans hL
  | cancel queued | grant queued => cases hstate queued
  | complete => exact ⟨rfl, fun _ hx => hx⟩
  | move found _ legal =>
    obtain rfl := hstate found
    exact (hstuck legal).elim
  | progress found _ _ _ legal =>
    obtain rfl := hstate found
    exact ⟨by rw [legal.resolve_right hstuck], fun _ hx => hx⟩
  | control found _ legal =>
    obtain rfl := hstate found
    exact ⟨by rw [legal.resolve_right fun h => hstuck h.1], fun _ hx => hx⟩
  | release => exact ⟨hL, nofun⟩
  | retain | close => exact ⟨hL, fun _ hx => (held_of_filter hx).1⟩
  | detach found _ _ _ final =>
    obtain rfl := hstate found
    cases final with
    | kept => exact ⟨rfl, fun _ hx => (held_of_filter hx).1⟩
    | lost _ live => cases live
  | _ => exact ⟨hL, fun _ hx => hx⟩

/-! ## The queue -/

/-- An unfinished attempt is the current one of an execution that has left the queue, and a queued
execution is assigned to nobody. -/
structure Slate (L : Life) : Prop where
  linked : Linked L
  active : ∀ a t, L.attempts a = some t → t.finished = false →
    L.current = some a ∧ L.state ≠ some .queued
  known : ∀ a, L.current = some a → ∃ t, L.attempts a = some t
  queued : L.state = some .queued → L.worker = none ∧ L.current = none

theorem slate_unborn : Slate unborn := ⟨linked_unborn, nofun, nofun, nofun⟩

def Unassigned : Act → Prop
  | .create _ w a => w = none ∧ a = none
  | _ => True

theorem Slate.active_update (hL : Slate L) {a b : AttemptId} {w : WorkerId} {t : Trial}
    (ht : Function.update L.attempts a (some ⟨w, true⟩) b = some t) (hopen : t.finished = false) :
    b ≠ a ∧ L.current = some b ∧ L.state ≠ some .queued := by
  by_cases hb : b = a
  · subst hb
    rw [Function.update_self] at ht
    obtain rfl := Option.some.inj ht
    cases hopen
  · rw [Function.update_of_ne hb] at ht
    exact ⟨hb, hL.active b t ht hopen⟩

theorem Slate.step (hL : Slate L) (hok : Unassigned act) (h : Step L act L') : Slate L' := by
  have hlinked := hL.linked.step h
  -- attempts stay, so the current one stays known unless another is made current
  have hknown : L'.current = L.current → ∀ a, L'.current = some a → ∃ t, L'.attempts a = some t := by
    intro hcur a ha
    obtain ⟨t, ht⟩ := hL.known a (hcur ▸ ha)
    obtain ⟨t', ht', _⟩ := h.attempt_kept ht
    exact ⟨t', ht'⟩
  -- the state is left for another one that is not `QUEUED`
  have hmoved : ∀ {st next : ExecutionState}, L.state = some st →
      st = next ∨ st.canTransitionTo next = true → L.state ≠ some .queued → next ≠ .queued := by
    rintro st next hst (rfl | hlegal) hne rfl
    · exact hne hst
    · rw [ExecutionState.canTransitionTo_queued] at hlegal
      cases hlegal
  cases h with
  | create absent =>
    obtain ⟨rfl, rfl⟩ := hok
    refine ⟨hlinked, fun a t ht => ?_, nofun, fun _ => ⟨rfl, rfl⟩⟩
    rw [(hL.linked.unborn absent).2 a] at ht
    cases ht
  | cancel | complete =>
    exact ⟨hlinked, fun a t ht hf => ⟨(hL.active a t ht hf).1, nofun⟩, hknown rfl, nofun⟩
  | @move st next found _ legal =>
    have hne : next ≠ .queued := by
      rintro rfl
      rw [ExecutionState.canTransitionTo_queued] at legal
      cases legal
    exact ⟨hlinked, fun a t ht hf => ⟨(hL.active a t ht hf).1, fun hq => hne (Option.some.inj hq)⟩,
      hknown rfl, fun hq => absurd (Option.some.inj hq) hne⟩
  | @progress st next b w _ found _ current _ legal active _ =>
    have hne := hmoved found legal (hL.active b _ active rfl).2
    refine ⟨hlinked, fun a t ht hf => ⟨?_, fun hq => hne (Option.some.inj hq)⟩, hknown rfl,
      fun hq => absurd (Option.some.inj hq) hne⟩
    by_cases hab : a = b
    · exact hab ▸ current
    · exact (hL.active a t (by rw [← ht]; exact (Function.update_of_ne hab ..).symm) hf).1
  | @control st next found _ legal =>
    have hlegal : st = next ∨ st.canTransitionTo next = true := legal.imp_right And.left
    refine ⟨hlinked, fun a t ht hf => ?_, hknown rfl, fun hq => ?_⟩
    · obtain ⟨hcur, hne⟩ := hL.active a t ht hf
      exact ⟨hcur, fun hq => hmoved found hlegal hne (Option.some.inj hq)⟩
    · by_cases hq' : L.state = some .queued
      · exact hL.queued hq'
      · exact absurd (Option.some.inj hq) (hmoved found hlegal hq')
  | @grant b w _ _ _ _ ended _ =>
    refine ⟨hlinked, fun a t ht hf => ⟨?_, nofun⟩, fun a ha => ?_, nofun⟩
    · by_cases hab : a = b
      · rw [hab]
      · have hfin := ended a t (by rw [← ht]; exact (Function.update_of_ne hab ..).symm)
        cases hfin.symm.trans hf
    · obtain rfl := Option.some.inj ha
      exact ⟨_, Function.update_self ..⟩
  | fence =>
    exact ⟨hlinked, fun a t ht hf => (hL.active_update ht hf).2, hknown rfl, hL.queued⟩
  | detach _ _ _ current _ =>
    -- the detached attempt was the only unfinished one
    refine ⟨hlinked, fun a t ht hf => ?_, nofun, fun _ => ⟨rfl, rfl⟩⟩
    obtain ⟨hne, hcur, _⟩ := hL.active_update ht hf
    exact absurd (Option.mem_unique hcur current) hne
  | close => exact ⟨hlinked, fun a t ht hf => (hL.active_update ht hf).2, hknown rfl, hL.queued⟩
  | _ => exact ⟨hlinked, hL.active, hknown rfl, hL.queued⟩

theorem Slate.clean (hL : Slate L) (hq : L.state = some .queued) :
    L.held = none ∧ ∀ a t, L.attempts a = some t → t.finished = true := by
  refine ⟨Option.eq_none_iff_forall_ne_some.2 fun x hx => ?_, fun a t ht => ?_⟩
  · cases (hL.queued hq).2.symm.trans (hL.linked.current x hx)
  · by_contra hf
    exact (hL.active a t ht (by simpa using hf)).2 hq

/-! ## Custody -/

def Opened (L : Life) : Prop :=
  ∀ c, L.custody = some c → ∃ f, L.attempts c.attempt = some ⟨c.worker, f⟩

/-- Custody is opened for attempts that were granted only. -/
def Asked (L : Life) : Act → Prop
  | .begin a w => ∃ f, L.attempts a = some ⟨w, f⟩
  | _ => True

theorem Step.custody_kept (h : Step L act L') {c : Custody} (hc : L.custody = some c) :
    ∃ ph, L'.custody = some { c with phase := ph } := by
  have hsame : ∃ ph, L.custody = some { c with phase := ph } := ⟨c.phase, hc⟩
  have hthis : ∀ {d ph}, L.custody = some d →
      ∃ ph', some { d with phase := ph } = some { c with phase := ph' } := by
    intro d ph hd
    obtain rfl := Option.mem_unique hc hd
    exact ⟨ph, rfl⟩
  cases h with
  | progress _ _ _ _ _ _ retention =>
    rcases retention with rfl | ⟨_, hd, rfl⟩
    · exact hsame
    · exact hthis hd
  | fence =>
    simp only [hc, pended]
    split
    · exact ⟨_, rfl⟩
    · exact ⟨c.phase, rfl⟩
  | begin closed =>
    rw [closed] at hc
    cases hc
  | retain _ _ _ custody _ | detach _ custody _ _ _ | close custody _ _ | advance custody
  | resolve custody _ => exact hthis custody
  | _ => exact hsame

theorem Opened.step (hO : Opened L) (hok : Asked L act) (h : Step L act L') : Opened L' := by
  intro c hc
  -- the key of the custody names an attempt of `L`, and attempts stay
  suffices hkey : ∃ f, L.attempts c.attempt = some ⟨c.worker, f⟩ by
    obtain ⟨f, hf⟩ := hkey
    obtain ⟨⟨w, f'⟩, ht, rfl, _⟩ := h.attempt_kept hf
    exact ⟨f', ht⟩
  cases hold : L.custody with
  | some d =>
    obtain ⟨ph, hd⟩ := h.custody_kept hold
    obtain rfl := Option.mem_unique hc hd
    exact hO d hold
  | none =>
    cases h with
    | progress _ _ _ _ _ _ retention =>
      rcases retention with rfl | ⟨_, hd, rfl⟩
      · cases hold.symm.trans hc
      · cases hold.symm.trans hd
    | fence _ active =>
      rw [hold] at hc
      obtain rfl := Option.some.inj hc
      exact ⟨false, active⟩
    | begin =>
      obtain rfl := Option.some.inj hc
      exact hok
    | retain _ _ _ custody _ | detach _ custody _ _ _ | close custody _ _ | advance custody
    | resolve custody _ => cases hold.symm.trans custody
    | _ => cases hold.symm.trans hc

theorem opened_unborn : Opened unborn := nofun

end Life
end Orchestrator
