import Orchestrator.Persistence.Proof.Controls
import Orchestrator.Worker.Answers
import Orchestrator.Worker.Watched
import Orchestrator.Worker.Proof.Recovery

/-!
# What a startup does about reservations

A reservation of a worker whose attempt has opened its custody is dealt with by the next startup of
the worker: its execution is adopted, or the reservation is given back. It is given back with the
attempt finished, unless the work is done and retained: the attempt of a retained execution stays
open until it is cleaned up.

The argument is about the life of one execution. As long as the startup has not reached its
authority the reservation is `Due`; others may finish the attempt meanwhile, but they leave the
cleanup to the worker (`Act.steers`). What the startup then does leaves it `Discharged`, which again
nobody but the worker of the execution can undo.
-/

namespace Orchestrator

open Prog Effect

namespace Life

variable {L L' : Life} {act : Act} {a : AttemptId} {w : WorkerId}

/-- Acts of the worker that has the execution. Anybody may make the cleanup pending. -/
def Act.steers : Act → Bool
  | .release | .retain | .progress _ _ => true
  | .advance ph => ph ≠ .cleanupPending
  | _ => false

/-- Custody is parked by the acts that give the reservation back. -/
def Act.ordinary : Act → Bool
  | .advance ph => !ph.parked
  | _ => true

def Unheld (L : Life) (a : AttemptId) : Prop := ∀ h, L.held = some h → h.attempt ≠ a

theorem Unheld.step (hu : Unheld L a) {t : Trial} (ht : L.attempts a = some t)
    (h : Step L act L') : Unheld L' a := by
  intro x hx
  rcases h.held_old hx with hold | rfl
  · exact hu x hold
  · rintro rfl
    cases h with
    | grant _ _ _ fresh => cases fresh.symm.trans ht

theorem unheld_filter : ∀ h, (L.held.filter fun h => h.attempt ≠ a) = some h → h.attempt ≠ a :=
  fun _ hx => (held_of_filter hx).2

theorem pended_cases (a : AttemptId) (w : WorkerId) (o : Option Custody) :
    (∃ c, o = some c ∧ pended a w o = c) ∨ (pended a w o).phase = .cleanupPending := by
  cases o with
  | none => exact .inr rfl
  | some c =>
    unfold pended
    dsimp only
    split
    · exact .inr rfl
    · exact .inl ⟨c, rfl, rfl⟩

/-! ## Parked custody -/

/-- Nothing is reserved for an attempt whose custody is parked. -/
structure Parked (L : Life) : Prop where
  unheld : ∀ c, L.custody = some c → c.phase.parked = true → Unheld L c.attempt
  known : ∀ c, L.custody = some c → c.phase = .reservationReleased ∨ c.phase = .resolved →
    ∃ t, L.attempts c.attempt = some t

theorem parked_unborn : Parked unborn := ⟨nofun, nofun⟩

theorem Parked.open (hopen : ∀ c, L.custody = some c → c.phase.parked = false) : Parked L where
  unheld c hc hp := by cases (hopen c hc).symm.trans hp
  known c hc hp := by
    have := hopen c hc
    rcases hp with hp | hp <;> rw [hp] at this <;> cases this

theorem Parked.kept (hL : Parked L) (h : Step L act L') (hc : L'.custody = L.custody)
    (hheld : ∀ x, L'.held = some x → L.held = some x) : Parked L' where
  unheld c hcust hp x hx := hL.unheld c (hc ▸ hcust) hp x (hheld x hx)
  known c hcust hp := by
    obtain ⟨t, ht⟩ := hL.known c (hc ▸ hcust) hp
    obtain ⟨t', ht', _⟩ := h.attempt_kept ht
    exact ⟨t', ht'⟩

theorem Parked.step (hL : Parked L) (hok : act.ordinary = true) (h : Step L act L') :
    Parked L' := by
  have hstep := h
  cases h with
  | progress _ _ _ _ _ _ retention =>
    rcases retention with rfl | ⟨ph, _, rfl⟩
    · exact hL.kept hstep rfl fun _ hx => hx
    · refine .open fun c hc => ?_
      obtain rfl := Option.some.inj hc
      rfl
  | @grant b _ _ _ _ fresh _ cleaned =>
    -- custody was resolved, so it is of an attempt that is known
    have hknown : ∀ c, L.custody = some c → ∃ t, L.attempts c.attempt = some t :=
      fun c hc => hL.known c hc (.inr (cleaned c hc))
    refine ⟨fun c hc _ x hx => ?_, fun c hc _ => ?_⟩
    · obtain ⟨t, ht⟩ := hknown c hc
      obtain rfl := Option.some.inj hx
      rintro rfl
      cases fresh.symm.trans ht
    · obtain ⟨t, ht⟩ := hknown c hc
      obtain ⟨t', ht', _⟩ := hstep.attempt_kept ht
      exact ⟨t', ht'⟩
  | retain =>
    refine ⟨fun c hc _ => ?_, fun c hc hp => ?_⟩
    · obtain rfl := Option.some.inj hc
      exact unheld_filter
    · obtain rfl := Option.some.inj hc
      rcases hp with hp | hp <;> cases hp
  | @fence a w =>
    rcases pended_cases a w L.custody with ⟨c, hc, hp⟩ | hp
    · refine hL.kept hstep ?_ fun _ hx => hx
      show some (pended a w L.custody) = L.custody
      rw [hp, hc]
    · refine .open fun c hc => ?_
      obtain rfl := Option.some.inj hc
      rw [hp]
      rfl
  | detach _ _ attempt | close _ attempt =>
    refine ⟨fun c hc _ => ?_, fun c hc _ => ?_⟩
    · obtain rfl := Option.some.inj hc
      exact unheld_filter
    · obtain rfl := Option.some.inj hc
      exact ⟨_, Function.update_self ..⟩
  | begin =>
    refine .open fun c hc => ?_
    obtain rfl := Option.some.inj hc
    rfl
  | advance =>
    refine .open fun c hc => ?_
    obtain rfl := Option.some.inj hc
    simpa [Act.ordinary] using hok
  | @resolve c custody phase =>
    have hp : c.phase.parked = true := by rcases phase with hp | hp <;> rw [hp] <;> rfl
    refine ⟨fun d hd _ => ?_, fun d hd _ => ?_⟩
    · obtain rfl := Option.some.inj hd
      exact hL.unheld c custody hp
    · obtain rfl := Option.some.inj hd
      exact hL.known c custody phase
  | release => exact hL.kept hstep rfl nofun
  | _ => exact hL.kept hstep rfl fun _ hx => hx

/-! ## Reservations that are due, and discharged -/

/-- The attempt is reserved and its custody is open. -/
structure Awaiting (L : Life) (a : AttemptId) (w : WorkerId) : Prop where
  held : L.held = some ⟨a, w⟩
  custody : ∃ ph, L.custody = some ⟨a, w, ph⟩ ∧ ph.parked = false

/-- The attempt is finished and nothing is reserved for it. -/
structure Ended (L : Life) (a : AttemptId) : Prop where
  finished : ∃ v, L.attempts a = some ⟨v, true⟩
  unheld : Unheld L a

/-- The attempt is retained, or its cleanup was asked for since, and nothing is reserved for it. -/
structure Shelved (L : Life) (a : AttemptId) (w : WorkerId) : Prop where
  known : ∃ t, L.attempts a = some t
  unheld : Unheld L a
  custody : ∃ ph, L.custody = some ⟨a, w, ph⟩ ∧ (ph = .retained ∨ ph = .cleanupPending)

theorem Ended.step (hL : Ended L a) (h : Step L act L') : Ended L' a := by
  obtain ⟨v, hv⟩ := hL.finished
  refine ⟨?_, hL.unheld.step hv h⟩
  obtain ⟨⟨v', f⟩, ht, _, hfin⟩ := h.attempt_kept hv
  obtain rfl : f = true := hfin rfl
  exact ⟨v', ht⟩

theorem ended_of_finalize (h : Step L (.finalize a) L') : Ended L' a := by
  cases h with
  | detach | close => exact ⟨⟨_, Function.update_self ..⟩, unheld_filter⟩

theorem Awaiting.advance (hL : Awaiting L a w) {ph : CleanupDisposition} (hp : ph.parked = false)
    (h : Step L (.advance ph) L') : Awaiting L' a w := by
  obtain ⟨_, hc, _⟩ := hL.custody
  cases h with
  | advance custody =>
    obtain rfl := Option.mem_unique hc custody
    exact ⟨hL.held, ph, rfl, hp⟩

theorem Awaiting.step (hL : Awaiting L a w) (hs : act.steers = false) (h : Step L act L') :
    Awaiting L' a w ∨ Ended L' a := by
  have hstep := h
  obtain ⟨ph, hc, hp⟩ := hL.custody
  cases h with
  | grant _ _ unheld => cases unheld.symm.trans hL.held
  | @fence b v _ held active =>
    obtain ⟨rfl, _⟩ := Holding.mk.inj (Option.mem_unique hL.held held)
    refine .inl ⟨hL.held, ?_⟩
    simp only [hc, pended]
    split
    · exact ⟨_, rfl, rfl⟩
    · exact ⟨ph, rfl, hp⟩
  | detach _ custody | close custody =>
    obtain ⟨rfl, _⟩ := Custody.mk.inj (Option.mem_unique hc custody)
    exact .inr (ended_of_finalize hstep)
  | begin closed => cases closed.symm.trans hc
  | @advance _ next custody =>
    have hnext : next = .cleanupPending := by simpa [Act.steers] using hs
    exact .inl (hL.advance (by rw [hnext]; rfl) hstep)
  | resolve custody phase =>
    obtain rfl := Option.mem_unique hc custody
    rcases phase with hphase | hphase <;> rw [show ph = _ from hphase] at hp <;> cases hp
  | release | retain | progress => cases hs
  | _ => exact .inl ⟨hL.held, ph, hc, hp⟩

theorem Shelved.step (hL : Shelved L a w) (hs : act.steers = false) (h : Step L act L') :
    Shelved L' a w := by
  obtain ⟨t, ht⟩ := hL.known
  obtain ⟨ph, hc, hp⟩ := hL.custody
  obtain ⟨t', ht', _⟩ := h.attempt_kept ht
  refine ⟨⟨t', ht'⟩, hL.unheld.step ht h, ?_⟩
  cases h with
  | fence held =>
    refine ⟨ph, ?_, hp⟩
    have hother : ∀ {b v}, b ≠ a → pended b v (some ⟨a, w, ph⟩) = ⟨a, w, ph⟩ :=
      fun hne => if_neg fun hd => hne hd.1.symm
    rw [hc, hother (hL.unheld _ held)]
  | detach _ custody | close custody =>
    obtain ⟨_, _, rfl⟩ := Custody.mk.inj (Option.mem_unique hc custody)
    rcases hp with hp | hp <;> cases hp
  | begin closed => cases closed.symm.trans hc
  | @advance _ next custody =>
    obtain rfl := Option.mem_unique hc custody
    exact ⟨next, rfl, .inr (by simpa [Act.steers] using hs)⟩
  | resolve custody phase =>
    obtain rfl := Option.mem_unique hc custody
    rcases hp with rfl | rfl <;> rcases phase with hph | hph <;> cases hph
  | release | retain | progress => cases hs
  | _ => exact ⟨ph, hc, hp⟩

theorem Awaiting.retain (hL : Awaiting L a w) (hlinked : Linked L) (h : Step L .retain L') :
    Shelved L' a w := by
  obtain ⟨ph, hc, _⟩ := hL.custody
  obtain ⟨f, hf⟩ := hlinked.attempt _ hL.held
  cases h with
  | retain _ _ _ custody =>
    obtain rfl := Option.mem_unique hc custody
    exact ⟨⟨_, hf⟩, unheld_filter, _, rfl, .inl rfl⟩

end Life

/-! ## Calls -/

/-- Calls that only the worker of `e` makes for it. -/
def StoreCall.steers {β : Type} (e : ExecutionId) : StoreCall β → Bool
  | .recordProgress x _ _ => x.id = e
  | .release id | .releaseAttempt id _ | .commitRetainedAndReleaseCapacity id _ => id = e
  | .transitionCleanup id _ next _ => id = e && next ≠ .cleanupPending
  | _ => false

theorem StoreCall.unsteered {β : Type} {e : ExecutionId} {call : StoreCall β} {act : Life.Act}
    (hc : call.steers e = false) (hact : call.performs e act) : act.steers = false := by
  cases act with
  | release | retain | progress a st =>
    cases call <;> simp_all [performs, steers]
  | advance ph => cases call <;> simp_all [performs, steers, Life.Act.steers]
  | _ => rfl

/-- Nobody parks an authority by a mere transition. -/
def StoreCall.ordinary {β : Type} : StoreCall β → Bool
  | .transitionCleanup _ _ next _ => !next.parked
  | _ => true

def ordinary : Store → Label → Prop := fun _ l => l.call.ordinary = true

instance : ∀ s l, Decidable (ordinary s l) :=
  fun _ l => inferInstanceAs (Decidable (l.call.ordinary = true))

theorem StoreCall.ordinary_of_performs {β : Type} {e : ExecutionId} {call : StoreCall β}
    {act : Life.Act} (hc : call.ordinary = true) (hact : call.performs e act) :
    act.ordinary = true := by
  cases act with
  | advance ph => cases call <;> simp_all [performs, ordinary, Life.Act.ordinary]; rfl
  | _ => rfl

theorem Store.parked_of_reaches {s : Store} (h : Reaches Step ordinary Store.initial s)
    (e : ExecutionId) : (s.life e).Parked := by
  refine Reaches.invariant (I := fun t => (t.life e).Parked) (fun s₁ l s₂ hI hok hst => ?_) h
    Life.parked_unborn
  rcases Store.life_step hst e with hsame | ⟨act, hact, hstep⟩
  · rw [hsame]
    exact hI
  · exact hI.step (StoreCall.ordinary_of_performs hok hact) hstep

/-! ## Facts that last -/

/-- Others make any call of the store that does not steer `e`. -/
def Bystanders (e : ExecutionId) (s s' : World) : Prop :=
  ∃ l : Label, Step s.store l s'.store ∧ l.call.steers e = false

/-- A startup beside others who leave `e` to its worker. -/
def startup (e : ExecutionId) : Setting WorkerCall World where
  sem := WorkerCall.Does
  env := Bystanders e
  safe _ := True

/-- A fact of a life that only its worker can change. -/
structure Lasting where
  holds : Life → Prop
  kept : ∀ {L act L'}, act.steers = false → Life.Step L act L' → holds L → holds L'

namespace Lasting

variable {α : Type} {e : ExecutionId} {a : AttemptId} {w : WorkerId} {F : Lasting}

theorem unsteered (F : Lasting) {β : Type} {call : StoreCall β} {s s' : Store}
    (hc : call.steers e = false) (h : s' = s ∨ ∃ now, Committed now s call s')
    (hs : F.holds (s.life e)) : F.holds (s'.life e) := by
  rcases h with rfl | ⟨now, hcom⟩
  · exact hs
  rcases Store.life_committed hcom e with hsame | ⟨act, hact, hstep⟩
  · rw [hsame]
    exact hs
  · exact F.kept (StoreCall.unsteered hc hact) hstep hs

def of (F : Lasting) (e : ExecutionId) : Assertion (startup e) where
  holds s := F.holds (s.store.life e)
  stable := fun ⟨_, hst, hc⟩ hs => F.unsteered hc (hst.cases.imp_right fun hcom => ⟨_, hcom⟩) hs
  within _ := trivial

/-- The reservation of the attempt is to be dealt with, unless the attempt ended. -/
def due (a : AttemptId) (w : WorkerId) : Lasting where
  holds L := L.Linked ∧ (L.Awaiting a w ∨ L.Ended a)
  kept hs hst h := ⟨h.1.step hst, h.2.elim (fun hL => hL.step hs hst) fun hL => .inr (hL.step hst)⟩

def discharged (a : AttemptId) (w : WorkerId) : Lasting where
  holds L := L.Ended a ∨ L.Shelved a w
  kept hs hst h := h.imp (fun hL => hL.step hst) fun hL => hL.step hs hst

def ended (a : AttemptId) : Lasting := ⟨fun L => L.Ended a, fun _ hst hL => hL.step hst⟩

/-- The attempt ended, or its reservation is to be dealt with by a startup that has `noted` it. -/
def pending (a : AttemptId) (w : WorkerId) (noted : Prop) : Lasting where
  holds L := L.Linked ∧ (L.Ended a ∨ L.Awaiting a w ∧ noted)
  kept hs hst h := ⟨h.1.step hst, h.2.elim (fun hL => .inl (hL.step hst)) fun hL =>
    (hL.1.step hs hst).symm.imp_right fun h => ⟨h, hL.2⟩⟩

/-- The execution is adopted, or the reservation of the attempt was dealt with. -/
def handled (a : AttemptId) (w : WorkerId) (adopted : Prop) : Lasting where
  holds L := adopted ∨ (discharged a w).holds L
  kept hs hst := Or.imp_right ((discharged a w).kept hs hst)

def anyhow : Lasting := ⟨fun _ => True, fun _ _ _ => trivial⟩

end Lasting

section Calls
variable {α : Type} {e : ExecutionId}

def WorkerCall.aside {β : Type} (e : ExecutionId) : WorkerCall β → Prop
  | .store c _ => c.steers e = false
  | _ => True

theorem WorkerCall.aside_of_onHost {β : Type} (c : WorkerCall β) (h : c.onHost) : c.aside e := by
  cases c with
  | store c relayed => exact h.elim
  | _ => trivial

theorem WorkerCall.aside_of_acks {β : Type} {id : ExecutionId} (c : WorkerCall β)
    (h : c.acks id) : c.aside e :=
  c.aside_of_onHost (c.onHost_of_tends (c.tends_of_acks h))

theorem does_ok {c : StoreCall (Except StoreError α)} {s s' : World} {x : α}
    (hfail : ∀ err, c.failed err = .error err)
    (h : (WorkerCall.store c false).Does s (.ok x) s') :
    ∃ now, (c.exec now s.store).1 = .ok x ∧ s' = { s with store := (c.exec now s.store).2 } := by
  obtain ⟨now, ⟨hb, hs⟩ | ⟨err, hb, _⟩⟩ := h
  · exact ⟨now, hb.symm, hs⟩
  · rw [hfail] at hb
    cases hb

end Calls

namespace Lasting

variable {α : Type} {e : ExecutionId} {F : Lasting}

theorem keeps_aside {β : Type} {c : WorkerCall β} {s s' : World} {b : β} (hs : F.of e s)
    (hsem : (startup e).sem c s b s') (hc : c.aside e) : F.of e s' := by
  cases c with
  | store c relayed =>
    have hdoes : (WorkerCall.store c relayed).Does s b s' := hsem
    obtain ⟨t, rfl, ht⟩ := does_store hdoes
    exact F.unsteered hc ht hs
  | storage id c | runtime id op =>
    obtain ⟨_, _, rfl⟩ := hsem
    exact hs
  | agent c =>
    obtain rfl : s' = s := hsem
    exact hs

theorem triple_aside {p : Effect α} (hp : p.run.Only (WorkerCall.aside e)) : (F.of e).KeptBy p :=
  .of_only hp fun _ _ _ _ hc hs hsem => keeps_aside hs hsem hc

theorem triple_store {c : StoreCall (Except StoreError α)} {P : Assertion (startup e)}
    {Q : α → Assertion (startup e)} (hfail : ∀ err, c.failed err = .error err)
    (hok : ∀ s now x t, P s → c.exec now s.store = (.ok x, t) → Q x { s with store := t }) :
    TripleE P (store c) Q (anyhow.of e) := by
  refine .attemptAs (fun s x s' hs hsem => ?_) fun _ _ _ _ _ => trivial
  obtain ⟨now, hexec, rfl⟩ := does_ok hfail hsem
  exact hok s now x _ hs (Prod.ext hexec rfl)

theorem triple_lookUp {id : ExecutionId} :
    (F.of e).Learns (store (.getExecution id)) fun x => x.id = id := by
  refine .attemptAs (fun s x s' hs hsem => ⟨keeps_aside hs hsem rfl, ?_⟩)
    fun s _ s' hs hsem => keeps_aside hs hsem rfl
  obtain ⟨now, hget, _⟩ := does_ok (fun _ => rfl) hsem
  obtain ⟨row, hfind, rfl⟩ := Store.getExecution_eq_ok.1 hget
  exact Store.execution_id hfind

end Lasting

/-! ## The authority of the execution -/

namespace Watched

open Lasting

variable {e : ExecutionId} {a : AttemptId} {w : WorkerId} {authority : CleanupAuthority}
  {execution : Execution} {d : CleanupDisposition}

theorem triple_transition {handles : CleanupHandles} (hd : d.parked = false)
    {expected : CleanupDisposition} :
    TripleE ((due a w).of e) (store (.transitionCleanup e expected d handles))
      (fun _ => (due a w).of e) (anyhow.of e) := by
  refine triple_store (fun _ => rfl) fun s now _ t hs hexec => ?_
  have hcom : Committed now s.store (.transitionCleanup e expected d handles) t :=
    .transitionCleanup (Txn.run_ok.1 hexec)
  rcases Store.life_committed hcom e with hsame | ⟨act, hact, hstep⟩
  · show (due a w).holds (t.life e)
    rw [hsame]
    exact hs
  · cases act with
    | advance ph =>
      obtain rfl : ph = d := hact.2
      exact ⟨hs.1.step hstep, hs.2.imp (fun hL => hL.advance hd hstep) fun hL => hL.step hstep⟩
    | _ => exact hact.elim

theorem triple_advance (hid : authority.executionId = e) :
    TripleE ((due a w).of e) (advance authority execution d)
      (fun next => ((due a w).of e).and (next.cleaning = true ∧ next.parked = false ∧
        next.stepsLeft + 1 = d.stepsLeft)) (anyhow.of e) := by
  subst hid
  refine TripleE.bind (triple_aside (.provided fun _ =>
    Lifecycle.only_ackCleanupAuthorityStep WorkerCall.aside_of_acks)).insist fun _ => ?_
  refine TripleE.learn (TripleE.of_within Lifecycle.within_cleanupAuthorityStep
    fun c s b s' hc hs hsem => ?_).insist fun next hnext => ?_
  · exact keeps_aside hs hsem (c.aside_of_onHost (c.onHost_of_tends hc))
  · refine TripleE.bind (triple_transition hnext.2.1) fun _ => ?_
    exact TripleE.pure fun _ h => ⟨h, hnext⟩

theorem triple_advanceAll (hid : authority.executionId = e) {n : Nat} (hn : d.stepsLeft = n)
    (hd : d.cleaning = true ∨ d = .cleanupPending) (hp : d.parked = false) :
    TripleE ((due a w).of e) (advanceAll authority execution n d)
      (fun d' => ((due a w).of e).and (d' = .storageReleased)) (anyhow.of e) := by
  induction n generalizing d with
  | zero =>
    refine .pure fun _ h => ⟨h, ?_⟩
    rcases hd with hd | rfl
    · cases d <;> simp_all [CleanupDisposition.cleaning, CleanupDisposition.stepsLeft,
        CleanupDisposition.parked]
    · cases hn
  | succ n ih =>
    refine .learn (triple_advance hid) fun next hnext => ?_
    exact ih (by omega) (.inl hnext.1) hnext.2.1

theorem triple_fencedDisposition (hp : authority.phase.parked = false) :
    TripleE ((due a w).of e) (Worker.fencedDisposition authority)
      (fun d => ((due a w).of e).and
        ((d.cleaning = true ∨ d = .cleanupPending) ∧ d.parked = false)) (anyhow.of e) := by
  unfold Worker.fencedDisposition
  split
  · next hd => exact .pure fun _ h => ⟨h, hd, hp⟩
  · refine .seq (triple_aside (.attemptAs rfl)) (fun _ _ => trivial) fun _ => ?_
    exact .pure fun _ h => ⟨h, .inr rfl, rfl⟩

theorem triple_finalize :
    TripleE ((due a w).of e) (store (.finalizeCleanup e a)) (fun _ => (discharged a w).of e)
      (anyhow.of e) := by
  refine triple_store (fun _ => rfl) fun s now _ t hs hexec => ?_
  have htx := Txn.run_ok.1 hexec
  rcases Store.step_finalizeCleanup htx with ⟨v, hreleased⟩ | hstep
  · rcases hs.2 with hL | hL
    · obtain ⟨ph, hc, hp⟩ := hL.custody
      obtain ⟨_, _, rfl⟩ := Custody.mk.inj (Option.mem_unique hc hreleased)
      cases hp
    · exact (discharged a w).unsteered rfl (.inr ⟨now, .finalizeCleanup htx⟩) (.inl hL)
  · exact .inl (Life.ended_of_finalize hstep)

theorem triple_retain :
    TripleE ((due a w).of e) (store (.commitRetainedAndReleaseCapacity e a))
      (fun _ => (discharged a w).of e) (anyhow.of e) := by
  refine triple_store (fun _ => rfl) fun s now _ t hs hexec => ?_
  have hstep := Store.step_commitRetained (Txn.run_ok.1 hexec)
  exact hs.2.symm.imp (fun hL => hL.step hstep) fun hL => hL.retain hs.1 hstep

theorem triple_tearDown (hid : authority.executionId = e) (ha : authority.attemptId = a)
    (hp : authority.phase.parked = false) :
    TripleE ((due a w).of e) (tearDown authority execution) (fun _ => (discharged a w).of e)
      (anyhow.of e) := by
  refine .learn (triple_fencedDisposition hp) fun d hd => ?_
  refine .learn (triple_advanceAll hid rfl hd.1 hd.2) fun d' hd' => ?_
  subst hd' hid ha
  refine .bind (Q := fun _ => (discharged authority.attemptId w).of authority.executionId)
    (.bind triple_finalize fun _ => .pure fun _ h => h) fun d'' => ?_
  refine .provided (fun _ => ?_) fun _ _ h => h
  refine .bind (triple_aside
    (Lifecycle.only_ackCleanupAuthorityStep WorkerCall.aside_of_acks)).insist fun _ => ?_
  have hresolve : (store (.resolve authority.executionId)).run.Only
      (WorkerCall.aside authority.executionId) := .attemptAs rfl
  exact (triple_aside hresolve).err fun _ _ => trivial

theorem triple_recoverCleanupAuthority (hid : authority.executionId = e)
    (ha : authority.attemptId = a) (hp : authority.phase.parked = false) :
    TripleE ((due a w).of e) (recoverCleanupAuthority authority execution)
      (fun _ => (discharged a w).of e) (anyhow.of e) := by
  have hopen : authority.phase ≠ .retained ∧ authority.phase ≠ .resolved := by
    constructor <;> intro h <;> rw [h] at hp <;> cases hp
  refine .seq (triple_aside (.attemptAs rfl)) (fun _ _ => trivial) fun pending => ?_
  rw [if_neg fun h => hopen.1 h.1]
  refine .bind (.provided (fun _ => triple_tearDown hid ha hp)
    fun hno => absurd hopen.2 hno) fun _ => ?_
  have hcomplete : (Worker.completeCancellation authority).run.Only (WorkerCall.aside e) :=
    .seq (.attemptAs rfl) fun _ => .pure _
  exact (triple_aside (.provided fun _ => hcomplete)).err fun _ _ => trivial

theorem triple_reconcileAuthority {reservations : List Reservation}
    (hid : authority.executionId = e) (ha : authority.attemptId = a)
    (hp : authority.phase.parked = false) :
    TripleE ((due a w).of e) (reconcileAuthority w reservations authority)
      (fun o => (handled a w (∃ x, o = some x ∧ x.id = e)).of e) (anyhow.of e) := by
  have hrecover : ∀ x, TripleE ((due a w).of e)
      (do recoverCleanupAuthority authority x; pure none : Effect (Option Execution))
      (fun o => (handled a w (∃ x, o = some x ∧ x.id = e)).of e) (anyhow.of e) :=
    fun x => .bind (triple_recoverCleanupAuthority hid ha hp) fun _ =>
      .pure fun _ h => .inr h
  refine .seq triple_lookUp (fun _ _ => trivial) fun x => .of_and fun hx => ?_
  refine .seq (triple_aside (.attemptAs rfl)) (fun _ _ => trivial) fun pending => ?_
  cases pending with
  | true => exact hrecover x
  | false =>
    show TripleE _ (reconcileLive w reservations authority x) _ _
    unfold reconcileLive
    split
    · exact .pure fun _ _ => .inl ⟨x, rfl, hx.trans hid⟩
    split
    · rw [hx, hid, ha]
      exact .bind triple_retain fun _ => .pure fun _ h => .inr h
    · refine .seq (triple_aside (.provided fun _ =>
        .seq (.attemptAs rfl) fun _ => .pure _)) (fun _ _ => trivial) fun _ => ?_
      exact hrecover x

/-! ## The other authorities -/

section Elsewhere
variable {reservations : List Reservation} {F : Lasting}

theorem aside_recover (hne : authority.executionId ≠ e) :
    (Worker.recoverCleanupAuthority authority execution).run.Only (WorkerCall.aside e) := by
  refine Worker.only_recoverCleanupAuthority.mono fun c hc => ?_
  cases c with
  | store c r => cases c <;> simp_all [WorkerCall.recovers, WorkerCall.aside, StoreCall.steers]
  | _ => trivial

theorem triple_elsewhere (hne : authority.executionId ≠ e) :
    TripleE (F.of e) (Worker.reconcileAuthority w reservations authority) (fun _ => F.of e)
      (anyhow.of e) := by
  have hrecover : ∀ x, (observe (Worker.recoverCleanupAuthority authority x) :
      Effect (Except WorkerError Unit)).run.Only (WorkerCall.aside e) :=
    fun x => .observe (aside_recover hne)
  have hend : ∀ {p : Effect (Option Execution)}, p.run.Only (WorkerCall.aside e) →
      TripleE (F.of e) p (fun _ => F.of e) (anyhow.of e) :=
    fun hp => (triple_aside hp).err fun _ _ => trivial
  refine .bind (.observe triple_lookUp) fun found => ?_
  cases found with
  | error err => exact .pure fun _ h => h
  | ok x =>
    refine .of_and fun hx => hend (.seq (.observe (.attemptAs rfl))
      fun pending => ?_)
    match pending with
    | .error _ => exact .pure _
    | .ok true => exact .seq (hrecover x) fun _ => .pure _
    | .ok false =>
      show (Worker.reconcileLive w reservations authority x).run.Only _
      unfold Worker.reconcileLive
      split
      · exact .pure _
      split
      · refine .seq (.attemptAs ?_) fun _ => .pure _
        simp [WorkerCall.aside, StoreCall.steers, hx, hne]
      · exact .seq (.seq (.provided fun _ => .seq
          (.attemptAs rfl) fun _ => .pure _) fun _ => .seq (hrecover x) fun _ =>
            .pure _) fun _ => .pure _

end Elsewhere

/-! ## The whole startup -/

section Collect
variable {reservations : List Reservation} {xs : List CleanupAuthority}

theorem triple_collectElsewhere {F : Lasting} (hne : ∀ c ∈ xs, c.executionId ≠ e) :
    TripleE (F.of e) (collect xs (reconcileOne e w reservations)) (fun _ => F.of e)
      (anyhow.of e) := by
  induction xs with
  | nil => exact .pure fun _ h => h
  | cons c xs ih =>
    have hturn : reconcileOne e w reservations c = Worker.reconcileAuthority w reservations c :=
      if_neg (hne c (.head _))
    refine .bind (hturn ▸ triple_elsewhere (hne c (.head _))) fun o => ?_
    exact .bind (ih fun y hy => hne y (.tail _ hy)) fun ys => .pure fun _ h => h

theorem triple_collect (hnodup : (xs.map (·.executionId)).Nodup) (hmem : authority ∈ xs)
    (hid : authority.executionId = e) (ha : authority.attemptId = a)
    (hp : authority.phase.parked = false) :
    TripleE ((due a w).of e) (collect xs (reconcileOne e w reservations))
      (fun ys => (handled a w (∃ x ∈ ys, x.id = e)).of e) (anyhow.of e) := by
  induction xs with
  | nil => cases hmem
  | cons c xs ih =>
    obtain ⟨hnotin, hrest⟩ := List.nodup_cons.1 hnodup
    by_cases hc : c.executionId = e
    · -- it is this one, and the rest are of other executions
      obtain rfl : c = authority := by
        rcases List.mem_cons.1 hmem with h | h
        · exact h.symm
        · exact absurd (List.mem_map.2 ⟨authority, h, hid.trans hc.symm⟩) hnotin
      have hne : ∀ y ∈ xs, y.executionId ≠ e := fun y hy he =>
        hnotin (List.mem_map.2 ⟨y, hy, he.trans hc.symm⟩)
      have hturn : reconcileOne e w reservations c = reconcileAuthority w reservations c := if_pos hc
      refine .bind (hturn ▸ triple_reconcileAuthority hid ha hp) fun o => ?_
      refine .bind (triple_collectElsewhere hne) fun ys => .pure fun s h => ?_
      refine h.imp_left fun ⟨x, hx, hxe⟩ => ⟨x, ?_, hxe⟩
      rw [hx]
      exact .head _
    · have hturn : reconcileOne e w reservations c = Worker.reconcileAuthority w reservations c :=
        if_neg hc
      refine .bind (hturn ▸ triple_elsewhere hc) fun o => ?_
      have hxs : authority ∈ xs := (List.mem_cons.1 hmem).resolve_left fun h => hc (h ▸ hid)
      refine .bind (ih hrest hxs) fun ys => .pure fun s h => ?_
      exact h.imp_left fun ⟨x, hx, hxe⟩ => ⟨x, List.mem_append_right _ hx, hxe⟩

/-- The authority of an attempt whose reservation is due. -/
def Lists (e : ExecutionId) (a : AttemptId) (xs : List CleanupAuthority) : Prop :=
  (xs.map (·.executionId)).Nodup ∧
    ∃ c ∈ xs, c.executionId = e ∧ c.attemptId = a ∧ c.phase.parked = false

theorem triple_listAuthorities :
    TripleE ((due a w).of e) (store (.listAuthorities w))
      (fun xs => (pending a w (Lists e a xs)).of e) (anyhow.of e) := by
  refine triple_store (fun _ => rfl) fun s now xs t hs hexec => ?_
  obtain ⟨hlist, rfl⟩ := Prod.mk.inj hexec
  obtain rfl : s.store.listAuthorities w = xs := Except.ok.inj hlist
  refine ⟨hs.1, hs.2.symm.imp_right fun hL => ⟨hL, ?_⟩⟩
  have hperm := List.perm_insertionSort Store.authorityBefore
    (s.store.authorities.rows.filter fun c => c.workerId = w && c.phase ≠ .resolved)
  refine ⟨(hperm.map _).nodup_iff.2 ((List.filter_sublist.map _).nodup s.store.authorities.nodup), ?_⟩
  obtain ⟨ph, hc, hp⟩ := hL.custody
  obtain ⟨c, hfind, hcustody⟩ := Option.map_eq_some_iff.1 hc
  obtain ⟨rfl, rfl, rfl⟩ := Custody.mk.inj hcustody
  obtain ⟨hrow, he⟩ := Relational.Table.find?_eq_some.1 hfind
  refine ⟨c, hperm.mem_iff.2 (List.mem_filter.2 ⟨hrow, ?_⟩), he, rfl, hp⟩
  have hopen : c.phase ≠ .resolved := fun h => by
    rw [h] at hp
    cases hp
  simpa using hopen

theorem triple_ended {α : Type} {p : Effect α} : ((ended a).of e).KeptBy p := by
  refine .of_only Only.true fun c s b s' _ hs hsem => ?_
  cases c with
  | store c relayed =>
    have hdoes : (WorkerCall.store c relayed).Does s b s' := hsem
    obtain ⟨t, rfl, rfl | ⟨now, hcom⟩⟩ := does_store hdoes
    · exact hs
    rcases Store.life_committed hcom e with hsame | ⟨act, _, hstep⟩
    · show (t.life e).Ended a
      rw [hsame]
      exact hs
    · exact Life.Ended.step hs hstep
  | storage | runtime | agent => exact keeps_aside hs hsem trivial

theorem triple_reconcileStartup :
    TripleE ((due a w).of e) (reconcileStartup e w)
      (fun ys => (handled a w (∃ x ∈ ys, x.id = e)).of e) (anyhow.of e) := by
  refine .seq (triple_aside (.attemptAs rfl)) (fun _ _ => trivial) fun reservations => ?_
  refine .bind triple_listAuthorities fun xs => fun s hs => ?_
  rcases hs.2 with hL | ⟨hL, hnodup, c, hmem, hid, ha, hp⟩
  · have hended : TripleE ((ended a).of e) (collect xs (reconcileOne e w reservations))
        (fun ys => (handled a w (∃ x ∈ ys, x.id = e)).of e) (anyhow.of e) :=
      triple_ended.weaken (fun _ h => h) (fun _ _ h => .inr (.inl h)) fun _ _ => trivial
    exact hended s hL
  · exact triple_collect hnodup hmem hid ha hp s ⟨hs.1, .inl hL⟩

end Collect

end Watched

/-! ## Reservations that were begun -/

namespace Sample

def begun : List Label := assigned ++ [⟨_, .begin ⟨"e"⟩ ⟨"a"⟩ ⟨"w"⟩, 2⟩]

def stages : List Label :=
  [⟨_, .transitionCleanup ⟨"e"⟩ (.active .reserved) (.active .storage) {}, 4⟩,
    ⟨_, .transitionCleanup ⟨"e"⟩ (.active .storage) (.active .worktree) {}, 4⟩,
    ⟨_, .transitionCleanup ⟨"e"⟩ (.active .worktree) (.active .runtime) {}, 4⟩,
    ⟨_, .transitionCleanup ⟨"e"⟩ (.active .runtime) (.active .piStarted) {}, 4⟩,
    ⟨_, .transitionCleanup ⟨"e"⟩ (.active .piStarted) (.active .running) {}, 4⟩,
    ⟨_, .transitionCleanup ⟨"e"⟩ (.active .running) (.active .postPiBeforeEvent) {}, 4⟩]

def delivered : List Label :=
  let ready := inState .reviewReady (some ⟨"session"⟩)
  running ++ stages ++ [⟨_, .recordProgress ready (eventOf ready .reviewReady) true, 5⟩]

def restarted (calls : List Label) : Host :=
  { world := { store := after Store.initial calls, storage := fun _ => {}, runtime := fun _ => {} }
    cues := [], clock := 7 }

def startupAfter (calls : List Label) : Option (Except WorkerError (List Execution)) × Host :=
  play (Host.exec fun _ _ => false) (Watched.reconcileStartup ⟨"e"⟩ ⟨"w"⟩).run (restarted calls)

theorem runs_startupAfter {calls : List Label}
    (h : (startupAfter calls).1.any (fun r => r.toOption.any (·.isEmpty)) = true) :
    Runs WorkerCall.Does (Bystanders ⟨"e"⟩) (Watched.reconcileStartup ⟨"e"⟩ ⟨"w"⟩).run
      (restarted calls).world (.ok []) (startupAfter calls).2.world := by
  obtain ⟨r, hr, hok⟩ := (Option.any_eq_true _ _).mp h
  cases r with
  | error err => exact nomatch hok
  | ok adopted =>
    obtain rfl : adopted = [] := by simpa [Except.toOption] using hok
    exact runs_of_play (Bystanders ⟨"e"⟩) Host.world
      (fun c t b t' hexec => (WorkerCall.tidy_of_answers (Host.answers_of_exec c t b t' hexec)).1) hr

def heldBy (s : Store) : Option (AttemptId × WorkerId) :=
  (s.reservations.find? ⟨"e"⟩).map fun r => (r.attemptId, r.workerId)

/-- A startup of the worker after `calls` in which every call succeeds adopts nothing and leaves the
attempt of its reservation open, with the reservation given back or not. -/
def LeftOpen (calls : List Label) (reserved : Bool) : Prop :=
  Reachable (restarted calls).world.store ∧
  ∃ r s' t, (restarted calls).world.store.reservations.find? ⟨"e"⟩ = some r ∧ r.workerId = ⟨"w"⟩ ∧
    Runs WorkerCall.Does (Bystanders ⟨"e"⟩) (Watched.reconcileStartup ⟨"e"⟩ ⟨"w"⟩).run
      (restarted calls).world (.ok []) s' ∧
    s'.store.attemptOf ⟨"e"⟩ r.attemptId = some t ∧ t.finishedAt = none ∧
    (s'.store.reservations.find? ⟨"e"⟩).isSome = reserved

theorem leftOpen_of_play {calls : List Label} {reserved : Bool}
    (hheld : heldBy (restarted calls).world.store = some (⟨"a"⟩, ⟨"w"⟩))
    (hplay : (startupAfter calls).1.any (fun r => r.toOption.any (·.isEmpty)) = true)
    (hopen : ((startupAfter calls).2.world.store.attemptOf ⟨"e"⟩ ⟨"a"⟩).any
      (·.finishedAt.isNone) = true)
    (hleft : ((startupAfter calls).2.world.store.reservations.find? ⟨"e"⟩).isSome = reserved) :
    LeftOpen calls reserved := by
  obtain ⟨r, hr, heq⟩ := Option.map_eq_some_iff.1 hheld
  obtain ⟨hra, hrw⟩ := Prod.mk.inj heq
  obtain ⟨t, ht, hfin⟩ := (Option.any_eq_true _ _).mp hopen
  exact ⟨reachable_after calls, r, _, t, hr, hrw, runs_startupAfter hplay, hra.symm ▸ ht,
    Option.isNone_iff_eq_none.1 hfin, hleft⟩

end Sample

end Orchestrator
