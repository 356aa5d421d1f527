import Orchestrator.Storage.Proof.Manager
import Orchestrator.Worker.Proof.Custody

/-!
# Containment

What the host of a worker holds of an execution is accounted for by its cleanup authority: once the
authority says that the runtime is destroyed, or the storage released, nothing of it is left, and
containers are there only under an authority that records the receipt by which they are found again.
A `Fact` is a statement about the three parts of a world that concern one execution: its custody, its
storage and its runtime. This module gives the rules by which the programs of a worker are verified
against such facts, for each kind of call.

`m` says whether storage must be recorded as well at every moment: it is not while a first process
allocates it, and always is from then on.
-/

namespace Orchestrator

open Prog

/-! ## Phases -/

namespace CleanupDisposition

/-- The phases entered after the runtime was destroyed. -/
def runtimeGone : CleanupDisposition → Bool
  | runtimeDestroyed | gitRecoveredCleaned | storageReleased | reservationReleased | resolved => true
  | _ => false

/-- The phases entered after the storage was released. -/
def storageGone : CleanupDisposition → Bool
  | storageReleased | reservationReleased | resolved => true
  | _ => false

theorem cleaning_of_runtimeGone {d : CleanupDisposition} (h : d.runtimeGone = true) :
    d.cleaning = true := by
  cases d <;> first | rfl | cases h

theorem runtimeGone_of_storageGone {d : CleanupDisposition} (h : d.storageGone = true) :
    d.runtimeGone = true := by
  cases d <;> first | rfl | cases h

end CleanupDisposition

abbrev Account := Option (CleanupDisposition × CleanupHandles)

def Durable (c : Account) : Prop := ∃ d h, c = some (d, h) ∧ h.receipt.isSome = true

def Early (c : Account) : Prop := ∀ d h, c = some (d, h) → d.cleaning = false

theorem Durable.calm {c c' : Account} (h : Durable c) (hc : Calm c c') : Durable c' := by
  cases hc with
  | same => exact h
  | opened _ =>
    obtain ⟨_, _, hnone, _⟩ := h
    cases hnone
  | moved _ _ =>
    obtain ⟨_, g, hsome, hr⟩ := h
    cases hsome
    exact ⟨_, _, rfl, hr⟩

theorem Early.calm {c c' : Account} (h : Early c) (hc : Calm c c') : Early c' := by
  cases hc with
  | same => exact h
  | opened hd => rintro _ _ ⟨⟩; exact hd
  | moved _ hd => rintro _ _ ⟨⟩; exact hd

structure Contained (c : Account) (a : Allocation) (r : RuntimeState) : Prop where
  sound : a.Sound
  runtime : ∀ d h, c = some (d, h) → d.runtimeGone = true → r.present = false ∧ r.credential = false
  storage : ∀ d h, c = some (d, h) → d.storageGone = true → a.left = false
  receipt : r.present = true → Durable c

def Recorded (c : Account) (a : Allocation) : Prop := a.left = true → Durable c

variable {c c' : Account} {a : Allocation} {r : RuntimeState}

theorem Contained.of_early (h : Early c) (hs : a.Sound) (hr : r.present = true → Durable c) :
    Contained c a r where
  sound := hs
  runtime d g hd hgone :=
    absurd (CleanupDisposition.cleaning_of_runtimeGone hgone) (by rw [h d g hd]; exact nofun)
  storage d g hd hgone :=
    absurd (CleanupDisposition.cleaning_of_runtimeGone
      (CleanupDisposition.runtimeGone_of_storageGone hgone)) (by rw [h d g hd]; exact nofun)
  receipt := hr

theorem Contained.calm (h : Contained c a r) (hc : Calm c c') : Contained c' a r := by
  cases hc with
  | same => exact h
  | opened hd =>
    refine .of_early (fun _ _ hs => by cases hs; exact hd) h.sound fun hp => ?_
    obtain ⟨_, _, hnone, _⟩ := h.receipt hp
    cases hnone
  | moved _ hd =>
    exact .of_early (fun _ _ hs => by cases hs; exact hd) h.sound fun hp =>
      (h.receipt hp).calm (.moved ‹_› hd)

theorem Recorded.calm (h : Recorded c a) (hc : Calm c c') : Recorded c' a :=
  fun hl => (h hl).calm hc

/-- Nothing of the execution is left. -/
structure Cleared (a : Allocation) (r : RuntimeState) : Prop where
  sound : a.Sound
  storage : a.left = false
  runtime : r.present = false
  credential : r.credential = false

theorem Cleared.contained (h : Cleared a r) : Contained c a r where
  sound := h.sound
  runtime _ _ _ _ := ⟨h.runtime, h.credential⟩
  storage _ _ _ _ := h.storage
  receipt hp := absurd hp (by rw [h.runtime]; exact nofun)

theorem Cleared.recorded (h : Cleared a r) : Recorded c a :=
  fun hl => absurd hl (by rw [h.storage]; exact nofun)

/-! ## Facts -/

/-- The worker of `e` runs alone with `e`; no call of a storage rollback fails. -/
def containment (e : ExecutionId) (m : Prop) : Setting WorkerCall World where
  sem := WorkerCall.Tidy
  env := Others e
  safe w := Named e w.store ∧ Contained (w.store.custody e) (w.storage e) (w.runtime e) ∧
    (m → Recorded (w.store.custody e) (w.storage e))

/-- A statement about the custody, the storage and the runtime of an execution. -/
structure Fact (m : Prop) where
  holds : Account → Allocation → RuntimeState → Prop
  calm : ∀ {c c' a r}, Calm c c' → holds c a r → holds c' a r
  contained : ∀ {c a r}, holds c a r → Contained c a r
  recorded : ∀ {c a r}, holds c a r → m → Recorded c a

instance {m : Prop} : CoeFun (Fact m) fun _ => Account → Allocation → RuntimeState → Prop :=
  ⟨Fact.holds⟩

variable {e : ExecutionId} {m : Prop} {α : Type}

def Fact.of (F : Fact m) (e : ExecutionId) : Assertion (containment e m) where
  holds w := Named e w.store ∧ F (w.store.custody e) (w.storage e) (w.runtime e)
  stable hst h := by
    refine ⟨hst.named h.1, ?_⟩
    rw [hst.storage, hst.runtime]
    exact F.calm hst.custody h.2
  within h := ⟨h.1, F.contained h.2, F.recorded h.2⟩

def Fact.safe (m : Prop) : Fact m where
  holds c a r := Contained c a r ∧ (m → Recorded c a)
  calm hc h := ⟨h.1.calm hc, fun hm => (h.2 hm).calm hc⟩
  contained h := h.1
  recorded h := h.2

def Fact.cleared (m : Prop) : Fact m where
  holds _ a r := Cleared a r
  calm _ h := h
  contained h := h.contained
  recorded h _ := h.recorded

theorem Fact.toSafe (F : Fact m) {w : World} (h : F.of e w) : (Fact.safe m).of e w :=
  ⟨h.1, F.contained h.2, F.recorded h.2⟩

/-! ## Rules -/

section Rules
variable {P : Assertion (containment e m)} {F E : Fact m} {G : α → Fact m}

theorem triple_quiet {p : Effect α} (hp : p.run.Only (WorkerCall.calm e)) : P.KeptBy p :=
  .of_only hp fun _ _ _ _ hc hs hsem => P.stable (others_of_calm hc hsem.1) hs

theorem triple_runtime {op : RuntimeOp (Except String α)}
    (hok : ∀ c a r x r', F c a r → op.Does r (.ok x) r' → G x c a r')
    (herr : ∀ c a r err r', F c a r → op.Does r (.error err) r' → E c a r') :
    TripleE (F.of e) (Effect.runtime e op) (fun x => (G x).of e) (E.of e) := by
  refine .attemptAs (fun w x w' hw hc => ?_) (fun w err w' hw hc => ?_)
  · obtain ⟨⟨r', hr, rfl⟩, _⟩ := hc
    refine ⟨hw.1, ?_⟩
    show G x (w.store.custody e) (w.storage e) (Function.update w.runtime e r' e)
    rw [Function.update_self]
    exact hok _ _ _ _ _ hw.2 hr
  · obtain ⟨⟨r', hr, rfl⟩, _⟩ := hc
    refine ⟨hw.1, ?_⟩
    show E (w.store.custody e) (w.storage e) (Function.update w.runtime e r' e)
    rw [Function.update_self]
    exact herr _ _ _ _ _ hw.2 hr

theorem triple_move {x : StoreCall (Except StoreError Unit)} {H : Fact m} {target : Account}
    {guard : CleanupDisposition → Prop}
    (hdoes : ∀ {w b w'}, (WorkerCall.store x false).Does w b w' → ∃ s', w' = { w with store := s' } ∧
      ((∃ d g, w.store.custody e = some (d, g) ∧ guard d ∧ s'.custody e = target) ∨
        s' = w.store ∧ ∃ err, b = .error err))
    (hok : ∀ d g a r, guard d → F (some (d, g)) a r → H target a r)
    (hE : ∀ c a r, H c a r → E c a r) (herr : ∀ c a r, F c a r → E c a r) :
    TripleE (F.of e) (Effect.store x) (fun _ => H.of e) (E.of e) := by
  have hdone : ∀ {w w' s'}, F.of e w → w' = { w with store := s' } → Named e w'.store →
      (∃ d g, w.store.custody e = some (d, g) ∧ guard d ∧ s'.custody e = target) → H.of e w' := by
    rintro w w' s' hw rfl hn ⟨d, g, hc, hg, ht⟩
    refine ⟨hn, ?_⟩
    show H (s'.custody e) (w.storage e) (w.runtime e)
    rw [ht]
    exact hok d g _ _ hg (hc ▸ hw.2)
  refine .attemptAs (fun w u w' hw hc => ?_) (fun w err w' hw hc => ?_)
  · obtain ⟨s', hs, hdone' | ⟨_, _, herr⟩⟩ := hdoes hc.1
    · exact hdone hw hs (named_store hc.1 hw.1) hdone'
    · cases herr
  · obtain ⟨s', hs, hdone' | ⟨hsame, _⟩⟩ := hdoes hc.1
    · have h := hdone hw hs (named_store hc.1 hw.1) hdone'
      exact ⟨h.1, hE _ _ _ h.2⟩
    · subst hs hsame
      exact ⟨hw.1, herr _ _ _ hw.2⟩

theorem triple_read {x : StoreCall (Except StoreError α)} {f : Store → Except StoreError α}
    {Q : α → Assertion (containment e m)} (hexec : ∀ now s, x.exec now s = (f s, s))
    (hfail : ∀ err, x.failed err = .error err) (hok : ∀ w a, P w → f w.store = .ok a → Q a w) :
    TripleE P (Effect.store x) Q P := by
  have hdoes : ∀ {w b w'}, (WorkerCall.store x false).Does w b w' →
      w' = w ∧ ∀ a, b = .ok a → f w.store = .ok a := by
    rintro w b w' ⟨now, ⟨rfl, rfl⟩ | ⟨err, rfl, hw⟩⟩
    · rw [hexec]
      exact ⟨rfl, fun _ h => h⟩
    · refine ⟨?_, fun a h => ?_⟩
      · rcases hw with rfl | rfl
        · rfl
        · rw [hexec]
      · rw [hfail] at h
        cases h
  refine .attemptAs (fun w a w' hw hc => ?_) (fun w err w' hw hc => ?_)
  · obtain ⟨rfl, ha⟩ := hdoes hc.1
    exact hok _ a hw (ha a rfl)
  · obtain ⟨rfl, _⟩ := hdoes hc.1
    exact hw

end Rules

/-! ## Storage -/

/-- A statement about custody and runtime under which any sound storage is accounted for. -/
structure Rest (m : Prop) where
  holds : Account → RuntimeState → Prop
  calm : ∀ {c c' r}, Calm c c' → holds c r → holds c' r
  contained : ∀ {c a r}, holds c r → a.Sound → Contained c a r
  recorded : ∀ {c a r}, holds c r → m → Recorded c a

/-- The storage of `e`, beside a statement about the rest. -/
def Rest.part (R : Rest m) (e : ExecutionId) : Part ExecutionStorage.setting (containment e m) where
  view w := w.storage e
  frame w := Named e w.store ∧ R.holds (w.store.custody e) (w.runtime e)
  view_stable hst := hst.storage
  frame_stable hst h := ⟨hst.named h.1, hst.runtime.symm ▸ R.calm hst.custody h.2⟩
  within h hs := ⟨h.1, R.contained h.2 hs, R.recorded h.2⟩

theorem triple_storage (R : Rest m) {p : StorageM α} {P E : Assertion ExecutionStorage.setting}
    {Q : α → Assertion ExecutionStorage.setting} (h : TripleE P p Q E) :
    TripleE (P.along (R.part e)) (Effect.storage e p) (fun x => (Q x).along (R.part e))
      (E.along (R.part e)) := by
  have hembed : Triple (P.along (R.part e)) (p.run.embed (.storage e))
      fun r => (Assertion.outcome Q E r).along (R.part e) := by
    refine Triple.embed (fun c w b w' hw hc => ?_) h
    obtain ⟨⟨a, hdoes, rfl⟩, hundo⟩ := hc
    refine ⟨hw, ?_, hundo⟩
    show c.Does (w.storage e) b (Function.update w.storage e a e)
    rw [Function.update_self]
    exact hdoes
  exact hembed.bind fun r => match r with
    | .ok _ => fun _ hs => hs
    | .error _ => fun _ hs => hs

/-! ## Where nothing is left -/

/-- Calls that create nothing of `e`. -/
def WorkerCall.acking {β : Type} (e : ExecutionId) : WorkerCall β → Prop
  | .store _ _ | .agent _ => True
  | .storage id c => id ≠ e ∨ ExecutionStorage.acknowledges c
  | .runtime id _ => id ≠ e

theorem triple_cleared {p : Effect α} (hp : p.run.Only (WorkerCall.acking e)) :
    ((Fact.cleared m).of e).KeptBy p := by
  have hothers : ∀ {w w'}, Others e w w' → (Fact.cleared m).of e w → (Fact.cleared m).of e w' :=
    fun h hw => ((Fact.cleared m).of e).stable h hw
  refine .of_only hp fun c w b w' hc hw hsem => ?_
  cases c with
  | store c r =>
    refine ⟨named_store hsem.1 hw.1, ?_⟩
    obtain ⟨s', rfl, _⟩ := does_store hsem.1
    exact hw.2
  | agent c => exact hothers (others_of_calm (c := .agent c) trivial hsem.1) hw
  | runtime id op => exact hothers (others_of_calm (c := .runtime id op) hc hsem.1) hw
  | storage id c =>
    by_cases hid : id = e
    · subst hid
      obtain ⟨⟨a, hdoes, rfl⟩, _⟩ := hsem
      refine ⟨hw.1, ?_⟩
      show Cleared (Function.update w.storage id a id) (w.runtime id)
      rw [Function.update_self]
      have hold : Cleared (w.storage id) (w.runtime id) := hw.2
      rcases ExecutionStorage.does_acknowledges (hc.resolve_left fun h => h rfl) hdoes with rfl | rfl
      · exact hold
      · exact ⟨⟨hold.sound.ready, nofun⟩, hold.storage, hold.runtime, hold.credential⟩
    · exact hothers (others_of_calm (c := .storage id c) hid hsem.1) hw

/-! ## Stages of a cleanup -/

/-- Phase `d` of a cleanup whose authority records a receipt when `known`. -/
structure Claimed (known : Bool) (d : CleanupDisposition) (c : Account) (a : Allocation)
    (r : RuntimeState) : Prop where
  contained : Contained c a r
  recorded : Recorded c a
  current : ∃ d' h, c = some (d', h) ∧ h.receipt.isSome = known ∧
    (d' = d ∨ d'.cleaning = false ∧ d.cleaning = false)

variable {k : Bool} {d : CleanupDisposition}

theorem Claimed.calm (h : Claimed k d c a r) (hc : Calm c c') : Claimed k d c' a r := by
  refine ⟨h.contained.calm hc, h.recorded.calm hc, ?_⟩
  obtain ⟨d', g, hd', hg, hph⟩ := h.current
  cases hc with
  | same => exact ⟨d', g, hd', hg, hph⟩
  | opened _ => cases hd'
  | moved hold hnew =>
    cases hd'
    refine ⟨_, g, rfl, hg, .inr ⟨hnew, ?_⟩⟩
    rcases hph with rfl | hph
    · exact hold
    · exact hph.2

theorem Claimed.durable_iff (h : Claimed k d c a r) : Durable c ↔ k = true := by
  obtain ⟨d', g, rfl, hg, _⟩ := h.current
  refine ⟨?_, fun hk => ⟨d', g, rfl, hg.trans hk⟩⟩
  rintro ⟨_, _, ⟨⟩, hr⟩
  exact hg.symm.trans hr

structure Known (k : Bool) (a : Allocation) (r : RuntimeState) : Prop where
  sound : a.Sound
  storage : a.left = true → k = true
  runtime : r.present = true → k = true

theorem Claimed.known (h : Claimed k d c a r) : Known k a r :=
  ⟨h.contained.sound, fun hl => h.durable_iff.1 (h.recorded hl),
    fun hp => h.durable_iff.1 (h.contained.receipt hp)⟩

theorem Known.of_sound (h : a.Sound) : Known true a r := ⟨h, fun _ => rfl, fun _ => rfl⟩

theorem Known.claimed (hk : Known k a r) {h : CleanupHandles} (hh : h.receipt.isSome = k)
    (hr : d.runtimeGone = true → r.present = false ∧ r.credential = false)
    (hs : d.storageGone = true → a.left = false) : Claimed k d (some (d, h)) a r where
  contained := {
    sound := hk.sound
    runtime _ _ hd := by cases hd; exact hr
    storage _ _ hd := by cases hd; exact hs
    receipt hp := ⟨d, h, rfl, hh.trans (hk.runtime hp)⟩ }
  recorded hl := ⟨d, h, rfl, hh.trans (hk.storage hl)⟩
  current := ⟨d, h, rfl, hh, .inl rfl⟩

theorem Claimed.at_phase (h : Claimed k d c a r) (hd : d.cleaning = true) :
    ∃ g, c = some (d, g) ∧ g.receipt.isSome = k := by
  obtain ⟨d', g, hc, hg, rfl | ⟨_, hn⟩⟩ := h.current
  · exact ⟨g, hc, hg⟩
  · rw [hd] at hn
    cases hn

theorem Claimed.early (h : Claimed k d c a r) (hd : d.cleaning = false) : Early c := by
  rintro d' g rfl
  obtain ⟨_, _, ⟨⟩, _, rfl | ⟨hn, _⟩⟩ := h.current
  · exact hd
  · exact hn

theorem Claimed.runtime_gone (h : Claimed k d c a r) (hd : d.runtimeGone = true) :
    r.present = false ∧ r.credential = false := by
  obtain ⟨g, hc, _⟩ := h.at_phase (CleanupDisposition.cleaning_of_runtimeGone hd)
  exact h.contained.runtime _ _ hc hd

theorem Claimed.cleared (h : Claimed k d c a r) (hd : d.storageGone = true) : Cleared a r := by
  have hgone := CleanupDisposition.runtimeGone_of_storageGone hd
  obtain ⟨g, hc, _⟩ := h.at_phase (CleanupDisposition.cleaning_of_runtimeGone hgone)
  obtain ⟨hp, hcred⟩ := h.runtime_gone hgone
  exact ⟨h.contained.sound, h.contained.storage _ _ hc hd, hp, hcred⟩

/-- A stage, and a statement about storage and runtime. -/
def Fact.claimed (m : Prop) (k : Bool) (d : CleanupDisposition)
    (X : Allocation → RuntimeState → Prop) : Fact m where
  holds c a r := Claimed k d c a r ∧ X a r
  calm hc h := ⟨h.1.calm hc, h.2⟩
  contained h := h.1.contained
  recorded h _ := h.1.recorded

/-- What has to be gone when a phase is entered. -/
structure Due (d : CleanupDisposition) (a : Allocation) (r : RuntimeState) : Prop where
  runtime : d.runtimeGone = true → r.present = false ∧ r.credential = false
  storage : d.storageGone = true → a.left = false

theorem triple_next {F : Fact m} {expected next : CleanupDisposition} {handles : CleanupHandles}
    {X : Allocation → RuntimeState → Prop}
    (hF : ∀ c a r, F c a r → Known handles.receipt.isSome a r ∧ Due next a r ∧ X a r) :
    TripleE (F.of e) (Effect.store (.transitionCleanup e expected next handles))
      (fun _ => (Fact.claimed m handles.receipt.isSome next X).of e) ((Fact.safe m).of e) := by
  refine triple_move does_transitionCleanup (fun _ g a r _ hf => ?_)
    (fun c a r h => ⟨h.1.contained, fun _ => h.1.recorded⟩)
    fun c a r h => ⟨F.contained h, F.recorded h⟩
  obtain ⟨hk, hdue, hX⟩ := hF _ a r hf
  exact ⟨hk.claimed rfl hdue.runtime hdue.storage, hX⟩

/-- Between the stop of the runtime and its removal, a known runtime may change in any way. -/
theorem Claimed.runtime_change {r' : RuntimeState} (h : Claimed k .runtimeStopped c a r)
    (hp : r'.present = true → k = true) : Claimed k .runtimeStopped c a r' := by
  obtain ⟨g, rfl, hg⟩ := h.at_phase rfl
  have hknown : Known k a r' := ⟨h.known.sound, h.known.storage, hp⟩
  exact hknown.claimed hg nofun nofun

theorem triple_stopped {op : RuntimeOp (Except String α)} {X Z : RuntimeState → Prop}
    {Y : α → RuntimeState → Prop}
    (hp : ∀ b r r', op.Does r b r' → r'.present = true → r.present = true ∨ k = true)
    (hok : ∀ x r r', X r → op.Does r (.ok x) r' → Y x r')
    (herr : ∀ err r r', X r → op.Does r (.error err) r' → Z r') :
    TripleE ((Fact.claimed m k .runtimeStopped fun _ => X).of e) (Effect.runtime e op)
      (fun x => (Fact.claimed m k .runtimeStopped fun _ => Y x).of e)
      ((Fact.claimed m k .runtimeStopped fun _ => Z).of e) := by
  have hchange : ∀ {c a r b r'}, Claimed k .runtimeStopped c a r → op.Does r b r' →
      Claimed k .runtimeStopped c a r' := fun h hd =>
    h.runtime_change fun hpres => (hp _ _ _ hd hpres).elim h.known.runtime fun hk => hk
  exact triple_runtime (fun _ _ _ _ _ h hd => ⟨hchange h.1 hd, hok _ _ _ h.2 hd⟩)
    fun _ _ _ _ _ h hd => ⟨hchange h.1 hd, herr _ _ _ h.2 hd⟩

end Orchestrator
