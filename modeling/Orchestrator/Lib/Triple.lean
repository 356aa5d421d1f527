import Orchestrator.Lib.Program

/-!
# Triples under interference

Pre- and postconditions for programs whose calls are interleaved with steps of others and which may
be cut off after any call. A `Setting` says what calls do, what the others may do in between, and
what has to be `safe` at every moment; an `Assertion` is a predicate that the others keep and that is
safe. `Triple P p Q` then covers both ends of a run: what a complete run returns meets `Q`, and a run
that is cut off anywhere is safe there. There is one form for plain programs, one for programs that
may fail (`TripleE`) and one for programs that may fail and carry a local state (`TripleS`), each with
its rules for sequencing, calls and failures.
-/

namespace Prog

universe u v

variable {C D : Type → Type} {α β γ ε ε' l : Type} {σ : Type u} {τ : Type v}

/-- What calls do, what others may do in between, and what must hold at every moment. -/
structure Setting (C : Type → Type) (σ : Type u) where
  sem : {β : Type} → C β → σ → β → σ → Prop
  env : σ → σ → Prop
  safe : σ → Prop

/-- A predicate that the others keep and that is safe. -/
structure Assertion (K : Setting C σ) where
  holds : σ → Prop
  stable : ∀ {s s'}, K.env s s' → holds s → holds s'
  within : ∀ {s}, holds s → K.safe s

namespace Assertion

variable {K : Setting C σ}

instance : CoeFun (Assertion K) fun _ => σ → Prop := ⟨Assertion.holds⟩

theorem wait (P : Assertion K) {s s' : σ} (h : Relation.ReflTransGen K.env s s') (hs : P s) :
    P s' := by
  induction h with
  | refl => exact hs
  | tail _ hst ih => exact P.stable hst ih

/-- `P`, and a fact that does not depend on the state. -/
def and (P : Assertion K) (φ : Prop) : Assertion K where
  holds s := P s ∧ φ
  stable hst h := ⟨P.stable hst h.1, h.2⟩
  within h := P.within h.1

def some (P : α → Assertion K) : Assertion K where
  holds s := ∃ a, P a s
  stable hst := fun ⟨a, h⟩ => ⟨a, (P a).stable hst h⟩
  within := fun ⟨a, h⟩ => (P a).within h

/-- `Q` of a result, `E` after an error. -/
def outcome (Q : α → Assertion K) (E : Assertion K) : Except ε α → Assertion K
  | .ok a => Q a
  | .error _ => E

end Assertion

/-- Started in `s`, `p` is safe at every moment and returns only what meets `Q`. -/
def Ensures (K : Setting C σ) (Q : α → Assertion K) : Prog C α → σ → Prop
  | .pure a, s => Q a s
  | .call c k, s => ∀ s₁, Relation.ReflTransGen K.env s s₁ →
      K.safe s₁ ∧ ∀ b s₂, K.sem c s₁ b s₂ → Ensures K Q (k b) s₂

section Ensures
variable {K : Setting C σ} {Q : α → Assertion K} {p : Prog C α} {s s' : σ}

theorem Ensures.of_runs {a : α} (h : p.Ensures K Q s) (hr : Runs K.sem K.env p s a s') :
    Q a s' := by
  induction hr with
  | done wait => exact (Q _).wait wait h
  | step wait act _ ih => exact ih ((h _ wait).2 _ _ act)

theorem Ensures.of_dies (h : p.Ensures K Q s) (hd : Dies K.sem K.env p s s') : K.safe s' := by
  induction hd with
  | @here p s s' wait =>
    cases p with
    | pure a => exact (Q a).within ((Q a).wait wait h)
    | call c k => exact (h _ wait).1
  | step wait act _ ih => exact ih ((h _ wait).2 _ _ act)

theorem Ensures.mono {R : α → Assertion K} (hQR : ∀ a s, Q a s → R a s) (h : p.Ensures K Q s) :
    p.Ensures K R s := by
  induction p generalizing s with
  | pure a => exact hQR a s h
  | call c k ih => exact fun s₁ hw => ⟨(h s₁ hw).1, fun b s₂ hc => ih b ((h s₁ hw).2 b s₂ hc)⟩

theorem Ensures.bind {f : α → Prog C β} {R : β → Assertion K} (h : p.Ensures K Q s)
    (hf : ∀ a s, Q a s → (f a).Ensures K R s) : (p >>= f).Ensures K R s := by
  induction p generalizing s with
  | pure a => exact hf a s h
  | call c k ih =>
    exact fun s₁ hw => ⟨(h s₁ hw).1, fun b s₂ hc => ih b ((h s₁ hw).2 b s₂ hc)⟩

end Ensures

/-! ## Programs -/

/-- From `P`, program `p` is safe at every moment and returns only what meets `Q`. -/
def Triple {K : Setting C σ} (P : Assertion K) (p : Prog C α) (Q : α → Assertion K) : Prop :=
  ∀ s, P s → p.Ensures K Q s

namespace Triple

variable {K : Setting C σ} {P P' : Assertion K} {Q Q' : α → Assertion K}

variable {p : Prog C α}

theorem bind {f : α → Prog C β} {R : β → Assertion K} (hp : Triple P p Q)
    (hf : ∀ a, Triple (Q a) (f a) R) : Triple P (p >>= f) R :=
  fun s hs => (hp s hs).bind fun a s ha => hf a s ha

theorem ask {c : C α} (h : ∀ s a s', P s → K.sem c s a s' → Q a s') : Triple P (ask c) Q :=
  fun _ hs _ hw => ⟨P.within (P.wait hw hs), fun b s₂ hc => h _ b s₂ (P.wait hw hs) hc⟩

theorem weaken (h : Triple P p Q) (hP : ∀ s, P' s → P s)
    (hQ : ∀ a s, Q a s → Q' a s) : Triple P' p Q' :=
  fun s hs => (h s (hP s hs)).mono hQ

variable {ok : {β : Type} → C β → Prop}

/-- A program keeps what each of its calls keeps, and returns what it can return. -/
theorem of_within {S : α → Prop} (hp : p.Within ok S)
    (hok : ∀ {β : Type} (c : C β) s b s', ok c → P s → K.sem c s b s' → P s') :
    Triple P p fun a => P.and (S a) := by
  induction p with
  | pure a => exact fun _ hs => ⟨hs, hp⟩
  | call c k ih =>
    intro s hs s₁ hw
    have hs₁ := P.wait hw hs
    exact ⟨P.within hs₁, fun b s₂ hc => ih b (hp.2 b) s₂ (hok c _ _ _ hp.1 hs₁ hc)⟩

theorem of_only (hp : p.Only ok)
    (hok : ∀ {β : Type} (c : C β) s b s', ok c → P s → K.sem c s b s' → P s') :
    Triple P p fun _ => P :=
  weaken (of_within hp.within hok) (fun _ hs => hs) fun _ _ hs => hs.1

end Triple

/-! ## Programs that may fail -/

/-- From `P`, program `p` ends in `Q` or, with an error, in `E`. -/
def TripleE {K : Setting C σ} (P : Assertion K) (p : ExceptT ε (Prog C) α) (Q : α → Assertion K)
    (E : Assertion K) : Prop :=
  Triple P p.run (Assertion.outcome Q E)

/-- Program `p` keeps `P`, also when it fails. -/
abbrev Assertion.KeptBy {K : Setting C σ} (P : Assertion K) (p : ExceptT ε (Prog C) α) : Prop :=
  TripleE P p (fun _ => P) P

/-- Program `p` keeps `P`, and what it returns meets `R`. -/
abbrev Assertion.Learns {K : Setting C σ} (P : Assertion K) (p : ExceptT ε (Prog C) α)
    (R : α → Prop) : Prop :=
  TripleE P p (fun a => P.and (R a)) P

namespace TripleE

variable {K : Setting C σ} {P P' E E' : Assertion K} {Q Q' : α → Assertion K}

theorem pure {a : α} (h : ∀ s, P s → Q a s) :
    TripleE P (Pure.pure a : ExceptT ε (Prog C) α) Q E := h

variable {e : ε} {p : ExceptT ε (Prog C) α} {f : α → ExceptT ε (Prog C) β} {R : β → Assertion K}

theorem throw (h : ∀ s, P s → E s) : TripleE P (MonadExcept.throw e : ExceptT ε (Prog C) α) Q E := h

theorem bind (hp : TripleE P p Q E) (hf : ∀ a, TripleE (Q a) (f a) R E) : TripleE P (p >>= f) R E :=
  Triple.bind hp fun r => match r with
    | .ok a => hf a
    | .error _ => fun _ hs => hs

theorem attempt {c : C (Except ε α)} (hok : ∀ s a s', P s → K.sem c s (.ok a) s' → Q a s')
    (herr : ∀ s e s', P s → K.sem c s (.error e) s' → E s') : TripleE P (attempt c) Q E :=
  Triple.ask fun s r s' hs hc => match r with
    | .ok a => hok s a s' hs hc
    | .error e => herr s e s' hs hc

theorem attemptAs {f : ε → ε'} {c : C (Except ε α)}
    (hok : ∀ s a s', P s → K.sem c s (.ok a) s' → Q a s')
    (herr : ∀ s e s', P s → K.sem c s (.error e) s' → E s') : TripleE P (attemptAs f c) Q E :=
  Triple.bind (attempt hok herr) fun r => match r with
    | .ok _ | .error _ => fun _ hs => hs

theorem guard {p : Prop} [Decidable p] {R : Assertion K} (hno : ∀ s, P s → ¬p → R s)
    (hyes : ∀ s, P s → p → E s) : TripleE P (Prog.refuse p e) (fun _ => R) E := by
  intro s hs
  unfold Prog.refuse
  split
  · next hp => exact hyes s hs hp
  · next hp => exact hno s hs hp

theorem refuse {p : Prop} [Decidable p] (herr : ∀ s, P s → p → E s) :
    TripleE P (refuse p e) (fun _ => P.and ¬p) E :=
  guard (fun _ hs hp => ⟨hs, hp⟩) herr

theorem provided {p : Prop} [Decidable p] {t : ExceptT ε (Prog C) Unit} {R : Assertion K}
    (hyes : p → TripleE P t (fun _ => R) E) (hno : ¬p → ∀ s, P s → R s) :
    TripleE P (provided p t) (fun _ => R) E := by
  unfold Prog.provided
  split
  · next hp => exact hyes hp
  · next hp => exact fun s hs => hno hp s hs

theorem demand {o : Option α} (herr : ∀ s, P s → E s) :
    TripleE P (demand o e) (fun a => P.and (o = Option.some a)) E := by
  intro s hs
  cases o with
  | none => exact herr s hs
  | some a => exact ⟨hs, rfl⟩

theorem unwrap {r : Except ε α} (hok : ∀ s a, P s → r = .ok a → Q a s)
    (herr : ∀ s, P s → E s) : TripleE P (unwrap r) Q E := by
  intro s hs
  cases r with
  | ok a => exact hok s a hs rfl
  | error e => exact herr s hs

theorem whenSome {o : Option γ} {f : γ → ExceptT ε (Prog C) Unit} {R : Assertion K}
    (hsome : ∀ a, o = Option.some a → TripleE P (f a) (fun _ => R) E)
    (hnone : o = none → ∀ s, P s → R s) : TripleE P (whenSome o f) (fun _ => R) E := by
  cases o with
  | none => exact fun s hs => hnone rfl s hs
  | some a => exact hsome a rfl

theorem observe (hp : TripleE P p Q E) :
    TripleE P (observe p : ExceptT ε' (Prog C) _) (Assertion.outcome Q E) E' :=
  Triple.bind hp fun _ => fun _ hs => hs

theorem insist {halt : C Empty} (hp : TripleE P p Q E) :
    TripleE P (insist halt p : ExceptT ε' (Prog C) α) Q E' :=
  Triple.bind hp fun r => match r with
    | .ok _ => fun _ hs => hs
    | .error _ => fun _ hs _ hw => ⟨E.within (E.wait hw hs), nofun⟩

theorem weaken (h : TripleE P p Q E) (hP : ∀ s, P' s → P s)
    (hQ : ∀ a s, Q a s → Q' a s) (hE : ∀ s, E s → E' s) : TripleE P' p Q' E' :=
  Triple.weaken h hP fun r => match r with
    | .ok a => hQ a
    | .error _ => hE

theorem pre (h : TripleE P p Q E) (hP : ∀ s, P' s → P s) : TripleE P' p Q E :=
  h.weaken hP (fun _ _ hq => hq) fun _ he => he

theorem post (h : TripleE P p Q E) (hQ : ∀ a s, Q a s → Q' a s) : TripleE P p Q' E :=
  h.weaken (fun _ hs => hs) hQ fun _ he => he

theorem err (h : TripleE P p Q E) (hE : ∀ s, E s → E' s) : TripleE P p Q E' :=
  h.weaken (fun _ hs => hs) (fun _ _ hq => hq) hE

/-- Sequencing, when the first part fails in a state of its own. -/
theorem seq {F : Assertion K} (hp : TripleE P p Q F) (hE : ∀ s, F s → E s)
    (hf : ∀ a, TripleE (Q a) (f a) R E) : TripleE P (p >>= f) R E :=
  bind (hp.err hE) hf

/-- A fact of the precondition may be used to prove the triple. -/
theorem of_and {φ : Prop} (h : φ → TripleE P p Q E) : TripleE (P.and φ) p Q E :=
  fun s hs => h hs.2 s hs.1

/-- Sequencing, when the first part has learnt a fact. -/
theorem learn {φ : α → Prop} (hp : TripleE P p (fun a => (Q a).and (φ a)) E)
    (hf : ∀ a, φ a → TripleE (Q a) (f a) R E) : TripleE P (p >>= f) R E :=
  bind hp fun a => of_and (hf a)

/-- What the precondition says of some `a` may be used of a given one. -/
theorem of_some {R : γ → Assertion K} (h : ∀ a, TripleE (R a) p Q E) :
    TripleE (Assertion.some R) p Q E :=
  fun s ⟨a, hs⟩ => h a s hs

variable {ok : {β : Type} → C β → Prop}

theorem of_only (hp : p.run.Only ok)
    (hok : ∀ {β : Type} (c : C β) s b s', ok c → P s → K.sem c s b s' → P s') :
    P.KeptBy p :=
  Triple.weaken (Triple.of_only hp hok) (fun _ hs => hs) fun r _ hs => match r with
    | .ok _ => hs
    | .error _ => hs

theorem of_within {S : α → Prop} (hp : p.run.Within ok fun r => ∀ a, r = .ok a → S a)
    (hok : ∀ {β : Type} (c : C β) s b s', ok c → P s → K.sem c s b s' → P s') :
    P.Learns p S :=
  Triple.weaken (Triple.of_within hp hok) (fun _ hs => hs) fun r _ hs => match r with
    | .ok a => ⟨hs.1, hs.2 a rfl⟩
    | .error _ => hs.1

theorem forEach {f : γ → ExceptT ε (Prog C) Unit} {I : List γ → Assertion K} {xs : List γ}
    (hstep : ∀ x xs, TripleE (I (x :: xs)) (f x) (fun _ => I xs) E) :
    TripleE (I xs) (forEach xs f) (fun _ => I []) E := by
  induction xs with
  | nil => exact fun _ hs => hs
  | cons x xs ih => exact bind (hstep x xs) fun _ => ih

theorem collect {f : γ → ExceptT ε (Prog C) (Option α)} {I : List γ → Assertion K} (xs : List γ)
    (hstep : ∀ x xs, TripleE (I (x :: xs)) (f x) (fun _ => I xs) E) :
    TripleE (I xs) (collect xs f) (fun _ => I []) E := by
  induction xs with
  | nil => exact fun _ hs => hs
  | cons x xs ih => exact bind (hstep x xs) fun _ => bind ih fun _ => fun _ hs => hs

end TripleE

/-! ### What an error says

`TripleX` tells errors apart: what holds after a failure may depend on the error. -/

/-- `Q` of a result, `E` of an error. -/
def Assertion.verdict {K : Setting C σ} (Q : α → Assertion K) (E : ε → Assertion K) :
    Except ε α → Assertion K
  | .ok a => Q a
  | .error e => E e

/-- From `P`, program `p` ends in `Q` or, with an error `e`, in `E e`. -/
def TripleX {K : Setting C σ} (P : Assertion K) (p : ExceptT ε (Prog C) α) (Q : α → Assertion K)
    (E : ε → Assertion K) : Prop :=
  Triple P p.run (Assertion.verdict Q E)

namespace TripleX

variable {K : Setting C σ} {P P' : Assertion K} {Q : α → Assertion K} {E : ε → Assertion K}

theorem throw {e : ε} (h : ∀ s, P s → E e s) :
    TripleX P (MonadExcept.throw e : ExceptT ε (Prog C) α) Q E := h

variable {p : ExceptT ε (Prog C) α}

theorem bind {f : α → ExceptT ε (Prog C) β} {R : β → Assertion K}
    (hp : TripleX P p Q E) (hf : ∀ a, TripleX (Q a) (f a) R E) : TripleX P (p >>= f) R E :=
  Triple.bind hp fun r => match r with
    | .ok a => hf a
    | .error _ => fun _ hs => hs

/-- After the errors of `p` the same holds of all of them. -/
theorem of_triple {E' : Assertion K} (hp : TripleE P p Q E')
    (hE : ∀ e s, E' s → E e s) : TripleX P p Q E :=
  Triple.weaken hp (fun _ hs => hs) fun r => match r with
    | .ok _ => fun _ hs => hs
    | .error e => hE e

theorem observe {E' : Assertion K} {F : ε' → Assertion K} (hp : TripleE P p Q E') :
    TripleX P (observe p : ExceptT ε' (Prog C) _) (Assertion.outcome Q E') F :=
  Triple.bind hp fun _ => fun _ hs => hs

/-- A fact of the precondition may be used to prove the triple. -/
theorem of_and {φ : Prop} (h : φ → TripleX P p Q E) : TripleX (P.and φ) p Q E :=
  fun s hs => h hs.2 s hs.1

/-- What the precondition says of some `a` may be used of a given one. -/
theorem of_some {R : γ → Assertion K} (h : ∀ a, TripleX (R a) p Q E) :
    TripleX (Assertion.some R) p Q E :=
  fun s ⟨a, hs⟩ => h a s hs

end TripleX

/-! ## Programs with a local state -/

/-- From `P` of the local state, program `t` ends in `Q` or, with an error, in `E`; the local state
is kept on an error. -/
def TripleS {K : Setting C σ} (P : l → Assertion K) (t : ExceptT ε (StateT l (Prog C)) α)
    (Q : α → l → Assertion K) (E : l → Assertion K) : Prop :=
  ∀ x, Triple (P x) (t.run.run x) fun r => Assertion.outcome (fun a => Q a r.2) (E r.2) r.1

/-- Program `t` keeps `P` of the local state it leaves. -/
abbrev KeepsS {K : Setting C σ} (P : l → Assertion K) (t : ExceptT ε (StateT l (Prog C)) α) : Prop :=
  TripleS P t (fun _ => P) P

namespace TripleS

variable {K : Setting C σ} {P P' E E' : l → Assertion K} {Q Q' : α → l → Assertion K}

theorem pure {a : α} (h : ∀ x s, P x s → Q a x s) :
    TripleS P (Pure.pure a : ExceptT ε (StateT l (Prog C)) α) Q E := h

theorem throw {e : ε} (h : ∀ x s, P x s → E x s) :
    TripleS P (MonadExcept.throw e : ExceptT ε (StateT l (Prog C)) α) Q E := h

variable {t : ExceptT ε (StateT l (Prog C)) α}

variable {f : α → ExceptT ε (StateT l (Prog C)) β} {R : β → l → Assertion K}

theorem bind (ht : TripleS P t Q E) (hf : ∀ a, TripleS (Q a) (f a) R E) :
    TripleS P (t >>= f) R E :=
  fun x => Triple.bind (ht x) fun r => match r with
    | (.ok a, y) => hf a y
    | (.error _, _) => fun _ hs => hs

/-- Sequencing, when the first part fails in a state of its own. -/
theorem seq (ht : TripleS P t Q E') (hE : ∀ x s, E' x s → E x s)
    (hf : ∀ a, TripleS (Q a) (f a) R E) : TripleS P (t >>= f) R E :=
  fun x => Triple.bind (ht x) fun r => match r with
    | (.ok a, y) => hf a y
    | (.error _, y) => fun s hs => hE y s hs

theorem await {p : l → ExceptT ε (Prog C) α}
    (h : ∀ x, TripleE (P x) (p x) (fun a => Q a x) (E x)) : TripleS P (await p) Q E :=
  fun x => Triple.bind (h x) fun r => match r with
    | .ok _ | .error _ => fun _ hs => hs

theorem catchS (h : TripleS P t Q E) :
    TripleS P (catchS t) (fun r x => Assertion.outcome (fun a => Q a x) (E x) r) E' :=
  fun x => Triple.bind (h x) fun _ => fun _ hs => hs

theorem look : TripleS P (look : ExceptT ε (StateT l (Prog C)) l)
    (fun y x => (P x).and (x = y)) E :=
  fun _ _ hs => ⟨hs, rfl⟩

theorem update {f : l → l} {R : l → Assertion K} (h : ∀ x s, P x s → R (f x) s) :
    TripleS P (update f : ExceptT ε (StateT l (Prog C)) Unit) (fun _ => R) E :=
  h

theorem named (h : ∀ x₀, TripleS (fun x => (P x).and (x = x₀)) t Q E) : TripleS P t Q E :=
  fun x s hs => h x x s ⟨hs, rfl⟩

theorem weaken (h : TripleS P t Q E)
    (hP : ∀ x s, P' x s → P x s) (hQ : ∀ a x s, Q a x s → Q' a x s) (hE : ∀ x s, E x s → E' x s) :
    TripleS P' t Q' E' :=
  fun x => Triple.weaken (h x) (hP x) fun r => match r with
    | (.ok a, y) => hQ a y
    | (.error _, y) => hE y

theorem post (h : TripleS P t Q E) (hQ : ∀ a x s, Q a x s → Q' a x s) : TripleS P t Q' E :=
  h.weaken (fun _ _ hs => hs) hQ fun _ _ he => he

theorem err (h : TripleS P t Q E) (hE : ∀ x s, E x s → E' x s) : TripleS P t Q E' :=
  h.weaken (fun _ _ hs => hs) (fun _ _ _ hq => hq) hE

/-- A mild program keeps what each of its calls and each change of its local state keeps. -/
theorem of_mild {ok : {β : Type} → C β → Prop} {R : l → l → Prop} (ht : Mild ok R t)
    (hok : ∀ {β : Type} (c : C β) x s b s', ok c → P x s → K.sem c s b s' → P x s')
    (hR : ∀ x y s, R x y → P x s → P y s) : KeepsS P t := by
  intro x
  refine (Triple.of_within (ht x) fun c s b s' hc hs hsem => hok c x s b s' hc hs hsem).weaken
    (fun _ hs => hs) fun r s hs => ?_
  obtain ⟨r, y⟩ := r
  cases r with
  | error e | ok a => exact hR x y s hs.2 hs.1

end TripleS

/-! ## Programs of a component

A component has its own calls and its own part of the state. -/

/-- The part of the state that belongs to a component, and a frame: what holds of the rest, which the
component does not touch. -/
structure Part (K : Setting C σ) (L : Setting D τ) where
  view : τ → σ
  frame : τ → Prop
  view_stable : ∀ {t t'}, L.env t t' → view t' = view t
  frame_stable : ∀ {t t'}, L.env t t' → frame t → frame t'
  within : ∀ {t}, frame t → K.safe (view t) → L.safe t

section Embed
variable {K : Setting C σ} {L : Setting D τ} {f : {β : Type} → C β → D β} {V : Part K L}

/-- An assertion of a component, beside its frame. -/
def Assertion.along (P : Assertion K) (V : Part K L) : Assertion L where
  holds t := V.frame t ∧ P (V.view t)
  stable hst h := ⟨V.frame_stable hst h.1, (V.view_stable hst).symm ▸ h.2⟩
  within h := V.within h.1 (P.within h.2)

theorem Part.wait (V : Part K L) {t t' : τ} (hw : Relation.ReflTransGen L.env t t')
    (ht : V.frame t) : V.frame t' ∧ V.view t' = V.view t := by
  induction hw with
  | refl => exact ⟨ht, rfl⟩
  | tail _ hst ih => exact ⟨V.frame_stable hst ih.1, (V.view_stable hst).trans ih.2⟩

theorem Ensures.embed (hsem : ∀ {β : Type} (c : C β) t b t', V.frame t → L.sem (f c) t b t' →
      V.frame t' ∧ K.sem c (V.view t) b (V.view t')) {p : Prog C α} {Q : α → Assertion K} {t : τ}
    (ht : V.frame t) (h : p.Ensures K Q (V.view t)) :
    (p.embed f).Ensures L (fun a => (Q a).along V) t := by
  induction p generalizing t with
  | pure a => exact ⟨ht, h⟩
  | call c k ih =>
    intro t₁ hw
    obtain ⟨ht₁, hview⟩ := V.wait hw ht
    obtain ⟨hs, hk⟩ := h _ .refl
    refine ⟨V.within ht₁ (hview.symm ▸ hs), fun b t₂ hc => ?_⟩
    obtain ⟨ht₂, hc'⟩ := hsem c t₁ b t₂ ht₁ hc
    exact ih b ht₂ (hk b _ (hview ▸ hc'))

/-- What holds of a component alone holds of it in the larger state, beside everything its calls
leave alone. -/
theorem Triple.embed (hsem : ∀ {β : Type} (c : C β) t b t', V.frame t → L.sem (f c) t b t' →
      V.frame t' ∧ K.sem c (V.view t) b (V.view t')) {P : Assertion K} {p : Prog C α}
    {Q : α → Assertion K} (h : Triple P p Q) :
    Triple (P.along V) (p.embed f) fun a => (Q a).along V :=
  fun _ ht => Ensures.embed hsem ht.1 (h _ ht.2)

end Embed

/-! ### Calls of a larger set

A program makes some of the calls of a larger set, on the same state. -/

/-- The setting, as the calls `f` see it. -/
def Setting.along (L : Setting D σ) (f : {β : Type} → C β → D β) : Setting C σ where
  sem c := L.sem (f c)
  env := L.env
  safe := L.safe

section Along
variable {L : Setting D σ} {f : {β : Type} → C β → D β}

/-- The assertion, as the calls `f` see it. -/
def Assertion.seen (P : Assertion L) (f : {β : Type} → C β → D β) : Assertion (L.along f) where
  holds := P.holds
  stable := P.stable
  within := P.within

theorem Ensures.along {p : Prog C α} {Q : α → Assertion L} {s : σ}
    (h : p.Ensures (L.along f) (fun a => (Q a).seen f) s) : (p.embed f).Ensures L Q s := by
  induction p generalizing s with
  | pure a => exact h
  | call c k ih =>
    exact fun s₁ hw => ⟨(h s₁ hw).1, fun b s₂ hc => ih b ((h s₁ hw).2 b s₂ hc)⟩

theorem TripleE.along {P E : Assertion L} {Q : α → Assertion L} {p : ExceptT ε (Prog C) α}
    (h : TripleE (P.seen f) p (fun a => (Q a).seen f) (E.seen f)) :
    TripleE P (ExceptT.mk (p.run.embed f)) Q E := by
  intro s hs
  refine Ensures.along ((h s hs).mono fun r _ hr => ?_)
  cases r with
  | ok _ => exact hr
  | error _ => exact hr

end Along

end Prog
