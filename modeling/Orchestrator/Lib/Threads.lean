import Mathlib.Logic.Function.Basic
import Orchestrator.Lib.Triple

/-!
# Threads that rely on each other

Any number of threads run programs over one shared state, in any interleaving; a thread may die
between any two of its calls, and another one may begin at any moment (`System.Step`). A thread is
proved on its own against a `Contract`: the others keep to `rely`, and each of its steps has to be
within `guar`. `Contract.setting` makes this a `Setting`, so that the rules for triples apply: the
state carries, besides the shared one, the proposition that all steps so far were within the
guarantee. `System.Sound.reachable` puts the threads together: where each guarantee is within what the
others rely on, the invariant that the guarantees keep holds in every state reached.
-/

namespace Prog

variable {C : Type → Type} {α β γ ε ι σ : Type}

/-! ## Contracts -/

/-- What a thread may rely on, and what it has to guarantee. -/
structure Contract (C : Type → Type) (σ : Type) where
  sem : {β : Type} → C β → σ → β → σ → Prop
  rely : σ → σ → Prop
  guar : σ → σ → Prop

namespace Contract

/-- The setting of a thread. Beside the shared state stands whether it kept its guarantee so far. -/
def setting (T : Contract C σ) : Setting C (σ × Prop) where
  sem c x b y := T.sem c x.1 b y.1 ∧ y.2 = (x.2 ∧ T.guar x.1 y.1)
  env x y := T.rely x.1 y.1 ∧ y.2 = x.2
  safe x := x.2

variable {T : Contract C σ}

/-- A predicate that the others keep. -/
def keeping (T : Contract C σ) (P : σ → Prop) (h : ∀ s s', T.rely s s' → P s → P s') :
    Assertion T.setting where
  holds x := P x.1 ∧ x.2
  stable henv hx := ⟨h _ _ henv.1 hx.1, henv.2 ▸ hx.2⟩
  within hx := hx.2

section Rules
variable {P : σ → Prop} {hP : ∀ s s', T.rely s s' → P s → P s'}
variable {E : σ → Prop} {hE : ∀ s s', T.rely s s' → E s → E s'}
variable {Q : β → σ → Prop} {hQ : ∀ b s s', T.rely s s' → Q b s → Q b s'}

end Rules

end Contract

/-! ## Systems of threads -/

/-- What the threads of a system do: their calls, how a program begins, what happens when it returns
and when it dies. -/
structure System (C : Type → Type) (σ ι α : Type) where
  sem : ι → {β : Type} → C β → σ → β → σ → Prop
  begins : ι → Prog C α → σ → σ → Prop
  returns : ι → α → σ → σ → Prop
  dies : ι → σ → σ → Prop

/-- The shared state, and what remains of the program of each thread that runs one. -/
structure Pool (C : Type → Type) (σ ι α : Type) where
  shared : σ
  thread : ι → Option (Prog C α)

namespace System

variable [DecidableEq ι] (S : System C σ ι α)

inductive Step : Pool C σ ι α → Pool C σ ι α → Prop
  | begin {p : Pool C σ ι α} {i : ι} {t : Prog C α} {s : σ} (free : p.thread i = none)
      (act : S.begins i t p.shared s) :
      Step p ⟨s, Function.update p.thread i (some t)⟩
  | call {p : Pool C σ ι α} {i : ι} {β : Type} {c : C β} {k : β → Prog C α} {b : β} {s : σ}
      (next : p.thread i = some (.call c k)) (act : S.sem i c p.shared b s) :
      Step p ⟨s, Function.update p.thread i (some (k b))⟩
  | done {p : Pool C σ ι α} {i : ι} {a : α} {s : σ} (next : p.thread i = some (.pure a))
      (act : S.returns i a p.shared s) : Step p ⟨s, Function.update p.thread i none⟩
  | die {p : Pool C σ ι α} {i : ι} {t : Prog C α} {s : σ} (next : p.thread i = some t)
      (act : S.dies i p.shared s) : Step p ⟨s, Function.update p.thread i none⟩

/-- Nothing runs yet. -/
def start (s : σ) : Pool C σ ι α := ⟨s, fun _ => none⟩

/-- The pools that a run from `s` may reach. -/
def Reaches (s : σ) (p : Pool C σ ι α) : Prop := Relation.ReflTransGen S.Step (start s) p

def contract (rely guar : ι → σ → σ → Prop) (i : ι) : Contract C σ where
  sem := S.sem i
  rely := rely i
  guar := guar i

/-- The threads fit together, and each of them keeps its contract. `idle` is what is known of a thread
that runs nothing. -/
structure Sound (rely guar : ι → σ → σ → Prop) (Inv : σ → Prop) (idle : ι → σ → Prop)
    (Q : (i : ι) → α → Assertion (S.contract rely guar i).setting) : Prop where
  fits : ∀ {i j s s'}, i ≠ j → guar i s s' → rely j s s'
  keeps : ∀ {i s s'}, guar i s s' → Inv s → Inv s'
  waits : ∀ {i s s'}, rely i s s' → idle i s → idle i s'
  begins : ∀ {i t s s'}, Inv s → idle i s → S.begins i t s s' →
    guar i s s' ∧ t.Ensures (S.contract rely guar i).setting (Q i) (s', True)
  returns : ∀ {i a s s'}, Inv s → Q i a (s, True) → S.returns i a s s' → guar i s s' ∧ idle i s'
  dies : ∀ {i s s'}, Inv s → S.dies i s s' → guar i s s' ∧ idle i s'

def Known (rely guar : ι → σ → σ → Prop) (idle : ι → σ → Prop)
    (Q : (i : ι) → α → Assertion (S.contract rely guar i).setting) (i : ι) (s : σ) :
    Option (Prog C α) → Prop
  | none => idle i s
  | some t => t.Ensures (S.contract rely guar i).setting (Q i) (s, True)

end System

/-- What was ensured is ensured after a step of the others. -/
theorem Ensures.env {σ : Type} {K : Setting C σ} {Q : α → Assertion K} {t : Prog C α} {s s' : σ}
    (h : t.Ensures K Q s) (henv : K.env s s') : t.Ensures K Q s' := by
  cases t with
  | pure a => exact (Q a).stable henv h
  | call c k => exact fun s₁ hw => h s₁ (.head henv hw)

namespace System

variable [DecidableEq ι] {S : System C σ ι α} {rely guar : ι → σ → σ → Prop} {Inv : σ → Prop}
variable {idle : ι → σ → Prop} {Q : (i : ι) → α → Assertion (S.contract rely guar i).setting}
variable {p p' : Pool C σ ι α} {s : σ}

theorem Sound.others (h : S.Sound rely guar Inv idle Q) {i : ι} {t : Option (Prog C α)} {s s' : σ}
    {thread : ι → Option (Prog C α)} (hguar : guar i s s')
    (hknown : ∀ j, S.Known rely guar idle Q j s (thread j))
    (hi : S.Known rely guar idle Q i s' t) (j : ι) :
    S.Known rely guar idle Q j s' (Function.update thread i t j) := by
  by_cases hj : j = i
  · subst hj
    rwa [Function.update_self]
  · rw [Function.update_of_ne hj]
    have hrely := h.fits (Ne.symm hj) hguar
    have hbefore := hknown j
    cases hthread : thread j with
    | none =>
      rw [hthread] at hbefore
      exact h.waits hrely hbefore
    | some t =>
      rw [hthread] at hbefore
      exact Ensures.env hbefore ⟨hrely, rfl⟩

theorem Sound.step (h : S.Sound rely guar Inv idle Q) (hstep : S.Step p p') (hinv : Inv p.shared)
    (hknown : ∀ i, S.Known rely guar idle Q i p.shared (p.thread i)) :
    (∃ i, guar i p.shared p'.shared) ∧ Inv p'.shared ∧
      ∀ i, S.Known rely guar idle Q i p'.shared (p'.thread i) := by
  cases hstep with
  | @begin i t s free act =>
    have hidle := hknown i
    rw [free] at hidle
    obtain ⟨hguar, hens⟩ := h.begins hinv hidle act
    exact ⟨⟨i, hguar⟩, h.keeps hguar hinv, h.others hguar hknown hens⟩
  | @call i β c k b s next act =>
    have hens := hknown i
    rw [next] at hens
    have hnext := (hens _ .refl).2 b (s, True ∧ guar i p.shared s) ⟨act, rfl⟩
    have hguar : guar i p.shared s := by
      have hsafe : (S.contract rely guar i).setting.safe (s, True ∧ guar i p.shared s) :=
        hnext.of_dies (.here .refl)
      exact hsafe.2
    have htrue : (True ∧ guar i p.shared s) = True := eq_true ⟨trivial, hguar⟩
    rw [htrue] at hnext
    exact ⟨⟨i, hguar⟩, h.keeps hguar hinv, h.others hguar hknown hnext⟩
  | @done i a s next act =>
    have hens := hknown i
    rw [next] at hens
    obtain ⟨hguar, hidle⟩ := h.returns hinv hens act
    exact ⟨⟨i, hguar⟩, h.keeps hguar hinv, h.others hguar hknown hidle⟩
  | @die i t s next act =>
    obtain ⟨hguar, hidle⟩ := h.dies hinv act
    exact ⟨⟨i, hguar⟩, h.keeps hguar hinv, h.others hguar hknown hidle⟩

/-- In every pool reached the invariant holds, and each thread is where it was proved to be. -/
theorem Sound.reachable (h : S.Sound rely guar Inv idle Q) (hinv : Inv s) (hidle : ∀ i, idle i s)
    (hreach : S.Reaches s p) :
    Inv p.shared ∧ ∀ i, S.Known rely guar idle Q i p.shared (p.thread i) := by
  induction hreach with
  | refl => exact ⟨hinv, hidle⟩
  | tail _ hstep ih => exact (h.step hstep ih.1 ih.2).2

end System

/-- `n` calls of a program, or as many as get an answer. -/
def advance (exec : {β : Type} → C β → σ → Option (β × σ)) : Nat → Prog C α → σ → Prog C α × σ
  | 0, p, s => (p, s)
  | _ + 1, .pure a, s => (.pure a, s)
  | n + 1, .call c k, s =>
    match exec c s with
    | none => (.call c k, s)
    | some (b, s') => advance exec n (k b) s'

/-- `n` calls of thread `i`. -/
def Pool.advance [DecidableEq ι] (exec : {β : Type} → C β → σ → Option (β × σ)) (i : ι) (n : Nat)
    (p : Pool C σ ι α) : Pool C σ ι α :=
  match p.thread i with
  | none => p
  | some t => ⟨(Prog.advance exec n t p.shared).2,
      Function.update p.thread i (some (Prog.advance exec n t p.shared).1)⟩

@[simp] theorem Pool.advance_thread [DecidableEq ι]
    {exec : {β : Type} → C β → σ → Option (β × σ)} {i j : ι} {n : Nat} {p : Pool C σ ι α}
    (h : j ≠ i) : (p.advance exec i n).thread j = p.thread j := by
  unfold Pool.advance
  split
  · rfl
  · exact Function.update_of_ne h ..

namespace System

variable [DecidableEq ι] {S : System C σ ι α} {p : Pool C σ ι α} {s : σ} {i : ι} {t : Prog C α}

theorem Reaches.advance_some {exec : {β : Type} → C β → σ → Option (β × σ)}
    (hexec : ∀ {β : Type} (c : C β) s b s', exec c s = some (b, s') → S.sem i c s b s') (n : Nat)
    (h : S.Reaches s p) (hi : p.thread i = some t) :
    S.Reaches s ⟨(Prog.advance exec n t p.shared).2,
      Function.update p.thread i (some (Prog.advance exec n t p.shared).1)⟩ := by
  induction n generalizing p t with
  | zero =>
    simp only [Prog.advance]
    rwa [← hi, Function.update_eq_self]
  | succ n ih =>
    cases t with
    | pure a =>
      simp only [Prog.advance]
      rwa [← hi, Function.update_eq_self]
    | call c k =>
      simp only [Prog.advance]
      split
      · rwa [← hi, Function.update_eq_self]
      · next b s' hexec' =>
        have hnext := ih (h.tail (Step.call hi (hexec c _ b s' hexec'))) (Function.update_self ..)
        rwa [Function.update_idem] at hnext

/-- A thread may make some calls while the others wait. -/
theorem Reaches.advance {exec : {β : Type} → C β → σ → Option (β × σ)}
    (hexec : ∀ {β : Type} (c : C β) s b s', exec c s = some (b, s') → S.sem i c s b s') (n : Nat)
    (h : S.Reaches s p) : S.Reaches s (p.advance exec i n) := by
  unfold Pool.advance
  split
  · exact h
  · next t hi => exact h.advance_some hexec n hi

/-- A thread may run its program to the end while the others wait. -/
theorem Reaches.run {a : α} {s' : σ} (h : S.Reaches s p)
    (hi : p.thread i = some t) (hr : Runs (S.sem i) alone t p.shared a s') :
    S.Reaches s ⟨s', Function.update p.thread i (some (.pure a))⟩ := by
  generalize hs : p.shared = s₀ at hr
  induction hr generalizing p with
  | done wait =>
    cases Relation.ReflTransGen.cases_head wait with
    | inl hsame =>
      subst hsame hs
      rwa [← hi, Function.update_eq_self]
    | inr hwait =>
      obtain ⟨_, hnever, _⟩ := hwait
      exact hnever.elim
  | step wait act _ ih =>
    cases Relation.ReflTransGen.cases_head wait with
    | inl hsame =>
      subst hsame hs
      have hnext := ih (h.tail (Step.call hi act)) (Function.update_self ..) rfl
      rwa [Function.update_idem] at hnext
    | inr hwait =>
      obtain ⟨_, hnever, _⟩ := hwait
      exact hnever.elim

end System

end Prog
