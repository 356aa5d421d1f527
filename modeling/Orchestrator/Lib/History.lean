import Mathlib.Data.List.Pairwise
import Orchestrator.Lib.Program

/-!
# Histories of programs that run side by side

`Makes p es r`: the calls a program has made so far, each with its answer, and what it returned if it
has. `Happens sem s h t`: the moments of `h` lead from `s` to `t`; a moment is one call of one
process, between two states. A process runs `p` in a history when `p` makes the calls of its moments
(`of`). Nothing is said about processes that run no program: they make any calls.

Facts about a history come from facts about one moment (`Happens.all`), and facts about a program's
answers from its calls (`Makes.bind`).
-/

namespace Prog

variable {C : Type → Type} {α β ε σ ι : Type}

structure Answered (C : Type → Type) where
  {reply : Type}
  call : C reply
  answer : reply

/-- `p` has made the calls of `es`, and has returned what `r` holds. -/
inductive Makes : Prog C α → List (Answered C) → Option α → Prop
  | cut {p} : Makes p [] none
  | done {a} : Makes (.pure a) [] (some a)
  | step {γ : Type} {c : C γ} {k b es r} (rest : Makes (k b) es r) :
      Makes (.call c k) (⟨c, b⟩ :: es) r

variable {es : List (Answered C)} {s t : σ}

/-- A sequence that returned made the calls of its first part, and then those of its second. -/
theorem Makes.bind {p : Prog C α} {f : α → Prog C β} {b : β} (h : Makes (p >>= f) es (some b)) :
    ∃ a es₁ es₂, es = es₁ ++ es₂ ∧ Makes p es₁ (some a) ∧ Makes (f a) es₂ (some b) := by
  induction p generalizing es with
  | pure a => exact ⟨a, [], es, rfl, .done, h⟩
  | call c k ih =>
    cases h with
    | step rest =>
      obtain ⟨a, es₁, es₂, rfl, h₁, h₂⟩ := ih _ rest
      exact ⟨a, _, es₂, rfl, .step h₁, h₂⟩

/-- A sequence that may fail stopped with its first part, or went on to its second. -/
theorem Makes.bind_run {p : ExceptT ε (Prog C) α} {f : α → ExceptT ε (Prog C) β}
    {r : Except ε β} (h : Makes (p >>= f).run es (some r)) :
    (∃ e, r = .error e ∧ Makes p.run es (some (.error e))) ∨
      ∃ a es₁ es₂, es = es₁ ++ es₂ ∧ Makes p.run es₁ (some (.ok a)) ∧
        Makes (f a).run es₂ (some r) := by
  obtain ⟨q, es₁, es₂, rfl, h₁, h₂⟩ := Makes.bind (f := ExceptT.bindCont f) h
  cases q with
  | ok a => exact .inr ⟨a, es₁, es₂, rfl, h₁, h₂⟩
  | error e =>
    cases h₂ with
    | done => exact .inl ⟨e, rfl, by rwa [List.append_nil]⟩

theorem Makes.ask {c : C β} {b : β} (h : Makes (Prog.ask c) es (some b)) : es = [⟨c, b⟩] := by
  cases h with
  | step rest =>
    cases rest
    rfl

theorem Makes.pure {a b : α} (h : Makes (.pure a : Prog C α) es (some b)) : es = [] ∧ b = a := by
  cases h
  exact ⟨rfl, rfl⟩

/-- Every call a program has made is one it may make. -/
theorem Makes.only {P : {β : Type} → C β → Prop} {p : Prog C α}
    {r : Option α} (h : Makes p es r) (hp : p.Only P) : ∀ x ∈ es, P x.call := by
  induction h with
  | cut => exact nofun
  | done => exact nofun
  | step _ ih =>
    intro x hx
    rcases List.mem_cons.1 hx with rfl | hx
    · exact hp.1
    · exact ih (hp.2 _) x hx

/-! ## Moments -/

/-- One call of process `who`, with the states before and after it. -/
structure Moment (ι σ : Type) (C : Type → Type) extends Answered C where
  who : ι
  before : σ
  after : σ

/-- The calls process `i` made, with their answers. -/
def callsOf [DecidableEq ι] (h : List (Moment ι σ C)) (i : ι) : List (Answered C) :=
  (h.filter fun m => m.who = i).map Moment.toAnswered

section Happens
variable (sem : {β : Type} → C β → σ → β → σ → Prop)

/-- The moments of a list lead from `s` to `t`. -/
inductive Happens (s : σ) : List (Moment ι σ C) → σ → Prop
  | nil : Happens s [] s
  | snoc {γ : Type} {h t u i} {c : C γ} {b : γ} (past : Happens s h t) (act : sem c t b u) :
      Happens s (h ++ [⟨⟨c, b⟩, i, t, u⟩]) u

end Happens

variable {sem : {β : Type} → C β → σ → β → σ → Prop}

/-- What every call keeps and says of itself, a history keeps, and its moments say. -/
theorem Happens.all {I : σ → Prop} {Q : Moment ι σ C → Prop}
    (hstep : ∀ {γ : Type} (c : C γ) t b u i, I t → sem c t b u → I u ∧ Q ⟨⟨c, b⟩, i, t, u⟩)
    {h : List (Moment ι σ C)} (hh : Happens sem s h t) (hs : I s) :
    I t ∧ ∀ m ∈ h, Q m := by
  induction hh with
  | nil => exact ⟨hs, nofun⟩
  | snoc _ act ih =>
    obtain ⟨hI, hQ⟩ := hstep _ _ _ _ _ ih.1 act
    refine ⟨hI, fun m hm => ?_⟩
    rcases List.mem_append.1 hm with hm | hm
    · exact ih.2 m hm
    · exact List.mem_singleton.1 hm ▸ hQ

/-- What a moment brings about and every call keeps holds at the end. -/
theorem Happens.since {I : Moment ι σ C → σ → Prop} {P : Moment ι σ C → Prop}
    (hnew : ∀ {γ : Type} (c : C γ) t b u i, sem c t b u → P ⟨⟨c, b⟩, i, t, u⟩ →
      I ⟨⟨c, b⟩, i, t, u⟩ u)
    (hkeep : ∀ {γ : Type} (c : C γ) t b u m, I m t → sem c t b u → I m u)
    {h : List (Moment ι σ C)} (hh : Happens sem s h t) : ∀ m ∈ h, P m → I m t := by
  induction hh with
  | nil => exact nofun
  | snoc _ act ih =>
    intro m hm hp
    rcases List.mem_append.1 hm with hm | hm
    · exact hkeep _ _ _ _ _ (ih m hm hp) act
    · obtain rfl := List.mem_singleton.1 hm
      exact hnew _ _ _ _ _ act hp

/-- If what a moment brings about rules out another one, there is at most one. -/
theorem Happens.at_most_one {I : σ → Prop} {P : Moment ι σ C → Prop}
    (hnew : ∀ {γ : Type} (c : C γ) t b u i, sem c t b u → P ⟨⟨c, b⟩, i, t, u⟩ → I u)
    (hkeep : ∀ {γ : Type} (c : C γ) t b u, I t → sem c t b u → I u)
    (hexcl : ∀ {γ : Type} (c : C γ) t b u i, I t → sem c t b u → ¬P ⟨⟨c, b⟩, i, t, u⟩)
    {h : List (Moment ι σ C)} (hh : Happens sem s h t) {m n : Moment ι σ C} (hm : m ∈ h)
    (hn : n ∈ h) (hne : m ≠ n) : ¬(P m ∧ P n) := by
  have hsymm : Std.Symm fun m n : Moment ι σ C => ¬(P m ∧ P n) :=
    ⟨fun _ _ hno hboth => hno hboth.symm⟩
  refine List.Pairwise.forall (R := fun m n => ¬(P m ∧ P n)) ?_ hm hn hne
  clear hm hn hne
  induction hh with
  | nil => exact .nil
  | snoc past act ih =>
    refine List.pairwise_append.2 ⟨ih, List.pairwise_singleton _ _, ?_⟩
    rintro m hm n hn ⟨hpm, hpn⟩
    obtain rfl := List.mem_singleton.1 hn
    have hI := past.since (I := fun _ => I) hnew (fun c t b u _ => hkeep c t b u) m hm hpm
    exact hexcl _ _ _ _ _ hI act hpn

theorem mem_callsOf [DecidableEq ι] {h : List (Moment ι σ C)} {i : ι} {x : Answered C} :
    x ∈ callsOf h i ↔ ∃ m ∈ h, m.who = i ∧ m.toAnswered = x := by
  simp [callsOf, and_assoc]

/-- The calls of the process that made a moment, before and after it. -/
theorem callsOf_split [DecidableEq ι] (h₁ h₂ : List (Moment ι σ C)) (m : Moment ι σ C) :
    callsOf (h₁ ++ m :: h₂) m.who = callsOf h₁ m.who ++ m.toAnswered :: callsOf h₂ m.who := by
  simp [callsOf]

theorem Happens.split {h₁ h₂ : List (Moment ι σ C)} {m : Moment ι σ C}
    (hh : Happens sem s (h₁ ++ m :: h₂) t) :
    Happens sem s h₁ m.before ∧ sem m.call m.before m.answer m.after := by
  generalize hlist : h₁ ++ m :: h₂ = h at hh
  induction hh generalizing h₂ with
  | nil => cases h₁ <;> exact nomatch hlist
  | @snoc _ h _ _ _ _ _ past act ih =>
    rcases List.eq_nil_or_concat h₂ with rfl | ⟨h₂, n, rfl⟩
    · obtain ⟨rfl, hm⟩ := List.append_inj' hlist rfl
      obtain rfl := List.singleton_inj.1 hm
      exact ⟨past, act⟩
    · rw [List.concat_eq_append, ← List.cons_append, ← List.append_assoc] at hlist
      exact ih (List.append_inj' hlist rfl).1

/-! ## Undisturbed runs -/

section Alone
variable {exec : {β : Type} → C β → σ → β × σ} {p : Prog C α}

/-- The moments of process `i` running `p` alone. -/
def moments (exec : {β : Type} → C β → σ → β × σ) (i : ι) : Prog C α → σ → List (Moment ι σ C)
  | .pure _, _ => []
  | .call c k, s =>
    let (b, s') := exec c s
    ⟨⟨c, b⟩, i, s, s'⟩ :: moments exec i (k b) s'

theorem happens_moments (hsem : ∀ {β : Type} (c : C β) s, sem c s (exec c s).1 (exec c s).2) (i : ι)
    {s t : σ} {h : List (Moment ι σ C)} (hh : Happens sem s h t) :
    Happens sem s (h ++ moments exec i p t) (p.eval exec t).2 := by
  induction p generalizing h t with
  | pure a => rwa [moments, List.append_nil]
  | call c k ih =>
    have hrest := ih (exec c t).1 (hh.snoc (i := i) (hsem c t))
    rwa [List.append_assoc] at hrest

variable [DecidableEq ι]

theorem makes_moments (i : ι) (s : σ) :
    Makes p (callsOf (moments exec i p s) i) (some (p.eval exec s).1) := by
  induction p generalizing s with
  | pure a => exact .done
  | call c k ih =>
    have hrest := ih (exec c s).1 (exec c s).2
    simp only [callsOf, moments, decide_true, List.filter_cons_of_pos, List.map_cons] at hrest ⊢
    exact .step hrest

theorem callsOf_moments_of_ne {i j : ι} (hij : i ≠ j) (s : σ) : callsOf (moments exec i p s) j = [] := by
  induction p generalizing s with
  | pure a => rfl
  | call c k ih => simpa [callsOf, moments, hij] using ih _ _

theorem callsOf_append (h h' : List (Moment ι σ C)) (i : ι) :
    callsOf (h ++ h') i = callsOf h i ++ callsOf h' i := by
  simp [callsOf]

end Alone

end Prog
