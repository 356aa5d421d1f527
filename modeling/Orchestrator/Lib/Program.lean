import Mathlib.Logic.Relation

/-!
# Programs over atomic calls

`Prog C α` is a program that makes calls `C β`, each answered by a `β`, and returns an `α`. A call is
one atomic step of a world `σ`; between two calls of a program other processes may take steps `env`,
and a process may die after any of its calls. `Runs` is a complete run under interference, `Dies` a
run that is cut off, and `eval` the undisturbed run of calls that are functions. The rules are the
ones proofs about such code use: inversion of sequencing, of calls and of loops over lists, and
preservation of what every step preserves.
-/

/-- A program that makes calls `C β`. -/
inductive Prog (C : Type → Type) (α : Type) : Type 1
  | pure (a : α)
  | call {β : Type} (c : C β) (k : β → Prog C α)

namespace Prog

universe u v

variable {C D : Type → Type} {α β γ ε ε' l : Type} {σ : Type u}

def bind : Prog C α → (α → Prog C β) → Prog C β
  | .pure a, f => f a
  | .call c k, f => .call c fun b => (k b).bind f

instance : Monad (Prog C) where
  pure := .pure
  bind := bind

def ask (c : C β) : Prog C β := .call c .pure

/-- One call that may fail, as a step of a program that stops at the first error. -/
def attempt (c : C (Except ε β)) : ExceptT ε (Prog C) β := ExceptT.mk (ask c)

/-- `for a in l { f(a)?; }` -/
def forEach (l : List α) (f : α → ExceptT ε (Prog C) Unit) : ExceptT ε (Prog C) Unit :=
  match l with
  | [] => Pure.pure ()
  | a :: l => do
    f a
    forEach l f

/-- The results `f` has for the elements of a list, in order. -/
def collect (xs : List γ) (f : γ → ExceptT ε (Prog C) (Option α)) : ExceptT ε (Prog C) (List α) :=
  match xs with
  | [] => Pure.pure []
  | x :: xs => do
    let found ← f x
    let rest ← collect xs f
    Pure.pure (found.toList ++ rest)

/-- Run `p` and hand its result on, error or not. -/
def observe (p : ExceptT ε (Prog C) α) : ExceptT ε' (Prog C) (Except ε α) :=
  ExceptT.mk (p.run >>= fun r => .pure (.ok r))

/-- `p`, when it succeeds; nothing follows a failure, which makes a call that is never answered. -/
def insist (halt : C Empty) (p : ExceptT ε (Prog C) α) : ExceptT ε' (Prog C) α :=
  ExceptT.mk (p.run >>= fun r => match r with
    | .ok a => .pure (.ok a)
    | .error _ => .call halt nofun)

/-- Stop with `e` when `p` holds. -/
def refuse (p : Prop) [Decidable p] (e : ε) : ExceptT ε (Prog C) Unit :=
  if p then throw e else Pure.pure ()

/-- `t`, when `p` holds. -/
def provided (p : Prop) [Decidable p] (t : ExceptT ε (Prog C) Unit) : ExceptT ε (Prog C) Unit :=
  if p then t else Pure.pure ()

/-- The value of `o`, or stop with `e`. -/
def demand (o : Option α) (e : ε) : ExceptT ε (Prog C) α :=
  match o with
  | some a => Pure.pure a
  | none => throw e

/-- The value of `r`, or stop with its error. -/
def unwrap (r : Except ε α) : ExceptT ε (Prog C) α := ExceptT.mk (.pure r)

/-- `f` of the value of `o`, if there is one. -/
def whenSome (o : Option α) (f : α → ExceptT ε (Prog C) Unit) : ExceptT ε (Prog C) Unit :=
  match o with
  | some a => f a
  | none => Pure.pure ()

/-- One call that may fail, with its error restated. -/
def attemptAs (f : ε → ε') (c : C (Except ε α)) : ExceptT ε' (Prog C) α :=
  ExceptT.mk (ask c >>= fun r => .pure (r.mapError f))

/-- `p` with its calls embedded in a larger set of calls. -/
def embed (f : {β : Type} → C β → D β) : Prog C α → Prog D α
  | .pure a => .pure a
  | .call c k => .call (f c) fun b => (k b).embed f

/-! ### Programs with a local state

The local state survives an error. -/

/-- Run `p` on the local state, which it reads only. -/
def await (p : l → ExceptT ε (Prog C) α) : ExceptT ε (StateT l (Prog C)) α :=
  ExceptT.mk fun x => (p x).run >>= fun r => .pure (r, x)

/-- Run `t` and hand its result on, error or not. -/
def catchS (t : ExceptT ε (StateT l (Prog C)) α) : ExceptT ε (StateT l (Prog C)) (Except ε α) :=
  ExceptT.mk fun x => t.run.run x >>= fun r => .pure (.ok r.1, r.2)

def look : ExceptT ε (StateT l (Prog C)) l := ExceptT.mk fun x => .pure (.ok x, x)

/-- Change the local state. -/
def update (f : l → l) : ExceptT ε (StateT l (Prog C)) Unit := ExceptT.mk fun x => .pure (.ok (), f x)

/-! ## Runs -/

section Runs
variable (sem : {β : Type} → C β → σ → β → σ → Prop) (env : σ → σ → Prop)

/-- `p`, started in `s` and interleaved with steps of `env`, returns `a` in `s'`. -/
inductive Runs : Prog C α → σ → α → σ → Prop
  | done {a s s'} (wait : Relation.ReflTransGen env s s') : Runs (.pure a) s a s'
  | step {γ : Type} {c : C γ} {k b s s₁ s₂ a s'} (wait : Relation.ReflTransGen env s s₁)
      (act : sem c s₁ b s₂) (rest : Runs (k b) s₂ a s') : Runs (.call c k) s a s'

/-- `p`, started in `s` and interleaved with steps of `env`, is cut off in `s'`. -/
inductive Dies : Prog C α → σ → σ → Prop
  | here {p s s'} (wait : Relation.ReflTransGen env s s') : Dies p s s'
  | step {γ : Type} {c : C γ} {k b s s₁ s₂ s'} (wait : Relation.ReflTransGen env s s₁)
      (act : sem c s₁ b s₂) (rest : Dies (k b) s₂ s') : Dies (.call c k) s s'

end Runs

/-- Nobody else takes a step. -/
def alone (_ _ : σ) : Prop := False

/-- The undisturbed run of a program whose calls are functions. -/
def eval (exec : {β : Type} → C β → σ → β × σ) : Prog C α → σ → α × σ
  | .pure a, s => (a, s)
  | .call c k, s => eval exec (k (exec c s).1) (exec c s).2

/-- The undisturbed run of a program, up to the first call that gets no answer. -/
def play (exec : {β : Type} → C β → σ → Option (β × σ)) : Prog C α → σ → Option α × σ
  | .pure a, s => (some a, s)
  | .call c k, s =>
    match exec c s with
    | none => (none, s)
    | some (b, s') => play exec (k b) s'

variable {sem : {β : Type} → C β → σ → β → σ → Prop} {env : σ → σ → Prop}

section Play
variable {τ : Type v} {exec : {β : Type} → C β → τ → Option (β × τ)} (env : σ → σ → Prop)
  (view : τ → σ)

/-- What is played to its end is a run, with what others do before each call. -/
theorem runs_of_play_waiting (hsem : ∀ {β : Type} (c : C β) t b t', exec c t = some (b, t') →
      ∃ s, Relation.ReflTransGen env (view t) s ∧ sem c s b (view t'))
    {p : Prog C α} {t : τ} {a : α} (h : (play exec p t).1 = some a) :
    Runs sem env p (view t) a (view (play exec p t).2) := by
  induction p generalizing t with
  | pure b => exact Option.some.inj h ▸ .done .refl
  | call c k ih =>
    simp only [play] at h ⊢
    split at h
    · exact nomatch h
    · rename_i b t' hexec
      obtain ⟨s, hwait, hact⟩ := hsem c t b t' hexec
      exact .step hwait hact (ih b h)

theorem runs_of_play
    (hsem : ∀ {β : Type} (c : C β) t b t', exec c t = some (b, t') → sem c (view t) b (view t'))
    {p : Prog C α} {t : τ} {a : α} (h : (play exec p t).1 = some a) :
    Runs sem env p (view t) a (view (play exec p t).2) :=
  runs_of_play_waiting env view (fun c t b t' hexec => ⟨view t, .refl, hsem c t b t' hexec⟩) h

/-- What is played is a run that may have been cut off there. -/
theorem dies_of_play
    (hsem : ∀ {β : Type} (c : C β) t b t', exec c t = some (b, t') → sem c (view t) b (view t'))
    (p : Prog C α) (t : τ) : Dies sem env p (view t) (view (play exec p t).2) := by
  induction p generalizing t with
  | pure b => exact .here .refl
  | call c k ih =>
    simp only [play]
    split
    · exact .here .refl
    · rename_i b t' hexec
      exact .step .refl (hsem c t b t' hexec) (ih b t')

end Play

/-! ### Programs played to their end -/

section Plays
variable {τ : Type v} {exec : {β : Type} → C β → τ → Option (β × τ)} {t t₁ t₂ : τ}

/-- Played to its end, the program returns `r` and leaves `t'`. -/
def Plays (exec : {β : Type} → C β → τ → Option (β × τ)) (p : ExceptT ε (Prog C) α) (t : τ)
    (r : Except ε α) (t' : τ) : Prop :=
  play exec p.run t = (some r, t')

theorem play_bind {p : Prog C α} {f : α → Prog C β} {a : α} (h : play exec p t = (some a, t₁)) :
    play exec (p >>= f) t = play exec (f a) t₁ := by
  induction p generalizing t with
  | pure b =>
    obtain ⟨hb, rfl⟩ := Prod.mk.inj h
    obtain rfl := Option.some.inj hb
    rfl
  | call c k ih =>
    simp only [play] at h
    split at h
    · exact nomatch (Prod.mk.inj h).1
    · next b t' hexec =>
      have hstep : play exec (Prog.call c k >>= f) t = play exec (k b >>= f) t' := by
        show play exec (.call c fun b => k b >>= f) t = _
        simp only [play, hexec]
      rw [hstep]
      exact ih b h

namespace Plays

theorem pure (a : α) : Plays exec (Pure.pure a : ExceptT ε (Prog C) α) t (.ok a) t := rfl

variable {p : ExceptT ε (Prog C) α} {q : ExceptT ε (Prog C) Unit}

theorem bind {f : α → ExceptT ε (Prog C) β} {a : α} {r : Except ε β}
    (hp : Plays exec p t (.ok a) t₁) (hf : Plays exec (f a) t₁ r t₂) :
    Plays exec (p >>= f) t r t₂ :=
  (play_bind hp).trans hf

theorem attempt {c : C (Except ε α)} {r : Except ε α} (h : exec c t = some (r, t₁)) :
    Plays exec (attempt c) t r t₁ := by
  show play exec (ask c) t = _
  simp only [ask, play, h]

theorem attemptAs {f : ε → ε'} {c : C (Except ε α)} {a : α} (h : exec c t = some (.ok a, t₁)) :
    Plays exec (attemptAs f c) t (.ok a) t₁ :=
  play_bind (attempt h)

theorem observe {r : Except ε α} (h : Plays exec p t r t₁) :
    Plays exec (observe p : ExceptT ε' (Prog C) _) t (.ok r) t₁ :=
  play_bind h

variable {p : Prop}

theorem refuse [Decidable p] {e : ε} (h : ¬p) :
    Plays exec (refuse p e : ExceptT ε (Prog C) Unit) t (.ok ()) t := by
  unfold Prog.refuse
  rw [if_neg h]
  exact pure ()

theorem provided [Decidable p] {r : Except ε Unit}
    (hp : p) (hq : Plays exec q t r t₁) : Plays exec (provided p q) t r t₁ := by
  unfold Prog.provided
  rwa [if_pos hp]

theorem not_provided [Decidable p] (hp : ¬p) : Plays exec (Prog.provided p q) t (.ok ()) t := by
  unfold Prog.provided
  rw [if_neg hp]
  exact pure ()

theorem forEach {f : γ → ExceptT ε (Prog C) Unit} {l : List γ}
    (h : ∀ a ∈ l, Plays exec (f a) t (.ok ()) t) : Plays exec (forEach l f) t (.ok ()) t := by
  induction l with
  | nil => exact pure ()
  | cons a l ih =>
    exact bind (h a (List.mem_cons_self ..)) (ih fun b hb => h b (List.mem_cons_of_mem a hb))

end Plays

end Plays

theorem eval_runs (env : σ → σ → Prop) {exec : {β : Type} → C β → σ → β × σ}
    (hsem : ∀ {β : Type} (c : C β) s, sem c s (exec c s).1 (exec c s).2) (p : Prog C α) (s : σ) :
    Runs sem env p s (p.eval exec s).1 (p.eval exec s).2 := by
  induction p generalizing s with
  | pure a => exact .done .refl
  | call c k ih => exact .step .refl (hsem c s) (ih _ _)

variable {p : Prog C α} {a : α} {s s' : σ} {b : β}

theorem Runs.wait {s s₁ s' : σ} (h : Relation.ReflTransGen env s s₁)
    (hr : Runs sem env p s₁ a s') : Runs sem env p s a s' := by
  cases hr with
  | done wait => exact .done (h.trans wait)
  | step wait act rest => exact .step (h.trans wait) act rest

theorem Runs.mono {env' : σ → σ → Prop} (henv : ∀ s s', env s s' → env' s s')
    (h : Runs sem env p s a s') : Runs sem env' p s a s' := by
  induction h with
  | done wait => exact .done (Relation.ReflTransGen.mono henv _ _ wait)
  | step wait act _ ih => exact .step (Relation.ReflTransGen.mono henv _ _ wait) act ih

variable {sem' : {β : Type} → C β → σ → β → σ → Prop} {f : α → ExceptT ε (Prog C) β}
  {Q : {β : Type} → C β → Prop}

theorem Runs.imp (hsem : ∀ {β : Type} (c : C β) s b s', sem c s b s' → sem' c s b s')
    (h : Runs sem env p s a s') : Runs sem' env p s a s' := by
  induction h with
  | done wait => exact .done wait
  | step wait act _ ih => exact .step wait (hsem _ _ _ _ act) ih

theorem Dies.imp (hsem : ∀ {β : Type} (c : C β) s b s', sem c s b s' → sem' c s b s')
    (h : Dies sem env p s s') : Dies sem' env p s s' := by
  induction h with
  | here wait => exact .here wait
  | step wait act _ ih => exact .step wait (hsem _ _ _ _ act) ih

/-- A sequence ran when its first part did, and then its second. -/
theorem runs_bind {f : α → Prog C β} :
    Runs sem env (p >>= f) s b s' ↔ ∃ a s₁, Runs sem env p s a s₁ ∧ Runs sem env (f a) s₁ b s' := by
  constructor
  · intro h
    induction p generalizing s with
    | pure a => exact ⟨a, s, .done .refl, h⟩
    | call c k ih =>
      cases h with
      | step wait act rest =>
        obtain ⟨a, s₁, h₁, h₂⟩ := ih _ rest
        exact ⟨a, s₁, .step wait act h₁, h₂⟩
  · rintro ⟨a, s₁, h₁, h₂⟩
    induction h₁ with
    | done wait => exact h₂.wait wait
    | step wait act _ ih => exact .step wait act (ih h₂)

theorem runs_ask {c : C β} (h : Runs sem env (ask c) s b s') :
    ∃ s₁ s₂, Relation.ReflTransGen env s s₁ ∧ sem c s₁ b s₂ ∧ Relation.ReflTransGen env s₂ s' := by
  cases h with
  | step wait act rest =>
    cases rest with
    | done wait' => exact ⟨_, _, wait, act, wait'⟩

theorem runs_pure {r : Except ε α}
    (h : Runs sem env (Pure.pure a : ExceptT ε (Prog C) α).run s r s') :
    r = .ok a ∧ Relation.ReflTransGen env s s' := by
  cases h with
  | done wait => exact ⟨rfl, wait⟩

theorem runs_bind_ok {p : ExceptT ε (Prog C) α} : Runs sem env (p >>= f).run s (.ok b) s' ↔
      ∃ a s₁, Runs sem env p.run s (.ok a) s₁ ∧ Runs sem env (f a).run s₁ (.ok b) s' := by
  rw [show (p >>= f).run = p.run >>= ExceptT.bindCont f from rfl, runs_bind]
  constructor
  · rintro ⟨r, s₁, h₁, h₂⟩
    cases r with
    | error e =>
      cases h₂
    | ok a => exact ⟨a, s₁, h₁, h₂⟩
  · rintro ⟨a, s₁, h₁, h₂⟩
    exact ⟨.ok a, s₁, h₁, h₂⟩

theorem runs_observe {p : ExceptT ε (Prog C) α} {r : Except ε α} (h : Runs sem env p.run s r s') :
    Runs sem env (observe p : ExceptT ε' (Prog C) _).run s (.ok r) s' :=
  runs_bind.2 ⟨r, s', h, .done .refl⟩

theorem Runs.wait_after {s s₁ s' : σ} (hr : Runs sem env p s a s₁)
    (h : Relation.ReflTransGen env s₁ s') : Runs sem env p s a s' := by
  induction hr with
  | done wait => exact .done (wait.trans h)
  | step wait act _ ih => exact .step wait act (ih h)

theorem runs_insist {halt : C Empty} {p : ExceptT ε (Prog C) α} {r : Except ε' α}
    (h : Runs sem env (insist halt p).run s r s') :
    ∃ a, r = .ok a ∧ Runs sem env p.run s (.ok a) s' := by
  obtain ⟨r', s₁, hp, hrest⟩ := runs_bind.1 h
  cases r' with
  | ok a =>
    cases hrest with
    | done wait => exact ⟨a, rfl, hp.wait_after wait⟩
  | error e =>
    cases hrest with
    | @step _ _ _ never => exact nomatch never

/-! ## Loops -/

/-- A program that succeeds wherever `f` does may stand in its place. -/
theorem runs_collect_mono {f g : γ → ExceptT ε (Prog C) (Option α)}
    (hfg : ∀ x o s s', Runs sem env (f x).run s (.ok o) s' → Runs sem env (g x).run s (.ok o) s')
    {xs : List γ} {ys : List α} (h : Runs sem env (collect xs f).run s (.ok ys) s') :
    Runs sem env (collect xs g).run s (.ok ys) s' := by
  induction xs generalizing ys s s' with
  | nil => exact h
  | cons x xs ih =>
    obtain ⟨o, s₁, hx, hrest⟩ := runs_bind_ok.1 h
    obtain ⟨zs, s₂, hxs, hpure⟩ := runs_bind_ok.1 hrest
    exact runs_bind_ok.2 ⟨o, s₁, hfg x o s s₁ hx, runs_bind_ok.2 ⟨zs, s₂, ih hxs, hpure⟩⟩

theorem runs_forEach_append {f : α → ExceptT ε (Prog C) Unit} {l₁ l₂ : List α}
    (h : Runs sem env (forEach (l₁ ++ l₂) f).run s (.ok ()) s') :
    ∃ s₁, Runs sem env (forEach l₁ f).run s (.ok ()) s₁ ∧
      Runs sem env (forEach l₂ f).run s₁ (.ok ()) s' := by
  induction l₁ generalizing s with
  | nil => exact ⟨s, .done .refl, h⟩
  | cons a l₁ ih =>
    obtain ⟨_, s₁, ha, hrest⟩ := runs_bind_ok.1 h
    obtain ⟨s₂, h₁, h₂⟩ := ih hrest
    exact ⟨s₂, runs_bind_ok.2 ⟨(), s₁, ha, h₁⟩, h₂⟩

/-- A loop that succeeded handled each of its elements, with the others before and after. -/
theorem runs_forEach_mem {f : α → ExceptT ε (Prog C) Unit} {l : List α}
    (h : Runs sem env (forEach l f).run s (.ok ()) s') (ha : a ∈ l) :
    ∃ l₁ l₂ s₁ s₂, Runs sem env (forEach l₁ f).run s (.ok ()) s₁ ∧
      Runs sem env (f a).run s₁ (.ok ()) s₂ ∧ Runs sem env (forEach l₂ f).run s₂ (.ok ()) s' := by
  obtain ⟨l₁, l₂, rfl⟩ := List.append_of_mem ha
  obtain ⟨s₁, h₁, h₂⟩ := runs_forEach_append h
  obtain ⟨_, s₂, hf, hrest⟩ := runs_bind_ok.1 h₂
  exact ⟨l₁, l₂, s₁, s₂, h₁, hf, hrest⟩

/-! ## Preservation -/

/-- Every call the program may make meets `P`. -/
def Only (P : {β : Type} → C β → Prop) : Prog C α → Prop
  | .pure _ => True
  | .call c k => P c ∧ ∀ b, (k b).Only P

section Only
variable {P : {β : Type} → C β → Prop}

variable {p : Prog C α} {e : ε}

protected theorem Only.bind {f : α → Prog C β} (hp : p.Only P) (hf : ∀ a, (f a).Only P) :
    (p >>= f).Only P := by
  induction p with
  | pure a => exact hf a
  | call c k ih => exact ⟨hp.1, fun b => ih b (hp.2 b)⟩

protected theorem Only.seq {p : ExceptT ε (Prog C) α}
    (hp : p.run.Only P) (hf : ∀ a, (f a).run.Only P) : (p >>= f).run.Only P := by
  refine Only.bind hp fun r => ?_
  cases r with
  | error e => trivial
  | ok a => exact hf a

protected theorem Only.true : p.Only fun _ => True := by
  induction p with
  | pure a => trivial
  | call c k ih => exact ⟨trivial, ih⟩

protected theorem Only.pure (a : α) : (Pure.pure a : ExceptT ε (Prog C) α).run.Only P := trivial

protected theorem Only.attempt {c : C (Except ε β)} (hc : P c) : (attempt c).run.Only P :=
  ⟨hc, fun _ => trivial⟩

protected theorem Only.forEach {f : α → ExceptT ε (Prog C) Unit} (hf : ∀ a, (f a).run.Only P) (l : List α) :
    (forEach l f).run.Only P := by
  induction l with
  | nil => trivial
  | cons a l ih => exact Only.seq (hf a) fun _ => ih

protected theorem Only.throw (e : ε) : (throw e : ExceptT ε (Prog C) α).run.Only P := trivial

protected theorem Only.ask {c : C β} (hc : P c) : (ask c).Only P := ⟨hc, fun _ => trivial⟩

protected theorem Only.attemptAs {f : ε → ε'} {c : C (Except ε β)} (hc : P c) :
    (attemptAs f c).run.Only P :=
  ⟨hc, fun _ => trivial⟩

protected theorem Only.observe {p : ExceptT ε (Prog C) α} (hp : p.run.Only P) :
    (observe p : ExceptT ε' (Prog C) _).run.Only P :=
  Only.bind hp fun _ => trivial

protected theorem Only.refuse {p : Prop} [Decidable p] :
    (refuse p e : ExceptT ε (Prog C) Unit).run.Only P := by
  unfold refuse
  split <;> trivial

protected theorem Only.refuse_bind {p : Prop} [Decidable p] {f : Unit → ExceptT ε (Prog C) β}
    (hf : ¬p → (f ()).run.Only P) : (refuse p e >>= f).run.Only P := by
  unfold refuse
  split
  · trivial
  · next hp => exact hf hp

protected theorem Only.demand {o : Option α} : (demand o e : ExceptT ε (Prog C) α).run.Only P := by
  cases o <;> trivial

protected theorem Only.provided {p : Prop} [Decidable p] {t : ExceptT ε (Prog C) Unit}
    (ht : p → t.run.Only P) : (provided p t).run.Only P := by
  unfold provided
  split
  · next hp => exact ht hp
  · trivial

protected theorem Only.whenSome {o : Option α} {f : α → ExceptT ε (Prog C) Unit}
    (hf : ∀ a, o = some a → (f a).run.Only P) : (whenSome o f).run.Only P := by
  cases o with
  | none => trivial
  | some a => exact hf a rfl

protected theorem Only.embed {Q : {β : Type} → D β → Prop} {f : {β : Type} → D β → C β}
    (hf : ∀ {β : Type} (c : D β), Q c → P (f c)) {p : Prog D α} (hp : p.Only Q) :
    (p.embed f).Only P := by
  induction p with
  | pure a => trivial
  | call c k ih => exact ⟨hf c hp.1, fun b => ih b (hp.2 b)⟩

protected theorem Only.mono (hPQ : ∀ {β : Type} (c : C β), P c → Q c)
    (hp : p.Only P) : p.Only Q := by
  induction p with
  | pure a => trivial
  | call c k ih => exact ⟨hPQ c hp.1, fun b => ih b (hp.2 b)⟩

/-- What every call of the program and every step of the environment preserves, a run preserves. -/
theorem Runs.invariant {I : σ → Prop}
    (hcall : ∀ {β : Type} (c : C β) s b s', P c → I s → sem c s b s' → I s')
    (henv : ∀ s s', I s → env s s' → I s') {s s' : σ} {a : α}
    (h : Runs sem env p s a s') (hp : p.Only P) (hs : I s) : I s' := by
  have hwait : ∀ {s s'}, Relation.ReflTransGen env s s' → I s → I s' := by
    intro s s' hw hI
    induction hw with
    | refl => exact hI
    | tail _ hst ih => exact henv _ _ ih hst
  induction h with
  | done wait => exact hwait wait hs
  | step wait act _ ih => exact ih (hp.2 _) (hcall _ _ _ _ hp.1 (hwait wait hs) act)

end Only

/-! ### Mild programs

A program with a local state is mild when its calls meet `P` and its local state changes within `R`
only, whether it fails or not. -/

/-- Every call meets `P`, and every result meets `R`. -/
def Within (P : {β : Type} → C β → Prop) (R : α → Prop) : Prog C α → Prop
  | .pure a => R a
  | .call c k => P c ∧ ∀ b, (k b).Within P R

def Mild (P : {β : Type} → C β → Prop) (R : l → l → Prop) (t : ExceptT ε (StateT l (Prog C)) α) :
    Prop :=
  ∀ x, (t.run.run x).Within P fun r => R x r.2

section Mild
variable {P : {β : Type} → C β → Prop} {R : l → l → Prop}

variable {S : α → Prop} {p : Prog C α} {t : ExceptT ε (StateT l (Prog C)) α}

theorem within_bind {T : β → Prop} {f : α → Prog C β}
    (hp : p.Within P S) (hf : ∀ a, S a → (f a).Within P T) : (p >>= f).Within P T := by
  induction p with
  | pure a => exact hf a hp
  | call c k ih => exact ⟨hp.1, fun b => ih b (hp.2 b)⟩

protected theorem Only.within (hp : p.Only P) : p.Within P fun _ => True := by
  induction p with
  | pure a => trivial
  | call c k ih => exact ⟨hp.1, fun b => ih b (hp.2 b)⟩

theorem Within.only (hp : p.Within P S) : p.Only P := by
  induction p with
  | pure a => trivial
  | call c k ih => exact ⟨hp.1, fun b => ih b (hp.2 b)⟩

/-- A sequence that may fail, whose first part returns anything. -/
theorem within_bind_run {S : β → Prop} {p : ExceptT ε (Prog C) α}
    (hp : p.run.Only P) (hf : ∀ a, (f a).run.Within P fun r => ∀ b, r = .ok b → S b) :
    (p >>= f).run.Within P fun r => ∀ b, r = .ok b → S b := by
  refine within_bind (S := fun _ => True) hp.within fun r _ => ?_
  cases r with
  | ok a => exact hf a
  | error e => exact nofun

theorem Within.mono {S T : α → Prop} (hp : p.Within P S) (hST : ∀ a, S a → T a) : p.Within P T := by
  induction p with
  | pure a => exact hST a hp
  | call c k ih => exact ⟨hp.1, fun b => ih b (hp.2 b)⟩

theorem Within.calls (hPQ : ∀ {β : Type} (c : C β), P c → Q c)
    (hp : p.Within P S) : p.Within Q S := by
  induction p with
  | pure a => exact hp
  | call c k ih => exact ⟨hPQ c hp.1, fun b => ih b (hp.2 b)⟩

protected theorem Mild.mono (hPQ : ∀ {β : Type} (c : C β), P c → Q c)
    (ht : Mild P R t) : Mild Q R t :=
  fun x => (ht x).calls hPQ

protected theorem Mild.pure [Std.Refl R] (a : α) :
    Mild P R (Pure.pure a : ExceptT ε (StateT l (Prog C)) α) := fun x => refl_of R x

protected theorem Mild.throw [Std.Refl R] (e : ε) :
    Mild P R (throw e : ExceptT ε (StateT l (Prog C)) α) := fun x => refl_of R x

protected theorem Mild.look [Std.Refl R] : Mild P R (look : ExceptT ε (StateT l (Prog C)) l) :=
  fun x => refl_of R x

protected theorem Mild.update {f : l → l} (hf : ∀ x, R x (f x)) :
    Mild P R (update f : ExceptT ε (StateT l (Prog C)) Unit) := hf

protected theorem Mild.await [Std.Refl R] {p : l → ExceptT ε (Prog C) α} (hp : ∀ x, (p x).run.Only P) :
    Mild P R (await p) :=
  fun x => within_bind (hp x).within fun _ _ => refl_of R x

protected theorem Mild.bind [IsTrans l R]
    {f : α → ExceptT ε (StateT l (Prog C)) β} (ht : Mild P R t) (hf : ∀ a, Mild P R (f a)) :
    Mild P R (t >>= f) := by
  intro x
  refine within_bind (ht x) fun r hr => ?_
  obtain ⟨r, y⟩ := r
  cases r with
  | error e => exact hr
  | ok a => exact (hf a y).mono fun _ hr' => trans_of R hr hr'

protected theorem Mild.compute [Std.Refl R] {r : l → Except ε α} {f : α → ExceptT ε (StateT l (Prog C)) β}
    (hf : ∀ x a, r x = .ok a → ((f a).run.run x).Within P fun q => R x q.2) :
    Mild P R (await (fun x => ExceptT.mk (.pure (r x))) >>= f) := by
  intro x
  refine within_bind (S := fun q => q = (r x, x)) rfl fun q hq => ?_
  subst hq
  cases hr : r x with
  | error e => exact refl_of R x
  | ok a => exact hf x a hr

protected theorem Mild.catchS (ht : Mild P R t) : Mild P R (catchS t) :=
  fun x => within_bind (ht x) fun _ hr => hr

end Mild

end Prog
