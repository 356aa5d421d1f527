import Orchestrator.Lib.Program

/-!
# Giving calls a meaning

A program over calls `C` becomes one over calls `D` when each call is replaced by a program over `D`.
This respects sequencing, failures and local state, so a program and its refinement are compared
step by step.
-/

namespace Prog

variable {C D : Type → Type} {α β γ ε ε' l : Type}

theorem bind_assoc (p : Prog C α) (f : α → Prog C β) (g : β → Prog C γ) :
    p >>= f >>= g = p >>= fun a => f a >>= g := by
  induction p with
  | pure a => rfl
  | call c k ih => exact congrArg (Prog.call c) (funext ih)

theorem bind_pure (p : Prog C α) : (p >>= fun a => .pure a) = p := by
  induction p with
  | pure a => rfl
  | call c k ih => exact congrArg (Prog.call c) (funext ih)

/-- What follows may be replaced by what does the same after each possible result. -/
theorem bind_congr_within {P : {β : Type} → C β → Prop} {S : α → Prop} {p : Prog C α}
    {f g : α → Prog C β} (hp : p.Within P S) (hfg : ∀ a, S a → f a = g a) : p >>= f = p >>= g := by
  induction p with
  | pure a => exact hfg a hp
  | call c k ih => exact congrArg (Prog.call c) (funext fun b => ih b (hp.2 b))

/-- A task that changes the local state as `f` does when it succeeds, and not at all when it fails,
is its result followed by that change. -/
theorem await_update {t : ExceptT ε (StateT l (Prog C)) Unit} {f : l → l}
    (h : ∀ x, (t.run.run x).Within (fun _ => True) fun r => r.2 = if r.1.isOk then f x else x) :
    (await (fun x => ExceptT.mk (t.run.run x >>= fun r => .pure r.1)) >>= fun _ => update f) = t := by
  funext x
  refine (congrArg (· >>= _) (bind_assoc _ _ _)).trans ((bind_assoc _ _ _).trans ?_)
  refine (bind_congr_within (h x) fun r hr => ?_).trans (bind_pure _)
  obtain ⟨r, y⟩ := r
  cases r with
  | ok u => exact congrArg (fun z => Prog.pure (Except.ok (), z)) hr.symm
  | error e => exact congrArg (fun z => Prog.pure (Except.error e, z)) hr.symm

section Interpret
variable (m : {β : Type} → C β → Prog D β)

/-- `p`, with the meaning `m c` in the place of every call `c`. -/
def interpret : Prog C α → Prog D α
  | .pure a => .pure a
  | .call c k => m c >>= fun b => (k b).interpret

theorem interpret_bind (p : Prog C α) (f : α → Prog C β) :
    (p >>= f).interpret m = p.interpret m >>= fun a => (f a).interpret m := by
  induction p with
  | pure a => rfl
  | call c k ih =>
    have hk : (fun b => (k b >>= f).interpret m) =
        fun b => (k b).interpret m >>= fun a => (f a).interpret m := funext ih
    show (m c >>= fun b => (k b >>= f).interpret m) = _
    rw [hk, ← bind_assoc]
    rfl

theorem interpret_ask (c : C β) : (ask c).interpret m = m c := bind_pure (m c)

/-! ## Programs that may fail -/

def interpretE (p : ExceptT ε (Prog C) α) : ExceptT ε (Prog D) α := ExceptT.mk (p.run.interpret m)

@[simp] theorem interpretE_bind (p : ExceptT ε (Prog C) α) (f : α → ExceptT ε (Prog C) β) :
    interpretE m (p >>= f) = interpretE m p >>= fun a => interpretE m (f a) := by
  refine (interpret_bind m p.run (ExceptT.bindCont f)).trans ?_
  refine congrArg (fun g => p.run.interpret m >>= g) (funext fun r => ?_)
  cases r with
  | ok a => rfl
  | error e => rfl

@[simp] theorem interpretE_pure (a : α) :
    interpretE m (Pure.pure a : ExceptT ε (Prog C) α) = Pure.pure a := rfl

theorem interpretE_attempt (c : C (Except ε α)) :
    interpretE m (attempt c) = ExceptT.mk (m c) := interpret_ask m c

theorem interpretE_attemptAs (f : ε → ε') (c : C (Except ε α)) :
    interpretE m (attemptAs f c) = ExceptT.mk (m c >>= fun r => .pure (r.mapError f)) := by
  refine (interpret_bind m (ask c) _).trans ?_
  rw [interpret_ask]
  rfl

@[simp] theorem interpretE_observe (p : ExceptT ε (Prog C) α) :
    interpretE m (observe p : ExceptT ε' (Prog C) _) = observe (interpretE m p) :=
  interpret_bind m p.run _

@[simp] theorem interpretE_provided (p : Prop) [Decidable p] (t : ExceptT ε (Prog C) Unit) :
    interpretE m (provided p t) = provided p (interpretE m t) := by
  unfold provided
  split <;> rfl

/-! ## Programs with a local state -/

def interpretS (t : ExceptT ε (StateT l (Prog C)) α) : ExceptT ε (StateT l (Prog D)) α :=
  ExceptT.mk fun x => (t.run.run x).interpret m

@[simp] theorem interpretS_bind (t : ExceptT ε (StateT l (Prog C)) α)
    (f : α → ExceptT ε (StateT l (Prog C)) β) :
    interpretS m (t >>= f) = interpretS m t >>= fun a => interpretS m (f a) := by
  funext x
  refine (interpret_bind m (t.run.run x) _).trans ?_
  refine congrArg (fun g => (t.run.run x).interpret m >>= g) (funext fun r => ?_)
  obtain ⟨r, y⟩ := r
  cases r with
  | ok a => rfl
  | error e => rfl

@[simp] theorem interpretS_pure (a : α) :
    interpretS m (Pure.pure a : ExceptT ε (StateT l (Prog C)) α) = Pure.pure a := rfl

@[simp] theorem interpretS_await (p : l → ExceptT ε (Prog C) α) :
    interpretS m (await p) = await fun x => interpretE m (p x) :=
  funext fun x => interpret_bind m (p x).run _

@[simp] theorem interpretS_update (f : l → l) :
    interpretS m (update f : ExceptT ε (StateT l (Prog C)) Unit) = update f := rfl

@[simp] theorem interpretS_catchS (t : ExceptT ε (StateT l (Prog C)) α) :
    interpretS m (catchS t) = catchS (interpretS m t) :=
  funext fun x => interpret_bind m (t.run.run x) _

end Interpret
end Prog
