import Mathlib.Logic.Relation

/-!
# Transactions and runs

A transaction over a database `σ` either rolls back with an error or commits a result together with
the next database; `Txn.run` is what a caller sees, and leaves the database as it was on an error.
A run is any sequence of committed steps (`Reaches`), each meeting a side condition `ok` on the
state it starts from and its label. The rules here are the ones every invariant proof uses:
inversion of successful guards and binds, and induction over runs.
-/

namespace Txn

variable {ε α β σ : Type}

/-- Fail with `e` unless `p` holds. -/
def ensure (p : Prop) [Decidable p] (e : ε) : Except ε Unit := if p then .ok () else .error e

/-- The value of `o`, or the error `e`. -/
def require (o : Option α) (e : ε) : Except ε α :=
  match o with
  | some a => .ok a
  | none => .error e

/-- Run `tx`: on an error nothing is committed. -/
def run (tx : σ → Except ε (α × σ)) (s : σ) : Except ε α × σ :=
  match tx s with
  | .ok (a, s') => (.ok a, s')
  | .error e => (.error e, s)

/-- Run a transaction that may commit and still report an error. -/
def runReporting (tx : σ → Except ε (Except ε α × σ)) (s : σ) : Except ε α × σ :=
  match tx s with
  | .ok (r, s') => (r, s')
  | .error e => (.error e, s)

/-! ## Inversion -/

@[simp] theorem bind_eq_ok {x : Except ε α} {f : α → Except ε β} {b : β} :
    (x >>= f) = .ok b ↔ ∃ a, x = .ok a ∧ f a = .ok b := by
  cases x with
  | error e => exact ⟨nofun, nofun⟩
  | ok a => exact ⟨fun h => ⟨a, rfl, h⟩, fun ⟨_, rfl, h⟩ => h⟩

theorem seq_eq_ok {x : Except ε Unit} {f : Unit → Except ε β} {b : β} :
    (x >>= f) = .ok b ↔ x = .ok () ∧ f () = .ok b :=
  bind_eq_ok.trans ⟨fun ⟨_, hx, hf⟩ => ⟨hx, hf⟩, fun ⟨hx, hf⟩ => ⟨(), hx, hf⟩⟩

@[simp] theorem pure_eq_ok {a b : α} : (pure a : Except ε α) = .ok b ↔ a = b :=
  ⟨fun h => by cases h; rfl, fun h => congrArg _ h⟩

@[simp] theorem ensure_eq_ok {p : Prop} [Decidable p] {e : ε} {u : Unit} :
    ensure p e = .ok u ↔ p := by
  unfold ensure
  split <;> simp [*]

@[simp] theorem require_eq_ok {o : Option α} {e : ε} {a : α} :
    require o e = .ok a ↔ o = some a := by
  cases o <;> simp [require]

/-! A failed computation failed somewhere. -/

theorem bind_eq_error {x : Except ε α} {f : α → Except ε β} {e : ε} :
    (x >>= f) = .error e ↔ x = .error e ∨ ∃ a, x = .ok a ∧ f a = .error e := by
  cases x with
  | error e' => exact ⟨fun h => .inl (congrArg _ (Except.error.inj h)), fun h => by
      rcases h with h | ⟨_, h, _⟩
      · exact congrArg _ (Except.error.inj h)
      · cases h⟩
  | ok a => exact ⟨fun h => .inr ⟨a, rfl, h⟩, fun h => by
      rcases h with h | ⟨_, h, h'⟩
      · cases h
      · cases h; exact h'⟩

theorem ensure_eq_error {p : Prop} [Decidable p] {e e' : ε} :
    ensure p e = .error e' ↔ ¬ p ∧ e = e' := by
  unfold ensure
  split <;> simp [*]

theorem require_eq_error {o : Option α} {e e' : ε} :
    require o e = .error e' ↔ o = none ∧ e = e' := by
  cases o <;> simp [require]

theorem run_ok {tx : σ → Except ε (α × σ)} {s s' : σ} {a : α} :
    run tx s = (.ok a, s') ↔ tx s = .ok (a, s') := by
  unfold run
  cases h : tx s with
  | error e => simp
  | ok r => simp [Prod.ext_iff]

/-- A transaction whose reply is known to be `a` committed some database. -/
theorem exists_of_reply {x : Except ε (α × σ)} {a : α} (h : x.map Prod.fst = .ok a) :
    ∃ s, x = .ok (a, s) := by
  cases x with
  | error e => cases h
  | ok r => exact ⟨r.2, by rw [← Except.ok.inj h]⟩

/-- After a run the database is unchanged, or the transaction committed it. -/
theorem run_state {f : σ → Except ε (α × σ)} {s s' : σ} (h : (run f s).2 = s') :
    s' = s ∨ ∃ a, f s = .ok (a, s') := by
  unfold run at h
  cases htx : f s with
  | error e => rw [htx] at h; exact .inl h.symm
  | ok r => rw [htx] at h; exact .inr ⟨r.1, by rw [← h]⟩

theorem runReporting_state {tx : σ → Except ε (Except ε α × σ)} {s s' : σ}
    (h : (runReporting tx s).2 = s') : s' = s ∨ ∃ r, tx s = .ok (r, s') := by
  unfold runReporting at h
  cases htx : tx s with
  | error e => rw [htx] at h; exact .inl h.symm
  | ok r => rw [htx] at h; exact .inr ⟨r.1, by rw [← h]⟩

end Txn

/-! ## Runs -/

section Runs
variable {σ ℓ : Type*} {step : σ → ℓ → σ → Prop} {ok ok' : σ → ℓ → Prop}

/-- `t` is reached from `s` by steps whose labels all meet `ok` where they are taken. -/
def Reaches (step : σ → ℓ → σ → Prop) (ok : σ → ℓ → Prop) : σ → σ → Prop :=
  Relation.ReflTransGen fun a b => ∃ l, ok a l ∧ step a l b

/-- What every allowed step preserves, every run preserves. -/
theorem Reaches.invariant {I : σ → Prop}
    (hstep : ∀ a l b, I a → ok a l → step a l b → I b) {s t : σ} (h : Reaches step ok s t)
    (hs : I s) : I t := by
  induction h with
  | refl => exact hs
  | tail _ hl ih =>
    obtain ⟨l, hok, hst⟩ := hl
    exact hstep _ l _ ih hok hst

theorem Reaches.mono (hok : ∀ a l, ok a l → ok' a l) {s t : σ} (h : Reaches step ok s t) :
    Reaches step ok' s t :=
  Relation.ReflTransGen.mono (fun _ _ ⟨l, hl, hst⟩ => ⟨l, hok _ _ hl, hst⟩) _ _ h

theorem Reaches.snoc {s t u : σ} {l : ℓ} (h : Reaches step ok s t) (hok : ok t l)
    (hst : step t l u) : Reaches step ok s u :=
  Relation.ReflTransGen.tail h ⟨l, hok, hst⟩

theorem Reaches.single {s t : σ} {l : ℓ} (hst : step s l t) (hok : ok s l) : Reaches step ok s t :=
  Relation.ReflTransGen.single ⟨l, hok, hst⟩

/-- The run of `next` along some labels, as long as every step can be made and meets `ok`. -/
def follow (next : σ → ℓ → Option σ) (ok : σ → ℓ → Prop) [∀ s l, Decidable (ok s l)] :
    σ → List ℓ → Option σ
  | s, [] => some s
  | s, l :: ls => if ok s l then (next s l).bind fun t => follow next ok t ls else none

theorem reaches_of_follow {next : σ → ℓ → Option σ} {ok : σ → ℓ → Prop}
    [∀ s l, Decidable (ok s l)] {s t : σ} {ls : List ℓ} (h : follow next ok s ls = some t) :
    Reaches (fun a l b => next a l = some b) ok s t := by
  induction ls generalizing s with
  | nil => exact Option.some.inj h ▸ .refl
  | cons l ls ih =>
    simp only [follow] at h
    split at h
    · rename_i hok
      obtain ⟨u, hstep, hrest⟩ := Option.bind_eq_some_iff.1 h
      exact .head ⟨l, hok, hstep⟩ (ih hrest)
    · exact nomatch h

end Runs
