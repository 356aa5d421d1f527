import Mathlib.Data.List.Induction
import Orchestrator.Lib.History
import Orchestrator.Lib.Triple

/-!
# What a program calls before what

The calls a program has made so far are the state of a setting in which nobody else acts. A
`Protocol` says which answers calls may get and what must have been called before a call; a triple
over its setting shows that a program follows the protocol wherever it is cut off (`Protocol.makes`).
-/

namespace Prog

universe u

/-- Every element is fine after those before it. -/
def Ordered {α : Type u} (ok : List α → α → Prop) (xs : List α) : Prop :=
  ∀ past x rest, xs = past ++ x :: rest → ok past x

section Ordered
variable {α : Type u} {ok : List α → α → Prop}

theorem ordered_nil : Ordered ok [] := by
  intro past x rest h
  cases past <;> exact nomatch h

theorem ordered_snoc {xs : List α} {x : α} (hxs : Ordered ok xs) (hx : ok xs x) :
    Ordered ok (xs ++ [x]) := by
  intro past y rest h
  rcases List.eq_nil_or_concat rest with rfl | ⟨rest, z, rfl⟩
  · obtain ⟨rfl, hy⟩ := List.append_inj' h rfl
    obtain rfl := List.singleton_inj.1 hy
    exact hx
  · rw [List.concat_eq_append, ← List.cons_append, ← List.append_assoc] at h
    exact hxs past y rest (List.append_inj' h rfl).1

theorem Ordered.init {xs ys : List α} (h : Ordered ok (xs ++ ys)) : Ordered ok xs := by
  rintro past x rest rfl
  exact h past x (rest ++ ys) (by simp)

theorem Ordered.last {xs : List α} {x : α} (h : Ordered ok (xs ++ [x])) : ok xs x := h xs x [] rfl

/-- Elements that come only after fewer than `n` of their kind are at most `n`. -/
theorem Ordered.countP_le {p : α → Bool} {n : Nat} {xs : List α}
    (h : Ordered (fun past x => p x = true → past.countP p < n) xs) : xs.countP p ≤ n := by
  induction xs using List.reverseRecOn with
  | nil => exact Nat.zero_le n
  | append_singleton xs x ih =>
    have hxs := ih h.init
    have hx := h.last
    rw [List.countP_append, List.countP_singleton]
    split
    · rename_i hp
      exact hx hp
    · exact hxs

end Ordered

/-- Which answers may come, and what a call must find behind it. -/
structure Protocol (C : Type → Type) where
  answers : {β : Type} → C β → β → Prop
  allows : List (Answered C) → Answered C → Prop

namespace Protocol

variable {C : Type → Type} {α β ε ε' l : Type} (R : Protocol C)

/-- The calls made so far, of a program that is alone. -/
def setting : Setting C (List (Answered C)) where
  sem c es b es' := R.answers c b ∧ es' = es ++ [⟨c, b⟩]
  env := alone
  safe := Ordered R.allows

/-- The protocol was followed, and `P` holds of the calls so far. -/
def past (P : List (Answered C) → Prop) : Assertion R.setting where
  holds es := Ordered R.allows es ∧ P es
  stable h := h.elim
  within h := h.1

/-- After calls that meet `P` the program keeps the protocol, and `Q` holds of them if it returns. -/
abbrev Keeps (P : List (Answered C) → Prop) (p : ExceptT ε (Prog C) α)
    (Q : α → List (Answered C) → Prop) : Prop :=
  TripleE (R.past P) p (fun a => R.past (Q a)) (R.past fun _ => True)

variable {R} {P : List (Answered C) → Prop}

theorem attempt {Q : α → List (Answered C) → Prop} {E : List (Answered C) → Prop}
    {c : C (Except ε α)} (hok : ∀ es r, P es → R.answers c r → R.allows es ⟨c, r⟩)
    (hQ : ∀ es a, P es → R.answers c (.ok a) → Q a (es ++ [⟨c, .ok a⟩]))
    (hE : ∀ es e, P es → R.answers c (.error e) → E (es ++ [⟨c, .error e⟩])) :
    TripleE (R.past P) (Prog.attempt c) (fun a => R.past (Q a)) (R.past E) := by
  refine .attempt ?_ ?_
  · rintro es a _ ⟨hes, hP⟩ ⟨ha, rfl⟩
    exact ⟨ordered_snoc hes (hok es _ hP ha), hQ es a hP ha⟩
  · rintro es e _ ⟨hes, hP⟩ ⟨he, rfl⟩
    exact ⟨ordered_snoc hes (hok es _ hP he), hE es e hP he⟩

theorem attemptAs {Q : α → List (Answered C) → Prop} {E : List (Answered C) → Prop} {f : ε → ε'}
    {c : C (Except ε α)} (hok : ∀ es r, P es → R.answers c r → R.allows es ⟨c, r⟩)
    (hQ : ∀ es a, P es → R.answers c (.ok a) → Q a (es ++ [⟨c, .ok a⟩]))
    (hE : ∀ es e, P es → R.answers c (.error e) → E (es ++ [⟨c, .error e⟩])) :
    TripleE (R.past P) (Prog.attemptAs f c) (fun a => R.past (Q a)) (R.past E) :=
  Triple.bind (attempt hok hQ hE) fun r => match r with
    | .ok _ => fun _ hs => hs
    | .error _ => fun _ hs => hs

/-- What a program calls is a run of it in the setting of the protocol. -/
theorem dies_of_makes {p : Prog C α} {es : List (Answered C)} {r : Option α} (h : Makes p es r)
    (ha : ∀ x ∈ es, R.answers x.call x.answer) (before : List (Answered C)) :
    Dies R.setting.sem R.setting.env p before (before ++ es) := by
  induction h generalizing before with
  | cut => rw [List.append_nil]; exact .here .refl
  | done => rw [List.append_nil]; exact .here .refl
  | @step _ c k b es r rest ih =>
    have hrest := ih (fun x hx => ha x (List.mem_cons_of_mem _ hx)) (before ++ [⟨c, b⟩])
    rw [List.append_assoc] at hrest
    exact .step .refl ⟨ha _ List.mem_cons_self, rfl⟩ hrest

/-- A program that follows the protocol has followed it wherever it stops. -/
theorem makes {p : Prog C α} {Q : α → Assertion R.setting} (hp : Triple (R.past P) p Q)
    (hP : P []) {es : List (Answered C)} {r : Option α} (h : Makes p es r)
    (ha : ∀ x ∈ es, R.answers x.call x.answer) : Ordered R.allows es :=
  (hp [] ⟨ordered_nil, hP⟩).of_dies (dies_of_makes h ha [])

end Protocol
end Prog
