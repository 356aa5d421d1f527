import Mathlib.Data.List.Range
import Mathlib.Data.List.Sort

/-!
# Gapless numberings

`Gapless l`: the numbers of `l` are `1, 2, …, n` in this order. A writer that takes the maximum plus
one keeps a numbering gapless, and what a reader sees of it after a cursor is consecutive.
-/

def Gapless (l : List Nat) : Prop := l = List.range' 1 l.length

namespace Gapless

variable {l m : List Nat} {k : Nat}

theorem nil : Gapless [] := rfl

theorem mem_iff (h : Gapless l) : k ∈ l ↔ 1 ≤ k ∧ k ≤ l.length := by
  rw [h, List.mem_range'_1, List.length_range']
  omega

theorem snoc (h : Gapless l) : Gapless (l ++ [l.length + 1]) := by
  rw [Gapless, List.length_append, List.length_singleton, List.range'_1_concat, ← h, Nat.add_comm]

theorem left (h : Gapless (l ++ m)) : Gapless l := by
  rw [Gapless, List.length_append, ← List.range'_append_1] at h
  exact (List.append_inj h (by simp)).1

theorem foldl_max_range' (n : Nat) : (List.range' 1 n).foldl max 0 = n := by
  induction n with
  | zero => rfl
  | succ n ih =>
    rw [List.range'_1_concat, List.foldl_append, ih, List.foldl_cons, List.foldl_nil]
    omega

/-- The maximum of a gapless numbering is how many numbers it has. -/
theorem foldl_max (h : Gapless l) : l.foldl max 0 = l.length := by
  conv_lhs => rw [h]
  exact foldl_max_range' _

theorem pairwise (h : Gapless l) : l.Pairwise (· ≤ ·) := by
  rw [h]
  exact List.pairwise_le_range'

/-- What comes after a cursor is the rest of the list. -/
theorem filter_lt {α : Type} {f : α → Nat} {l : List α} (h : Gapless (l.map f)) (after : Nat) :
    l.filter (fun x => after < f x) = l.drop after := by
  induction l using List.reverseRecOn with
  | nil => simp
  | append_singleton l x ih =>
    rw [List.map_append] at h
    have hx : f x = l.length + 1 := by
      have hlast := congrArg List.getLast? h
      simpa [List.getLast?_range', Nat.add_comm] using hlast
    rw [List.filter_append, ih h.left]
    by_cases hle : after ≤ l.length
    · rw [List.drop_append_of_le_length hle, List.filter_cons_of_pos (by simp [hx]; omega)]
      rfl
    · rw [List.filter_cons_of_neg (by simp [hx]; omega), List.drop_eq_nil_of_le (by omega),
        List.drop_eq_nil_of_le (by simp; omega)]
      rfl

/-- A batch of what comes after a cursor is consecutive too. -/
theorem take_range' (start n limit : Nat) :
    (List.range' start n).take limit = List.range' start (min limit n) := by
  induction n generalizing start limit with
  | zero => simp
  | succ n ih =>
    cases limit with
    | zero => simp
    | succ limit =>
      rw [List.range'_succ, List.take_succ_cons, ih, Nat.add_min_add_right, List.range'_succ]

end Gapless
