import Mathlib.Data.List.Infix

/-!
# Occurrences and lines

`position w xs` is where `w` first occurs in `xs`. `records sep xs` cuts a stream behind every `sep`,
as reading it up to the next `sep` again and again does. A word without `sep` that occurs in the stream
occurs in one of its records (`infix_split`), so a stream that is rewritten record by record, each of
them keeping its `sep` at the end, has no occurrence that its records do not have (`Lined.clean`).
-/

namespace Lines

variable {α : Type} {sep : α} {w xs ys : List α}

/-! ## Occurrences -/

section Position
variable [DecidableEq α]

/-- The place where `w` first occurs. -/
def position (w : List α) : List α → Option Nat
  | [] => if w = [] then some 0 else none
  | x :: xs => if w <+: x :: xs then some 0 else (position w xs).map (· + 1)

theorem position_eq_none : position w xs = none ↔ ¬w <:+: xs := by
  induction xs with
  | nil => simp [position]
  | cons x xs ih =>
    rw [position, List.infix_cons_iff, not_or]
    split
    · simp [*]
    · simp [*]

theorem position_eq_some {i : Nat} (h : position w xs = some i) :
    xs = xs.take i ++ w ++ xs.drop (i + w.length) := by
  induction xs generalizing i with
  | nil =>
    rw [position] at h
    split at h
    · simp [*]
    · cases h
  | cons x xs ih =>
    rw [position] at h
    split at h
    · rename_i hw
      obtain rfl := Option.some.inj h
      obtain ⟨rest, hrest⟩ := hw
      simp [← hrest]
    · obtain ⟨j, hj, rfl⟩ := Option.map_eq_some_iff.1 h
      have hxs := ih hj
      rw [List.take_succ_cons, Nat.add_right_comm, List.drop_succ_cons, List.cons_append,
        List.cons_append, ← hxs]

end Position

/-- An occurrence without `sep` lies on one side of it. -/
theorem infix_split (hsep : sep ∉ w) (h : w <:+: xs ++ sep :: ys) : w <:+: xs ∨ w <:+: ys := by
  obtain ⟨pre, post, heq⟩ := h
  rw [List.append_assoc] at heq
  rcases List.append_eq_append_iff.1 heq with ⟨gap, rfl, hgap⟩ | ⟨gap, rfl, hgap⟩
  · -- `w` starts before the separator
    rcases List.append_eq_append_iff.1 hgap with ⟨tail, rfl, _⟩ | ⟨tail, hw, htail⟩
    · exact .inl ⟨pre, tail, by simp⟩
    · cases tail with
      | nil => exact .inl ⟨pre, [], by simp [hw]⟩
      | cons t tail =>
        obtain ⟨rfl, _⟩ := List.cons.inj htail
        exact absurd (by simp [hw]) hsep
  · cases gap with
    | nil =>
      cases w with
      | nil => exact .inl (List.nil_infix)
      | cons c w =>
        obtain ⟨rfl, _⟩ := List.cons.inj hgap
        exact absurd List.mem_cons_self hsep
    | cons t gap =>
      obtain ⟨rfl, rfl⟩ := List.cons.inj hgap
      exact .inr ⟨gap, post, by simp⟩

/-! ## Reading -/

section Reading
variable [DecidableEq α]

/-- Up to and including the first `sep`, and what follows. -/
def readUntil (sep : α) : List α → List α × List α
  | [] => ([], [])
  | x :: xs =>
    if x = sep then ([x], xs)
    else (x :: (readUntil sep xs).1, (readUntil sep xs).2)

/-- What is read until nothing is left. -/
def records (sep : α) : List α → List (List α)
  | [] => []
  | x :: xs =>
    if x = sep then [x] :: records sep xs
    else match records sep xs with
      | [] => [[x]]
      | r :: rs => (x :: r) :: rs

theorem records_append (h : sep ∉ xs) (ys : List α) :
    records sep (xs ++ sep :: ys) = (xs ++ [sep]) :: records sep ys := by
  induction xs with
  | nil => simp [records]
  | cons x xs ih =>
    obtain ⟨hx, hxs⟩ := List.ne_and_not_mem_of_not_mem_cons h
    simp [records, ih hxs, Ne.symm hx]

/-- The first record is what one read returns; the others come from what follows. -/
theorem records_eq_cons (h : xs ≠ []) :
    records sep xs = (readUntil sep xs).1 :: records sep (readUntil sep xs).2 := by
  induction xs with
  | nil => exact absurd rfl h
  | cons x xs ih =>
    rw [records, readUntil]
    split
    · rfl
    · by_cases hxs : xs = []
      · subst hxs
        rfl
      · rw [ih hxs]

/-- A record ends with its only `sep`, or is the last one and has none. -/
theorem records_cases (sep : α) (h : xs ≠ []) : ∃ body,
    sep ∉ body ∧ ((readUntil sep xs).1 = body ++ [sep] ∨
      ((readUntil sep xs).1 = body ∧ (readUntil sep xs).2 = [])) := by
  induction xs with
  | nil => exact absurd rfl h
  | cons x xs ih =>
    rw [readUntil]
    split
    · rename_i hx
      exact ⟨[], by simp, .inl (by simp [hx])⟩
    · rename_i hx
      by_cases hxs : xs = []
      · subst hxs
        exact ⟨[x], by simpa using Ne.symm hx, .inr ⟨rfl, rfl⟩⟩
      · obtain ⟨body, hbody, hcase⟩ := ih hxs
        refine ⟨x :: body, by simp [Ne.symm hx, hbody], ?_⟩
        rcases hcase with hline | ⟨hlast, hrest⟩
        · exact .inl (by simp [hline])
        · exact .inr ⟨by simp [hlast], hrest⟩

theorem length_readUntil (sep : α) (xs : List α) :
    (readUntil sep xs).1.length + (readUntil sep xs).2.length = xs.length := by
  induction xs with
  | nil => rfl
  | cons x xs ih =>
    rw [readUntil]
    split
    · simp [Nat.add_comm]
    · simp only [List.length_cons]
      omega

theorem length_readUntil_pos (sep : α) (h : xs ≠ []) : 0 < (readUntil sep xs).1.length := by
  cases xs with
  | nil => exact absurd rfl h
  | cons x xs => rw [readUntil]; split <;> simp

/-! ### Pieces between separators -/

/-- The pieces between occurrences of `sep`. -/
def split (sep : α) : List α → List (List α)
  | [] => [[]]
  | x :: xs =>
    if x = sep then [] :: split sep xs
    else (x :: (split sep xs).headD []) :: (split sep xs).tail

def upToLast (sep : α) : List α → List α
  | [] => []
  | x :: xs => if upToLast sep xs ≠ [] ∨ x = sep then x :: upToLast sep xs else []

theorem split_ne_nil (sep : α) (xs : List α) : split sep xs ≠ [] := by
  cases xs with
  | nil => simp [split]
  | cons x xs => rw [split]; split <;> simp

theorem split_append (sep : α) (xs ys : List α) :
    split sep (xs ++ sep :: ys) = split sep xs ++ split sep ys := by
  induction xs with
  | nil => simp [split]
  | cons x xs ih =>
    obtain ⟨r, rs, hsplit⟩ := List.exists_cons_of_ne_nil (split_ne_nil sep xs)
    rw [List.cons_append, split, split, ih, hsplit]
    split <;> simp

theorem upToLast_part (sep : α) (xs : List α) : upToLast sep xs <+: xs := by
  induction xs with
  | nil => exact List.prefix_refl _
  | cons x xs ih =>
    rw [upToLast]
    split
    · exact List.cons_prefix_cons.2 ⟨rfl, ih⟩
    · exact List.nil_prefix

theorem upToLast_ends (sep : α) (xs : List α) :
    upToLast sep xs = [] ∨ ∃ ys, upToLast sep xs = ys ++ [sep] := by
  induction xs with
  | nil => exact .inl rfl
  | cons x xs ih =>
    rw [upToLast]
    split
    · rename_i h
      rcases ih with hnil | ⟨ys, hys⟩
      · rw [hnil] at h ⊢
        exact .inr ⟨[], by simpa using h⟩
      · exact .inr ⟨x :: ys, by rw [hys]; rfl⟩
    · exact .inl rfl

theorem upToLast_append (sep : α) (xs ys : List α) :
    upToLast sep (xs ++ [sep] ++ ys) = xs ++ [sep] ++ upToLast sep ys := by
  induction xs with
  | nil => simp [upToLast]
  | cons x xs ih =>
    rw [List.cons_append, List.cons_append, upToLast, ih, if_pos (by simp)]
    rfl

/-- What stands before and behind the first `sep`. -/
def splitOnce (sep : α) (xs : List α) : Option (List α × List α) :=
  match xs.dropWhile (· ≠ sep) with
  | [] => none
  | _ :: rest => some (xs.takeWhile (· ≠ sep), rest)

/-- What stands before and behind the last `sep`. -/
def rsplitOnce (sep : α) (xs : List α) : Option (List α × List α) :=
  (splitOnce sep xs.reverse).map fun halves => (halves.2.reverse, halves.1.reverse)

theorem splitOnce_append (h : sep ∉ xs) (ys : List α) :
    splitOnce sep (xs ++ sep :: ys) = some (xs, ys) := by
  have hxs : ∀ x ∈ xs, decide (x ≠ sep) = true := fun x hx =>
    decide_eq_true fun heq => h (heq ▸ hx)
  rw [splitOnce, List.dropWhile_append_of_pos hxs, List.takeWhile_append_of_pos hxs]
  simp

theorem rsplitOnce_append (xs : List α) (h : sep ∉ ys) :
    rsplitOnce sep (xs ++ sep :: ys) = some (xs, ys) := by
  rw [rsplitOnce, List.reverse_append, List.reverse_cons, List.append_assoc, List.singleton_append,
    splitOnce_append (by simpa using h)]
  simp

theorem split_of_not_mem (h : sep ∉ xs) : split sep xs = [xs] := by
  induction xs with
  | nil => rfl
  | cons x xs ih =>
    obtain ⟨hx, hxs⟩ := List.ne_and_not_mem_of_not_mem_cons h
    simp [split, ih hxs, Ne.symm hx]

end Reading

/-! ### Cutting in one way -/

/-- A text is cut at its last `sep` in one way only. -/
theorem append_sep_inj {xs' ys' : List α} (hys : sep ∉ ys) (hys' : sep ∉ ys')
    (h : xs ++ sep :: ys = xs' ++ sep :: ys') : xs = xs' ∧ ys = ys' := by
  rcases List.append_eq_append_iff.1 h with ⟨zs, rfl, hz⟩ | ⟨zs, rfl, hz⟩ <;> cases zs with
  | nil => simp_all
  | cons z zs => simp_all

/-- So it is at its first doubled `sep`. -/
theorem append_double_inj {xs' ys' : List α} (hxs : ¬[sep, sep] <:+: xs) (hlast : xs.getLast? ≠ some sep)
    (hxs' : ¬[sep, sep] <:+: xs') (hlast' : xs'.getLast? ≠ some sep)
    (h : xs ++ sep :: sep :: ys = xs' ++ sep :: sep :: ys') : xs = xs' ∧ ys = ys' := by
  have hcut : ∀ us zs : List α, [sep, sep] <:+: us ++ sep :: sep :: zs := fun us zs =>
    ⟨us, zs, by simp⟩
  rcases List.append_eq_append_iff.1 h with ⟨zs, rfl, hz⟩ | ⟨zs, rfl, hz⟩ <;>
    rcases zs with _ | ⟨z, _ | ⟨z', zs⟩⟩ <;> simp_all

/-! ## Rewriting record by record -/

/-- Every piece but the last ends with its only `sep`; the last may have none. -/
inductive Lined (sep : α) : List (List α) → Prop
  | nil : Lined sep []
  | last {body} (h : sep ∉ body) : Lined sep [body]
  | line {body rest} (h : sep ∉ body) (more : Lined sep rest) : Lined sep ((body ++ [sep]) :: rest)

/-- Pieces in which `w` does not occur are a text in which it does not. -/
theorem Lined.clean {pieces : List (List α)} (h : Lined sep pieces) (hsep : sep ∉ w) (hw : w ≠ [])
    (hclean : ∀ p ∈ pieces, ¬w <:+: p) : ¬w <:+: pieces.flatten := by
  induction h with
  | nil => simpa using hw
  | last => simpa using hclean
  | @line body rest _ _ ih =>
    rw [List.flatten_cons, List.append_assoc]
    intro hin
    rcases infix_split hsep hin with hbody | hrest
    · exact hclean _ List.mem_cons_self (hbody.trans (List.prefix_append body [sep]).isInfix)
    · exact ih (fun p hp => hclean p (List.mem_cons_of_mem _ hp)) hrest

end Lines
