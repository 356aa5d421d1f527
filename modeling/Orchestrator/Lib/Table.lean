import Mathlib.Algebra.GroupWithZero.Nat
import Mathlib.Data.List.Nodup
import Mathlib.Algebra.BigOperators.Group.List.Basic

/-!
# Relational tables with a primary key

`Relational.Table ρ key` is a table of rows `ρ` in which no two rows share a value of `key`: the
primary-key constraint is a field, so a table that violates it cannot be built. The operations are
the ones SQL statements are made of: `find?` (`SELECT … WHERE key = k`), `put`
(`INSERT … ON CONFLICT (key) DO UPDATE`), `update` (`UPDATE … WHERE p`), `erase`
(`DELETE … WHERE key = k`) and `total` (`SUM(f) … WHERE p`, with `COUNT(*)` the sum of ones).

Every operation is specified through `find?` and `total`; proofs about a program's tables use those
equations and never look at the list of rows.
-/

namespace Relational

/-- A table whose rows are identified by `key`. -/
structure Table (ρ : Type) {κ : Type} (key : ρ → κ) where
  rows : List ρ
  nodup : (rows.map key).Nodup

namespace Table

variable {ρ κ : Type} {key : ρ → κ}

/-- The table without rows. -/
def empty : Table ρ key := ⟨[], List.nodup_nil⟩

variable [DecidableEq κ]

/-- `SELECT … WHERE key = k`. -/
def find? (t : Table ρ key) (k : κ) : Option ρ := t.rows.find? fun r => key r = k

/-- `SUM(f) … WHERE p`. -/
def total (t : Table ρ key) (p : ρ → Bool) (f : ρ → Nat) : Nat := ((t.rows.filter p).map f).sum

/-- `COUNT(*) … WHERE p`. -/
def count (t : Table ρ key) (p : ρ → Bool) : Nat := t.total p fun _ => 1

/-- `UPDATE … SET f WHERE p`; no statement of ours assigns to a primary key (`hf`). -/
def update (t : Table ρ key) (p : ρ → Bool) (f : ρ → ρ) (hf : ∀ r, key (f r) = key r) :
    Table ρ key where
  rows := t.rows.map fun r => if p r then f r else r
  nodup := by
    have h : key ∘ (fun r => if p r then f r else r) = key := by
      funext r
      by_cases hp : p r <;> simp [hp, hf]
    rw [List.map_map, h]
    exact t.nodup

/-- `DELETE … WHERE key = k`. -/
def erase (t : Table ρ key) (k : κ) : Table ρ key where
  rows := t.rows.filter fun r => key r ≠ k
  nodup := (List.filter_sublist.map key).nodup t.nodup

theorem nodup_replace (t : Table ρ key) (r : ρ) :
    ((t.rows.map fun x => if key x = key r then r else x).map key).Nodup := by
  have h : key ∘ (fun x => if key x = key r then r else x) = key := by
    funext x
    by_cases hx : key x = key r <;> simp [hx]
  rw [List.map_map, h]
  exact t.nodup

omit [DecidableEq κ] in
theorem nodup_append {t : Table ρ key} {r : ρ} (h : key r ∉ t.rows.map key) :
    ((t.rows ++ [r]).map key).Nodup := by
  rw [List.map_append, List.nodup_append]
  refine ⟨t.nodup, List.nodup_singleton _, ?_⟩
  rintro a ha b hb rfl
  exact h (List.mem_singleton.1 hb ▸ ha)

/-- Insert `r`, or overwrite the row with its key. -/
def put (t : Table ρ key) (r : ρ) : Table ρ key :=
  if h : key r ∈ t.rows.map key then
    ⟨t.rows.map fun x => if key x = key r then r else x, t.nodup_replace r⟩
  else ⟨t.rows ++ [r], nodup_append h⟩

/-! ## Lookup -/

theorem find?_eq_some {t : Table ρ key} {k : κ} {r : ρ} :
    t.find? k = some r ↔ r ∈ t.rows ∧ key r = k := by
  refine ⟨fun h => ⟨List.mem_of_find?_eq_some h, by simpa using List.find?_some h⟩, ?_⟩
  rintro ⟨hr, rfl⟩
  obtain ⟨x, hx⟩ : ∃ x, t.find? (key r) = some x :=
    Option.isSome_iff_exists.1 (List.find?_isSome.2 ⟨r, hr, by simp⟩)
  have hxk : key x = key r := by simpa using List.find?_some hx
  rw [hx, List.inj_on_of_nodup_map t.nodup (List.mem_of_find?_eq_some hx) hr hxk]

theorem key_of_find? {t : Table ρ key} {k : κ} {r : ρ} (h : t.find? k = some r) : key r = k :=
  (find?_eq_some.1 h).2

theorem find?_eq_none {t : Table ρ key} {k : κ} : t.find? k = none ↔ k ∉ t.rows.map key := by
  simp [find?]

@[simp] theorem find?_empty (k : κ) : (empty : Table ρ key).find? k = none := rfl

@[simp] theorem find?_put (t : Table ρ key) (r : ρ) (k : κ) :
    (t.put r).find? k = if key r = k then some r else t.find? k := by
  unfold put
  refine Option.ext fun x => ?_
  split
  case isTrue hmem =>
    obtain ⟨y, hy, hyk⟩ := List.mem_map.1 hmem
    split <;> rename_i hk
    · subst hk
      simp only [find?_eq_some, List.mem_map, Option.some.injEq]
      refine ⟨?_, ?_⟩
      · rintro ⟨⟨z, hz, rfl⟩, hzk⟩
        by_cases h : key z = key r <;> simp_all
      · rintro rfl
        exact ⟨⟨y, hy, by simp [hyk]⟩, rfl⟩
    · simp only [find?_eq_some, List.mem_map]
      refine ⟨?_, fun ⟨hx, hxk⟩ => ⟨⟨x, hx, by simp [hxk, Ne.symm hk]⟩, hxk⟩⟩
      rintro ⟨⟨z, hz, rfl⟩, hzk⟩
      by_cases h : key z = key r <;> simp_all
  case isFalse hmem =>
    split <;> rename_i hk
    · subst hk
      simp only [find?_eq_some, List.mem_append, List.mem_singleton, Option.some.injEq]
      refine ⟨?_, fun h => ⟨.inr h.symm, by rw [h]⟩⟩
      rintro ⟨hx | rfl, hxk⟩
      · exact absurd (List.mem_map.2 ⟨x, hx, hxk⟩) hmem
      · rfl
    · simp only [find?_eq_some, List.mem_append, List.mem_singleton]
      refine ⟨?_, fun ⟨hx, hxk⟩ => ⟨.inl hx, hxk⟩⟩
      rintro ⟨hx | rfl, hxk⟩
      · exact ⟨hx, hxk⟩
      · exact absurd hxk hk

theorem find?_put_eq_some {t : Table ρ key} {r x : ρ} {k : κ} : (t.put r).find? k = some x ↔
    key r = k ∧ r = x ∨ key r ≠ k ∧ t.find? k = some x := by
  rw [find?_put]
  split <;> simp [*]

theorem rows_put_of_find?_none {t : Table ρ key} {r : ρ} (h : t.find? (key r) = none) :
    (t.put r).rows = t.rows ++ [r] := by
  rw [put, dif_neg (find?_eq_none.1 h)]

theorem rows_put_of_find?_some {t : Table ρ key} {r x : ρ} (h : t.find? (key r) = some x) :
    (t.put r).rows = t.rows.map fun y => if key y = key r then r else y := by
  obtain ⟨hx, hk⟩ := find?_eq_some.1 h
  rw [put, dif_pos (List.mem_map.2 ⟨x, hx, hk⟩)]

@[simp] theorem find?_update (t : Table ρ key) (p : ρ → Bool) (f : ρ → ρ)
    (hf : ∀ r, key (f r) = key r) (k : κ) :
    (t.update p f hf).find? k = (t.find? k).map fun r => if p r then f r else r := by
  refine Option.ext fun x => ?_
  simp only [find?_eq_some, update, List.mem_map, Option.map_eq_some_iff]
  constructor
  · rintro ⟨⟨y, hy, rfl⟩, hk⟩
    refine ⟨y, ⟨hy, ?_⟩, rfl⟩
    by_cases hp : p y <;> simp_all
  · rintro ⟨y, ⟨hy, hk⟩, rfl⟩
    refine ⟨⟨y, hy, rfl⟩, ?_⟩
    by_cases hp : p y <;> simp_all

@[simp] theorem find?_erase (t : Table ρ key) (k k' : κ) :
    (t.erase k).find? k' = if k = k' then none else t.find? k' := by
  refine Option.ext fun x => ?_
  split <;> rename_i h
  · subst h
    simp [find?_eq_some, erase]
  · simp only [find?_eq_some, erase, List.mem_filter, decide_eq_true_eq]
    refine ⟨fun ⟨hx, hk⟩ => ⟨hx.1, hk⟩, fun ⟨hx, hk⟩ => ⟨⟨hx, ?_⟩, hk⟩⟩
    exact fun hk' => h (hk'.symm.trans hk)

/-! ## Sums -/

/-- What a single row adds to `total`. -/
def weight (p : ρ → Bool) (f : ρ → Nat) (r : ρ) : Nat := if p r then f r else 0

omit [DecidableEq κ] in
theorem total_eq_sum (t : Table ρ key) (p : ρ → Bool) (f : ρ → Nat) :
    t.total p f = (t.rows.map (weight p f)).sum := by
  unfold total
  induction t.rows with
  | nil => rfl
  | cons r rows ih =>
    by_cases hp : p r <;> simp [weight, hp] at ih ⊢ <;> exact ih

theorem perm_of_find? {t : Table ρ key} {k : κ} {r : ρ} (h : t.find? k = some r) :
    t.rows.Perm (r :: (t.erase k).rows) := by
  obtain ⟨hr, rfl⟩ := find?_eq_some.1 h
  clear h
  obtain ⟨rows, hn⟩ := t
  simp only [erase] at hr ⊢
  induction rows with
  | nil => cases hr
  | cons x rows ih =>
    simp only [List.map_cons, List.nodup_cons, List.mem_map] at hn
    rcases List.mem_cons.1 hr with rfl | hr
    · -- no later row has this key, so nothing else is filtered out
      have hf : rows.filter (fun y => key y ≠ key r) = rows :=
        List.filter_eq_self.2 fun y hy => by
          simp only [ne_eq, decide_eq_true_eq]
          exact fun e => hn.1 ⟨y, hy, e⟩
      rw [List.filter_cons_of_neg (by simp), hf]
    · have hx : key x ≠ key r := fun e => hn.1 ⟨r, hr, e.symm⟩
      simp only [ne_eq, hx, not_false_eq_true, decide_true, List.filter_cons_of_pos]
      exact ((ih hn.2 hr).cons x).trans (.swap r x _)

theorem erase_of_find?_none {t : Table ρ key} {k : κ} (h : t.find? k = none) :
    (t.erase k).rows = t.rows := by
  refine List.filter_eq_self.2 fun r hr => ?_
  simp only [ne_eq, decide_eq_true_eq]
  exact fun hk => find?_eq_none.1 h (List.mem_map.2 ⟨r, hr, hk⟩)

theorem erase_put (t : Table ρ key) (r : ρ) :
    ((t.put r).erase (key r)).rows = (t.erase (key r)).rows := by
  unfold put
  split
  · simp only [erase]
    induction t.rows with
    | nil => rfl
    | cons x rows ih =>
      by_cases hx : key x = key r <;> simp_all
  · simp [erase, List.filter_append]

theorem total_of_find? {t : Table ρ key} {k : κ} {r : ρ} (h : t.find? k = some r)
    (p : ρ → Bool) (f : ρ → Nat) : t.total p f = (t.erase k).total p f + weight p f r := by
  rw [total_eq_sum, total_eq_sum, ((perm_of_find? h).map _).sum_eq, List.map_cons, List.sum_cons,
    Nat.add_comm]

theorem total_erase_of_none {t : Table ρ key} {k : κ} (h : t.find? k = none)
    (p : ρ → Bool) (f : ρ → Nat) : (t.erase k).total p f = t.total p f := by
  rw [total_eq_sum, total_eq_sum, erase_of_find?_none h]

theorem total_put (t : Table ρ key) (r : ρ) (p : ρ → Bool) (f : ρ → Nat) :
    (t.put r).total p f = (t.erase (key r)).total p f + weight p f r := by
  rw [total_of_find? (t := t.put r) (k := key r) (r := r) (by simp)]
  simp only [total_eq_sum, erase_put]

omit [DecidableEq κ] in
theorem total_eq_zero {t : Table ρ key} {p : ρ → Bool} (h : ∀ r ∈ t.rows, p r = false)
    (f : ρ → Nat) : t.total p f = 0 := by
  have hnil : t.rows.filter p = [] := List.filter_eq_nil_iff.2 fun r hr => by simp [h r hr]
  rw [total, hnil]
  rfl

end Table
end Relational
