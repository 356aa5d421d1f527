import Orchestrator.Runtime.Cleanup
import Mathlib.Data.List.Nodup

/-!
# The smallest eviction, oldest first

The loop stops at the first entry at which the total fits, so what it takes is an initial segment
of the evictable entries (`evict_spec`). Keys are distinct, so the order leaves one way to list
them (`eq_sorted`).
-/

namespace Orchestrator

variable {entries : List CacheEntry} {budget : Nat} {live : List ExecutionId}

namespace CacheEntry

def evictable (live : List ExecutionId) (entries : List CacheEntry) : List CacheEntry :=
  entries.filter fun entry => !entry.isLive live

/-- What a list of entries occupies. -/
def size (entries : List CacheEntry) : Nat := (entries.map bytes).sum

@[simp] theorem size_nil : size [] = 0 := rfl

@[simp] theorem size_cons (entry : CacheEntry) :
    size (entry :: entries) = entry.bytes + size entries := List.sum_cons

theorem upTo_iff {a b : CacheEntry} :
    a.upTo b ↔ a.lastUsed < b.lastUsed ∨ a.lastUsed = b.lastUsed ∧ a.key ≤ b.key := by
  simp [upTo]

theorem upTo_trans (a b c : CacheEntry) (hab : a.upTo b) (hbc : b.upTo c) : a.upTo c := by
  rw [upTo_iff] at *
  rcases hab with hab | ⟨hab, kab⟩
  · exact .inl (by omega)
  · rcases hbc with hbc | ⟨hbc, kbc⟩
    · exact .inl (by omega)
    · exact .inr ⟨by omega, le_trans kab kbc⟩

theorem upTo_total (a b : CacheEntry) : a.upTo b || b.upTo a := by
  rw [Bool.or_eq_true, upTo_iff, upTo_iff]
  rcases lt_trichotomy a.lastUsed b.lastUsed with h | h | h
  · exact .inl (.inl h)
  · rcases le_total a.key b.key with hk | hk
    · exact .inl (.inr ⟨h, hk⟩)
    · exact .inr (.inr ⟨h.symm, hk⟩)
  · exact .inr (.inl h)

theorem eq_of_upTo (hkeys : (entries.map key).Nodup) {a b : CacheEntry} (ha : a ∈ entries)
    (hb : b ∈ entries) (hab : a.upTo b) (hba : b.upTo a) : a = b := by
  rw [upTo_iff] at hab hba
  refine List.inj_on_of_nodup_map hkeys ha hb (le_antisymm ?_ ?_)
  · rcases hab with hab | hab
    · omega
    · exact hab.2
  · rcases hba with hba | hba
    · omega
    · exact hba.2

theorem eq_sorted (hkeys : (entries.map key).Nodup) {order : List CacheEntry}
    (hperm : order.Perm (evictable live entries)) (hsorted : order.Pairwise (upTo · ·)) :
    evictable live (entries.mergeSort upTo) = order := by
  have hsame : (evictable live (entries.mergeSort upTo)).Perm order :=
    ((List.mergeSort_perm entries upTo).filter _).trans hperm.symm
  have hmem : ∀ x ∈ order, x ∈ entries := fun x hx => (List.mem_filter.mp (hperm.mem_iff.mp hx)).1
  refine hsame.eq_of_pairwise ?_
    ((List.pairwise_mergeSort upTo_trans upTo_total _).filter _) hsorted
  intro a b ha hb hab hba
  exact eq_of_upTo hkeys (hmem a (hsame.mem_iff.mp ha)) (hmem b hb) hab hba

end CacheEntry

open CacheEntry

theorem evict_spec (total : Nat) (order : List CacheEntry) :
    ∃ n ≤ (evictable live order).length,
      evict budget live total order = ((evictable live order).take n).map key ∧
      (∀ m < n, budget < total - size ((evictable live order).take m)) ∧
      (total - size ((evictable live order).take n) ≤ budget ∨
        n = (evictable live order).length) := by
  induction order generalizing total with
  | nil => exact ⟨0, by simp [evictable, evict]⟩
  | cons entry rest ih =>
    unfold evict
    by_cases hfits : total ≤ budget
    · exact ⟨0, by simp [hfits]⟩
    · rw [if_neg hfits]
      by_cases hlive : entry.isLive live
      · rw [if_pos hlive, show evictable live (entry :: rest) = evictable live rest by
          simp [evictable, hlive]]
        exact ih total
      · rw [if_neg hlive, show evictable live (entry :: rest) = entry :: evictable live rest by
          simp [evictable, hlive]]
        obtain ⟨n, hn, htaken, hover, hdone⟩ := ih (total - entry.bytes)
        refine ⟨n + 1, by simpa using hn, by simp [htaken], ?_, ?_⟩
        · intro m hm
          cases m with
          | zero => simpa using hfits
          | succ m =>
            have := hover m (by omega)
            simp only [List.take_succ_cons, size_cons]
            omega
        · simp only [List.take_succ_cons, size_cons, List.length_cons]
          omega

theorem selectEvictions_shortest (hkeys : (entries.map key).Nodup)
    (hsize : size entries < 2 ^ 64) (order : List CacheEntry)
    (hperm : order.Perm (evictable live entries)) (hsorted : order.Pairwise (upTo · ·)) :
    (∃ n ≤ order.length, selectEvictions entries budget live = (order.take n).map key ∧
      (∀ m < n, budget < size entries - size (order.take m)) ∧
      (size entries - size (order.take n) ≤ budget ∨ n = order.length)) ∧
    (∀ entry ∈ entries, entry.isLive live → entry.key ∉ selectEvictions entries budget live) ∧
    (∀ older ∈ entries, ∀ newer ∈ entries, ¬older.isLive live → older.upTo newer →
      newer.key ∈ selectEvictions entries budget live →
      older.key ∈ selectEvictions entries budget live) ∧
    (size entries ≤ budget → selectEvictions entries budget live = []) := by
  have htotal : totalBytes entries = size entries := Nat.mod_eq_of_lt hsize
  obtain ⟨n, hn, htaken, hover, hdone⟩ :=
    @evict_spec budget live (size entries) (entries.mergeSort upTo)
  rw [eq_sorted hkeys hperm hsorted] at hn htaken hover hdone
  have heq : selectEvictions entries budget live = (order.take n).map key := by
    rw [selectEvictions, htotal, htaken]
  have hin : ∀ entry ∈ entries, entry.key ∈ selectEvictions entries budget live →
      entry ∈ order.take n := by
    intro entry hentry hkey
    rw [heq, List.mem_map] at hkey
    obtain ⟨other, hother, hk⟩ := hkey
    have := (List.mem_filter.mp (hperm.mem_iff.mp (List.mem_of_mem_take hother))).1
    rwa [List.inj_on_of_nodup_map hkeys hentry this hk.symm]
  refine ⟨⟨n, hn, heq, hover, hdone⟩, ?_, ?_, ?_⟩
  · intro entry hentry hlive hkey
    have := hperm.mem_iff.mp (List.mem_of_mem_take (hin entry hentry hkey))
    simp [evictable, hlive] at this
  · intro older holder newer hnewer hidle hupTo hkey
    have hall : older ∈ order := hperm.mem_iff.mpr (by simp [evictable, holder, hidle])
    rw [heq]
    refine List.mem_map_of_mem ?_
    rw [← List.take_append_drop n order] at hall hsorted
    rcases List.mem_append.mp hall with h | h
    · exact h
    · -- an entry past the segment is no older than one inside it
      have hback := (List.pairwise_append.mp hsorted).2.2 newer (hin newer hnewer hkey) older h
      rw [eq_of_upTo hkeys holder hnewer hupTo hback]
      exact hin newer hnewer hkey
  · intro hfits
    have hzero : n = 0 := by
      by_contra hne
      have := hover 0 (by omega)
      simp at this
      omega
    rw [heq, hzero, List.take_zero, List.map_nil]

theorem selectEvictions_shortest_three :
    let old : CacheEntry := ⟨"b", 5, 1, []⟩
    let used : CacheEntry := ⟨"a", 7, 1, [⟨"e"⟩]⟩
    let new : CacheEntry := ⟨"c", 4, 2, [⟨"f"⟩]⟩
    selectEvictions [new, used, old] 11 [⟨"e"⟩] = ["b"] := by
  intro old used new
  obtain ⟨n, hn, h, hover, hdone⟩ := (@selectEvictions_shortest [new, used, old] 11 [⟨"e"⟩]
    (by decide) (by decide) [old, new] (by decide) (by decide)).1
  have hpos : n ≠ 0 := fun hn => absurd hdone (by subst hn; decide)
  have hone : ¬1 < n := fun hn => absurd (hover 1 hn) (by decide)
  obtain rfl : n = 1 := by omega
  exact h

end Orchestrator
