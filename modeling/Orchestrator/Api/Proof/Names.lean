import Orchestrator.Api.Proof.Executions
import Orchestrator.Storage.Names
import Mathlib.Data.List.DropRight
import Mathlib.Data.List.Chain
import Mathlib.Data.String.Basic

/-!
# Execution ids are names of their own

A slug is letters, digits and single hyphens between them (`Tidy`, kept by every step of the loop and
by every cut of its end). Words without a hyphen at either end stay such when hyphens join them, so an
id is one; two hyphens in a row then mark where the id ends in the name of a hold.
-/

namespace Orchestrator

open ExecutionStorage

variable {lower : Char → List Char} {xs ys : List Char}

/-- Letters, digits and single hyphens, none of them first. -/
structure Tidy (xs : List Char) : Prop where
  safe : ∀ c ∈ xs, safeComponent c
  single : xs.IsChain fun a b => ¬(a = '-' ∧ b = '-')
  head : xs.head? ≠ some '-'

/-- And there is no hyphen at the end. -/
structure TidyWord (xs : List Char) : Prop extends Tidy xs where
  ne_nil : xs ≠ []
  last : xs.getLast? ≠ some '-'

theorem Tidy.cut (h : Tidy xs) (hys : ys <+: xs) : Tidy ys := by
  obtain ⟨rest, rfl⟩ := hys
  refine ⟨fun c hc => h.safe c (List.mem_append_left _ hc), (List.isChain_append.mp h.single).1, ?_⟩
  intro hhead
  exact h.head (by rw [List.head?_append, hhead]; rfl)

theorem Tidy.trimHyphens (h : Tidy xs) (hne : Orchestrator.trimHyphens xs ≠ []) :
    TidyWord (Orchestrator.trimHyphens xs) := by
  refine ⟨h.cut (List.rdropWhile_prefix _ xs), hne, fun hlast => ?_⟩
  rw [List.getLast?_eq_some_getLast hne, Option.some.injEq] at hlast
  exact List.rdropWhile_last_not (· = '-') xs hne (decide_eq_true hlast)

theorem length_trimHyphens_take (xs : List Char) (n : Nat) :
    (trimHyphens (xs.take n)).length ≤ n :=
  (List.rdropWhile_prefix _ _).length_le.trans (List.length_take_le n xs)

theorem TidyWord.join (hx : TidyWord xs) (hy : TidyWord ys) : TidyWord (xs ++ '-' :: ys) where
  safe := by
    intro c hc
    rcases List.mem_append.mp hc with hc | hc
    · exact hx.safe c hc
    · rcases List.mem_cons.mp hc with rfl | hc
      · rfl
      · exact hy.safe c hc
  single := by
    refine List.isChain_append.mpr ⟨hx.single, List.isChain_cons.mpr ⟨?_, hy.single⟩, ?_⟩
    · rintro y hmem ⟨-, rfl⟩
      exact hy.head hmem
    · rintro x hmem y - ⟨rfl, -⟩
      exact hx.last hmem
  head := by
    obtain ⟨c, cs, rfl⟩ := List.exists_cons_of_ne_nil hx.ne_nil
    exact hx.head
  ne_nil := by simp
  last := by
    obtain ⟨c, cs, rfl⟩ := List.exists_cons_of_ne_nil hy.ne_nil
    rw [List.getLast?_append, List.getLast?_cons_cons]
    simpa using hy.last

/-! ## Slugs -/

theorem slugStep_tidy {acc : List Char × Bool} {c : Char} (hc : ¬c.isUpper) (h : Tidy acc.1)
    (hlast : acc.2 = false → acc.1.getLast? ≠ some '-') :
    Tidy (slugStep acc c).1 ∧
      ((slugStep acc c).2 = false → (slugStep acc c).1.getLast? ≠ some '-') := by
  have hpush (d : Char) (hd : safeComponent d) (hne : d = '-' → acc.1 ≠ [] ∧ acc.2 = false) :
      Tidy (acc.1 ++ [d]) := by
    refine ⟨?_, List.isChain_append.mpr ⟨h.single, List.isChain_singleton d, ?_⟩, ?_⟩
    · intro x hx
      rcases List.mem_append.mp hx with hx | hx
      · exact h.safe x hx
      · rwa [List.mem_singleton.mp hx]
    · rintro x hx y hy ⟨rfl, rfl⟩
      obtain rfl : d = '-' := Option.some.inj hy
      exact hlast (hne rfl).2 hx
    · rw [List.head?_append]
      cases hacc : acc.1 with
      | nil =>
        intro hd
        exact (hne (Option.some.inj hd)).1 hacc
      | cons x rest => simpa [hacc] using h.head
  unfold slugStep
  split
  · rename_i halnum
    have hd : safeComponent c := by
      have hsplit : (c.isUpper || c.isLower || c.isDigit) = true := halnum
      simp only [Bool.or_eq_true] at hsplit
      simp only [safeComponent, Bool.or_eq_true]
      tauto
    have hdash : c ≠ '-' := by
      rintro rfl
      exact absurd halnum (by decide)
    exact ⟨hpush c hd fun h => absurd h hdash, fun _ => by simpa using hdash⟩
  · split
    · rename_i hyphen
      exact ⟨hpush '-' rfl fun _ => ⟨hyphen.1, by simpa using hyphen.2⟩, by simp⟩
    · exact ⟨h, hlast⟩

/-- `char::to_lowercase` gives no ASCII capital. -/
def Lowercases (lower : Char → List Char) : Prop := ∀ c, ∀ d ∈ lower c, ¬d.isUpper

theorem slug_tidy (hlower : Lowercases lower) {value : String} (hne : slug lower value ≠ []) :
    TidyWord (slug lower value) := by
  refine Tidy.trimHyphens ?_ hne
  have hfold : ∀ (cs : List Char) (acc : List Char × Bool), (∀ c ∈ cs, ¬c.isUpper) → Tidy acc.1 →
      (acc.2 = false → acc.1.getLast? ≠ some '-') → Tidy (cs.foldl slugStep acc).1 := by
    intro cs
    induction cs with
    | nil => exact fun acc _ h _ => h
    | cons c cs ih =>
      intro acc hcs h hlast
      obtain ⟨h', hlast'⟩ := slugStep_tidy (hcs c List.mem_cons_self) h hlast
      exact ih _ (fun d hd => hcs d (List.mem_cons_of_mem c hd)) h' hlast'
  refine hfold _ _ (fun c hc => ?_) ⟨by simp, List.isChain_nil, by simp⟩ (by simp)
  obtain ⟨d, -, hd⟩ := List.mem_flatMap.mp hc
  exact hlower d c hd

/-! ## Ordinals -/

theorem toList_padded (ordinal : Nat) : (padded ordinal).toList = Nat.toDigits 10 ordinal ∨
    (padded ordinal).toList = '0' :: Nat.toDigits 10 ordinal := by
  unfold padded
  simp only [Nat.toString_eq_repr]
  split
  · exact .inr (by rw [String.toList_append, Nat.toList_repr]; rfl)
  · exact .inl Nat.toList_repr

theorem isDigit_padded {ordinal : Nat} {c : Char} (hc : c ∈ (padded ordinal).toList) :
    c.isDigit := by
  rcases toList_padded ordinal with h | h <;> rw [h] at hc
  · exact Nat.isDigit_of_mem_toDigits (by decide) (by decide) hc
  · rcases List.mem_cons.mp hc with rfl | hc
    · rfl
    · exact Nat.isDigit_of_mem_toDigits (by decide) (by decide) hc

theorem hyphen_not_mem_padded (ordinal : Nat) : '-' ∉ (padded ordinal).toList :=
  fun h => absurd (isDigit_padded h) (by decide)

theorem padded_tidy (ordinal : Nat) : TidyWord (padded ordinal).toList where
  safe c hc := by simp [safeComponent, isDigit_padded hc]
  single := by
    refine List.Pairwise.isChain (List.pairwise_of_forall_mem_list ?_)
    rintro a ha b - ⟨rfl, -⟩
    exact hyphen_not_mem_padded ordinal ha
  head h := hyphen_not_mem_padded ordinal (List.mem_of_mem_head? h)
  ne_nil := by rcases toList_padded ordinal with h | h <;> rw [h] <;> simp
  last h := hyphen_not_mem_padded ordinal (List.mem_of_mem_getLast? h)

theorem padded_injective : Function.Injective fun ordinal => (padded ordinal).toList := by
  have hread (n : Nat) : Nat.ofDigitChars 10 (padded n).toList 0 = n := by
    rcases toList_padded n with h | h
    · rw [h, Nat.ofDigitChars_ten_toDigits]
    · rw [h, Nat.ofDigitChars_cons]
      exact Nat.ofDigitChars_ten_toDigits
  intro i j h
  rw [← hread i, ← hread j]
  exact congrArg (Nat.ofDigitChars 10 · 0) h

/-! ## Ids -/

theorem utf8ByteSize_safe (h : ∀ c ∈ xs, safeComponent c) :
    (String.ofList xs).utf8ByteSize = xs.length := by
  rw [String.utf8ByteSize_ofList]
  induction xs with
  | nil => rfl
  | cons c cs ih =>
    have hc : c.utf8Size = 1 := by
      refine Char.utf8Size_eq_one_iff.mpr ?_
      have := h c List.mem_cons_self
      unfold safeComponent Char.isLower Char.isDigit at this
      simp only [Bool.or_eq_true, Bool.and_eq_true, decide_eq_true_eq] at this
      rcases this with (⟨-, hle⟩ | ⟨-, hle⟩) | rfl
      · exact UInt32.le_trans hle (by decide)
      · exact UInt32.le_trans hle (by decide)
      · decide
    rw [String.utf8Len_cons, ih fun d hd => h d (List.mem_cons_of_mem c hd), hc, List.length_cons]

theorem TidyWord.valid (h : TidyWord xs) (hlen : xs.length ≤ 63) :
    validateExecutionId ⟨String.ofList xs⟩ = .ok () := by
  obtain ⟨c, cs, rfl⟩ := List.exists_cons_of_ne_nil h.ne_nil
  have hc := h.safe c List.mem_cons_self
  have hhead := h.head
  simp only [validateExecutionId, Txn.ensure_eq_ok, utf8ByteSize_safe h.safe, String.toList_ofList]
  refine ⟨by simp, hlen, ?_, List.all_eq_true.mpr h.safe⟩
  simp_all [safeComponent]

theorem idSuffix_eq (hlower : Lowercases lower) (manifest : ExecutionManifest) (ordinal : Nat) :
    ∃ words, TidyWord words ∧
      idSuffix lower manifest ordinal = '-' :: words ++ '-' :: (padded ordinal).toList := by
  have hrole : TidyWord manifest.role.abbreviation.toList := by
    cases manifest.role <;>
      exact ⟨⟨List.all_eq_true.mp (by decide), by decide, by decide⟩, by decide, by decide⟩
  have hissue (issue : List Char) (h : issue ≠ [] → TidyWord issue) :
      TidyWord (if issue = [] then "adhoc".toList else issue) := by
    split
    · exact ⟨⟨List.all_eq_true.mp (by decide), by decide, by decide⟩, by decide, by decide⟩
    · exact h (by assumption)
  unfold idSuffix
  refine ⟨_, (hissue _ ?_).join hrole, rfl⟩
  cases manifest.task with
  | none => exact fun h => absurd rfl h
  | some task => exact slug_tidy hlower

theorem allocateId_ok (hlower : Lowercases lower) {manifest : ExecutionManifest} {ordinal : Nat}
    {id : ExecutionId} (h : allocateId lower manifest ordinal = .ok id) :
    ∃ words, TidyWord words ∧ (words ++ '-' :: (padded ordinal).toList).length ≤ 63 ∧
      id = ⟨String.ofList (words ++ '-' :: (padded ordinal).toList)⟩ := by
  obtain ⟨words, hwords, hsuffix⟩ := idSuffix_eq hlower manifest ordinal
  simp only [allocateId, hsuffix] at h
  split at h
  · cases h
  · rename_i hrepo
    split at h
    · cases h
    · rename_i hcut
      obtain rfl := Except.ok.inj h
      have htidy := ((slug_tidy hlower hrepo).toTidy.cut (List.take_prefix _ _)).trimHyphens hcut
      refine ⟨_, htidy.join hwords, ?_, by simp⟩
      -- the suffix leaves room, or nothing of the repository's name is left
      have hpos := List.length_pos_iff.mpr hcut
      have hroom := length_trimHyphens_take
        (slug lower (String.ofList (finalComponent manifest.repository.repo.toList)))
        (63 - ('-' :: words ++ '-' :: (padded ordinal).toList).length)
      simp only [List.length_append, List.length_cons] at hpos hroom ⊢
      omega

theorem allocateId_names (lower : Char → List Char) (hlower : Lowercases lower) :
    (∀ manifest ordinal id, allocateId lower manifest ordinal = .ok id →
      validateExecutionId id = .ok () ∧ id.value.toList.getLast? ≠ some '-' ∧
        ¬['-', '-'] <:+: id.value.toList) ∧
    (∀ manifest i j id, allocateId lower manifest i = .ok id →
      allocateId lower manifest j = .ok id → i = j) ∧
    (∀ manifest manifest' i j id id', allocateId lower manifest i = .ok id →
      allocateId lower manifest' j = .ok id' → id ≠ id' →
      ∀ holdId name, holdName id holdId = .ok name → ¬listed id' name) := by
  have hvalid : ∀ manifest ordinal id, allocateId lower manifest ordinal = .ok id →
      validateExecutionId id = .ok () ∧ id.value.toList.getLast? ≠ some '-' ∧
        ¬['-', '-'] <:+: id.value.toList := by
    intro manifest ordinal id h
    obtain ⟨words, hwords, hlen, rfl⟩ := allocateId_ok hlower h
    have hid := hwords.join (padded_tidy ordinal)
    refine ⟨hid.valid hlen, by rw [String.toList_ofList]; exact hid.last, ?_⟩
    rw [String.toList_ofList]
    rintro ⟨front, back, heq⟩
    rw [← heq] at hid
    have := (List.isChain_append.mp (List.isChain_append.mp hid.single).1).2.1
    simp at this
  refine ⟨hvalid, ?_, ?_⟩
  · intro manifest i j id hi hj
    obtain ⟨words, -, -, rfl⟩ := allocateId_ok hlower hi
    obtain ⟨words', -, -, heq⟩ := allocateId_ok hlower hj
    have heq := String.ofList_injective (congrArg ExecutionId.value heq)
    exact padded_injective
      (Lines.append_sep_inj (hyphen_not_mem_padded i) (hyphen_not_mem_padded j) heq).2
  · intro manifest manifest' i j id id' hi hj hne holdId name hname hlisted
    obtain ⟨-, hlast, hdouble⟩ := hvalid _ _ _ hi
    obtain ⟨-, hlast', hdouble'⟩ := hvalid _ _ _ hj
    simp only [holdName, Txn.bind_eq_ok] at hname
    obtain ⟨-, -, hname⟩ := hname
    obtain rfl := Except.ok.inj hname
    obtain ⟨rest, hrest⟩ := List.isPrefixOf_iff_prefix.mp hlisted
    refine hne (congrArg ExecutionId.mk (String.toList_injective ?_))
    have heq : id.value.toList ++ '-' :: '-' :: (holdId.toList ++ ".json".toList) =
        id'.value.toList ++ '-' :: '-' :: rest := by simpa using hrest.symm
    exact (Lines.append_double_inj hdouble hlast hdouble' hlast' heq).1

theorem Sample.lowercases_lower : Lowercases Sample.lower := by
  intro c d hd
  obtain rfl : d = c.toLower := List.mem_singleton.mp hd
  unfold Char.toLower Char.isUpper
  split
  · rename_i hc
    have hlow : 'A'.val.toNat ≤ c.val.toNat := UInt32.le_iff_toNat_le.mp hc.1
    have hhigh : c.val.toNat ≤ 'Z'.val.toNat := UInt32.le_iff_toNat_le.mp hc.2
    simp [UInt32.le_iff_toNat_le] at hlow hhigh ⊢
    omega
  · simp_all

open Sample in
theorem allocateId_names_two :
    validateExecutionId ⟨"name-adhoc-impl-01"⟩ = .ok () ∧
    ¬listed ⟨"name-adhoc-impl-02"⟩ "name-adhoc-impl-01--h.json".toList := by
  obtain ⟨hvalid, -, hapart⟩ := allocateId_names Sample.lower lowercases_lower
  exact ⟨(hvalid manifest 1 _ (by decide +kernel)).1,
    hapart manifest manifest 1 2 ⟨"name-adhoc-impl-01"⟩ _ (by decide +kernel) (by decide +kernel) (by decide) "h" _ rfl⟩

end Orchestrator
