import Orchestrator.Lib.Lines
import Orchestrator.Worktree.Manager

/-!
# Names of mirrors and locks

The names of mirrors, their locks and the branch locks are texts in one directory. A normalized name
is cut again at its first `__`, since no owner has one or ends with `_`; a branch lock at its last
`-`, since hexadecimal digits have none.
-/

namespace Orchestrator
namespace GitWorktree

open Lines

/-! ## Hexadecimal digits -/

theorem digitChar_inj : ∀ a b : Fin 16, Nat.digitChar a = Nat.digitChar b → a = b := by decide

theorem digitChar_ne : ∀ a : Fin 16, Nat.digitChar a ≠ '-' ∧ Nat.digitChar a ≠ 't' := by decide

theorem hex_inj {a b : UInt8} (hhigh : Nat.digitChar (a.toNat / 16) = Nat.digitChar (b.toNat / 16))
    (hlow : Nat.digitChar (a.toNat % 16) = Nat.digitChar (b.toNat % 16)) : a = b := by
  have ha := a.toNat_lt
  have hb := b.toNat_lt
  have hhigh := digitChar_inj ⟨a.toNat / 16, by omega⟩ ⟨b.toNat / 16, by omega⟩ hhigh
  have hlow := digitChar_inj ⟨a.toNat % 16, by omega⟩ ⟨b.toNat % 16, by omega⟩ hlow
  simp only [Fin.mk.injEq] at hhigh hlow
  exact UInt8.toNat_inj.1 (by omega)

theorem hexComponent_injective : Function.Injective hexComponent := by
  intro a b h
  unfold hexComponent at h
  have hbytes : a.toUTF8.data.toList = b.toUTF8.data.toList := by
    have h := String.ofList_injective h
    generalize a.toUTF8.data.toList = l at h ⊢
    generalize b.toUTF8.data.toList = l' at h ⊢
    induction l generalizing l' with
    | nil => cases l' with
      | nil => rfl
      | cons => simp at h
    | cons x l ih => cases l' with
      | nil => simp at h
      | cons y l' =>
        simp only [List.flatMap_cons, List.cons_append, List.nil_append, List.cons.injEq] at h
        rw [hex_inj h.1 h.2.1, ih _ h.2.2]
  exact String.toByteArray_inj.1 (ByteArray.ext (Array.toList_inj.1 hbytes))

theorem not_mem_hexComponent (value : String) :
    '-' ∉ (hexComponent value).toList ∧ 't' ∉ (hexComponent value).toList := by
  have hdigit : ∀ c ∈ (hexComponent value).toList, c ≠ '-' ∧ c ≠ 't' := by
    intro c hc
    simp only [hexComponent, String.toList_ofList, List.mem_flatMap, List.mem_cons,
      List.not_mem_nil, or_false] at hc
    obtain ⟨byte, _, rfl | rfl⟩ := hc
    · exact digitChar_ne ⟨byte.toNat / 16, by have := byte.toNat_lt; omega⟩
    · exact digitChar_ne ⟨byte.toNat % 16, by omega⟩
  exact ⟨fun h => (hdigit _ h).1 rfl, fun h => (hdigit _ h).2 rfl⟩

/-! ## Repositories -/

theorem canonicalRepository_ok {repo : String} {p : String × String}
    (h : canonicalRepository repo = .ok p) : repo.toList = p.1.toList ++ '/' :: p.2.toList ∧
      ¬['_', '_'] <:+: p.1.toList ∧ p.1.toList.getLast? ≠ some '_' := by
  unfold canonicalRepository at h
  split at h
  · rename_i owner name hsplit
    split at h
    · rename_i hsafe
      obtain rfl := Except.ok.inj h
      have hpieces : repo.toList.splitOn '/' = [owner.toList, name.toList] := by
        have := congrArg (List.map String.toList) hsplit
        simpa [Paths.split, Function.comp_def] using this
      refine ⟨?_, ?_, hsafe.2.1⟩
      · have hjoin : ['/'].intercalate (repo.toList.splitOn '/') = repo.toList :=
          List.intercalate_splitOn '/'
        rw [← hjoin, hpieces]
        simp [List.intercalate]
      · have hname := hsafe.1
        simp only [isSafeComponent, Bool.and_eq_true, Bool.not_eq_true', decide_eq_false_iff_not]
          at hname
        exact hname.1.2
    · cases h
  · cases h

theorem normalizedRepositoryName_ok {repo name : String}
    (h : normalizedRepositoryName repo = .ok name) : ∃ owner base,
      repo.toList = owner ++ '/' :: base ∧ name.toList = owner ++ '_' :: '_' :: base ∧
      ¬['_', '_'] <:+: owner ∧ owner.getLast? ≠ some '_' := by
  unfold normalizedRepositoryName at h
  cases hp : canonicalRepository repo with
  | error e => simp [hp, Except.map] at h
  | ok p =>
    obtain ⟨hrepo, howner, hlast⟩ := canonicalRepository_ok hp
    refine ⟨_, _, hrepo, ?_, howner, hlast⟩
    simp only [hp, Except.map, Except.ok.injEq] at h
    simp [← h, toString]

theorem repository_of_name {repo repo' name : String} (h : normalizedRepositoryName repo = .ok name)
    (h' : normalizedRepositoryName repo' = .ok name) : repo = repo' := by
  obtain ⟨owner, base, hrepo, hname, howner, hlast⟩ := normalizedRepositoryName_ok h
  obtain ⟨owner', base', hrepo', hname', howner', hlast'⟩ := normalizedRepositoryName_ok h'
  obtain ⟨rfl, rfl⟩ := append_double_inj howner hlast howner' hlast' (hname.symm.trans hname')
  exact String.toList_inj.1 (hrepo.trans hrepo'.symm)

/-! ## Lock files -/

theorem toList_branchLock (cacheRoot name branch : String) :
    (branchLock cacheRoot name branch).toList = (cacheRoot.toList ++ "/mirrors/".toList) ++ (name.toList ++ ".branch".toList ++
      '-' :: (hexComponent branch).toList) ++ ".lock".toList := by
  simp [branchLock, toString]

theorem branchLock_inj {cacheRoot name name' branch branch' : String}
    (h : branchLock cacheRoot name branch = branchLock cacheRoot name' branch') :
    name = name' ∧ branch = branch' := by
  have h := congrArg String.toList h
  rw [toList_branchLock, toList_branchLock, List.append_cancel_right_eq,
    List.append_cancel_left_eq] at h
  obtain ⟨hname, hbranch⟩ := append_sep_inj (not_mem_hexComponent branch).1
    (not_mem_hexComponent branch').1 h
  exact ⟨String.toList_inj.1 (List.append_cancel_right hname),
    hexComponent_injective (String.toList_inj.1 hbranch)⟩

theorem branchLock_ne (cacheRoot name branch name' : String) :
    branchLock cacheRoot name branch ≠ mirrorPath cacheRoot name' ∧
      branchLock cacheRoot name branch ≠ mirrorLock cacheRoot name' := by
  constructor <;> intro h <;> have hback := congrArg (fun s => s.toList.reverse) h
  · simp [toList_branchLock, mirrorPath, toString] at hback
  · -- before `.lock`, one name ends with `t` and the other with a digit or the hyphen
    simp only [toList_branchLock, mirrorLock, toString] at hback
    cases hhex : (hexComponent branch).toList.reverse with
    | nil => simp [hhex] at hback
    | cons c cs =>
      have hc : c ∈ (hexComponent branch).toList := List.mem_reverse.1 (hhex ▸ List.mem_cons_self)
      simp only [String.toList_append, List.reverse_append, List.reverse_cons, hhex] at hback
      simp at hback
      exact (not_mem_hexComponent branch).2 (hback.1 ▸ hc)

/-- Different repositories have different mirrors, different pairs of a repository and a branch have
different branch locks, and no branch lock is a mirror or the lock of one. -/
theorem mirror_names_injective (cacheRoot : String) {repo repo' name name' : String}
    (h : normalizedRepositoryName repo = .ok name)
    (h' : normalizedRepositoryName repo' = .ok name') :
    (repo ≠ repo' → name ≠ name') ∧
      (∀ branch branch', (repo, branch) ≠ (repo', branch') →
        branchLock cacheRoot name branch ≠ branchLock cacheRoot name' branch') ∧
      ∀ branch, branchLock cacheRoot name branch ≠ mirrorPath cacheRoot name' ∧
        branchLock cacheRoot name branch ≠ mirrorLock cacheRoot name' := by
  refine ⟨?_, fun branch branch' hne heq => ?_, fun branch => branchLock_ne ..⟩
  · rintro hne rfl
    exact hne (repository_of_name h h')
  · obtain ⟨rfl, rfl⟩ := branchLock_inj heq
    exact hne (by rw [repository_of_name h h'])

/-- The name of one repository reads like that of another with a branch. -/
theorem mirror_names_injective_sample :
    normalizedRepositoryName "o/r" = .ok "o__r" ∧
      normalizedRepositoryName "o/r.branch-61" = .ok "o__r.branch-61" ∧
      branchLock "/c" "o__r" "a" ≠ branchLock "/c" "o__r.branch-61" "" := by
  have h : normalizedRepositoryName "o/r" = .ok "o__r" := by decide +kernel
  have h' : normalizedRepositoryName "o/r.branch-61" = .ok "o__r.branch-61" := by decide +kernel
  exact ⟨h, h', (mirror_names_injective "/c" h h').2.1 "a" "" (by decide)⟩

end GitWorktree
end Orchestrator
