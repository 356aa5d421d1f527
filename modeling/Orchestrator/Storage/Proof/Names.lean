import Orchestrator.Storage.Names

/-!
# Residue is told from records

A temporary name is cut from the right, where every piece is free of dots, so what is left is the
operation as it was given. Records end in another extension than temporary files and start in
another way than probes.
-/

namespace Orchestrator
namespace ExecutionStorage

theorem isHexDigit_of_mem_toDigits {n : Nat} {c : Char} (h : c ∈ Nat.toDigits 16 n) :
    isHexDigit c := by
  have hdigit : ∀ d < 16, isHexDigit (Nat.digitChar d) := by decide
  induction n using Nat.strongRecOn with
  | ind n ih =>
    rw [Nat.toDigits_eq_if (by decide)] at h
    split at h
    · rw [List.mem_singleton.mp h]
      exact hdigit n (by assumption)
    · rcases List.mem_append.mp h with h | h
      · exact ih (n / 16) (by omega) h
      · rw [List.mem_singleton.mp h]
        exact hdigit _ (Nat.mod_lt _ (by decide))

theorem component_decimal (n : Nat) : component Char.isDigit (Nat.toDigits 10 n) := by
  simp only [component, Bool.and_eq_true, Bool.not_eq_true', List.all_eq_true]
  exact ⟨by simp, fun c hc => Nat.isDigit_of_mem_toDigits (by decide) (by decide) hc⟩

theorem component_hex (n : Nat) : component isHexDigit (Nat.toDigits 16 n) := by
  simp only [component, Bool.and_eq_true, Bool.not_eq_true', List.all_eq_true]
  exact ⟨by simp, fun c hc => isHexDigit_of_mem_toDigits hc⟩

theorem not_mem_of_component {of : Char → Bool} {xs : List Char} {sep : Char}
    (h : component of xs) (hsep : of sep = false) : sep ∉ xs := by
  simp only [component, Bool.and_eq_true, List.all_eq_true] at h
  intro hmem
  exact absurd (h.2 sep hmem) (by simp [hsep])

/-! ## Names of operations -/

theorem temporaryOperation_temporaryName {op : FileName} (hop : op ≠ [])
    (process epochNanos counter : Nat) :
    temporaryOperation (temporaryName op process epochNanos counter) = some op := by
  have hp := component_decimal process
  have he := component_hex epochNanos
  have hc := component_decimal counter
  have hstem : temporaryStem (temporaryName op process epochNanos counter) =
      some (((op ++ '.' :: Nat.toDigits 10 process) ++ '.' :: Nat.toDigits 16 epochNanos) ++
        '.' :: Nat.toDigits 10 counter) := by
    simp only [temporaryStem, temporaryName, List.cons_append, List.dropPrefix?]
    exact List.dropSuffix?_eq_some_iff.mpr ⟨_, rfl, beq_self_eq_true _⟩
  have hall : (Nat.toDigits 10 process).all Char.isDigit := (Bool.and_eq_true_iff.mp hp).2
  have hcut {of : Char → Bool} {xs : List Char} (hof : of '.' = false) (h : component of xs)
      (ys : List Char) : Lines.rsplitOnce '.' (ys ++ '.' :: xs) = some (ys, xs) :=
    Lines.rsplitOnce_append ys (not_mem_of_component h hof)
  simp only [temporaryOperation, hstem, Option.bind_eq_bind, Option.bind_some,
    hcut (by decide) hc, hcut (by decide) he, hcut (by decide) hp]
  simp [hop, hall, he, hc]

theorem isOwnerProbeName_ownershipProbeName (process epochNanos counter : Nat) :
    isOwnerProbeName (ownershipProbeName process epochNanos counter) := by
  have hp := component_decimal process
  have he := component_hex epochNanos
  have hc := component_decimal counter
  have hone {of : Char → Bool} {xs : List Char} (hof : of '-' = false) (h : component of xs) :
      Lines.split '-' xs = [xs] := Lines.split_of_not_mem (not_mem_of_component h hof)
  have hstart (start rest : List Char) : (start ++ rest).dropPrefix? start = some rest :=
    List.dropPrefix?_append_of_beq rest BEq.rfl
  unfold isOwnerProbeName ownershipProbeName
  generalize ".autospec-owner-".toList = start
  rw [List.append_assoc, List.append_assoc, hstart, Option.any_some, List.cons_append]
  simp [ownerProbe, Lines.split_append, hone (by decide) hp, hone (by decide) he,
    hone (by decide) hc, hp, he, hc]

/-! ## Names of records -/

theorem getLast?_json (xs : FileName) : (xs ++ ".json".toList).getLast? ≠ some 'p' := by
  rw [List.getLast?_append, show ".json".toList.getLast? = some 'n' from rfl]
  simp

theorem temporaryStem_eq_none {name : FileName} (h : name.getLast? ≠ some 'p') :
    temporaryStem name = none := by
  refine Option.eq_none_iff_forall_ne_some.mpr fun stem hstem => h ?_
  obtain ⟨rest, hrest, hsuffix⟩ := Option.bind_eq_some_iff.mp hstem
  obtain ⟨dot, rfl, -⟩ := List.dropPrefix?_eq_some_iff.mp hrest
  obtain ⟨tmp, rfl, htmp⟩ := List.dropSuffix?_eq_some_iff.mp hsuffix
  rw [eq_of_beq htmp, ← List.append_assoc, List.getLast?_append]
  rfl

theorem not_residue {name : FileName} (hlast : name.getLast? ≠ some 'p')
    (hfirst : ¬".autospec-owner-".toList <+: name) :
    ¬isOperationTemporaryName name ∧ ¬isJournalTemporaryName name ∧ ¬isOwnerProbeName name := by
  have hcurrent : temporaryOperation name = none := by
    rw [temporaryOperation, temporaryStem_eq_none hlast]; rfl
  have hlegacy : legacyTemporaryOperation name = none := by
    rw [legacyTemporaryOperation, temporaryStem_eq_none hlast]; rfl
  have hprobe : name.dropPrefix? ".autospec-owner-".toList = none := by
    refine Option.eq_none_iff_forall_ne_some.mpr fun rest hrest => hfirst ?_
    obtain ⟨start, rfl, hstart⟩ := List.dropPrefix?_eq_some_iff.mp hrest
    exact ⟨rest, by rw [eq_of_beq hstart]⟩
  refine ⟨?_, ?_, ?_⟩
  · simp [isOperationTemporaryName, hcurrent, hlegacy]
  · simp [isJournalTemporaryName, hcurrent, hlegacy]
  · rw [isOwnerProbeName, hprobe]
    exact Bool.false_ne_true

theorem not_probe_of_valid {id : ExecutionId} (h : validateExecutionId id = .ok ())
    (rest : FileName) : ¬".autospec-owner-".toList <+: id.value.toList ++ rest := by
  simp only [validateExecutionId, Txn.ensure_eq_ok] at h
  obtain ⟨-, -, hhead, -⟩ := h
  cases hid : id.value.toList with
  | nil => simp [hid] at hhead
  | cons c cs =>
    intro hpre
    obtain rfl : '.' = c := (List.cons_prefix_cons.mp hpre).1
    simp [hid] at hhead

theorem RecordName.not_residue {id : ExecutionId} (h : validateExecutionId id = .ok ())
    {name : FileName} (hname : RecordName id name) :
    ¬isOperationTemporaryName name ∧ ¬isJournalTemporaryName name ∧ ¬isOwnerProbeName name := by
  cases hname with
  | journal => exact ExecutionStorage.not_residue (getLast?_json _) (not_probe_of_valid h _)
  | lease => exact ExecutionStorage.not_residue (by simp) (not_probe_of_valid h _)
  | hold hhold =>
    simp only [holdName, Txn.bind_eq_ok] at hhold
    obtain ⟨-, -, hhold⟩ := hhold
    obtain rfl := Except.ok.inj hhold
    refine ExecutionStorage.not_residue (getLast?_json _) ?_
    rw [List.append_assoc, List.append_assoc]
    exact not_probe_of_valid h _
  | createIntent => exact ExecutionStorage.not_residue (getLast?_json _) (by simp)
  | cleanupJournal => exact ExecutionStorage.not_residue (getLast?_json _) (by simp)

theorem residue_classified (op : FileName) (hop : op ≠ []) (process epochNanos counter : Nat)
    (id : ExecutionId) (hid : validateExecutionId id = .ok ()) (name : FileName)
    (hname : RecordName id name) :
    temporaryOperation (temporaryName op process epochNanos counter) = some op ∧
    isOwnerProbeName (ownershipProbeName process epochNanos counter) ∧
    ¬isOperationTemporaryName name ∧ ¬isJournalTemporaryName name ∧ ¬isOwnerProbeName name :=
  ⟨temporaryOperation_temporaryName hop .., isOwnerProbeName_ownershipProbeName ..,
    hname.not_residue hid⟩

theorem residue_classified_hold :
    let op := "a.7.tmp".toList
    let hold := "e-1--h.tmp.json".toList
    temporaryOperation (temporaryName op 12 255 0) = some op ∧
    isOwnerProbeName (ownershipProbeName 12 255 0) ∧
    ¬isOperationTemporaryName hold ∧ ¬isJournalTemporaryName hold ∧ ¬isOwnerProbeName hold :=
  residue_classified _ (by decide) 12 255 0 ⟨"e-1"⟩ (by decide) _ (@RecordName.hold _ "h.tmp" _ rfl)

end ExecutionStorage
end Orchestrator
