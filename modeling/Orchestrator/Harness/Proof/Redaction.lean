import Mathlib.Data.List.TakeWhile
import Orchestrator.Harness.Redaction

/-!
# The credential does not reach the files

What is put in the place of the credential is shorter than any credential, so the loop ends
(`redactLoop_total`), and it ends where the credential does not occur any more. Nothing of it has a
newline, so a record is still a line, and a credential that occurred in the file would occur in one of
its lines (`Lines.Lined.clean`).
-/

namespace Orchestrator

open Lines

variable {fuel : Nat} {token bytes out stream : List UInt8}

/-! ## One record -/

theorem length_replaced {index : Nat} (hpos : position token bytes = some index)
    (hlen : redaction.length < token.length) :
    (bytes.take index ++ redaction ++ bytes.drop (index + token.length)).length < bytes.length := by
  have hlength := congrArg List.length (position_eq_some hpos)
  simp only [List.length_append] at hlength ⊢
  omega

theorem redactLoop_total (hlen : redaction.length < token.length) (hfuel : bytes.length < fuel) :
    ∃ out, redactLoop token fuel bytes = some out := by
  induction fuel generalizing bytes with
  | zero => omega
  | succ fuel ih =>
    rw [redactLoop]
    split
    · exact ⟨bytes, rfl⟩
    · rename_i index hpos
      have := length_replaced hpos hlen
      exact ih (by omega)

theorem not_infix_of_redactLoop (h : redactLoop token fuel bytes = some out) : ¬token <:+: out := by
  induction fuel generalizing bytes with
  | zero => cases h
  | succ fuel ih =>
    rw [redactLoop] at h
    split at h
    · rename_i hpos
      obtain rfl := Option.some.inj h
      exact position_eq_none.1 hpos
    · exact ih h

theorem redactLoop_of_not_infix (h : ¬token <:+: bytes) :
    redactLoop token (fuel + 1) bytes = some bytes := by
  rw [redactLoop, position_eq_none.2 h]

theorem newline_not_mem_redaction : newline ∉ redaction := by decide

theorem redactLoop_line {body rest : List UInt8} (htoken : newline ∉ token) (hne : token ≠ [])
    (hbody : newline ∉ body) (hrest : rest = [] ∨ rest = [newline])
    (h : redactLoop token fuel (body ++ rest) = some out) :
    ∃ body', newline ∉ body' ∧ out = body' ++ rest := by
  induction fuel generalizing body with
  | zero => cases h
  | succ fuel ih =>
    rw [redactLoop] at h
    split at h
    · exact ⟨body, hbody, (Option.some.inj h).symm⟩
    · rename_i index hpos
      have hcut := position_eq_some hpos
      -- the occurrence ends before the newline
      have hinside : index + token.length ≤ body.length := by
        by_contra hout
        have hlength := congrArg List.length hcut
        simp only [List.length_append, List.length_take, List.length_drop] at hlength
        rcases hrest with rfl | rfl
        · simp only [List.length_nil] at hlength
          have := List.length_pos_of_ne_nil hne
          omega
        · simp only [List.length_singleton] at hlength
          have := List.length_pos_of_ne_nil hne
          have hend : body.length + 1 = index + token.length := by omega
          have hdrop : (body ++ [newline]).drop (index + token.length) = [] :=
            List.drop_eq_nil_of_le (by simp [← hend])
          rw [hdrop, List.append_nil] at hcut
          have hlast := congrArg List.getLast? hcut
          rw [List.getLast?_concat, List.getLast?_append_of_ne_nil _ hne] at hlast
          exact htoken (List.mem_of_getLast? hlast.symm)
      have hsplit : (body ++ rest).take index ++ redaction ++
          (body ++ rest).drop (index + token.length) =
          (body.take index ++ redaction ++ body.drop (index + token.length)) ++ rest := by
        rw [List.take_append_of_le_length (by omega), List.drop_append_of_le_length hinside]
        simp only [List.append_assoc]
      rw [hsplit] at h
      refine ih ?_ h
      simp only [List.mem_append, not_or]
      exact ⟨⟨fun hmem => hbody (List.mem_of_mem_take hmem), newline_not_mem_redaction⟩,
        fun hmem => hbody (List.mem_of_mem_drop hmem)⟩

theorem redactAll_singleton (hne : token ≠ []) :
    redactAll fuel [token] bytes = redactLoop token fuel bytes := by
  simp [redactAll, redactBytes, hne]

/-! ## A stream -/

theorem mapM_redactAll (htoken : newline ∉ token) (hlen : redaction.length < token.length)
    (hfuel : stream.length < fuel) : ∃ pieces,
      (records newline stream).mapM (redactAll fuel [token]) = some pieces ∧ Lined newline pieces ∧
        ∀ p ∈ pieces, ¬token <:+: p := by
  have hne : token ≠ [] := by
    rintro rfl
    simp at hlen
  induction hn : stream.length using Nat.strong_induction_on generalizing stream with
  | _ n ih =>
    by_cases hstream : stream = []
    · subst hstream
      exact ⟨[], rfl, .nil, by simp⟩
    · have hlength := length_readUntil newline stream
      have hpos := length_readUntil_pos newline hstream
      obtain ⟨out, hout⟩ := redactLoop_total hlen
        (show (readUntil newline stream).1.length < fuel by omega)
      obtain ⟨pieces, hpieces, hlined, hclean⟩ := ih (readUntil newline stream).2.length
        (by omega) (by omega) rfl
      have hgone := not_infix_of_redactLoop hout
      refine ⟨out :: pieces, ?_, ?_, List.forall_mem_cons.2 ⟨hgone, hclean⟩⟩
      · rw [records_eq_cons hstream, List.mapM_cons, redactAll_singleton hne, hout, hpieces]
        rfl
      · obtain ⟨body, hbody, hline | ⟨hlast, hrest⟩⟩ := records_cases newline hstream
        · rw [hline] at hout
          obtain ⟨body', hbody', rfl⟩ := redactLoop_line htoken hne hbody (.inr rfl) hout
          exact .line hbody' hlined
        · rw [hlast, ← List.append_nil body] at hout
          obtain ⟨body', hbody', rfl⟩ := redactLoop_line htoken hne hbody (.inl rfl) hout
          rw [hrest] at hpieces
          obtain rfl : [] = pieces := Option.some.inj hpieces
          rw [List.append_nil]
          exact .last hbody'

/-- What a pump wrote may follow a file that is empty or ends with a line. -/
def Appendable (token before : List UInt8) : Prop :=
  before = [] ∨ ∃ lines, before = lines ++ [newline] ∧ ¬token <:+: lines

theorem Appendable.append {before : List UInt8} (h : Appendable token before)
    (htoken : newline ∉ token) (hout : ¬token <:+: out) : ¬token <:+: before ++ out := by
  rcases h with rfl | ⟨lines, rfl, hlines⟩
  · exact hout
  · intro hin
    rw [List.append_assoc] at hin
    exact (infix_split htoken hin).elim hlines hout

theorem pump_clean (htoken : newline ∉ token) (hlen : redaction.length < token.length)
    (hfuel : stream.length < fuel) : ∃ out, pump fuel [token] stream = some out ∧
      ∀ written, written <+: out → ¬token <:+: written := by
  have hne : token ≠ [] := by
    rintro rfl
    simp at hlen
  obtain ⟨pieces, hpieces, hlined, hclean⟩ := mapM_redactAll htoken hlen hfuel
  refine ⟨pieces.flatten, by rw [pump, hpieces]; rfl, fun written hwritten hin => ?_⟩
  exact hlined.clean htoken hne hclean (hin.trans hwritten.isInfix)

theorem pumpEvents_clean (htoken : newline ∉ token) (hlen : redaction.length < token.length)
    {control ready : List UInt8 → Bool} (hfuel : stream.length < fuel) :
    ∃ out, pumpEvents fuel [token] control ready stream = some out ∧
      ∀ written, written <+: out → ¬token <:+: written := by
  have hnothing : ∃ out, some ([] : List UInt8) = some out ∧
      ∀ written, written <+: out → ¬token <:+: written := by
    refine ⟨[], rfl, fun written hwritten hin => ?_⟩
    rw [List.prefix_nil.1 hwritten] at hin
    have := hin.length_le
    rw [List.length_nil] at this
    omega
  have hheader := length_readUntil newline stream
  have hready := length_readUntil newline (readUntil newline stream).2
  unfold pumpEvents
  dsimp only
  split
  · exact hnothing
  · split
    · exact hnothing
    · exact pump_clean htoken hlen (by omega)

theorem credentialToken_spec {credential : List UInt8} (h : credentialToken credential = some token) :
    32 ≤ token.length ∧ newline ∉ token := by
  obtain ⟨htoken, hlen⟩ := Option.filter_eq_some_iff.1 h
  obtain rfl := Option.some.inj htoken
  refine ⟨by simpa using hlen, fun hmem => ?_⟩
  simpa using List.mem_takeWhile_imp hmem

end Orchestrator
