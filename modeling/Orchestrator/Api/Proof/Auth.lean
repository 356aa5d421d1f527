import Mathlib.Data.List.Forall2
import Mathlib.Data.List.Nodup
import Mathlib.Data.Nat.Bitwise
import Orchestrator.Api.Auth

/-!
# A token identifies one worker

`parse` accepts a file when each of its lines, comments and blanks aside, is an entry, and no worker
and no digest is on two of them. `identify` then finds the worker on the line with the digest of what
was presented (`tokens_identify`).
-/

namespace Orchestrator.PerWorkerTokens

variable {left right d d' : List UInt8} {hex line raw : List Char} {entry entry' : Entry}
  {entries entries' : List Entry} {number : Nat}

/-! ## Comparing -/

theorem foldl_or_eq_zero {f : Nat → Nat} {is : List Nat} {n : Nat} :
    is.foldl (fun acc i => acc ||| f i) n = 0 ↔ n = 0 ∧ ∀ i ∈ is, f i = 0 := by
  induction is generalizing n with
  | nil => simp
  | cons i is ih => simp [ih, Nat.or_eq_zero_iff, and_assoc]

theorem constantTimeEq_iff : constantTimeEq left right = true ↔ left = right := by
  simp only [constantTimeEq, decide_eq_true_eq, foldl_or_eq_zero, Nat.xor_eq_zero_iff,
    List.mem_range, UInt8.toNat_xor, UInt8.toNat_inj]
  constructor
  · rintro ⟨hlength, hsame⟩
    refine List.ext_getElem hlength fun i hleft hright => ?_
    have hi := hsame i (by omega)
    rwa [List.getD_eq_getElem _ _ hleft, List.getD_eq_getElem _ _ hright] at hi
  · rintro rfl
    exact ⟨rfl, fun _ _ => rfl⟩

/-! ## Digests -/

/-- The bytes that pairs of hexadecimal digits stand for. -/
def pack : List Nat → List UInt8
  | high :: low :: rest => UInt8.ofNat (high * 16 + low) :: pack rest
  | _ => []

/-- 64 hexadecimal digits, of either case, and the value they have. -/
def IsDigest (hex : List Char) (d : List UInt8) : Prop :=
  let bytes := hex.flatMap String.utf8EncodeChar
  bytes.length = 64 ∧ (bytes.mapM fun b => toDigit b.toNat).map pack = some d

theorem decodePairs_eq {bytes : List UInt8} (h : bytes.length % 2 = 0) :
    decodePairs bytes = (bytes.mapM fun b => toDigit b.toNat).map pack := by
  induction bytes using decodePairs.induct with
  | case1 high low rest ih =>
    have hrest := ih (by simp at h; omega)
    simp only [decodePairs, hrest, List.mapM_cons]
    cases toDigit high.toNat <;> cases toDigit low.toNat <;>
      cases rest.mapM fun b => toDigit b.toNat <;> rfl
  | case2 bytes hne =>
    obtain _ | ⟨high, _ | ⟨low, rest⟩⟩ := bytes
    · rfl
    · simp at h
    · exact absurd rfl (hne high low rest)

theorem decodeDigest_eq_some : decodeDigest hex = some d ↔ IsDigest hex d := by
  simp only [decodeDigest, IsDigest]
  split
  · next hne => exact iff_of_false (by simp) fun h => hne h.1
  · next hlength =>
    rw [decodePairs_eq (by omega)]
    exact (and_iff_right (not_not.1 hlength)).symm

/-! ## Parsing -/

/-- The line is a worker and the digest of its token. -/
def IsEntry (line : List Char) (entry : Entry) : Prop :=
  ∃ worker digest, splitWhitespace line = [worker, digest] ∧ entry.1 = ⟨String.ofList worker⟩ ∧
    IsDigest digest entry.2

/-- No worker and no digest is there twice. -/
structure Distinct (entries : List Entry) : Prop where
  workers : (entries.map Prod.fst).Nodup
  digests : (entries.map Prod.snd).Nodup

/-- The lines that are left when comments and blank lines are removed. -/
def significant (raws : List (List Char)) : List (List Char) :=
  (raws.map content).filter (· ≠ [])

theorem IsEntry.unique (h : IsEntry line entry) (h' : IsEntry line entry') : entry = entry' := by
  obtain ⟨worker, digest, hfields, hworker, hdigest⟩ := h
  obtain ⟨worker', digest', hfields', hworker', hdigest'⟩ := h'
  obtain ⟨rfl, hrest⟩ := List.cons.inj (hfields.symm.trans hfields')
  obtain ⟨rfl, _⟩ := List.cons.inj hrest
  have hsame := (decodeDigest_eq_some.2 hdigest).symm.trans (decodeDigest_eq_some.2 hdigest')
  exact Prod.ext (hworker.trans hworker'.symm) (Option.some.inj hsame)

theorem nodup_concat {γ : Type} (f : Entry → γ) : ((entries ++ [entry]).map f).Nodup ↔
    f entry ∉ entries.map f ∧ (entries.map f).Nodup := by
  rw [List.map_append, List.nodup_append_comm]
  exact List.nodup_cons

theorem parseLine_eq_ok (h : Distinct entries) (hline : content raw ≠ []) :
    parseLine number entries raw = .ok entries' ↔ ∃ entry, IsEntry (content raw) entry ∧
      Distinct (entries ++ [entry]) ∧ entries' = entries ++ [entry] := by
  simp only [parseLine, if_neg hline]
  constructor
  · intro hok
    split at hok
    · next worker digest hfields =>
      split at hok
      · cases hok
      · next d hdecode =>
        split at hok
        · cases hok
        split at hok
        · cases hok
        next hworker hnew =>
        cases hok
        exact ⟨_, ⟨worker, digest, hfields, rfl, decodeDigest_eq_some.1 hdecode⟩,
          ⟨(nodup_concat _).2 ⟨hworker, h.workers⟩, (nodup_concat _).2 ⟨hnew, h.digests⟩⟩, rfl⟩
    · cases hok
  · rintro ⟨⟨w, d⟩, ⟨worker, digest, hfields, rfl, hdigest⟩, hdistinct, rfl⟩
    simp only [hfields, decodeDigest_eq_some.2 hdigest]
    rw [if_neg ((nodup_concat _).1 hdistinct.workers).1,
      if_neg ((nodup_concat _).1 hdistinct.digests).1]

theorem parseLines_eq_ok {raws : List (List Char)} (h : Distinct entries) :
    parseLines number entries raws = .ok entries' ↔ ∃ new,
      List.Forall₂ IsEntry (significant raws) new ∧ Distinct entries' ∧
        entries' = entries ++ new := by
  induction raws generalizing number entries with
  | nil =>
    constructor
    · intro hok
      cases hok
      exact ⟨[], .nil, h, by simp⟩
    · rintro ⟨_, ⟨⟩, _, rfl⟩
      simp [parseLines]
  | cons raw raws ih =>
    by_cases hline : content raw = []
    · have hskip : parseLine number entries raw = .ok entries := if_pos hline
      have hsame : significant (raw :: raws) = significant raws := by simp [significant, hline]
      rw [parseLines, hskip, hsame]
      exact ih h
    have hcons : significant (raw :: raws) = content raw :: significant raws := by
      simp [significant, hline]
    rw [parseLines, Txn.bind_eq_ok, hcons]
    constructor
    · rintro ⟨_, hok, hrest⟩
      obtain ⟨entry, hentry, hdistinct, rfl⟩ := (parseLine_eq_ok h hline).1 hok
      obtain ⟨new, hnew, hall, rfl⟩ := (ih hdistinct).1 hrest
      exact ⟨entry :: new, .cons hentry hnew, hall, by simp⟩
    · rintro ⟨_, _ | ⟨hentry, hnew⟩, hall, rfl⟩
      rename_i entry new
      rw [List.append_cons] at hall
      have hdistinct : Distinct (entries ++ [entry]) :=
        ⟨.of_append_left (List.map_append ▸ hall.workers),
          .of_append_left (List.map_append ▸ hall.digests)⟩
      refine ⟨_, (parseLine_eq_ok h hline).2 ⟨entry, hentry, hdistinct, rfl⟩, ?_⟩
      exact (ih hdistinct).2 ⟨new, hnew, by simpa using hall, by simp⟩

/-! ## Identifying -/

theorem found_eq_some {hash : List UInt8 → List UInt8} {presented : List UInt8}
    {found : Option WorkerId} {w : WorkerId} (h : Distinct entries) :
    entries.foldl (fun found entry =>
      if constantTimeEq (hash presented) entry.2 then some entry.1 else found) found = some w ↔
      (w, hash presented) ∈ entries ∨ found = some w ∧ hash presented ∉ entries.map Prod.snd := by
  induction entries generalizing found with
  | nil => simp
  | cons entry entries ih =>
    obtain ⟨_, hworkers⟩ := List.nodup_cons.1 h.workers
    obtain ⟨hnew, hdigests⟩ := List.nodup_cons.1 h.digests
    rw [List.foldl_cons, ih ⟨hworkers, hdigests⟩]
    simp only [constantTimeEq_iff]
    by_cases hd : hash presented = entry.2
    · have hnot : (w, hash presented) ∉ entries := fun hmem =>
        hnew (hd ▸ List.mem_map_of_mem (f := Prod.snd) hmem)
      simp [hd ▸ hnot, hd, hnew, Prod.ext_iff, eq_comm]
    · simp [hd, Prod.ext_iff]

theorem mem_iff_of_forall₂ {raws : List (List Char)} (h : List.Forall₂ IsEntry raws entries) :
    entry ∈ entries ↔ ∃ line ∈ raws, IsEntry line entry := by
  induction h with
  | nil => simp
  | cons hentry _ ih =>
    have hfirst : ∀ {entry'}, IsEntry _ entry' ↔ entry' = _ := fun {_} =>
      ⟨fun h => h.unique hentry, fun h => h ▸ hentry⟩
    simp [ih, hfirst]

/-- The text has a line for the worker with this digest. -/
def Lists (text : List Char) (worker : WorkerId) (digest : List UInt8) : Prop :=
  ∃ line ∈ significant (lines text), IsEntry line (worker, digest)

theorem parse_eq_ok {text : List Char} : parse text = .ok entries ↔
    significant (lines text) ≠ [] ∧ List.Forall₂ IsEntry (significant (lines text)) entries ∧
      Distinct entries := by
  have hlines : parseLines 1 [] (lines text) = .ok entries ↔
      List.Forall₂ IsEntry (significant (lines text)) entries ∧ Distinct entries := by
    have hnone : Distinct [] := ⟨.nil, .nil⟩
    rw [parseLines_eq_ok hnone]
    simp
  have hempty : List.Forall₂ IsEntry (significant (lines text)) entries →
      (significant (lines text) = [] ↔ entries = []) := fun h => by
    rw [← List.length_eq_zero_iff, h.length_eq, List.length_eq_zero_iff]
  rw [parse, Txn.bind_eq_ok]
  constructor
  · rintro ⟨found, hfound, hok⟩
    split at hok
    · cases hok
    next hne =>
    cases hok
    obtain ⟨hentries, hdistinct⟩ := hlines.1 hfound
    exact ⟨mt (hempty hentries).1 hne, hentries, hdistinct⟩
  · rintro ⟨hne, hentries, hdistinct⟩
    exact ⟨entries, hlines.2 ⟨hentries, hdistinct⟩, if_neg (mt (hempty hentries).2 hne)⟩

/-- The text is accepted when it has lines besides comments and blanks, each of them is an entry,
and no worker and no digest is in two of them; what is presented then identifies a worker exactly
when that worker's line has its digest, and it is the only such worker. -/
theorem tokens_identify (text : List Char) (hash : List UInt8 → List UInt8) :
    ((∃ entries, parse text = .ok entries) ↔ significant (lines text) ≠ [] ∧
      ∃ entries, List.Forall₂ IsEntry (significant (lines text)) entries ∧ Distinct entries) ∧
    ∀ entries, parse text = .ok entries → ∀ presented worker,
      (identify hash entries presented = some worker ↔ Lists text worker (hash presented)) ∧
      ∀ other, Lists text worker (hash presented) → Lists text other (hash presented) →
        other = worker := by
  constructor
  · simp only [parse_eq_ok, exists_and_left]
  · intro entries hok presented
    obtain ⟨_, hentries, hdistinct⟩ := parse_eq_ok.1 hok
    have hiff : ∀ worker, identify hash entries presented = some worker ↔
        Lists text worker (hash presented) := by
      intro worker
      rw [identify, found_eq_some hdistinct, mem_iff_of_forall₂ hentries]
      simp [Lists]
    intro worker
    refine ⟨hiff worker, fun other hworker hother => ?_⟩
    exact Option.some.inj (((hiff other).2 hother).symm.trans ((hiff worker).2 hworker))

end Orchestrator.PerWorkerTokens
