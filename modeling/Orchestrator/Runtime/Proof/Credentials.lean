import Mathlib.Tactic.IntervalCases
import Orchestrator.Runtime.Credentials

/-!
# One stable credential at a time

`Life` is the abstract credential: nothing is published, or one complete text, which stays until it
is removed; a call of `mint` returns the expiry of the text that stands there. `Inv` says that the
directory is at the end of such a life. A thread changes the directory only while it holds the lock
(`guar`), so that what its holder knows of it stays true (`held`); the triples of `mint` and `revoke`
follow the text of the source.
-/

namespace Orchestrator.Credentials

open Prog

/-! ## Texts -/

def hexDigit (c : Char) : Bool := c.isDigit || ('a' ≤ c && c ≤ 'f')

theorem hexDigit_digitChar {n : Nat} (h : n < 16) : hexDigit (Nat.digitChar n) = true := by
  interval_cases n <;> decide

theorem hex_spec {bytes : List UInt8} :
    (hex bytes).length = 2 * bytes.length ∧ ∀ c ∈ hex bytes, hexDigit c = true := by
  induction bytes with
  | nil => simp [hex]
  | cons b bytes ih =>
    have hcons : hex (b :: bytes) =
        Nat.digitChar (b.toNat / 16) :: Nat.digitChar (b.toNat % 16) :: hex bytes := rfl
    have hb : b.toNat < 256 := b.toNat_lt
    rw [hcons]
    refine ⟨by simp only [List.length_cons, ih.1]; omega, fun c hc => ?_⟩
    simp only [List.mem_cons] at hc
    rcases hc with rfl | rfl | hc
    · exact hexDigit_digitChar (by omega)
    · exact hexDigit_digitChar (by omega)
    · exact ih.2 c hc

/-- A credential as it is issued: its token is that of 32 random bytes. -/
def Credential.Issued (c : Credential) : Prop :=
  c.token.toList.length = 64 ∧ ∀ d ∈ c.token.toList, hexDigit d = true

theorem issued_hex {bytes : List UInt8} (h : bytes.length = 32) (t : Timestamp) :
    Credential.Issued ⟨String.ofList (hex bytes), t⟩ := by
  refine ⟨?_, ?_⟩
  · simp [hex_spec.1, h]
  · simpa using hex_spec.2

theorem stripEnd_line {line : List Char} (h : '\r' ∉ line) : stripEnd (line ++ ['\n']) = line := by
  have hlast : line.getLast? ≠ some '\r' := fun hl => h (List.mem_of_getLast? hl)
  simp [stripEnd, hlast]

namespace Broker

variable {B : Broker}

/-- All of an issued credential, token and expiry. -/
def Complete (B : Broker) (text : String) : Prop := ∃ c : Credential, c.Issued ∧ text = B.contents c

theorem lines_contents {c : Credential} (hc : c.Issued) :
    (lines (B.contents c))[1]? = some (B.times.write c.expiresAt) := by
  have htoken : '\n' ∉ c.token.toList := fun h => by
    have := hc.2 _ h
    revert this
    decide
  obtain ⟨hn, hr⟩ := B.times.plain c.expiresAt
  have hrest : Lines.records '\n' ((B.times.write c.expiresAt).toList ++ ['\n']) =
      [(B.times.write c.expiresAt).toList ++ ['\n']] := by
    rw [Lines.records_append hn, Lines.records]
  simp [lines, contents, Lines.records_append htoken, hrest, stripEnd_line hr]

theorem expiryOf_contents {c : Credential} (hc : c.Issued) :
    B.expiryOf (B.contents c) = .ok c.expiresAt := by
  simp [expiryOf, lines_contents hc, B.times.parse_write]

theorem expiresAt_eq {c c' : Credential} (hc : c.Issued) (hc' : c'.Issued)
    (h : B.contents c = B.contents c') : c.expiresAt = c'.expiresAt := by
  have hexpiry := congrArg B.expiryOf h
  rw [expiryOf_contents hc, expiryOf_contents hc'] at hexpiry
  exact Except.ok.inj hexpiry

end Broker

theorem candidateName_ne (suffix : List Char) : candidateName suffix ≠ credentialFile := by
  intro h
  have := congrArg (fun s => s.toList.head?) h
  simp [candidateName, candidateStart, credentialFile] at this

/-! ## The life of a credential -/

/-- What may happen, the newest first, and what is published at its end. -/
inductive Life (B : Broker) : List Event → Option String → Prop
  | start : Life B [] none
  | publish {history text} (before : Life B history none) (complete : B.Complete text) :
      Life B (.published text :: history) (some text)
  | remove {history text} (before : Life B history (some text)) :
      Life B (.removed :: history) none
  | mint {history c t readings} (before : Life B history (some (B.contents c)))
      (issued : c.Issued) (read : readings.head? = some t) (ahead : t < c.expiresAt) :
      Life B (.minted (B.contents c) c.expiresAt readings :: history) (some (B.contents c))

namespace Life

variable {B : Broker} {history before between after : List Event} {published : Option String}
variable {text text' : String} {e e' : Timestamp} {readings readings' : List Timestamp}

theorem complete (h : Life B history (some text)) : B.Complete text := by
  cases h with
  | publish before complete => exact complete
  | mint before issued _ _ => exact ⟨_, issued, rfl⟩

theorem of_append (after : List Event) (h : Life B (after ++ history) published) :
    ∃ published', Life B history published' := by
  induction after generalizing published with
  | nil => exact ⟨published, h⟩
  | cons event after ih =>
    cases h with
    | publish before _ | remove before | mint before _ _ _ => exact ih before

theorem of_minted (h : Life B (.minted text e readings :: before) published) :
    published = some text ∧ (∃ c : Credential, c.Issued ∧ c.expiresAt = e ∧ text = B.contents c) ∧
      ∃ t, readings.head? = some t ∧ t < e := by
  cases h with
  | @mint _ c t _ _ issued read ahead => exact ⟨rfl, ⟨c, issued, rfl, rfl⟩, t, read, ahead⟩

theorem since_minted (after : List Event)
    (h : Life B (after ++ .minted text e readings :: before) published)
    (hkept : .removed ∉ after) : published = some text := by
  induction after generalizing published with
  | nil => exact h.of_minted.1
  | cons event after ih =>
    simp only [List.mem_cons, not_or] at hkept
    cases h with
    | publish before _ => exact absurd (ih before hkept.2) nofun
    | remove _ => exact absurd rfl hkept.1
    | mint before _ _ _ => exact ih before hkept.2

theorem same_minted
    (h : Life B (after ++ .minted text' e' readings' :: between ++ .minted text e readings :: before)
      published)
    (hkept : .removed ∉ between) : text = text' ∧ e = e' := by
  rw [List.append_assoc] at h
  obtain ⟨_, hlater⟩ := h.of_append
  obtain ⟨hstands', ⟨c', hissued', rfl, rfl⟩, _⟩ := hlater.of_minted
  obtain ⟨_, hearlier⟩ := hlater.of_append (.minted _ _ readings' :: between)
  obtain ⟨_, ⟨c, hissued, rfl, rfl⟩, _⟩ := hearlier.of_minted
  have hstands := hlater.since_minted (.minted _ _ readings' :: between) (by simpa)
  have hsame := Option.mem_unique hstands hstands'
  exact ⟨hsame, B.expiresAt_eq hissued hissued' hsame⟩

end Life

/-! ## What the threads keep -/

/-- The directory is at the end of a life of the credential. -/
structure Inv (B : Broker) (s : Store) : Prop where
  below : ∀ n k, s.entry n = some k → k < s.unused
  life : Life B s.history (s.text credentialFile)

/-- What is published stays as it is, or goes. -/
def Keeps (s s' : Store) : Prop :=
  ∀ text, s.text credentialFile = some text →
    s'.text credentialFile = some text ∨ s'.text credentialFile = none

theorem Keeps.of_eq {s s' : Store} (h : s'.text credentialFile = s.text credentialFile) :
    Keeps s s' := fun _ ht => .inl (h.trans ht)

/-- Calls that the holder of the lock may make. -/
def Call.Careful (B : Broker) : {β : Type} → Call β → Store → Prop
  | _, .lock, _ => False
  | _, .createNew n, _ => n ≠ credentialFile
  | _, .write k _, s => s.entry credentialFile ≠ some k
  | _, .hardLink n _, s => ∀ k, s.entry n = some k → B.Complete (s.file k).text
  | _, _, _ => True

section Step
variable {B : Broker} {i : Nat} {s s' : Store} {n : String} {k : Inode}

theorem Store.text_write (h : s.entry n ≠ some k) (f : File) :
    { s with file := Function.update s.file k f }.text n = s.text n := by
  unfold Store.text
  cases hn : s.entry n with
  | none => rfl
  | some k' =>
    have hk : k' ≠ k := fun hk => h (hk ▸ hn)
    simp [Function.update_of_ne hk]

/-- What a careful call keeps. -/
structure Kept (B : Broker) (s s' : Store) : Prop where
  inv : Inv B s'
  published : Keeps s s'
  holder : s'.holder = s.holder

theorem Kept.of_eq (h : Inv B s) (hs : s' = s) : Kept B s s' := by
  subst hs
  exact ⟨h, .of_eq rfl, rfl⟩

theorem Kept.of_text (h : Inv B s) (hentry : s'.entry = s.entry) (hunused : s'.unused = s.unused)
    (htext : s'.text credentialFile = s.text credentialFile) (hhist : s'.history = s.history)
    (hholder : s'.holder = s.holder) : Kept B s s' where
  inv :=
    { below := by rw [hentry, hunused]; exact h.below
      life := by rw [hhist, htext]; exact h.life }
  published := .of_eq htext
  holder := hholder

theorem kept_createNew (h : Inv B s) (hn : n ≠ credentialFile) (f : File) :
    Kept B s { s.name n s.unused with
      file := Function.update s.file s.unused f
      unused := s.unused + 1 } := by
  have hcred : s.entry credentialFile ≠ some s.unused := fun hc =>
    Nat.lt_irrefl _ (h.below _ _ hc)
  have htext : Store.text { s.name n s.unused with
      file := Function.update s.file s.unused f
      unused := s.unused + 1 } credentialFile = s.text credentialFile := by
    rw [← Store.text_write hcred f]
    simp [Store.text, Store.name, Function.update_of_ne (Ne.symm hn)]
  refine ⟨⟨fun m k hm => ?_, ?_⟩, .of_eq htext, rfl⟩
  · by_cases hmn : m = n
    · subst hmn
      simp only [Store.name, Function.update_self, Option.some.injEq] at hm
      simp [← hm]
    · simp only [Store.name, Function.update_of_ne hmn] at hm
      exact Nat.lt_succ_of_lt (h.below m k hm)
  · rw [htext]
    exact h.life

theorem kept_link (h : Inv B s) {m : String} (hm : s.entry m = none) (hn : s.entry n = some k)
    (hcomplete : B.Complete (s.file k).text) :
    Kept B s (if m = credentialFile then (s.name m k).note (.published (s.file k).text)
      else s.name m k) := by
  have hbelow : ∀ n' k', (s.name m k).entry n' = some k' → k' < s.unused := fun n' k' hn' => by
    by_cases hmn : n' = m
    · subst hmn
      simp only [Store.name, Function.update_self, Option.some.injEq] at hn'
      exact hn' ▸ h.below n k hn
    · simp only [Store.name, Function.update_of_ne hmn] at hn'
      exact h.below n' k' hn'
  split
  · next hcred =>
    subst hcred
    have hnone : s.text credentialFile = none := by simp [Store.text, hm]
    refine ⟨⟨hbelow, ?_⟩, fun text ht => absurd (ht.symm.trans hnone) nofun, rfl⟩
    have hsome : ((s.name credentialFile k).note (.published (s.file k).text)).text credentialFile =
        some (s.file k).text := by simp [Store.text, Store.name, Store.note]
    rw [hsome]
    exact .publish (hnone ▸ h.life) hcomplete
  · next hcred =>
    have htext : (s.name m k).text credentialFile = s.text credentialFile := by
      simp [Store.text, Store.name, Function.update_of_ne (Ne.symm hcred)]
    exact ⟨⟨hbelow, htext ▸ h.life⟩, .of_eq htext, rfl⟩

theorem kept_remove (h : Inv B s) (hn : (s.entry n).isSome) :
    Kept B s (if n = credentialFile then (s.unname n).note .removed else s.unname n) := by
  have hbelow : ∀ m k, (s.unname n).entry m = some k → k < s.unused := fun m k hm => by
    by_cases hmn : m = n
    · subst hmn
      simp [Store.unname] at hm
    · simp only [Store.unname, Function.update_of_ne hmn] at hm
      exact h.below m k hm
  split
  · next hcred =>
    subst hcred
    obtain ⟨k, hk⟩ := Option.isSome_iff_exists.1 hn
    have hsome : s.text credentialFile = some (s.file k).text := by simp [Store.text, hk]
    have hnone : ((s.unname credentialFile).note .removed).text credentialFile = none := by
      simp [Store.text, Store.unname, Store.note]
    refine ⟨⟨hbelow, ?_⟩, fun _ _ => .inr hnone, rfl⟩
    rw [hnone]
    exact .remove (hsome ▸ h.life)
  · next hcred =>
    have htext : (s.unname n).text credentialFile = s.text credentialFile := by
      simp [Store.text, Store.unname, Function.update_of_ne (Ne.symm hcred)]
    exact ⟨⟨hbelow, htext ▸ h.life⟩, .of_eq htext, rfl⟩

theorem Call.Does.kept {β : Type} {c : Call β} {r : β} (hdoes : c.Does i s r s')
    (h : Inv B s) (hcareful : c.Careful B s) : Kept B s s' := by
  cases c with
  | lock => exact hcareful.elim
  | verifiedParent => exact .of_eq h hdoes.2
  | readDir | read n | entropy =>
    cases r with
    | ok _ => exact .of_eq h hdoes.1
    | error _ => exact .of_eq h hdoes
  | inspect n =>
    cases r with
    | ok _ => exact .of_eq h hdoes.1
    | error e =>
      cases e with
      | notFound => exact .of_eq h hdoes.1
      | alreadyExists | other _ => exact .of_eq h hdoes
  | now =>
    cases r with
    | ok t =>
      subst hdoes
      exact .of_text h rfl rfl rfl rfl rfl
    | error _ => exact .of_eq h hdoes
  | createNew n =>
    cases r with
    | ok k =>
      obtain ⟨_, rfl, rfl⟩ := hdoes
      exact kept_createNew h hcareful _
    | error _ => exact .of_eq h hdoes
  | write k text =>
    have hwritten : ∀ f, Kept B s { s with file := Function.update s.file k f } := fun f =>
      .of_text h rfl rfl (Store.text_write hcareful f) rfl rfl
    cases r with
    | ok _ =>
      subst hdoes
      exact hwritten _
    | error _ =>
      obtain ⟨text, rfl⟩ := hdoes
      exact hwritten _
  | sync k | syncDirectory => cases r <;> exact .of_eq h hdoes
  | hardLink n m =>
    cases r with
    | ok _ =>
      obtain ⟨hm, k, hn, rfl⟩ := hdoes
      exact kept_link h hm hn (hcareful k hn)
    | error e =>
      cases e with
      | notFound | other _ => exact .of_eq h hdoes
      | alreadyExists => exact .of_eq h hdoes.1
  | removeFile n =>
    cases r with
    | ok _ =>
      obtain ⟨hn, rfl⟩ := hdoes
      exact kept_remove h hn
    | error e =>
      cases e with
      | notFound => exact .of_eq h hdoes.1
      | alreadyExists | other _ => exact .of_eq h hdoes

end Step

/-! ## Threads -/

section Threads
variable {B : Broker} {i j : Nat} {s s' : Store}

/-- What a thread does to the store. Without the lock it can take it, and nothing else. -/
structure Guar (B : Broker) (i : Nat) (s s' : Store) : Prop where
  inv : Inv B s → Inv B s'
  published : Keeps s s'
  holding : s.holder = some i → s'.holder = some i ∨ s'.holder = none
  waiting : s.holder ≠ some i →
    s' = s ∨ s.holder = none ∧ s' = { s with holder := some i, readings := [] }

/-- What a thread relies on. -/
structure Rely (B : Broker) (j : Nat) (s s' : Store) : Prop where
  inv : Inv B s → Inv B s'
  holding : s.holder = some j → s' = s
  waiting : s.holder ≠ some j → s'.holder ≠ some j

theorem Guar.rely (h : Guar B i s s') (hij : i ≠ j) : Rely B j s s' where
  inv := h.inv
  holding hj := by
    have hi : s.holder ≠ some i := fun hi => hij (Option.mem_unique hi hj)
    rcases h.waiting hi with hsame | ⟨hfree, _⟩
    · exact hsame
    · exact absurd (hj.symm.trans hfree) nofun
  waiting hj := by
    by_cases hi : s.holder = some i
    · rcases h.holding hi with h' | h'
      · rw [h']
        simpa using hij
      · rw [h']
        nofun
    · rcases h.waiting hi with rfl | ⟨_, rfl⟩
      · exact hj
      · simpa using hij

theorem Guar.refl (h : s' = s) : Guar B i s s' where
  inv := fun hinv => h ▸ hinv
  published := .of_eq (h ▸ rfl)
  holding hi := .inl (h ▸ hi)
  waiting _ := .inl h

theorem Kept.guar (h : Kept B s s') (hi : s.holder = some i) : Guar B i s s' where
  inv := fun _ => h.inv
  published := h.published
  holding _ := .inl (h.holder.trans hi)
  waiting hn := absurd hi hn

abbrev Broker.thread (B : Broker) (i : Nat) : Contract Call Store :=
  B.system.contract (Rely B) (Guar B) i

/-- What a thread knows while it holds the lock. -/
def held (B : Broker) (i : Nat) (P : Store → Prop) : Assertion (B.thread i).setting :=
  (B.thread i).keeping (fun s => s.holder = some i ∧ Inv B s ∧ P s) fun _ _ hrely hs =>
    hrely.holding hs.1 ▸ hs

/-- Nothing is known but that the thread holds the lock. -/
abbrev holding (B : Broker) (i : Nat) : Assertion (B.thread i).setting := held B i fun _ => True

variable {P E : Store → Prop} {α β ε ε' : Type} {Q : β → Store → Prop}

theorem held_mono {P' : Store → Prop} (h : ∀ s, Inv B s → P s → P' s) (x : Store × Prop)
    (hx : held B i P x) : held B i P' x :=
  ⟨⟨hx.1.1, hx.1.2.1, h _ hx.1.2.1 hx.1.2.2⟩, hx.2⟩

theorem held_step {c : Call β} {b : β} {x y : Store × Prop} {R : Store → Prop}
    (hcareful : c.Careful B x.1) (hx : held B i P x) (hsem : (B.thread i).setting.sem c x b y)
    (hR : R y.1) : held B i R y := by
  obtain ⟨⟨hholder, hinv, _⟩, hkept⟩ := hx
  have hstep : Kept B x.1 y.1 := Call.Does.kept hsem.1 hinv hcareful
  exact ⟨⟨hstep.holder.trans hholder, hstep.inv, hR⟩, hsem.2 ▸ ⟨hkept, hstep.guar hholder⟩⟩

theorem triple_attempt {c : Call (Except ε β)} (hcareful : ∀ s, Inv B s → P s → c.Careful B s)
    (hok : ∀ s b s', Inv B s → P s → c.Does i s (.ok b) s' → Q b s')
    (herr : ∀ s e s', Inv B s → P s → c.Does i s (.error e) s' → E s') :
    TripleE (held B i P) (attempt c) (fun b => held B i (Q b)) (held B i E) :=
  .attempt
    (fun _ b _ hx hsem => held_step (hcareful _ hx.1.2.1 hx.1.2.2) hx hsem
      (hok _ b _ hx.1.2.1 hx.1.2.2 hsem.1))
    fun _ e _ hx hsem => held_step (hcareful _ hx.1.2.1 hx.1.2.2) hx hsem
      (herr _ e _ hx.1.2.1 hx.1.2.2 hsem.1)

theorem triple_attemptAs {f : ε → ε'} {c : Call (Except ε β)}
    (hcareful : ∀ s, Inv B s → P s → c.Careful B s)
    (hok : ∀ s b s', Inv B s → P s → c.Does i s (.ok b) s' → Q b s') :
    TripleE (held B i P) (attemptAs f c) (fun b => held B i (Q b)) (holding B i) :=
  Triple.bind (triple_attempt hcareful hok fun _ _ _ _ _ _ => trivial) fun r => match r with
    | .ok _ | .error _ => fun _ hs => hs

theorem triple_observe {F : Assertion (B.thread i).setting} {c : Call (Except ε β)}
    {R : Except ε β → Store → Prop} (hcareful : ∀ s, Inv B s → P s → c.Careful B s)
    (h : ∀ s r s', Inv B s → P s → c.Does i s r s' → R r s') :
    TripleE (held B i P) (observe (attempt c) : ExceptT ε' (Prog Call) _)
      (fun r => held B i (R r)) F :=
  Triple.bind (Triple.ask fun _ r _ hx hsem => held_step (hcareful _ hx.1.2.1 hx.1.2.2) hx hsem
    (h _ r _ hx.1.2.1 hx.1.2.2 hsem.1)) fun _ => fun _ hx => hx

/-! ### The broker -/

def Clean (s : Store) : Prop := ∀ n, isCandidate n = true → s.entry n = none

/-- Every candidate is still to come in the list, or it ends in an error. -/
def Listed (entries : List (Except IoError String)) (s : Store) : Prop :=
  ∀ n, isCandidate n = true → (s.entry n).isSome → .ok n ∈ entries ∨ ∃ e, .error e ∈ entries

theorem Listed.clean (h : Listed [] s) : Clean s := fun n hn => by
  by_contra hne
  have hsome := h n hn (Option.isSome_iff_ne_none.2 hne)
  simp at hsome

theorem Listed.tail {n : String} {entries : List (Except IoError String)}
    (h : Listed (.ok n :: entries) s) (hn : isCandidate n = true → s.entry n = none) :
    Listed entries s := by
  intro m hm hsome
  rcases h m hm hsome with hmem | ⟨e, hmem⟩
  · rcases List.mem_cons.1 hmem with heq | hmem
    · obtain rfl := Except.ok.inj heq
      rw [hn hm] at hsome
      exact absurd hsome nofun
    · exact .inl hmem
  · rcases List.mem_cons.1 hmem with heq | hmem
    · exact nomatch heq
    · exact .inr ⟨e, hmem⟩

theorem candidate_ne {n : String} (h : isCandidate n = true) : n ≠ credentialFile := by
  rintro rfl
  revert h
  decide

theorem triple_scavenge (entry : Except IoError String) (entries : List (Except IoError String)) :
    TripleE (held B i (Listed (entry :: entries))) (Broker.scavenge entry)
      (fun _ => held B i (Listed entries)) (holding B i) := by
  refine .bind (.unwrap (Q := fun n => (held B i (Listed (entry :: entries))).and
    (entry = .ok n)) (fun x n hx hn => ⟨hx, ?_⟩) (held_mono fun _ _ _ => trivial)) fun n =>
      .of_and fun hentry => ?_
  · cases entry with
    | ok m => exact congrArg _ (Except.ok.inj hn)
    | error e => exact nomatch hn
  subst hentry
  refine .provided (fun hn => ?_) fun hn =>
    held_mono fun s _ hs => hs.tail fun h => absurd h hn
  refine .bind (triple_attemptAs (Q := fun _ => Listed (.ok n :: entries))
    (fun _ _ _ => trivial) fun s b s' _ hs hdoes => hdoes.1 ▸ hs) fun metadata => ?_
  refine .learn (.refuse fun x hx _ => held_mono (fun _ _ _ => trivial) x hx)
    fun _ _ => triple_attemptAs (fun _ _ _ => trivial) ?_
  intro s b s' hinv hs hdoes
  obtain ⟨_, rfl⟩ := hdoes
  rw [if_neg (candidate_ne hn)]
  refine Listed.tail (n := n) (fun m hm hsome => hs m hm ?_) fun _ => by simp [Store.unname]
  by_cases hmn : m = n
  · subst hmn
    simp [Store.unname] at hsome
  · simpa [Store.unname, Function.update_of_ne hmn] using hsome

theorem triple_scavengeCandidates :
    TripleE (holding B i) Broker.scavengeCandidates (fun _ => held B i Clean) (holding B i) := by
  refine .bind (triple_attemptAs (Q := fun entries => Listed entries)
    (fun _ _ _ => trivial) ?_) fun entries =>
      .bind (.forEach (I := fun entries => held B i (Listed entries))
        triple_scavenge) fun _ => triple_attemptAs (fun _ _ _ => trivial) ?_
  · rintro s entries s' _ _ ⟨rfl, hall⟩ n _ hsome
    exact hall n hsome
  · rintro s _ s' _ hs rfl
    exact hs.clean

/-- What stands there runs until `e`, which was ahead when the clock was read last. -/
def Live (B : Broker) (e : Timestamp) (s : Store) : Prop :=
  ∃ c t, c.Issued ∧ c.expiresAt = e ∧ s.text credentialFile = some (B.contents c) ∧
    s.readings.head? = some t ∧ t < e

theorem triple_readLive : TripleE (holding B i) B.readLive
    (fun found => held B i fun s => ∀ e, found = some e → Live B e s) (holding B i) := by
  refine .bind (triple_observe (R := fun _ _ => True) (fun _ _ _ => trivial)
    fun _ _ _ _ _ _ => trivial) fun r => ?_
  match r with
  | .error .notFound => exact .pure (held_mono fun _ _ _ => nofun)
  | .error .alreadyExists | .error (.other _) => exact .throw fun _ hx => hx
  | .ok metadata =>
    refine .learn (.refuse fun _ hx _ => hx) fun _ _ => ?_
    refine .learn (.refuse fun _ hx _ => hx) fun _ _ => ?_
    refine .bind (triple_attemptAs
      (Q := fun text s => s.text credentialFile = some text) (fun _ _ _ => trivial) ?_) fun text => ?_
    · rintro s text s' _ _ ⟨rfl, htext⟩
      exact htext
    refine .bind (.unwrap (Q := fun e => held B i fun s => ∃ c : Credential,
      c.Issued ∧ c.expiresAt = e ∧ s.text credentialFile = some (B.contents c))
      (fun x e hx he => ?_) (held_mono fun _ _ _ => trivial)) fun e => ?_
    · refine held_mono (fun s hinv htext => ?_) x hx
      obtain ⟨c, hissued, hc⟩ := (htext ▸ hinv.life).complete
      rw [hc, B.expiryOf_contents hissued] at he
      exact ⟨c, hissued, Except.ok.inj he, hc ▸ htext⟩
    refine .bind (triple_attemptAs (Q := fun now s => ∃ c : Credential, c.Issued ∧
      c.expiresAt = e ∧ s.text credentialFile = some (B.contents c) ∧ s.readings.head? = some now)
      (fun _ _ _ => trivial) ?_) fun now => .pure (held_mono ?_)
    · rintro s now s' _ ⟨c, hissued, hexp, htext⟩ rfl
      exact ⟨c, hissued, hexp, htext, rfl⟩
    · rintro s _ ⟨c, hissued, hexp, htext, hread⟩ e' he'
      split at he'
      · next hlt =>
        obtain rfl := Option.some.inj he'
        exact ⟨c, now, hissued, hexp, htext, hread, hlt⟩
      · exact nomatch he'

theorem triple_orDrop {name : String} {t : M β} (h : TripleE (held B i P) t
    (fun b => held B i (Q b)) (holding B i)) :
    TripleE (held B i P) (Broker.orDrop name t) (fun b => held B i (Q b)) (holding B i) := by
  refine .bind (.observe h) fun r => ?_
  match r with
  | .ok b => exact .pure fun _ hx => hx
  | .error error =>
    exact .bind (triple_observe (R := fun _ _ => True) (fun _ _ _ => trivial)
      fun _ _ _ _ _ _ => trivial) fun _ => .throw fun _ hx => hx

/-- The candidate holds all of a credential that runs until `e`, later than the clock was last
read. -/
def Drafted (B : Broker) (name : String) (e : Timestamp) (s : Store) : Prop :=
  name ≠ credentialFile ∧ ∃ k c t, s.entry name = some k ∧ (s.file k).text = B.contents c ∧
    c.Issued ∧ c.expiresAt = e ∧ s.readings.head? = some t ∧ t < e

/-- The clock was last read before `e`. -/
def Ahead (e : Timestamp) (s : Store) : Prop := ∃ t, s.readings.head? = some t ∧ t < e

/-- The candidate is there, and not published. -/
def Draft (name : String) (e : Timestamp) (k : Inode) (s : Store) : Prop :=
  name ≠ credentialFile ∧ s.entry name = some k ∧ s.entry credentialFile ≠ some k ∧ Ahead e s

theorem triple_randomHex : TripleE (held B i P) Broker.randomHex
    (fun token => (held B i P).and (∃ bytes, bytes.length = 32 ∧ token = hex bytes))
    (holding B i) := by
  refine .bind (triple_attemptAs (Q := fun bytes s => P s ∧ bytes.length = 32)
    (fun _ _ _ => trivial) ?_) fun bytes => .pure fun x hx =>
      ⟨held_mono (fun _ _ h => h.1) x hx, bytes, hx.1.2.2.2, rfl⟩
  rintro s bytes s' _ hs ⟨rfl, hlen⟩
  exact ⟨hs, hlen⟩

theorem triple_createCandidate (e : Timestamp) : TripleE (held B i (Ahead e))
    (B.createCandidate e) (fun name => held B i (Drafted B name e)) (holding B i) := by
  refine .learn (triple_randomHex) fun token ⟨bytes, hlen, htoken⟩ => ?_
  refine .learn (triple_randomHex) fun suffix _ => ?_
  refine .bind (triple_attemptAs (Q := fun k => Draft (candidateName suffix) e k)
    (fun _ _ _ => candidateName_ne suffix) ?_) fun k => ?_
  · rintro s k s' hinv hs ⟨_, rfl, rfl⟩
    refine ⟨candidateName_ne suffix, by simp [Store.name], ?_, hs⟩
    have hcred : s.entry credentialFile ≠ some s.unused := fun hc =>
      Nat.lt_irrefl _ (hinv.below _ _ hc)
    simpa [Store.name, Function.update_of_ne (candidateName_ne suffix).symm] using hcred
  refine .bind (triple_orDrop (Q := fun _ => Drafted B (candidateName suffix) e) ?_)
    fun _ => .pure fun _ hx => hx
  refine .bind (triple_attemptAs (Q := fun _ => Drafted B (candidateName suffix) e)
    (fun s _ hs => hs.2.2.1) ?_) fun _ => triple_attemptAs (fun _ _ _ => trivial) ?_
  · rintro s _ s' _ ⟨hname, hentry, _, t, hread, ht⟩ rfl
    exact ⟨hname, k, ⟨String.ofList token, e⟩, t, hentry, by simp, htoken ▸ issued_hex hlen e, rfl,
      hread, ht⟩
  · rintro s _ s' _ hs rfl
    exact hs

theorem triple_removeCandidate {name operation : String} {R : Store → Prop}
    (h : ∀ s, P s → name ≠ credentialFile ∧ R (s.unname name)) :
    TripleE (held B i P) (Broker.removeCandidate name operation) (fun _ => held B i R)
      (holding B i) := by
  refine triple_orDrop (triple_attemptAs (fun _ _ _ => trivial) ?_)
  rintro s _ s' _ hs ⟨_, rfl⟩
  rw [if_neg (h s hs).1]
  exact (h s hs).2

theorem triple_publish {name : String} {e : Timestamp} : TripleE (held B i (Drafted B name e))
    (B.publish name e) (fun e' => held B i (Live B e')) (holding B i) := by
  refine .bind (.observe (triple_attempt
    (Q := fun _ s => name ≠ credentialFile ∧ Live B e s) (E := fun _ => name ≠ credentialFile)
    (fun s _ hs k hk => ?_) (fun s _ s' _ hs hdoes => ?_) fun _ _ _ _ hs _ => hs.1)) fun r => ?_
  · obtain ⟨_, k', c, _, hk', htext, hissued, _⟩ := hs
    obtain rfl := Option.mem_unique hk hk'
    exact ⟨c, hissued, htext⟩
  · obtain ⟨hname, k', c, t, hk', htext, hissued, hexp, hread, hlt⟩ := hs
    obtain ⟨_, k, hk, rfl⟩ := hdoes
    obtain rfl := Option.mem_unique hk hk'
    exact ⟨hname, c, t, hissued, hexp, by simp [Store.text, Store.name, Store.note, htext], hread, hlt⟩
  match r with
  | .ok () =>
    refine .bind (triple_removeCandidate (R := Live B e) fun s hs => ⟨hs.1, ?_⟩) fun _ =>
      .bind (triple_attemptAs (Q := fun _ => Live B e) (fun _ _ _ => trivial) ?_)
        fun _ => .pure fun _ hx => hx
    · obtain ⟨hname, c, t, hissued, hexp, htext, hread⟩ := hs
      refine ⟨c, t, hissued, hexp, ?_, hread⟩
      simpa [Store.text, Store.unname, Function.update_of_ne (Ne.symm hname)] using htext
    · rintro s _ s' _ hs rfl
      exact hs
  | .error .alreadyExists =>
    refine .bind (triple_removeCandidate (R := fun _ => True) fun s hs => ⟨hs, trivial⟩)
      fun _ => .bind triple_readLive fun winner => ?_
    refine (TripleE.demand (E := holding B i) (held_mono fun _ _ _ => trivial)).post fun e' x hx =>
      held_mono (fun s _ hs => hs e' hx.2) x hx.1
  | .error .notFound | .error (.other _) =>
    exact triple_orDrop (.throw (held_mono fun _ _ _ => trivial))

/-- What a thread knows before it asks for the lock. -/
def waiting (B : Broker) (i : Nat) : Assertion (B.thread i).setting :=
  (B.thread i).keeping (fun s => s.holder ≠ some i ∧ Inv B s) fun _ _ hrely hs =>
    ⟨hrely.waiting hs.1, hrely.inv hs.2⟩

def anywhere (B : Broker) (i : Nat) : Assertion (B.thread i).setting :=
  (B.thread i).keeping (fun _ => True) fun _ _ _ _ => trivial

theorem triple_lock :
    TripleE (waiting B i) (attempt Call.lock) (fun _ => holding B i) (anywhere B i) := by
  refine .attempt (fun x () y hx hsem => ?_) fun x e y hx hsem => ?_
  · obtain ⟨⟨⟨_, hinv⟩, hkept⟩, ⟨hfree, hlocked⟩, hguar⟩ := hx, hsem
    have hguard : Guar B i x.1 y.1 :=
      { inv := fun _ => by rw [hlocked]; exact ⟨hinv.below, hinv.life⟩
        published := .of_eq (by rw [hlocked]; rfl)
        holding := fun _ => .inl (by rw [hlocked])
        waiting := fun _ => .inr ⟨hfree, hlocked⟩ }
    exact ⟨⟨by rw [hlocked], hguard.inv hinv, trivial⟩, hguar ▸ ⟨hkept, hguard⟩⟩
  · exact ⟨trivial, hsem.2 ▸ ⟨hx.2, .refl hsem.1⟩⟩

theorem held_anywhere (x : Store × Prop) (hx : held B i P x) : anywhere B i x := ⟨trivial, hx.2⟩

theorem triple_mint : TripleE (waiting B i) B.mint (fun e => held B i (Live B e))
    (anywhere B i) := by
  refine .bind triple_lock fun _ => TripleE.weaken (P := holding B i) (E := holding B i)
    (Q := fun e => held B i (Live B e)) ?_ (fun _ hx => hx) (fun _ _ hx => hx) held_anywhere
  refine .bind (triple_attempt (Q := fun _ _ => True) (fun _ _ _ => trivial)
    (fun _ _ _ _ _ _ => trivial) fun _ _ _ _ _ _ => trivial) fun _ => ?_
  refine .bind (triple_scavengeCandidates.post fun _ => held_mono fun _ _ _ => trivial) fun _ => ?_
  refine .bind triple_readLive fun live => ?_
  cases live with
  | some e => exact .pure (held_mono fun _ _ hs => hs e rfl)
  | none =>
    refine .bind (triple_observe (R := fun _ _ => True) (fun _ _ _ => trivial)
      fun _ _ _ _ _ _ => trivial) fun r => ?_
    cases r with
    | ok _ => exact .throw fun _ hx => hx
    | error _ =>
      refine .bind (triple_attemptAs (Q := fun now => Ahead (now + B.ttl))
        (fun _ _ _ => trivial) ?_) fun now =>
          .bind (triple_createCandidate _) fun name => triple_publish
      rintro s now s' _ _ rfl
      exact ⟨now, rfl, Int.lt_add_of_pos_right _ B.ttl_pos⟩

def Gone (s : Store) : Prop := s.entry credentialFile = none ∧ Clean s

theorem triple_removeCredential : TripleE (held B i Clean) Broker.removeCredential
    (fun _ => held B i Gone) (holding B i) := by
  refine .bind (triple_observe (R := fun r s => Clean s ∧
    (r = .error .notFound → s.entry credentialFile = none)) (fun _ _ _ => trivial) ?_) fun r => ?_
  · intro s r s' _ hs hdoes
    rcases r with (_ | _ | _) | metadata
    · exact ⟨hdoes.1 ▸ hs, fun _ => hdoes.1 ▸ hdoes.2⟩
    · exact ⟨hdoes ▸ hs, nofun⟩
    · exact ⟨hdoes ▸ hs, nofun⟩
    · exact ⟨hdoes.1 ▸ hs, nofun⟩
  match r with
  | .error .notFound => exact .pure (held_mono fun _ _ hs => ⟨hs.2 rfl, hs.1⟩)
  | .error .alreadyExists | .error (.other _) => exact .throw (held_mono fun _ _ _ => trivial)
  | .ok metadata =>
    refine .learn (.refuse fun x hx _ => held_mono (fun _ _ _ => trivial) x hx)
      fun _ _ => ?_
    refine .bind (triple_observe (R := fun r s => (r = .ok () ∨ r = .error .notFound) →
      Gone s) (fun _ _ _ => trivial) ?_) fun r => ?_
    · intro s r s' _ hs hdoes
      rcases r with (_ | _ | _) | _
      · exact fun _ => hdoes.1 ▸ ⟨hdoes.2, hs.1⟩
      · simp
      · simp
      · obtain ⟨_, rfl⟩ := hdoes
        rw [if_pos rfl]
        refine fun _ => ⟨by simp [Store.unname, Store.note], fun n hn => ?_⟩
        simpa [Store.unname, Store.note, Function.update_of_ne (candidate_ne hn)] using hs.1 n hn
    match r with
    | .ok () =>
      refine .bind (.observe (triple_attemptAs (Q := fun _ => Gone)
        (fun _ _ _ => trivial) ?_)) fun r => ?_
      · rintro s _ s' _ hs rfl
        exact hs (.inl rfl)
      · cases r with
        | ok _ => exact .pure fun _ hx => hx
        | error _ => exact .throw fun _ hx => hx
    | .error .notFound => exact .pure (held_mono fun _ _ hs => hs (.inr rfl))
    | .error .alreadyExists | .error (.other _) => exact .throw (held_mono fun _ _ _ => trivial)

theorem triple_revoke :
    TripleE (waiting B i) Broker.revoke (fun _ => held B i Gone) (anywhere B i) := by
  refine .bind triple_lock fun _ => TripleE.weaken (P := holding B i) (E := holding B i)
    (Q := fun _ => held B i Gone) ?_ (fun _ hx => hx) (fun _ _ hx => hx) held_anywhere
  -- the directory is a real one, so that its check passes
  refine .bind (triple_observe (R := fun r _ => r = .ok ()) (fun _ _ _ => trivial)
    fun _ _ _ _ _ hdoes => hdoes.1) fun r => ?_
  cases r with
  | error _ => exact fun x hx => nomatch hx.1.2.2
  | ok _ =>
    exact .bind (triple_scavengeCandidates.pre (held_mono fun _ _ _ => trivial))
      fun _ => triple_removeCredential

/-! ### The system -/

def returned (B : Broker) (i : Nat) : Outcome → Assertion (B.thread i).setting
  | .minted (.ok e) => held B i (Live B e)
  | .revoked (.ok ()) => held B i Gone
  | _ => anywhere B i

theorem triple_minting : Triple (waiting B i) B.minting (returned B i) :=
  .bind triple_mint fun r => match r with
    | .ok _ | .error _ => fun _ hx => hx

theorem triple_revoking : Triple (waiting B i) Broker.revoking (returned B i) :=
  .bind triple_revoke fun r => match r with
    | .ok () | .error _ => fun _ hx => hx

theorem unlock_guar : Guar B i s (Broker.unlock i s) := by
  unfold Broker.unlock
  split
  · next h => exact ⟨fun hinv => ⟨hinv.below, hinv.life⟩, .of_eq rfl, fun _ => .inr rfl,
      fun hn => absurd h hn⟩
  · exact .refl rfl

theorem unlock_idle : (Broker.unlock i s).holder ≠ some i := by
  unfold Broker.unlock
  split
  · nofun
  · assumption

@[simp] theorem unlock_entry : (Broker.unlock i s).entry = s.entry := by
  unfold Broker.unlock
  split <;> rfl

theorem minted_guar {e : Timestamp} (hholder : s.holder = some i) (hlive : Live B e s) :
    Guar B i s ((Broker.unlock i s).note
      (.minted ((s.text credentialFile).getD "") e s.readings)) := by
  obtain ⟨c, t, hissued, rfl, htext, hread, hlt⟩ := hlive
  have hunlock : Broker.unlock i s = { s with holder := none } := if_pos hholder
  rw [hunlock, htext]
  refine ⟨fun hinv => ⟨hinv.below, ?_⟩, .of_eq rfl, fun _ => .inr rfl, fun hn => absurd hholder hn⟩
  show Life B (.minted (B.contents c) c.expiresAt s.readings :: s.history) (s.text credentialFile)
  rw [htext]
  exact .mint (htext ▸ hinv.life) hissued hread hlt

theorem sound : B.system.Sound (Rely B) (Guar B) (Inv B) (fun i s => s.holder ≠ some i)
    (returned B) where
  fits hij hguar := hguar.rely hij
  keeps hguar := hguar.inv
  waits hrely := hrely.waiting
  begins := by
    rintro i t s s' hinv hidle ⟨ht, rfl⟩
    refine ⟨.refl rfl, ?_⟩
    rcases ht with rfl | rfl
    · exact triple_minting _ ⟨⟨hidle, hinv⟩, trivial⟩
    · exact triple_revoking _ ⟨⟨hidle, hinv⟩, trivial⟩
  returns := by
    intro i r s s' hinv hr hreturns
    match r with
    | .minted (.ok e) =>
      obtain rfl : s' = _ := hreturns
      exact ⟨minted_guar hr.1.1 hr.1.2.2, unlock_idle⟩
    | .minted (.error _) | .revoked _ =>
      obtain rfl : s' = _ := hreturns
      exact ⟨unlock_guar, unlock_idle⟩
  dies := by
    rintro i s s' _ rfl
    exact ⟨unlock_guar, unlock_idle⟩

end Threads

/-- No credential was published yet; candidates may have been left. -/
structure Store.Fresh (s : Store) : Prop where
  below : ∀ n k, s.entry n = some k → k < s.unused
  absent : s.entry credentialFile = none
  history : s.history = []
  holder : s.holder = none

theorem Store.Fresh.inv {B : Broker} {s : Store} (h : s.Fresh) : Inv B s where
  below := h.below
  life := by
    rw [h.history, show s.text credentialFile = none by simp [Store.text, h.absent]]
    exact .start

namespace Sample

def times : Rfc3339 where
  write t := String.ofList (List.replicate t.toNat '+' ++ List.replicate (-t).toNat '-')
  parse text := some ((text.toList.count '+' : Int) - text.toList.count '-')
  parse_write t := by
    have hplus : List.count '+' (List.replicate (-t).toNat '-') = 0 := by
      simp [List.count_replicate]
    have hminus : List.count '-' (List.replicate t.toNat '+') = 0 := by
      simp [List.count_replicate]
    simp only [String.toList_ofList, List.count_append, List.count_replicate_self, hplus, hminus]
    have hnet : (t.toNat : Int) - ((-t).toNat : Int) = t := Int.toNat_sub_toNat_neg t
    simpa using hnet
  plain t := by simp

def broker : Broker := ⟨times, 9, by decide⟩

def bytes : List UInt8 := List.replicate 32 171

def names : List String := [credentialFile, candidateName (hex bytes)]

abbrev World := { s : Store // ∀ n, (s.entry n).isSome → n ∈ names }

theorem named_update {entry : String → Option Inode} (h : ∀ n, (entry n).isSome → n ∈ names)
    {n : String} (hn : n ∈ names) (k : Option Inode) (m : String)
    (hm : (Function.update entry n k m).isSome) : m ∈ names := by
  by_cases hmn : m = n
  · exact hmn ▸ hn
  · rw [Function.update_of_ne hmn] at hm
    exact h m hm

def exec : {β : Type} → Call β → World → Option (β × World)
  | _, .lock, ⟨s, h⟩ =>
    if s.holder = none then some (.ok (), ⟨{ s with holder := some 0, readings := [] }, h⟩) else none
  | _, .verifiedParent, w => some (.ok (), w)
  | _, .readDir, w => some (.ok ((names.filter fun n => (w.1.entry n).isSome).map .ok), w)
  | _, .inspect n, w => some ((match w.1.entry n with
      | some k => .ok (w.1.file k).metadata
      | none => .error .notFound), w)
  | _, .now, ⟨s, h⟩ => some (.ok 1, ⟨{ s with readings := 1 :: s.readings }, h⟩)
  | _, .entropy, w => some (.ok bytes, w)
  | _, .createNew n, ⟨s, h⟩ =>
    if hn : n ∈ names ∧ s.entry n = none then
      some (.ok s.unused, ⟨{ s.name n s.unused with
        file := Function.update s.file s.unused ⟨⟨true, true⟩, ""⟩
        unused := s.unused + 1 }, named_update h hn.1 _⟩)
    else none
  | _, .write k text, ⟨s, h⟩ =>
    some (.ok (), ⟨{ s with file := Function.update s.file k { s.file k with text } }, h⟩)
  | _, .sync _, w => some (.ok (), w)
  | _, .hardLink n m, ⟨s, h⟩ =>
    match s.entry n with
    | some k =>
      if hm : m = credentialFile ∧ s.entry m = none then
        some (.ok (), ⟨(s.name m k).note (.published (s.file k).text),
          named_update h (hm.1 ▸ by decide) _⟩)
      else none
    | none => none
  | _, .removeFile n, ⟨s, h⟩ =>
    if hn : n ≠ credentialFile ∧ (s.entry n).isSome then
      some (.ok (), ⟨s.unname n, named_update h (h n hn.2) _⟩)
    else none
  | _, .syncDirectory, w => some (.ok (), w)
  | _, .read _, _ => none

theorem exec_does {β : Type} (c : Call β) (w : World) (b : β) (w' : World)
    (h : exec c w = some (b, w')) : c.Does 0 w.1 b w'.1 := by
  cases c with
  | lock =>
    simp only [exec] at h
    split at h
    · next hfree =>
      cases h
      exact ⟨hfree, rfl⟩
    · cases h
  | verifiedParent | entropy =>
    cases h
    exact ⟨rfl, rfl⟩
  | readDir =>
    cases h
    refine ⟨rfl, fun n hn => .inl ?_⟩
    simp [w.2 n hn, hn]
  | inspect n =>
    cases h
    cases hn : w.1.entry n with
    | none => exact ⟨rfl, hn⟩
    | some k => exact ⟨rfl, k, hn, rfl⟩
  | read n => cases h
  | now | write k text | sync k | syncDirectory =>
    cases h
    rfl
  | createNew n =>
    simp only [exec] at h
    split at h
    · next hn =>
      cases h
      exact ⟨hn.2, rfl, rfl⟩
    · cases h
  | hardLink n m =>
    simp only [exec] at h
    split at h
    · next k hk =>
      split at h
      · next hm =>
        cases h
        exact ⟨hm.2, k, hk, (if_pos hm.1).symm⟩
      · cases h
    · cases h
  | removeFile n =>
    simp only [exec] at h
    split at h
    · next hn =>
      cases h
      exact ⟨hn.2, (if_neg hn.1).symm⟩
    · cases h

def empty : World := ⟨{}, nofun⟩

end Sample

end Orchestrator.Credentials
