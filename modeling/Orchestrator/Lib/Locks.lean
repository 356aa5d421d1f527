import Mathlib.Logic.Relation
import Mathlib.Data.List.Basic
import Mathlib.Data.List.Pairwise

/-!
# Row locks and deadlocks

A transaction (`Locker`) runs `Statement`s one after the other; a statement locks rows one by one,
which ones depending on the database it sees, and the locks are kept to the end. `Locker.advance` is
one lock acquisition or the start of the next statement.

`WaitsFor` is the waits-for graph of some transactions and `Deadlocked` says that it has a cycle.
Proofs that it has none go through the transactions on a cycle (`OnCycle`): each waits for another
and is waited for, and a rank that grows along the cycle is absurd (`not_deadlocked`).
-/

namespace Locks

inductive LockMode where
  | share
  | exclusive
deriving DecidableEq, Repr

/-- Two transactions can hold a row in these modes at the same time. -/
def LockMode.compatible (a b : LockMode) : Bool := a = .share && b = .share

/-- What a statement of a transaction locks, in order, in the database `σ` it sees. -/
structure Statement (σ ρ : Type) where
  rows : σ → List ρ
  mode : LockMode := .exclusive
  /-- `SKIP LOCKED`: leave out the rows others have locked. -/
  skipLocked : Bool := false
  /-- The transaction goes on only if there is a row. -/
  required : Bool := false

structure Locker (σ ρ : Type) where
  held : List (ρ × LockMode) := []
  /-- Rows the running statement has yet to lock. -/
  wanted : List ρ := []
  mode : LockMode := .exclusive
  skipLocked : Bool := false
  todo : List (Statement σ ρ)

variable {σ ρ τ : Type}

namespace Locker

variable [DecidableEq ρ]

/-- `l` keeps others from locking `r` in mode `m`. -/
def blocks (l : Locker σ ρ) (r : ρ) (m : LockMode) : Bool :=
  l.held.any fun h => h.1 = r && !h.2.compatible m

omit [DecidableEq ρ] in
/-- The lock `l` is waiting for unless it is free. -/
def waiting (l : Locker σ ρ) : Option (ρ × LockMode) :=
  if l.skipLocked then none else l.wanted.head?.map fun r => (r, l.mode)

omit [DecidableEq ρ] in
/-- One step of a transaction in a database `s` in which `free` tells what can be locked; `none` where
it has to wait, is refused or has nothing left to lock. -/
def advance (s : σ) (free : ρ → LockMode → Bool) (l : Locker σ ρ) : Option (Locker σ ρ) :=
  match l.wanted with
  | r :: rest =>
    if free r l.mode then some { l with held := (r, l.mode) :: l.held, wanted := rest }
    else if l.skipLocked then some { l with wanted := rest }
    else none
  | [] =>
    match l.todo with
    | [] => none
    | st :: rest =>
      if st.required && (st.rows s).isEmpty then none
      else some { held := l.held, wanted := st.rows s, mode := st.mode,
                  skipLocked := st.skipLocked, todo := rest }

omit [DecidableEq ρ] in
/-- Nothing left to lock. -/
def finished (l : Locker σ ρ) : Bool := l.wanted.isEmpty && l.todo.isEmpty

theorem blocks_eq_true {l : Locker σ ρ} {r : ρ} {m : LockMode} :
    l.blocks r m = true ↔ ∃ m', (r, m') ∈ l.held ∧ m'.compatible m = false := by
  simp only [blocks, List.any_eq_true, Bool.and_eq_true, decide_eq_true_eq, Bool.not_eq_true']
  constructor
  · rintro ⟨⟨_, m'⟩, hmem, rfl, hm⟩
    exact ⟨m', hmem, hm⟩
  · rintro ⟨m', hmem, hm⟩
    exact ⟨(r, m'), hmem, rfl, hm⟩

/-! ## Where a transaction is in its statements -/

omit [DecidableEq ρ]

def TakenBy (done : List (Statement σ ρ)) (h : ρ × LockMode) : Prop :=
  ∃ st ∈ done, h.2 = st.mode ∧ ∃ s, h.1 ∈ st.rows s

/-- Of each statement that had to find a row, one is locked. -/
def Met (done : List (Statement σ ρ)) (held : List (ρ × LockMode)) : Prop :=
  ∀ st ∈ done, st.required = true → st.skipLocked = false →
    ∃ s, ∃ r ∈ st.rows s, (r, st.mode) ∈ held

/-- A transaction with the statements `plan` is between two of them, or it has locked `taken` of the
rows of one. -/
inductive Tracked (plan : List (Statement σ ρ)) (l : Locker σ ρ) : Prop
  | rest (done : List (Statement σ ρ)) (split : plan = done ++ l.todo) (wanted : l.wanted = [])
      (held : ∀ h ∈ l.held, TakenBy done h) (met : Met done l.held)
  | busy (done : List (Statement σ ρ)) (st : Statement σ ρ) (s : σ) (taken : List ρ)
      (split : plan = done ++ st :: l.todo) (rows : st.rows s = taken ++ l.wanted)
      (wanted : l.wanted ≠ []) (mode : l.mode = st.mode) (skip : l.skipLocked = st.skipLocked)
      (held : ∀ h ∈ l.held, TakenBy done h ∨ h.1 ∈ taken ∧ h.2 = st.mode)
      (met : Met done l.held)

variable {plan done : List (Statement σ ρ)} {l l' : Locker σ ρ} {s : σ}
  {free : ρ → LockMode → Bool}

theorem tracked_initial : Tracked plan { todo := plan } :=
  .rest [] rfl rfl (fun _ h => nomatch h) fun _ h => nomatch h

theorem TakenBy.mono {st : Statement σ ρ} {h : ρ × LockMode} (ht : TakenBy done h) :
    TakenBy (done ++ [st]) h := by
  obtain ⟨x, hx, hrow⟩ := ht
  exact ⟨x, List.mem_append_left _ hx, hrow⟩

theorem Met.mono {held : List (ρ × LockMode)} {h : ρ × LockMode} (hm : Met done held) :
    Met done (h :: held) := by
  intro st hst hreq hskip
  obtain ⟨s, r, hr, hheld⟩ := hm st hst hreq hskip
  exact ⟨s, r, hr, List.mem_cons_of_mem _ hheld⟩

theorem Met.snoc {held : List (ρ × LockMode)} {st : Statement σ ρ} (hm : Met done held)
    (hst : st.required = true → st.skipLocked = false →
      ∃ s, ∃ r ∈ st.rows s, (r, st.mode) ∈ held) : Met (done ++ [st]) held := by
  intro x hx hreq hskip
  rcases List.mem_append.1 hx with hx | hx
  · exact hm x hx hreq hskip
  · obtain rfl := List.mem_singleton.1 hx
    exact hst hreq hskip

theorem advance_cases (h : l.advance s free = some l') :
    (∃ r rest, l.wanted = r :: rest ∧ free r l.mode = true ∧
        l' = { l with held := (r, l.mode) :: l.held, wanted := rest }) ∨
      (∃ r rest, l.wanted = r :: rest ∧ l.skipLocked = true ∧ l' = { l with wanted := rest }) ∨
      ∃ st rest, l.wanted = [] ∧ l.todo = st :: rest ∧ (st.required = true → st.rows s ≠ []) ∧
        l' = { held := l.held, wanted := st.rows s, mode := st.mode,
               skipLocked := st.skipLocked, todo := rest } := by
  unfold advance at h
  split at h
  · rename_i r rest hw
    split at h
    · exact .inl ⟨r, rest, hw, ‹_›, (Option.some.inj h).symm⟩
    · split at h
      · exact .inr (.inl ⟨r, rest, hw, ‹_›, (Option.some.inj h).symm⟩)
      · exact nomatch h
  · rename_i hw
    split at h
    · exact nomatch h
    · rename_i st rest ht
      split at h
      · exact nomatch h
      · rename_i hreq
        refine .inr (.inr ⟨st, rest, hw, ht, fun hr => ?_, (Option.some.inj h).symm⟩)
        simpa [hr] using hreq

/-- The running statement locks one more row, or leaves it out. -/
theorem Tracked.proceed {r : ρ} {rest : List ρ} {held' : List (ρ × LockMode)}
    (h : Tracked plan l) (hw : l.wanted = r :: rest)
    (hheld : held' = (r, l.mode) :: l.held ∨ l.skipLocked = true ∧ held' = l.held) :
    Tracked plan { l with held := held', wanted := rest } := by
  cases h with
  | rest done split wanted => exact absurd (wanted.symm.trans hw) (List.cons_ne_nil _ _).symm
  | busy done st s taken split rows wanted mode skip held met =>
    rw [hw] at rows
    have hmet : Met done held' := by
      rcases hheld with rfl | ⟨_, rfl⟩
      · exact met.mono
      · exact met
    have htaken : ∀ h ∈ held', TakenBy done h ∨ h.1 ∈ taken ++ [r] ∧ h.2 = st.mode := by
      intro h hh
      have hold : h ∈ l.held → TakenBy done h ∨ h.1 ∈ taken ++ [r] ∧ h.2 = st.mode :=
        fun hh => (held h hh).imp_right fun ht => ⟨List.mem_append_left _ ht.1, ht.2⟩
      rcases hheld with rfl | ⟨_, rfl⟩
      · rcases List.mem_cons.1 hh with rfl | hh
        · exact .inr ⟨by simp, mode⟩
        · exact hold hh
      · exact hold hh
    cases rest with
    | cons x xs =>
      exact .busy done st s (taken ++ [r]) split (by rw [rows]; simp) (List.cons_ne_nil _ _)
        mode skip htaken hmet
    | nil =>
      refine .rest (done ++ [st]) (by rw [split]; simp) rfl (fun h hh => ?_) (hmet.snoc ?_)
      · rcases htaken h hh with ht | ⟨hr, hm⟩
        · exact ht.mono
        · exact ⟨st, by simp, hm, s, by rw [rows]; exact hr⟩
      · intro _ hskip
        rcases hheld with rfl | ⟨hsk, _⟩
        · exact ⟨s, r, by rw [rows]; simp, by rw [mode]; simp⟩
        · rw [skip, hskip] at hsk
          exact nomatch hsk

theorem Tracked.advance (h : Tracked plan l) (hadv : l.advance s free = some l') :
    Tracked plan l' := by
  obtain ⟨r, rest, hw, _, rfl⟩ | ⟨r, rest, hw, hskip, rfl⟩ | ⟨st, rest, hw, ht, hreq, rfl⟩ :=
    advance_cases hadv
  · exact h.proceed hw (.inl rfl)
  · exact h.proceed hw (.inr ⟨hskip, rfl⟩)
  · cases h with
    | busy _ _ _ _ _ _ wanted => exact absurd hw wanted
    | rest done split _ held met =>
      rw [ht] at split
      by_cases hrows : st.rows s = []
      · refine .rest (done ++ [st]) (by rw [split]; simp) hrows (fun h hh => (held h hh).mono)
          (met.snoc fun hr => absurd hrows (hreq hr))
      · exact .busy done st s [] split rfl hrows rfl rfl (fun h hh => .inl (held h hh)) met

/-! ## Facts about all places of a plan -/

/-- `P` holds wherever a transaction with these statements can be: after `done`, at `st`. -/
def Splits (plan : List (Statement σ ρ)) (P : List (Statement σ ρ) → Statement σ ρ → Prop) : Prop :=
  ∀ done st todo, plan = done ++ st :: todo → P done st

@[simp] theorem splits_nil {P : List (Statement σ ρ) → Statement σ ρ → Prop} : Splits [] P := by
  intro done st todo h
  exact absurd h (by simp)

@[simp] theorem splits_cons {P : List (Statement σ ρ) → Statement σ ρ → Prop}
    {a : Statement σ ρ} : Splits (a :: plan) P ↔ P [] a ∧ Splits plan fun done => P (a :: done) := by
  constructor
  · intro h
    exact ⟨h [] a plan rfl, fun done st todo hp => h (a :: done) st todo (by rw [hp]; rfl)⟩
  · rintro ⟨hfirst, hrest⟩ done st todo hp
    cases done with
    | nil =>
      obtain ⟨rfl, _⟩ := List.cons.inj hp
      exact hfirst
    | cons b done =>
      obtain ⟨rfl, htail⟩ := List.cons.inj hp
      exact hrest done st todo htail

/-- Locks are taken in the order `Q`, within a statement and from one to the next. -/
def Follows (Q : ρ → ρ → Prop) (plan : List (Statement σ ρ)) : Prop :=
  Splits plan fun done st => (∀ s, (st.rows s).Pairwise Q) ∧
    ∀ st' ∈ done, ∀ s' s, ∀ r' ∈ st'.rows s', ∀ r ∈ st.rows s, Q r' r

variable {r : ρ} {m : LockMode}

theorem Tracked.follows {Q : ρ → ρ → Prop} (h : Tracked plan l) (hQ : Follows Q plan)
    {h' : ρ × LockMode} (hheld : h' ∈ l.held) (hr : r ∈ l.wanted) : Q h'.1 r := by
  cases h with
  | rest _ _ wanted => exact absurd hr (by simp [wanted])
  | busy done st s taken split rows _ _ _ held _ =>
    obtain ⟨hwithin, hacross⟩ := hQ done st _ split
    rcases held h' hheld with ⟨st', hst', _, s', hrow⟩ | ⟨htaken, _⟩
    · exact hacross st' hst' s' s _ hrow r (by rw [rows]; exact List.mem_append_right _ hr)
    · have hpair := hwithin s
      rw [rows, List.pairwise_append] at hpair
      exact hpair.2.2 _ htaken r hr

theorem mem_wanted_of_waiting (h : l.waiting = some (r, m)) :
    l.skipLocked = false ∧ m = l.mode ∧ ∃ rest, l.wanted = r :: rest := by
  unfold waiting at h
  split at h
  · exact nomatch h
  · rename_i hskip
    obtain ⟨x, hx, heq⟩ := Option.map_eq_some_iff.1 h
    obtain ⟨rfl, rfl⟩ := Prod.mk.inj heq
    refine ⟨by simpa using hskip, rfl, ?_⟩
    cases hl : l.wanted with
    | nil => rw [hl] at hx; exact nomatch hx
    | cons y rest =>
      rw [hl] at hx
      obtain rfl := Option.some.inj hx
      exact ⟨rest, rfl⟩

/-- A row that is held is of one of the statements, in its mode. -/
theorem Tracked.of_held (h : Tracked plan l) (hheld : (r, m) ∈ l.held) :
    ∃ st ∈ plan, m = st.mode ∧ ∃ s, r ∈ st.rows s := by
  have htaken : ∀ done todo : List (Statement σ ρ), plan = done ++ todo → TakenBy done (r, m) →
      ∃ st ∈ plan, m = st.mode ∧ ∃ s, r ∈ st.rows s := by
    rintro done todo rfl ⟨st, hst, hrow⟩
    exact ⟨st, List.mem_append_left _ hst, hrow⟩
  cases h with
  | rest done split _ held => exact htaken done _ split (held _ hheld)
  | busy done st s taken split rows _ _ _ held _ =>
    rcases held _ hheld with ht | ⟨hr, hm⟩
    · exact htaken done _ split ht
    · exact ⟨st, by simp [split], hm, s, by rw [rows]; exact List.mem_append_left _ hr⟩

/-- So is a row that is wanted. -/
theorem Tracked.of_wanted (h : Tracked plan l) (hr : r ∈ l.wanted) :
    ∃ st ∈ plan, l.mode = st.mode ∧ l.skipLocked = st.skipLocked ∧ ∃ s, r ∈ st.rows s := by
  cases h with
  | rest _ _ wanted => exact absurd hr (by simp [wanted])
  | busy done st s taken split rows _ mode skip _ _ =>
    exact ⟨st, by simp [split], mode, skip, s, by rw [rows]; exact List.mem_append_right _ hr⟩

/-- A transaction that waits has locked nothing, or is past its first statement, if that is for one
row only. -/
theorem Tracked.waits {P : ρ → Prop} (h : Tracked plan l)
    (hP : Splits plan fun done st => st.skipLocked = false → ∀ s, ∀ r ∈ st.rows s, done = [] ∨ P r)
    (hone : ∀ st ∈ plan.head?, ∀ s, (st.rows s).length ≤ 1) (hw : l.waiting = some (r, m)) :
    l.held = [] ∨ P r := by
  obtain ⟨hskip, _, rest, hwant⟩ := mem_wanted_of_waiting hw
  cases h with
  | rest _ _ wanted => rw [hwant] at wanted; exact nomatch wanted
  | busy done st s taken split rows _ _ skip held _ =>
    have hr : r ∈ st.rows s := by simp [rows, hwant]
    refine (hP done st _ split (skip ▸ hskip) s r hr).imp_left fun hdone => ?_
    subst hdone
    have hlen := hone st (by simp [split]) s
    rw [rows, hwant, List.length_append, List.length_cons] at hlen
    have htaken : taken = [] := List.length_eq_zero_iff.1 (by omega)
    refine List.eq_nil_iff_forall_not_mem.2 fun x hx => ?_
    rcases held x hx with ⟨_, hst, _⟩ | ⟨hx, _⟩
    · exact nomatch hst
    · rw [htaken] at hx
      exact nomatch hx

/-- Past its first statement a transaction holds the row that was to be found there. -/
theorem Tracked.first {first : Statement σ ρ} {others : List (Statement σ ρ)} {r₀ : ρ}
    (h : Tracked plan l) (hplan : plan = first :: others) (hreq : first.required = true)
    (hskip : first.skipLocked = false) (hrow : ∀ s, ∀ r ∈ first.rows s, r = r₀) (hne : r ≠ r₀)
    (hr : (∃ m, (r, m) ∈ l.held) ∨ r ∈ l.wanted) : (r₀, first.mode) ∈ l.held := by
  have hmet : ∀ done : List (Statement σ ρ), first ∈ done → Met done l.held →
      (r₀, first.mode) ∈ l.held := by
    intro done hdone hm
    obtain ⟨s, x, hx, hheld⟩ := hm first hdone hreq hskip
    rwa [hrow s x hx] at hheld
  subst hplan
  cases h with
  | rest done split wanted held met =>
    cases done with
    | cons a done =>
      obtain ⟨rfl, _⟩ := List.cons.inj split
      exact hmet _ (by simp) met
    | nil =>
      rcases hr with ⟨m, hr⟩ | hr
      · obtain ⟨_, hst, _⟩ := held _ hr
        exact nomatch hst
      · rw [wanted] at hr
        exact nomatch hr
  | busy done st s taken split rows _ _ _ held met =>
    cases done with
    | cons a done =>
      obtain ⟨rfl, _⟩ := List.cons.inj split
      exact hmet _ (by simp) met
    | nil =>
      obtain ⟨rfl, _⟩ := List.cons.inj split
      have hin : r ∈ first.rows s := by
        rw [rows]
        rcases hr with ⟨m, hr⟩ | hr
        · rcases held _ hr with ⟨_, hst, _⟩ | ⟨hr, _⟩
          · exact nomatch hst
          · exact List.mem_append_left _ hr
        · exact List.mem_append_right _ hr
      exact absurd (hrow s r hin) hne

theorem Tracked.past_first {first : Statement σ ρ} {others : List (Statement σ ρ)} {r₀ : ρ}
    (h : Tracked plan l) (hplan : plan = first :: others) (hreq : first.required = true)
    (hskip : first.skipLocked = false) (hrow : ∀ s, ∀ r ∈ first.rows s, r = r₀)
    (hlen : l.todo.length < others.length) : (r₀, first.mode) ∈ l.held := by
  have hdone : ∃ done todo, plan = done ++ todo ∧ done ≠ [] ∧ Met done l.held := by
    cases h with
    | rest done split _ _ met | busy done st _ _ split _ _ _ _ _ met =>
      refine ⟨done, _, split, ?_, met⟩
      rintro rfl
      have hl := congrArg List.length (hplan.symm.trans split)
      simp only [List.length_cons, List.nil_append] at hl
      omega
  obtain ⟨done, todo, hsplit, hne, hmet⟩ := hdone
  obtain ⟨a, done, rfl⟩ := List.exists_cons_of_ne_nil hne
  obtain ⟨rfl, _⟩ := List.cons.inj (hplan.symm.trans hsplit)
  obtain ⟨s, x, hx, hheld⟩ := hmet first (by simp) hreq hskip
  rwa [hrow s x hx] at hheld

end Locker

/-! ## The waits-for graph -/

section Graph

variable [DecidableEq ρ] {locker : τ → Option (Locker σ ρ)} {b c d : τ}

/-- `c` waits for a lock that `d` holds. -/
def WaitsFor (locker : τ → Option (Locker σ ρ)) (c d : τ) : Prop :=
  c ≠ d ∧ ∃ x y r m, locker c = some x ∧ locker d = some y ∧ x.waiting = some (r, m) ∧
    y.blocks r m = true

/-- `c` is on a cycle of transactions that wait for each other. -/
def OnCycle (locker : τ → Option (Locker σ ρ)) (c : τ) : Prop :=
  Relation.TransGen (WaitsFor locker) c c

def Deadlocked (locker : τ → Option (Locker σ ρ)) : Prop := ∃ c, OnCycle locker c

/-- A transaction on a cycle waits for another one on it, -/
theorem OnCycle.next (h : OnCycle locker c) : ∃ d, WaitsFor locker c d ∧ OnCycle locker d := by
  obtain ⟨d, hcd, hdc⟩ := Relation.TransGen.head'_iff.1 h
  exact ⟨d, hcd, .tail' hdc hcd⟩

/-- and holds a lock. -/
theorem OnCycle.holds (h : OnCycle locker c) : ∃ x, locker c = some x ∧ x.held ≠ [] := by
  obtain ⟨_, _, hbc⟩ := Relation.TransGen.tail'_iff.1 h
  obtain ⟨_, _, x, _, _, _, hx, _, hblocks⟩ := hbc
  obtain ⟨_, hmem, _⟩ := Locker.blocks_eq_true.1 hblocks
  exact ⟨x, hx, List.ne_nil_of_mem hmem⟩

/-- A rank that grows along every edge of a cycle leaves no cycle. -/
theorem not_deadlocked (rank : τ → Nat)
    (h : ∀ c d, OnCycle locker c → OnCycle locker d → WaitsFor locker c d → rank c < rank d) :
    ¬ Deadlocked locker := by
  rintro ⟨c, hc⟩
  have hpath : ∀ d, Relation.TransGen (WaitsFor locker) c d →
      Relation.ReflTransGen (WaitsFor locker) d c → rank c < rank d := by
    intro d hcd
    induction hcd with
    | single hcd =>
      intro hdc
      exact h _ _ hc (.tail' hdc hcd) hcd
    | @tail b d hcb hbd ih =>
      intro hdc
      have hb : OnCycle locker b := .trans (.head' hbd hdc) hcb
      have hd : OnCycle locker d := .tail (.trans_right hdc hcb) hbd
      exact Nat.lt_trans (ih (.head hbd hdc)) (h b d hb hd hbd)
  exact Nat.lt_irrefl _ (hpath c hc .refl)

/-- Transactions hold the same row in compatible modes only. -/
def Exclusive (locker : τ → Option (Locker σ ρ)) : Prop :=
  ∀ c d x y r m m', c ≠ d → locker c = some x → locker d = some y → (r, m) ∈ x.held →
    (r, m') ∈ y.held → m.compatible m' = true

theorem LockMode.compatible_comm (a b : LockMode) : a.compatible b = b.compatible a := by
  cases a <;> cases b <;> rfl

/-- A transaction that ends, or locks only what no other one keeps it from, leaves the locks
exclusive. -/
theorem Exclusive.update {locker' : τ → Option (Locker σ ρ)} (h : Exclusive locker)
    (hother : ∀ d, d ≠ c → locker' d = locker d)
    (hnew : ∀ x', locker' c = some x' → ∀ r m, (r, m) ∈ x'.held →
      (∃ x, locker c = some x ∧ (r, m) ∈ x.held) ∨
        ∀ d y, d ≠ c → locker d = some y → y.blocks r m = false) : Exclusive locker' := by
  have hstep : ∀ d x' y r m m', d ≠ c → locker' c = some x' → locker d = some y →
      (r, m) ∈ x'.held → (r, m') ∈ y.held → m.compatible m' = true := by
    intro d x' y r m m' hd hx hy hr hr'
    rcases hnew x' hx r m hr with ⟨x, hx, hr⟩ | hfree
    · exact h c d x y r m m' hd.symm hx hy hr hr'
    · by_contra hm
      rw [LockMode.compatible_comm, Bool.not_eq_true] at hm
      have hblocks := Locker.blocks_eq_true.2 ⟨m', hr', hm⟩
      rw [hfree d y hd hy] at hblocks
      exact nomatch hblocks
  intro a b x y r m m' hab hx hy hr hr'
  by_cases ha : a = c
  · subst ha
    rw [hother b hab.symm] at hy
    exact hstep b x y r m m' hab.symm hx hy hr hr'
  · rw [hother a ha] at hx
    by_cases hb : b = c
    · subst hb
      rw [LockMode.compatible_comm]
      exact hstep a y x r m' m ha hy hx hr' hr
    · rw [hother b hb] at hy
      exact h a b x y r m m' hab hx hy hr hr'

end Graph

end Locks
