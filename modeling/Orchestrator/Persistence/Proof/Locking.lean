import Orchestrator.Persistence.Proof.Fencing
import Orchestrator.Persistence.Proof.LockOrder

/-!
# Which transactions cannot deadlock

Rows that are protected by the row of their execution are never waited for on a cycle, and control
rows are locked in the order of their numbers. What is left are the rows of workers and
reservations: `release` and `finalize_cleanup` take the reservation before the worker,
`commit_retained_and_release_capacity` the worker before the reservation, and `recover_unreachable`
the worker before everything.

Where none of these overlap (`Operation.clashes`) nobody on a cycle waits for a worker or a
reservation. Then only recoveries wait on a cycle for an execution, each for executions that are
reserved on its own worker, and so for no other recovery.
-/

namespace Orchestrator

open Locks Locks.Locker Relational

/-! ## Recoveries -/

namespace Store

def ReservedOn (s : Store) (e : ExecutionId) (w : WorkerId) : Prop :=
  ∃ r, s.reservations.find? e = some r ∧ r.workerId = w

end Store

/-- What a recovery of `w` holds and wants. -/
structure Recovering (s : Store) (w : WorkerId) (l : Locker Store LockRow) : Prop where
  /-- Its executions are reserved on `w`, -/
  mine : ∀ {e}, (∃ m, (.execution e, m) ∈ l.held) ∨ .execution e ∈ l.wanted → s.ReservedOn e w
  /-- all of them while it locks them, -/
  all : l.todo.length = 1 → ∀ r ∈ s.reservationsOf w,
    (.execution r.executionId, .exclusive) ∈ l.held ∨ .execution r.executionId ∈ l.wanted
  /-- before it wants anything they protect, -/
  paired : ∀ {p r q e}, l.wanted = p ++ r :: q → r.under = some e →
    .execution e ∈ p ∨ (.execution e, .exclusive) ∈ l.held
  /-- or holds it. -/
  owned : ∀ {r m e}, (r, m) ∈ l.held → r.under = some e → (.execution e, .exclusive) ∈ l.held

theorem recovering_initial {s : Store} {w : WorkerId} :
    Recovering s w { todo := (Operation.recoverUnreachable w).statements } where
  mine h := by rcases h with ⟨_, h⟩ | h <;> exact nomatch h
  all h := nomatch h
  paired h := absurd h (by simp)
  owned h := nomatch h

theorem reserved_paired {rows : List ReservationRow} {pre suf : List LockRow} {r : LockRow}
    {e : ExecutionId} (h : rows.flatMap (fun x =>
      [LockRow.execution x.executionId, .reservation x.executionId]) = pre ++ r :: suf)
    (hr : r.under = some e) : .execution e ∈ pre := by
  induction rows generalizing pre with
  | nil => exact absurd h (by simp)
  | cons x rows ih =>
    rw [List.flatMap_cons, List.cons_append, List.cons_append, List.nil_append] at h
    match pre with
    | [] =>
      obtain ⟨rfl, _⟩ := List.cons.inj h
      exact nomatch hr
    | [y] =>
      obtain ⟨rfl, htail⟩ := List.cons.inj h
      obtain ⟨rfl, _⟩ := List.cons.inj htail
      obtain rfl := Option.some.inj hr
      exact List.mem_singleton.2 rfl
    | y :: z :: pre =>
      obtain ⟨_, htail⟩ := List.cons.inj h
      obtain ⟨_, htail⟩ := List.cons.inj htail
      exact List.mem_cons_of_mem _ (List.mem_cons_of_mem _ (ih htail))

namespace Recovering

open LockStatement

variable {s s' : Store} {w : WorkerId} {l l' : Locker Store LockRow}
  {free : LockRow → LockMode → Bool}

theorem take {r : LockRow} {rest : List LockRow} (h : Recovering s w l)
    (hmode : l.mode = .exclusive) (hw : l.wanted = r :: rest) :
    Recovering s w { l with held := (r, l.mode) :: l.held, wanted := rest } where
  mine := by
    intro e he
    refine h.mine ?_
    rcases he with ⟨m, he⟩ | he
    · rcases List.mem_cons.1 he with heq | he
      · exact .inr (by rw [hw, (Prod.mk.inj heq).1]; simp)
      · exact .inl ⟨m, he⟩
    · exact .inr (by rw [hw]; exact List.mem_cons_of_mem _ he)
  all := by
    intro hlen x hx
    rcases h.all hlen x hx with he | he
    · exact .inl (List.mem_cons_of_mem _ he)
    · rw [hw] at he
      rcases List.mem_cons.1 he with rfl | he
      · exact .inl (by simp [hmode])
      · exact .inr he
  paired := by
    intro pre x suf e hsplit hx
    have hold : l.wanted = (r :: pre) ++ x :: suf := by
      rw [hw]
      exact congrArg (r :: ·) hsplit
    rcases h.paired hold hx with he | he
    · rcases List.mem_cons.1 he with rfl | he
      · exact .inr (by simp [hmode])
      · exact .inl he
    · exact .inr (List.mem_cons_of_mem _ he)
  owned := by
    intro x m e hheld hx
    refine List.mem_cons_of_mem _ ?_
    rcases List.mem_cons.1 hheld with heq | hheld
    · obtain ⟨rfl, _⟩ := Prod.mk.inj heq
      exact (h.paired (p := []) hw hx).resolve_left (by simp)
    · exact h.owned hheld hx

theorem start {rows : List LockRow} {mode : LockMode} {skipLocked : Bool}
    {todo : List LockStatement} (h : Recovering s w l)
    (hmine : ∀ e, .execution e ∈ rows → s.ReservedOn e w)
    (hall : todo.length = 1 → ∀ r ∈ s.reservationsOf w, .execution r.executionId ∈ rows)
    (hpaired : ∀ pre r suf e, rows = pre ++ r :: suf → r.under = some e →
      .execution e ∈ pre ∨ (.execution e, .exclusive) ∈ l.held) :
    Recovering s w { held := l.held, wanted := rows, mode, skipLocked, todo } where
  mine he := he.elim (fun he => h.mine (.inl he)) (hmine _)
  all hlen r hr := .inr (hall hlen r hr)
  paired hsplit hx := hpaired _ _ _ _ hsplit hx
  owned := h.owned

theorem advance (h : Recovering s w l)
    (ht : Tracked (Operation.recoverUnreachable w).statements l)
    (hadv : l.advance s free = some l') : Recovering s w l' := by
  have hexcl : ∀ r ∈ l.wanted, l.mode = .exclusive ∧ l.skipLocked = false := by
    intro r hr
    obtain ⟨st, hst, hmode, hskip, _⟩ := ht.of_wanted hr
    rw [hmode, hskip]
    simp only [Operation.statements, List.mem_cons, List.not_mem_nil, or_false] at hst
    rcases hst with rfl | rfl | rfl <;> exact ⟨rfl, rfl⟩
  obtain ⟨r, rest, hw, _, rfl⟩ | ⟨r, rest, hw, hskip, _⟩ | ⟨st, rest, hw, htodo, _, rfl⟩ :=
    advance_cases hadv
  · exact h.take (hexcl r (by simp [hw])).1 hw
  · rw [(hexcl r (by simp [hw])).2] at hskip
    cases hskip
  · cases ht with
    | busy _ _ _ _ _ _ wanted => exact absurd hw wanted
    | rest done split _ _ _ =>
      rw [htodo] at split
      have hplace : Splits (Operation.recoverUnreachable w).statements fun done st =>
          st = demand (.worker w) (fun s => (s.workers.find? w).isSome) ∧ done.length = 0 ∨
            st = reserved w ∧ done.length = 1 ∨ st = recovered w ∧ done.length = 2 := by
        simp [Operation.statements]
      have hlen := congrArg List.length split
      simp only [Operation.statements, List.length_append, List.length_cons, List.length_nil] at hlen
      rcases hplace done st rest split with ⟨rfl, hdone⟩ | ⟨rfl, hdone⟩ | ⟨rfl, hdone⟩
      · refine h.start (fun e he => ?_) (fun hone => by omega) fun pre r suf e hsplit hr => ?_
        · exact absurd (mem_demand.1 he).2 (by simp)
        · have hmem := (mem_demand.1 (hsplit ▸ List.mem_append_right pre (List.mem_cons_self ..))).2
          rw [hmem] at hr
          cases hr
      · refine h.start (fun e he => ?_) (fun _ x hx => mem_reserved.2 ⟨x, hx, .inl rfl⟩)
          fun pre r suf e hsplit hr => .inl (reserved_paired hsplit hr)
        obtain ⟨x, hx, heq | heq⟩ := mem_reserved.1 he
        · obtain rfl := LockRow.execution.inj heq
          obtain ⟨hfind, hworker, _⟩ := Store.mem_reservationsOf.1 hx
          exact ⟨x, hfind, hworker⟩
        · cases heq
      · refine h.start (fun e he => ?_) (fun hone => by omega) fun pre r suf e hsplit hr => ?_
        · obtain ⟨_, _, heq | heq⟩ := of_mem_recovered he <;> cases heq
        · obtain ⟨y, hy, heq⟩ := of_mem_recovered
            (hsplit ▸ List.mem_append_right pre (List.mem_cons_self ..))
          have he : y.executionId = e := by
            rcases heq with rfl | rfl <;> exact Option.some.inj hr
          have hall := h.all (by rw [htodo, List.length_cons]; omega) y hy
          rw [hw, he] at hall
          exact .inr (hall.resolve_right (by simp))

theorem mono (h : Recovering s w l) (hkeep : ∀ e, s.ReservedOn e w → s'.ReservedOn e w)
    (hold : l.todo.length = 1 → ∀ r ∈ s'.reservationsOf w, r ∈ s.reservationsOf w) :
    Recovering s' w l where
  mine he := hkeep _ (h.mine he)
  all hlen r hr := h.all hlen r (hold hlen r hr)
  paired := h.paired
  owned := h.owned

end Recovering

/-! ## What a commit changes -/

/-- The call adds an execution. -/
def StoreCall.creates {β : Type} : StoreCall β → Bool
  | .insert _ | .createIdempotent .. => true
  | _ => false

namespace Store

variable {s s' : Store} {now : Timestamp} {e : ExecutionId}

theorem Rewrites.existed {β : Type} {call : StoreCall β} {row : ExecutionRow}
    (h : Rewrites now s e call row) (hcall : call.creates = false) :
    (s.executions.find? e).isSome := by
  cases h with
  | inserted | created => exact nomatch hcall
  | cancelled found | moved found | announced found => rw [found]; rfl
  | settled hg | detached hg => rw [hg.found]; rfl
  | progressed hg id | controlled hg id | claimed hg id => rw [← id, hg.found]; rfl

end Store

namespace Database

open Store Txn

variable {s : Store} {now : Timestamp} {x : Session} {w : WorkerId}

theorem effect_cases (s : Store) (now : Timestamp) (x : Session) : effect s now x = s ∨
    ∃ l skipped, x.operation.label now skipped = some l ∧
      Committed l.now s l.call (effect s now x) := by
  simp only [effect]
  split
  · rename_i l hl
    exact (Step.cases (l := l) rfl).imp_right fun hc => ⟨l, _, hl, hc⟩
  · exact .inl rfl

theorem effect_executions {e : ExecutionId} (h : ((effect s now x).executions.find? e).isSome) :
    (s.executions.find? e).isSome := by
  rcases effect_cases s now x with heq | ⟨l, skipped, hl, hc⟩
  · rwa [heq] at h
  · have hcreates : l.call.creates = false := by
      cases hop : x.operation <;> rw [hop] at hl <;>
        simp only [Operation.label, Option.some.injEq, reduceCtorEq] at hl <;> subst hl <;> rfl
    rcases row_committed hc e with hrow | ⟨row, _, hrew⟩
    · rwa [hrow] at h
    · exact hrew.existed hcreates

theorem effect_reservations (hop : x.operation.returns = false) :
    (effect s now x).reservations = s.reservations ∨
      ∃ w a r, x.operation = .reserveNext w a ∧ r.workerId = w ∧
        s.reservations.find? r.executionId = none ∧
        (effect s now x).reservations = s.reservations.put r := by
  rcases effect_cases s now x with heq | ⟨l, skipped, hl, hc⟩
  · exact .inl (by rw [heq])
  · cases hx : x.operation with
    | reserveNext w a =>
      have hrun : ∃ locked, effect s now x = (run (reserveNext now w a locked) s).2 :=
        ⟨_, by rw [effect, hx]; rfl⟩
      obtain ⟨locked, hrun⟩ := hrun
      rcases run_state hrun.symm with heq | ⟨r, htx⟩
      · exact .inl (by rw [heq])
      · rcases reserveNext_spec htx with ⟨_, heq⟩ | ⟨worker, row, hg, _, heq⟩
        · exact .inl (by rw [heq])
        · exact .inr ⟨w, a, _, rfl, rfl, hg.unreserved, by rw [heq]; rfl⟩
    | release | commitRetainedAndReleaseCapacity | finalizeCleanup =>
      rw [hx] at hop
      exact nomatch hop
    | _ =>
      rw [hx] at hl
      simp only [Operation.label, Option.some.injEq, reduceCtorEq] at hl
      all_goals
        subst hl
        exact .inl (hc.frame.reservations (by simp [StoreCall.writes]))

theorem reservedOn_effect {e : ExecutionId} (hop : x.operation.returns = false)
    (h : s.ReservedOn e w) : (effect s now x).ReservedOn e w := by
  obtain ⟨r, hr, hw⟩ := h
  refine ⟨r, ?_, hw⟩
  rcases effect_reservations hop with heq | ⟨_, _, r', _, _, hnew, heq⟩
  · rw [heq, hr]
  · have hne : r'.executionId ≠ e := by
      rintro rfl
      rw [hr] at hnew
      exact nomatch hnew
    rw [heq, Table.find?_put, if_neg hne, hr]

/-- and adds nothing to it unless it reserves for that worker. -/
theorem reservationsOf_effect (hop : x.operation.returns = false)
    (hw : ∀ a, x.operation ≠ .reserveNext w a) {r : ReservationRow}
    (h : r ∈ (effect s now x).reservationsOf w) : r ∈ s.reservationsOf w := by
  obtain ⟨hfind, hworker, hexec⟩ := mem_reservationsOf.1 h
  refine mem_reservationsOf.2 ⟨?_, hworker, effect_executions hexec⟩
  rcases effect_reservations hop with heq | ⟨w', a, r', hx, hr', _, heq⟩
  · rwa [heq] at hfind
  · rw [heq] at hfind
    rcases Table.find?_put_eq_some.1 hfind with ⟨_, rfl⟩ | ⟨_, hfind⟩
    · exact absurd (hx.trans (by rw [← hr', hworker])) (hw a)
    · exact hfind

end Database

/-! ## Every run -/

namespace Database

variable {db db' : Database} {act : Act} {c d : Connection} {x y : Session}

def Step (db : Database) (act : Act) (db' : Database) : Prop := db.next act = some db'

/-- No transaction begins while one is open that takes its locks in the opposite order. -/
def Apart (db : Database) : Act → Prop
  | .begin _ op => ∀ x ∈ db.sessions.rows, op.clashes x.operation = false
  | _ => True

instance (db : Database) (act : Act) : Decidable (Apart db act) := by
  cases act <;> unfold Apart <;> infer_instance

structure Sound (db : Database) : Prop where
  tracked : ∀ {c x}, db.sessions.find? c = some x → Tracked x.operation.statements x.locker
  exclusive : Exclusive db.locker
  apart : ∀ {c d x y}, c ≠ d → db.sessions.find? c = some x → db.sessions.find? d = some y →
    x.operation.clashes y.operation = false
  recovering : ∀ {c x w}, db.sessions.find? c = some x → x.operation = .recoverUnreachable w →
    Recovering db.store w x.locker

theorem sound_idle (s : Store) : Sound { store := s } where
  tracked h := nomatch h
  exclusive _ _ _ _ _ _ _ _ h := nomatch h
  apart _ h := nomatch h
  recovering h := nomatch h

theorem locker_put (sessions : Table Session fun x => x.connection) (s : Store) (x : Session) :
    locker { store := s, sessions := sessions.put x } d =
      if x.connection = d then some x.locker else locker { store := s, sessions } d := by
  simp only [locker, Table.find?_put]
  split <;> rfl

theorem locker_erase (sessions : Table Session fun x => x.connection) (s : Store) :
    locker { store := s, sessions := sessions.erase c } d =
      if c = d then none else locker { store := s, sessions } d := by
  simp only [locker, Table.find?_erase]
  split <;> rfl

theorem free_eq_true {r : LockRow} {m : LockMode} (h : db.free c r m = true) {y : Session}
    (hd : d ≠ c) (hy : db.sessions.find? d = some y) : y.locker.blocks r m = false := by
  simp only [free, List.all_eq_true, Bool.or_eq_true, decide_eq_true_eq, Bool.not_eq_true'] at h
  obtain ⟨hmem, hconn⟩ := Table.find?_eq_some.1 hy
  refine (h y hmem).resolve_left fun hc => hd ?_
  rw [← hconn, hc]

theorem Sound.begin {op : Operation} (h : Sound db)
    (hapart : ∀ x ∈ db.sessions.rows, op.clashes x.operation = false) :
    Sound { db with sessions := db.sessions.put ⟨c, op, { todo := op.statements }⟩ } := by
  have hclash : ∀ {d y}, db.sessions.find? d = some y → op.clashes y.operation = false :=
    fun hy => hapart _ (Table.find?_eq_some.1 hy).1
  refine ⟨fun hx => ?_, ?_, fun hne hx hy => ?_, fun hx hop => ?_⟩
  · rcases Table.find?_put_eq_some.1 hx with ⟨_, rfl⟩ | ⟨_, hx⟩
    · exact tracked_initial
    · exact h.tracked hx
  · refine h.exclusive.update (c := c) (fun d hd => ?_) fun x hx r m hr => ?_
    · exact (locker_put ..).trans (if_neg hd.symm)
    · obtain rfl := Option.some.inj (((locker_put ..).trans (if_pos rfl)).symm.trans hx)
      cases hr
  · rcases Table.find?_put_eq_some.1 hx with ⟨hc, rfl⟩ | ⟨_, hx⟩ <;>
      rcases Table.find?_put_eq_some.1 hy with ⟨hd, rfl⟩ | ⟨_, hy⟩
    · exact absurd (hc.symm.trans hd) hne
    · exact hclash hy
    · rw [Operation.clashes_comm]
      exact hclash hx
    · exact h.apart hne hx hy
  · rcases Table.find?_put_eq_some.1 hx with ⟨_, rfl⟩ | ⟨_, hx⟩
    · obtain rfl : op = _ := hop
      exact recovering_initial
    · exact h.recovering hx hop

theorem Sound.advance {l : Locker Store LockRow} (h : Sound db)
    (hx : db.sessions.find? c = some x) (hadv : x.locker.advance db.store (db.free c) = some l) :
    Sound { db with sessions := db.sessions.put { x with locker := l } } := by
  have hconn : x.connection = c := Table.key_of_find? hx
  refine ⟨fun hy => ?_, ?_, fun hne hy hz => ?_, fun hy hop => ?_⟩
  · rcases Table.find?_put_eq_some.1 hy with ⟨_, rfl⟩ | ⟨_, hy⟩
    · exact (h.tracked hx).advance hadv
    · exact h.tracked hy
  · refine h.exclusive.update (c := c) (fun d hd => ?_) fun y hy r m hr => ?_
    · exact (locker_put ..).trans (if_neg fun hcd => hd (hcd.symm.trans hconn))
    · have hput : locker { db with sessions := db.sessions.put { x with locker := l } } c = some l :=
        (locker_put ..).trans (if_pos hconn)
      obtain rfl := Option.mem_unique hput hy
      have hold : db.locker c = some x.locker := by rw [locker, hx]; rfl
      obtain ⟨r', rest, _, hfree, rfl⟩ | ⟨_, _, _, _, rfl⟩ | ⟨_, _, _, _, _, rfl⟩ :=
        advance_cases hadv
      · rcases List.mem_cons.1 hr with heq | hr
        · obtain ⟨rfl, rfl⟩ := Prod.mk.inj heq
          refine .inr fun d y hd hy => ?_
          obtain ⟨z, hz, rfl⟩ := Option.map_eq_some_iff.1 hy
          exact free_eq_true hfree hd hz
        · exact .inl ⟨_, hold, hr⟩
      · exact .inl ⟨_, hold, hr⟩
      · exact .inl ⟨_, hold, hr⟩
  · subst hconn
    rcases Table.find?_put_eq_some.1 hy with ⟨hc, rfl⟩ | ⟨hc, hy⟩ <;>
      rcases Table.find?_put_eq_some.1 hz with ⟨hd, rfl⟩ | ⟨hd, hz⟩
    · exact absurd (hc.symm.trans hd) hne
    · exact (h.apart hd hx hz :)
    · exact (h.apart hc.symm hy hx :)
    · exact h.apart hne hy hz
  · rcases Table.find?_put_eq_some.1 hy with ⟨_, rfl⟩ | ⟨_, hy⟩
    · have hop' : x.operation = _ := hop
      exact (h.recovering hx hop').advance (hop' ▸ h.tracked hx) hadv
    · exact h.recovering hy hop

theorem Sound.absurd_of_held {r : LockRow} {m : LockMode} (h : Sound db) (hne : c ≠ d)
    (hx : db.sessions.find? c = some x) (hy : db.sessions.find? d = some y)
    (hc : (r, m) ∈ x.locker.held) (hd : (r, .exclusive) ∈ y.locker.held) : False := by
  have hcomp := h.exclusive c d x.locker y.locker r m .exclusive hne (by rw [locker, hx]; rfl)
    (by rw [locker, hy]; rfl) hc hd
  cases m <;> exact nomatch hcomp

theorem find?_erase_of_some (h : (db.sessions.erase c).find? d = some x) :
    d ≠ c ∧ db.sessions.find? d = some x := by
  rw [Table.find?_erase] at h
  split at h
  · cases h
  · rename_i hcd
    exact ⟨fun hdc => hcd hdc.symm, h⟩

theorem Sound.close {s : Store} (h : Sound db)
    (hrec : ∀ {d y w}, d ≠ c → db.sessions.find? d = some y →
      y.operation = .recoverUnreachable w → Recovering s w y.locker) :
    Sound { store := s, sessions := db.sessions.erase c } := by
  refine ⟨fun hx => ?_, ?_, fun hne hx hy => ?_, fun hx hop => ?_⟩
  · exact h.tracked (find?_erase_of_some hx).2
  · refine h.exclusive.update (c := c) (fun d hd => ?_) fun x hx => ?_
    · exact (locker_erase ..).trans (if_neg hd.symm)
    · exact absurd (((locker_erase ..).trans (if_pos rfl)).symm.trans hx) (by simp)
  · exact h.apart hne (find?_erase_of_some hx).2 (find?_erase_of_some hy).2
  · obtain ⟨hne, hx⟩ := find?_erase_of_some hx
    exact hrec hne hx hop

theorem clashes_recover (op : Operation) (w : WorkerId) :
    op.clashes (.recoverUnreachable w) = op.returns := by
  cases op <;> rfl

theorem Sound.commit {now : Timestamp} (h : Sound db) (hx : db.sessions.find? c = some x)
    (hfin : x.locker.finished = true) :
    Sound { store := effect db.store now x, sessions := db.sessions.erase c } := by
  refine h.close fun {d y w} hne hy hop => ?_
  have hret : x.operation.returns = false := by
    rw [← clashes_recover x.operation w, ← hop]
    exact h.apart hne.symm hx hy
  refine (h.recovering hy hop).mono (fun e => reservedOn_effect hret) fun hlen r hr => ?_
  refine reservationsOf_effect hret (fun a hreserve => ?_) hr
  -- both would hold the worker
  have hy' : (.worker w, .exclusive) ∈ y.locker.held := by
    have ht := h.tracked hy
    rw [hop] at ht
    exact ht.past_first rfl rfl rfl (fun _ _ hr => (LockStatement.mem_demand.1 hr).2)
      (by rw [hlen]; simp)
  have hx' : (.worker w, .exclusive) ∈ x.locker.held := by
    have ht := h.tracked hx
    rw [hreserve] at ht
    refine ht.past_first rfl rfl rfl (fun _ _ hr => (LockStatement.mem_demand.1 hr).2) ?_
    simp only [finished, Bool.and_eq_true, List.isEmpty_iff] at hfin
    rw [hfin.2]
    simp
  exact h.absurd_of_held hne.symm hx hy hx' hy'

theorem Sound.step (h : Sound db) (hapart : Apart db act) (hstep : Step db act db') : Sound db' := by
  cases act with
  | begin c op =>
    simp only [Step, next, Option.ite_none_left_eq_some, Option.some.injEq] at hstep
    obtain ⟨_, rfl⟩ := hstep
    exact h.begin hapart
  | advance c =>
    simp only [Step, next, Option.bind_eq_bind, Option.bind_eq_some_iff, Option.pure_def,
      Option.some.injEq] at hstep
    obtain ⟨x, hx, l, hadv, rfl⟩ := hstep
    exact h.advance hx hadv
  | commit c now =>
    simp only [Step, next, Option.bind_eq_bind, Option.bind_eq_some_iff, Option.pure_def,
      Option.ite_none_right_eq_some, Option.some.injEq] at hstep
    obtain ⟨x, hx, hfin, rfl⟩ := hstep
    exact h.commit hx hfin
  | rollback c =>
    obtain rfl := Option.some.inj hstep
    exact h.close fun _ hy hop => h.recovering hy hop

end Database

/-! ## No cycle -/

namespace Database

variable {db : Database} {c d : Connection} {x y : Session} {r : LockRow} {m : LockMode}
  {e : ExecutionId}

theorem recovers_isSome {op : Operation} (h : op.recovers.isSome) :
    ∃ w, op = .recoverUnreachable w := by
  cases op with
  | recoverUnreachable w => exact ⟨w, rfl⟩
  | _ => cases h

theorem Sound.waits (h : Sound db) (hc : OnCycle db.locker c) : ∃ x r m,
    db.sessions.find? c = some x ∧ x.locker.waiting = some (r, m) ∧ x.operation.Late r := by
  obtain ⟨d, ⟨_, l, _, r, m, hl, _, hwait, _⟩, _⟩ := hc.next
  obtain ⟨x, hx, rfl⟩ := Option.map_eq_some_iff.1 hl
  refine ⟨x, r, m, hx, hwait, ?_⟩
  obtain ⟨l', hl', hheld⟩ := hc.holds
  obtain rfl := Option.mem_unique hl hl'
  exact ((h.tracked hx).waits x.operation.late x.operation.single hwait).resolve_left hheld

theorem held_of_waitsFor (hcd : WaitsFor db.locker c d) (hx : db.sessions.find? c = some x)
    (hwait : x.locker.waiting = some (r, m)) :
    ∃ y m', db.sessions.find? d = some y ∧ (r, m') ∈ y.locker.held := by
  obtain ⟨_, l, l', r', m', hl, hl', hwait', hblocks⟩ := hcd
  rw [locker, hx] at hl
  obtain rfl := Option.some.inj hl
  obtain ⟨rfl, rfl⟩ := Prod.mk.inj (Option.mem_unique hwait hwait')
  obtain ⟨y, hy, rfl⟩ := Option.map_eq_some_iff.1 hl'
  obtain ⟨m', hheld, _⟩ := blocks_eq_true.1 hblocks
  exact ⟨y, m', hy, hheld⟩

/-- and the next one on the cycle holds that row. -/
theorem holds_next (hc : OnCycle db.locker c) (hx : db.sessions.find? c = some x)
    (hwait : x.locker.waiting = some (r, m)) : ∃ d y m', c ≠ d ∧ OnCycle db.locker d ∧
      db.sessions.find? d = some y ∧ (r, m') ∈ y.locker.held := by
  obtain ⟨d, hcd, hd⟩ := hc.next
  obtain ⟨y, m', hy, hheld⟩ := held_of_waitsFor hcd hx hwait
  exact ⟨d, y, m', hcd.1, hd, hy, hheld⟩

theorem Sound.late (h : Sound db) (hc : OnCycle db.locker c) (hx : db.sessions.find? c = some x)
    (hwait : x.locker.waiting = some (r, m)) : x.operation.Late r := by
  obtain ⟨x', r', _, hx', hwait', hlate⟩ := h.waits hc
  obtain rfl := Option.mem_unique hx hx'
  obtain ⟨rfl, _⟩ := Prod.mk.inj (Option.mem_unique hwait hwait')
  exact hlate

theorem Sound.covers (h : Sound db) (hx : db.sessions.find? c = some x) (hu : r.under = some e)
    (hr : (∃ m, (r, m) ∈ x.locker.held) ∨ ∃ rest, x.locker.wanted = r :: rest)
    (hop : x.operation.subject = some e ∨ x.operation.recovers.isSome) :
    (.execution e, .exclusive) ∈ x.locker.held := by
  rcases hop with hsub | hrec
  · refine Operation.covered (h.tracked hx) hsub ?_ (hr.imp_right fun ⟨_, hwant⟩ => by simp [hwant])
    rintro rfl
    cases hu
  · obtain ⟨w, hop⟩ := recovers_isSome hrec
    have hrecovering := h.recovering hx hop
    rcases hr with ⟨_, hheld⟩ | ⟨_, hwant⟩
    · exact hrecovering.owned hheld hu
    · exact (hrecovering.paired (p := []) hwant hu).resolve_left (by simp)

/-- A row that is protected by an execution is locked with it, but for two cases. -/
theorem Sound.covers_held (h : Sound db) (hx : db.sessions.find? c = some x)
    (hr : (r, m) ∈ x.locker.held) (hu : r.under = some e) :
    (.execution e, .exclusive) ∈ x.locker.held ∨ x.operation = .release e ∧ r = .reservation e ∨
      x.operation.inspects = some e ∧ r = .authority e := by
  obtain ⟨st, hst, _, s, hrow⟩ := (h.tracked hx).of_held hr
  have hmay := Operation.mayLock hst hrow
  have hcovers := h.covers hx hu (.inl ⟨m, hr⟩)
  cases r with
  | execution | worker | control => cases hu
  | reservation e' =>
    obtain rfl := Option.some.inj hu
    rcases hmay with hop | hcov
    · exact .inr (.inl ⟨hop, rfl⟩)
    · exact .inl (hcovers hcov)
  | attempt e' | cancellation e' =>
    obtain rfl := Option.some.inj hu
    exact .inl (hcovers hmay)
  | authority e' =>
    obtain rfl := Option.some.inj hu
    rcases hmay with hsub | hrec | hins
    · exact .inl (hcovers (.inl hsub))
    · exact .inl (hcovers (.inr hrec))
    · exact .inr (.inr ⟨hins, rfl⟩)

theorem Sound.covers_waiting (h : Sound db) (hc : OnCycle db.locker c)
    (hx : db.sessions.find? c = some x) (hwait : x.locker.waiting = some (r, m))
    (hu : r.under = some e) : ∃ m', (.execution e, m') ∈ x.locker.held := by
  have ht := h.tracked hx
  have hlate := h.late hc hx hwait
  obtain ⟨_, _, rest, hwant⟩ := mem_wanted_of_waiting hwait
  have hr : r ∈ x.locker.wanted := by simp [hwant]
  obtain ⟨st, hst, _, _, s, hrow⟩ := ht.of_wanted hr
  have hmay := Operation.mayLock hst hrow
  have hcovers := h.covers hx hu (.inr ⟨rest, hwant⟩)
  cases r with
  | execution | worker | control => cases hu
  | reservation e' =>
    obtain rfl := Option.some.inj hu
    exact ⟨_, hcovers hlate⟩
  | attempt e' | cancellation e' =>
    obtain rfl := Option.some.inj hu
    exact ⟨_, hcovers hmay⟩
  | authority e' =>
    obtain rfl := Option.some.inj hu
    rcases hmay with hsub | hrec | hins
    · exact ⟨_, hcovers (.inl hsub)⟩
    · exact ⟨_, hcovers (.inr hrec)⟩
    · obtain ⟨l, hl, hheld⟩ := hc.holds
      obtain rfl : x.locker = l := by
        rw [locker, hx] at hl
        exact Option.some.inj hl
      obtain ⟨⟨r', m'⟩, hmem⟩ := List.exists_mem_of_ne_nil _ hheld
      exact ⟨_, Operation.inspected ht hins hr hmem⟩

/-- Nobody on a cycle waits for an attempt, an authority or a cancellation. -/
theorem Sound.not_protected (h : Sound db) (hc : OnCycle db.locker c)
    (hx : db.sessions.find? c = some x) (hwait : x.locker.waiting = some (r, m))
    (hu : r.under = some e) : r = .reservation e := by
  by_contra hres
  obtain ⟨m₁, hcov⟩ := h.covers_waiting hc hx hwait hu
  obtain ⟨d, y, m', hne, hd, hy, hheld⟩ := holds_next hc hx hwait
  rcases h.covers_held hy hheld hu with hexec | ⟨_, hr⟩ | ⟨hins, rfl⟩
  · exact h.absurd_of_held hne hx hy hcov hexec
  · exact hres hr
  · -- an inspection that has the authority has everything
    obtain ⟨y', r', m₂, hy', hwait₂, _⟩ := h.waits hd
    obtain rfl := Option.mem_unique hy hy'
    obtain ⟨_, _, rest, hwant⟩ := mem_wanted_of_waiting hwait₂
    have hnone := (h.tracked hy).follows y.operation.follows hheld (r := r') (by simp [hwant])
    exact absurd (hins.symm.trans hnone) (by simp)

theorem Sound.not_worker {w : WorkerId} (h : Sound db) (hc : OnCycle db.locker c)
    (hx : db.sessions.find? c = some x) (hwait : x.locker.waiting = some (.worker w, m)) : False := by
  have hreturns : x.operation.returns = true := h.late hc hx hwait
  obtain ⟨d, y, m', hne, hd, hy, hheld⟩ := holds_next hc hx hwait
  obtain ⟨y', r, m₁, hy', hwait₁, hlate₁⟩ := h.waits hd
  obtain rfl := Option.mem_unique hy hy'
  obtain ⟨_, _, rest, hwant⟩ := mem_wanted_of_waiting hwait₁
  rcases (h.tracked hy).follows y.operation.follows hheld (r := r) (by simp [hwant]) with
    hrec | hres | ⟨e, a, hop, rfl⟩
  · -- a recovery does not overlap with an operation that gives back
    obtain ⟨_, hop⟩ := recovers_isSome hrec
    have hapart := h.apart hne hx hy
    rw [hop, clashes_recover, hreturns] at hapart
    cases hapart
  · -- a reservation in progress does not wait once it has its worker
    cases hop : y.operation <;> rw [hop] at hres hlate₁ <;>
      simp only [Operation.reserves, Bool.false_eq_true] at hres
    cases r <;> simp [Operation.Late, Operation.recovers, Operation.returns, Operation.subject,
      Operation.reserves] at hlate₁
  · -- a retention commit waits for its reservation, which only its holder of the execution has
    obtain ⟨f, z, m₂, hdf, _, hz, hheld₂⟩ := holds_next hd hy hwait₁
    have hsub : y.operation.subject = some e := by rw [hop]; rfl
    have hexec : (.execution e, .exclusive) ∈ y.locker.held :=
      Operation.covered (h.tracked hy) hsub (r := .reservation e) (by simp) (.inr (by simp [hwant]))
    rcases h.covers_held hz hheld₂ rfl with hexec' | ⟨hrel, _⟩ | ⟨_, hr⟩
    · exact h.absurd_of_held hdf hy hz hexec hexec'
    · have hapart := h.apart hdf hy hz
      rw [hop, hrel] at hapart
      simp [Operation.clashes] at hapart
    · cases hr

theorem Sound.not_reservation (h : Sound db) (hc : OnCycle db.locker c)
    (hx : db.sessions.find? c = some x) (hwait : x.locker.waiting = some (.reservation e, m)) :
    False := by
  obtain ⟨m₁, hcov⟩ := h.covers_waiting hc hx hwait rfl
  obtain ⟨d, y, m', hne, hd, hy, hheld⟩ := holds_next hc hx hwait
  rcases h.covers_held hy hheld rfl with hexec | ⟨hrel, _⟩ | ⟨_, hr⟩
  · exact h.absurd_of_held hne hx hy hcov hexec
  · -- a release that has its reservation waits for the worker
    obtain ⟨y', r, m₂, hy', hwait₁, hlate₁⟩ := h.waits hd
    obtain rfl := Option.mem_unique hy hy'
    rw [hrel] at hlate₁
    cases r with
    | worker => exact h.not_worker hd hy hwait₁
    | attempt | authority | cancellation => cases h.not_protected hd hy hwait₁ rfl
    | execution | reservation | control =>
      simp [Operation.Late, Operation.recovers, Operation.returns, Operation.subject] at hlate₁
  · cases hr

/-- So those on a cycle wait for executions, as recoveries, or for controls. -/
theorem Sound.on_cycle (h : Sound db) (hc : OnCycle db.locker c) : ∃ x m,
    db.sessions.find? c = some x ∧
      ((∃ n, x.locker.waiting = some (.control n, m)) ∨
        ∃ e w, x.locker.waiting = some (.execution e, m) ∧ x.operation = .recoverUnreachable w) := by
  obtain ⟨x, r, m, hx, hwait, hlate⟩ := h.waits hc
  refine ⟨x, m, hx, ?_⟩
  cases r with
  | control n => exact .inl ⟨n, hwait⟩
  | worker => exact (h.not_worker hc hx hwait).elim
  | reservation => exact (h.not_reservation hc hx hwait).elim
  | attempt | authority | cancellation => exact nomatch h.not_protected hc hx hwait rfl
  | execution e =>
    obtain ⟨w, hop⟩ := recovers_isSome hlate
    exact .inr ⟨e, w, hwait, hop⟩

/-- A recovery on a cycle waits for no other recovery. -/
theorem Sound.not_recovery {w w' : WorkerId} {m' : LockMode} (h : Sound db) (hne : c ≠ d)
    (hx : db.sessions.find? c = some x) (hwait : x.locker.waiting = some (.execution e, m))
    (hop : x.operation = .recoverUnreachable w) (hy : db.sessions.find? d = some y)
    (hheld : (.execution e, m') ∈ y.locker.held) (hop' : y.operation = .recoverUnreachable w') :
    False := by
  obtain ⟨_, _, rest, hwant⟩ := mem_wanted_of_waiting hwait
  have hr : .execution e ∈ x.locker.wanted := by simp [hwant]
  obtain ⟨a, ha, haw⟩ := (h.recovering hx hop).mine (.inr hr)
  obtain ⟨b, hb, hbw⟩ := (h.recovering hy hop').mine (.inl ⟨m', hheld⟩)
  obtain rfl := Option.mem_unique ha hb
  obtain rfl : w = w' := haw.symm.trans hbw
  have hx' := Operation.worker_held (hop ▸ h.tracked hx) (r := .execution e) (by simp) (.inr hr)
  have hy' := Operation.worker_held (hop' ▸ h.tracked hy) (r := .execution e) (by simp)
    (.inl ⟨m', hheld⟩)
  exact h.absurd_of_held hne hx hy hx' hy'

def rank (db : Database) (c : Connection) : Nat :=
  match (db.locker c).bind Locker.waiting with
  | some (.control n, _) => n + 1
  | _ => 0

theorem rank_control {n : Nat} (hx : db.sessions.find? c = some x)
    (hwait : x.locker.waiting = some (.control n, m)) : db.rank c = n + 1 := by
  simp [rank, locker, hx, hwait]

theorem Sound.not_deadlock (h : Sound db) : ¬ db.Deadlock := by
  refine not_deadlocked db.rank fun c d hc hd hcd => ?_
  obtain ⟨x, m, hx, hcases⟩ := h.on_cycle hc
  obtain ⟨y, m', hy, hcases'⟩ := h.on_cycle hd
  have hheld : ∀ {r}, x.locker.waiting = some (r, m) → ∃ m₁, (r, m₁) ∈ y.locker.held := by
    intro r hwait
    obtain ⟨z, m₁, hz, hm₁⟩ := held_of_waitsFor hcd hx hwait
    obtain rfl := Option.mem_unique hy hz
    exact ⟨m₁, hm₁⟩
  rcases hcases with ⟨n, hwait⟩ | ⟨e, w, hwait, hop⟩
  · -- what comes after a control is a control with a larger number
    obtain ⟨m₁, hm₁⟩ := hheld hwait
    rcases hcases' with ⟨n', hwait'⟩ | ⟨e', _, hwait', _⟩ <;>
      obtain ⟨_, _, rest, hwant⟩ := mem_wanted_of_waiting hwait'
    · rcases (h.tracked hy).follows y.operation.follows hm₁ (r := .control n')
        (by simp [hwant]) with ⟨_, heq, hlt⟩ | ⟨hu, _⟩
      · obtain rfl := LockRow.control.inj heq
        rw [rank_control hx hwait, rank_control hy hwait']
        omega
      · exact nomatch hu
    · rcases (h.tracked hy).follows y.operation.follows hm₁ (r := .execution e')
        (by simp [hwant]) with ⟨_, heq, _⟩ | ⟨hu, _⟩
      · exact nomatch heq
      · exact nomatch hu
  · obtain ⟨m₁, hm₁⟩ := hheld hwait
    rcases hcases' with ⟨n', hwait'⟩ | ⟨_, w', _, hop'⟩
    · have hzero : db.rank c = 0 := by simp [rank, locker, hx, hwait]
      rw [hzero, rank_control hy hwait']
      omega
    · exact (h.not_recovery hcd.1 hx hwait hop hy hm₁ hop').elim

end Database

open Database in
/-- As long as no transaction begins while one is open that takes its locks in the opposite order
(`Operation.clashes`), transactions never wait for each other in a circle. -/
theorem transactions_never_deadlock {s : Store} {db : Database}
    (h : Reaches Database.Step Apart { store := s } db) : ¬ db.Deadlock :=
  (h.invariant (fun _ _ _ hs hok hst => hs.step hok hst) (sound_idle s)).not_deadlock

namespace Database

/-- Every step of `acts` can be made and meets `ok`. -/
def allMet (ok : Database → Act → Prop) [∀ db a, Decidable (ok db a)] :
    Database → List Act → Bool
  | _, [] => true
  | db, a :: acts => decide (ok db a) && (db.next a).any fun db' => db'.allMet ok acts

theorem reaches_of_nexts {ok : Database → Act → Prop} [∀ db a, Decidable (ok db a)]
    {db db' : Database} {acts : List Act} (h : db.nexts acts = some db')
    (hok : db.allMet ok acts = true) : Reaches Step ok db db' := by
  induction acts generalizing db with
  | nil => exact Option.some.inj h ▸ .refl
  | cons a acts ih =>
    obtain ⟨db₁, hstep, hrest⟩ := Option.bind_eq_some_iff.1 h
    simp only [allMet, Bool.and_eq_true, decide_eq_true_eq, hstep, Option.any_some] at hok
    exact .head ⟨a, hok.1, hstep⟩ (ih hrest hok.2)

def waitsOn (db : Database) (c d : Connection) : Bool :=
  (db.locker c).any fun x => (db.locker d).any fun y => x.waiting.any fun p => y.blocks p.1 p.2

theorem waitsFor_of_waitsOn {db : Database} {c d : Connection} (hne : c ≠ d)
    (h : db.waitsOn c d = true) : WaitsFor db.locker c d := by
  obtain ⟨x, hx, h⟩ := (Option.any_eq_true _ _).1 h
  obtain ⟨y, hy, h⟩ := (Option.any_eq_true _ _).1 h
  obtain ⟨⟨r, m⟩, hwait, hblocks⟩ := (Option.any_eq_true _ _).1 h
  exact ⟨hne, x, y, r, m, hx, hy, hwait, hblocks⟩

end Database

namespace Sample

def silent : Store := after Store.initial (assigned ++ [⟨_, .markStaleBefore 100, 3⟩])

def crossing : List Database.Act :=
  [.begin 0 (.release ⟨"e"⟩), .advance 0, .advance 0, .begin 1 (.recoverUnreachable ⟨"w"⟩),
    .advance 1, .advance 1, .advance 1, .advance 1, .advance 0]

/-- The reservation is released first and the worker recovered afterwards, while somebody reads. -/
def consecutive : List Database.Act :=
  [.begin 0 (.release ⟨"e"⟩), .advance 0, .advance 0, .begin 2 (.attachmentSnapshot ⟨"e"⟩),
    .advance 2, .advance 2, .advance 0, .advance 0, .commit 0 4,
    .begin 1 (.recoverUnreachable ⟨"w"⟩), .advance 1, .advance 1, .advance 1]

end Sample

open Database Sample in
theorem transactions_never_deadlock_sample : ∃ db : Database,
    Reaches Database.Step Apart { store := silent } db ∧ db.sessions.rows.length = 2 ∧
      ¬ db.Deadlock := by
  have hrun : (nexts { store := silent } consecutive).map (fun db => db.sessions.rows.length) =
      some 2 := by decide
  obtain ⟨db, hdb, hlen⟩ := Option.map_eq_some_iff.1 hrun
  have hreach : Reaches Database.Step Apart { store := silent } db :=
    reaches_of_nexts hdb (by decide)
  exact ⟨db, hreach, hlen, transactions_never_deadlock hreach⟩

open Database Sample in
/-- Two transactions that would both succeed alone wait for each other: the release has the
reservation and wants the worker, the recovery has the worker and wants the reservation. -/
theorem transactions_deadlock : Reachable silent ∧
    ((StoreCall.release ⟨"e"⟩).exec 4 silent).1 = .ok () ∧
    ((StoreCall.recoverUnreachable ⟨"w"⟩).exec 4 silent).1 = .ok [.cleanupPending ⟨"e"⟩] ∧
    ∃ db, Reaches Database.Step (fun _ _ => True) { store := silent } db ∧ db.Deadlock := by
  refine ⟨reachable_after _, by decide, by decide, ?_⟩
  have hrun : (nexts { store := silent } crossing).map (fun db =>
      (db.waitsOn 0 1, db.waitsOn 1 0)) = some (true, true) := by decide
  obtain ⟨db, hdb, hwait⟩ := Option.map_eq_some_iff.1 hrun
  obtain ⟨h₁, h₂⟩ := Prod.mk.inj hwait
  refine ⟨db, reaches_of_nexts hdb (by decide), 0, ?_⟩
  exact .tail (.single (waitsFor_of_waitsOn (by decide) h₁)) (waitsFor_of_waitsOn (by decide) h₂)

end Orchestrator
