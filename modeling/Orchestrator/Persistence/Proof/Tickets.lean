import Orchestrator.Persistence.Proof.Controls

/-!
# The pending requests of an execution

The pending requests of an execution are seen as the list of their tickets, in the order they were
accepted. `desk_committed` says what a call does to this list and to the execution row together: a
request is issued a ticket for the version the execution will have once those before it are done,
and uses it up when the row has that version.

`Standing` is what every run keeps of it.
-/

namespace Orchestrator

open Relational

def StoreCall.cancels {β : Type} (e : ExecutionId) : StoreCall β → Bool
  | .requestCancellation id => id = e
  | _ => false

/-- What a pending request was accepted for. -/
structure Ticket where
  requestId : Nat
  requestedAt : Timestamp
  attempt : AttemptId
  version : Nat
deriving DecidableEq, Repr

def ControlRow.ticket (c : ControlRow) : Ticket :=
  ⟨c.requestId, c.requestedAt, c.acceptedAttemptId, c.acceptedVersion⟩

/-- The ticket of a pending request of `e`. -/
def ControlRow.ticketFor (c : ControlRow) (e : ExecutionId) : Option Ticket :=
  if c.executionId = e ∧ c.phase.pending then some c.ticket else none

variable {c : ControlRow}

theorem ControlRow.ticketFor_eq_some {e : ExecutionId} {k : Ticket} :
    c.ticketFor e = some k ↔ c.executionId = e ∧ c.phase.pending = true ∧ c.ticket = k := by
  unfold ticketFor
  split
  · simp_all
  · rename_i h
    exact ⟨nofun, fun hk => absurd ⟨hk.1, hk.2.1⟩ h⟩

theorem ControlRow.ticketFor_settled (h : c.phase.pending = false)
    (e : ExecutionId) : c.ticketFor e = none := by
  simp [ticketFor, h]

theorem ControlRow.ticketFor_other {e : ExecutionId} (h : c.executionId ≠ e) :
    c.ticketFor e = none := by
  simp [ticketFor, h]

namespace Store

variable {s s' : Store} {now : Timestamp} {e : ExecutionId} {r : Nat} {c c' : ControlRow}

def tickets (s : Store) (e : ExecutionId) : List Ticket :=
  s.controls.rows.filterMap fun c => c.ticketFor e

variable {β : Type} {k : Ticket} {call : StoreCall β}

theorem mem_tickets : k ∈ s.tickets e ↔ ∃ c, s.controls.find? k.requestId = some c ∧
    c.executionId = e ∧ c.phase.pending = true ∧ c.ticket = k := by
  simp only [tickets, List.mem_filterMap, ControlRow.ticketFor_eq_some, Table.find?_eq_some]
  constructor
  · rintro ⟨c, hc, he, hp, rfl⟩
    exact ⟨c, ⟨hc, rfl⟩, he, hp, rfl⟩
  · rintro ⟨c, ⟨hc, _⟩, he, hp, hk⟩
    exact ⟨c, hc, he, hp, hk⟩

/-! ## How the list changes -/

theorem tickets_congr (h : s'.controls = s.controls) : s'.tickets e = s.tickets e := by
  rw [tickets, tickets, h]

theorem tickets_put_new (hnew : s.controls.find? c.requestId = none)
    (hs : s'.controls = s.controls.put c) : s'.tickets e = s.tickets e ++ (c.ticketFor e).toList := by
  rw [tickets, hs, Table.rows_put_of_find?_none hnew, List.filterMap_append, tickets]
  cases h : c.ticketFor e <;> simp [h]

theorem tickets_put_same (hc : s.controls.find? c.requestId = some c)
    (hid : c'.requestId = c.requestId) (hs : s'.controls = s.controls.put c')
    (hk : c'.ticketFor e = c.ticketFor e) : s'.tickets e = s.tickets e := by
  rw [tickets, hs, Table.rows_put_of_find?_some (by rw [hid]; exact hc), List.filterMap_map, tickets]
  refine List.filterMap_congr fun x hx => ?_
  simp only [Function.comp_apply, hid]
  split
  · rename_i hxid
    obtain rfl := Option.some.inj ((Table.find?_eq_some.2 ⟨hx, hxid⟩).symm.trans hc)
    exact hk
  · rfl

theorem tickets_put_settled (hc : s.controls.find? c.requestId = some c)
    (hid : c'.requestId = c.requestId) (hs : s'.controls = s.controls.put c')
    (hk : c'.phase.pending = false) :
    s'.tickets e = (s.tickets e).filter fun k => k.requestId ≠ c.requestId := by
  rw [tickets, hs, Table.rows_put_of_find?_some (by rw [hid]; exact hc), List.filterMap_map, tickets,
    List.filter_filterMap]
  refine List.filterMap_congr fun x _ => ?_
  simp only [Function.comp_apply, hid]
  split
  · rename_i hxid
    rw [ControlRow.ticketFor_settled hk]
    cases hx : x.ticketFor e with
    | none => rfl
    | some k =>
      obtain ⟨_, _, rfl⟩ := ControlRow.ticketFor_eq_some.1 hx
      simp [ControlRow.ticket, hxid, Option.filter]
  · rename_i hxid
    cases hx : x.ticketFor e with
    | none => rfl
    | some k =>
      obtain ⟨_, _, rfl⟩ := ControlRow.ticketFor_eq_some.1 hx
      simp [ControlRow.ticket, hxid, Option.filter]

theorem tickets_staleControls {id : ExecutionId} {reason : String}
    (hs : s'.controls = (s.staleControls now id reason).controls) :
    s'.tickets e = if id = e then [] else s.tickets e := by
  have hrows : s'.controls.rows = s.controls.rows.map fun c =>
      if c.executionId = id && c.phase.pending then
        { c with phase := .stale, staleReason := some reason, completedAt := some now } else c := by
    rw [hs]
    rfl
  rw [tickets, hrows, List.filterMap_map]
  split
  · rename_i he
    refine List.filterMap_eq_nil_iff.2 fun c _ => ?_
    simp only [Function.comp_apply]
    split
    · exact ControlRow.ticketFor_settled rfl e
    · rename_i hc
      subst he
      simp only [Bool.and_eq_true, decide_eq_true_eq] at hc
      rw [ControlRow.ticketFor, if_neg hc]
  · rename_i he
    refine List.filterMap_congr fun c _ => ?_
    simp only [Function.comp_apply]
    split
    · rename_i hc
      simp only [Bool.and_eq_true, decide_eq_true_eq] at hc
      rw [ControlRow.ticketFor_settled rfl, ControlRow.ticketFor_other (hc.1 ▸ he)]
    · rfl

/-! ## What a call does at the desk -/

/-- What a call does to the row of `e`, its pending requests and its cancellation. -/
inductive Desk (now : Timestamp) (s : Store) (e : ExecutionId) :
    {β : Type} → StoreCall β → Store → Prop
  | idle {β : Type} {call : StoreCall β} {s'} (row : s'.executions.find? e = s.executions.find? e)
      (tickets : s'.tickets e = s.tickets e)
      (cancelling : s'.cancellationPending e = true → s.cancellationPending e = true) :
      Desk now s e call s'
  | rewritten {β : Type} {call : StoreCall β} {s' row'} (plain : call.plain = true)
      (hre : Rewrites now s e call row') (row : s'.executions.find? e = some row')
      (tickets : s'.tickets e = s.tickets e)
      (cancelling : s'.cancellationPending e = true → s.cancellationPending e = true) :
      Desk now s e call s'
  | issued {action key row c s'} (hg : Accept s now e action row c)
      (row : s'.executions = s.executions) (tickets : s'.tickets e = s.tickets e ++ [c.ticket])
      (cancelling : s'.cancellationPending e = true → s.cancellationPending e = true) :
      Desk now s e (.requestControl e action key) s'
  | used {x event row c s'} (hg : Complete s c.requestId x event row c) (id : x.id = e)
      (row : s'.executions.find? e = some (controlled row x))
      (tickets : s'.tickets e = (s.tickets e).filter fun k => k.requestId ≠ c.requestId)
      (cancelling : s'.cancellationPending e = true → s.cancellationPending e = true) :
      Desk now s e (.completeControl c.requestId x event) s'
  | overtaken {w a c row s'} (control : s.controls.find? c.requestId = some c)
      (id : c.executionId = e) (pending : c.phase.pending = true)
      (found : s.executions.find? e = some row)
      (changed : ¬ (c.acceptedWorkerId = w ∧ c.acceptedAttemptId = a ∧ acceptedFor c row) ∨
        s.cancellationPending e = true)
      (row : s'.executions = s.executions)
      (tickets : s'.tickets e = (s.tickets e).filter fun k => k.requestId ≠ c.requestId)
      (cancelling : s'.cancellationPending e = true → s.cancellationPending e = true) :
      Desk now s e (.beginControl c.requestId w a) s'
  | void {β : Type} {call : StoreCall β} {s' r} (pending : s.cancellationPending e = true)
      (row : s'.executions = s.executions)
      (tickets : s'.tickets e = (s.tickets e).filter fun k => k.requestId ≠ r) : Desk now s e call s'
  | cleared {β : Type} {call : StoreCall β} {s'}
      (row : s'.executions.find? e = s.executions.find? e ∨
        ∃ row', s'.executions.find? e = some row' ∧ Rewrites now s e call row')
      (tickets : s'.tickets e = []) : Desk now s e call s'

theorem cancelling_committed (h : Committed now s call s')
    (hcall : call.cancels e = false) (hp : s'.cancellationPending e = true) :
    s.cancellationPending e = true := by
  rcases life_committed h e with hsame | ⟨act, hact, hstep⟩
  · exact (congrArg Life.pending hsame).symm.trans hp
  rcases hstep.pending_old hp with hold | rfl
  · exact hold
  · cases call
    case requestCancellation id =>
      obtain rfl : id = e := hact
      simp [StoreCall.cancels] at hcall
    all_goals exact hact.elim

theorem desk_of_kept (h : Committed now s call s')
    (hcall : call.cancels e = false) (htickets : s'.tickets e = s.tickets e)
    (hplain : ∀ row, Rewrites now s e call row → call.plain = true) : Desk now s e call s' := by
  rcases row_committed h e with hrow | ⟨row', hrow, hre⟩
  · exact .idle hrow htickets (cancelling_committed h hcall)
  · exact .rewritten (hplain row' hre) hre hrow htickets (cancelling_committed h hcall)

theorem desk_of_swept {id : ExecutionId} {reason : String}
    (h : Committed now s call s') (hs : s'.controls = (s.staleControls now id reason).controls)
    (hcall : id ≠ e → call.cancels e = false ∧ ¬ call.rewrites e) : Desk now s e call s' := by
  have htickets := tickets_staleControls (e := e) hs
  by_cases he : id = e
  · exact .cleared (row_committed h e) (by rw [htickets, if_pos he])
  · exact desk_of_kept h (hcall he).1 (by rw [htickets, if_neg he])
      fun _ hre => absurd hre.rewrites (hcall he).2

theorem desk_of_handled (h : Committed now s call s')
    (hc : s.controls.find? c.requestId = some c) (hh : Handles now s c call c')
    (hdone : c'.phase ≠ .completed) (hrow : s'.executions = s.executions)
    (hs : s'.controls = s.controls.put c') : Desk now s e call s' := by
  have hcancel := cancelling_committed (e := e) h (by cases hh <;> rfl)
  have hid := hh.requestId
  have hkept : c'.ticketFor e = c.ticketFor e → Desk now s e call s' := fun hk =>
    .idle (by rw [hrow]) (tickets_put_same hc hid hs hk) hcancel
  by_cases he : c.executionId = e
  · have hleft := tickets_put_settled (e := e) hc hid hs
    cases hh with
    | begun phase | applied phase => exact hkept (by simp [ControlRow.ticketFor, phase]; rfl)
    | overtaken found pending changed =>
      exact .overtaken hc he pending (he ▸ found) (he ▸ changed) hrow (hleft rfl) hcancel
    | unapplied _ cancelling | uncompleted _ cancelling =>
      exact .void (he ▸ cancelling) hrow (hleft rfl)
    | completed => exact absurd rfl hdone
  · refine hkept ?_
    rw [ControlRow.ticketFor_other (hh.executionId ▸ he), ControlRow.ticketFor_other he]

theorem desk_committed (h : Committed now s call s')
    (hf : s.Filed) (e : ExecutionId) : Desk now s e call s' := by
  cases controls_committed h with
  | kept calm controls _ =>
    rcases calm with rfl | hplain
    · exact .idle rfl rfl fun hp => hp
    · refine desk_of_kept h ?_ (tickets_congr controls) fun _ _ => hplain
      cases call <;> first | rfl | cases hplain
  | @accepted _ _ _ _ c hg =>
    have hnew : s.controls.find? c.requestId = none := by
      cases hold : s.controls.find? c.requestId with
      | none => rfl
      | some d =>
        have hle := hf.numbered _ d hold
        rw [hg.requestId] at hle
        omega
    have htickets := @tickets_put_new s { s with
      controls := s.controls.put c, controlSequence := s.controlSequence + 1 } e c hnew rfl
    by_cases he : c.executionId = e
    · obtain rfl := hg.executionId.symm.trans he
      rw [ControlRow.ticketFor, if_pos ⟨he, by rw [hg.phase]; rfl⟩] at htickets
      exact .issued hg rfl htickets (cancelling_committed h rfl)
    · rw [ControlRow.ticketFor_other he, Option.toList_none, List.append_nil] at htickets
      exact .idle rfl htickets (cancelling_committed h rfl)
  | handled found hh hdone row controls _ => exact desk_of_handled h found hh hdone row controls
  | @completed x _ _ _ _ hg row controls _ =>
    by_cases he : x.id = e
    · refine .used hg he ?_ (tickets_put_settled hg.control (by rfl) controls rfl)
        (cancelling_committed h rfl)
      rw [row, ← he]
      exact (Table.find?_put ..).trans (if_pos (execution_id hg.found))
    · have hk := ControlRow.ticketFor_other (hg.ownedBy ▸ he)
      exact desk_of_kept h rfl (tickets_put_same hg.control (by rfl) controls
        (hk ▸ ControlRow.ticketFor_other (hg.ownedBy ▸ he))) fun _ hre => absurd hre.rewrites he
  | cancelled controls _ =>
    exact desk_of_swept h controls fun he => ⟨by simp [StoreCall.cancels, he], he⟩
  | ended _ controls _ => exact desk_of_swept h controls fun he => ⟨rfl, he⟩

/-! ## What every run keeps -/

theorem Desk.mem (h : Desk now s e call s') (hk : k ∈ s'.tickets e) : k ∈ s.tickets e ∨
      ∃ action row c, Accept s now e action row c ∧ k = c.ticket := by
  cases h with
  | idle _ tickets _ | rewritten _ _ _ tickets _ => exact .inl (tickets ▸ hk)
  | issued hg _ tickets _ =>
    rw [tickets] at hk
    rcases List.mem_append.1 hk with hk | hk
    · exact .inl hk
    · exact .inr ⟨_, _, _, hg, List.mem_singleton.1 hk⟩
  | used _ _ _ tickets _ | overtaken _ _ _ _ _ _ tickets _ | void _ _ tickets =>
    exact .inl (List.mem_filter.1 (tickets ▸ hk)).1
  | cleared _ tickets =>
    rw [tickets] at hk
    cases hk

/-- Tickets belong to executions, are void while a cancellation is pending, and are numbered in the
order they were issued. -/
structure Standing (s : Store) : Prop where
  filed : s.Filed
  rowed : ∀ e k, k ∈ s.tickets e → ∃ row, s.executions.find? e = some row
  halted : ∀ e, s.cancellationPending e = true → s.tickets e = []
  sorted : ∀ e, (s.tickets e).Pairwise fun a b => a.requestId < b.requestId

theorem Filed.ticket_le (hf : s.Filed) (hk : k ∈ s.tickets e) :
    k.requestId ≤ s.controlSequence := by
  obtain ⟨c, hc, _⟩ := mem_tickets.1 hk
  exact hf.numbered _ c hc

theorem row_stays {row : ExecutionRow}
    (h : Committed now s call s') (hrow : s.executions.find? e = some row) :
    ∃ row', s'.executions.find? e = some row' := by
  rcases row_committed h e with hsame | ⟨row', hrow', _⟩
  · exact ⟨row, hsame.trans hrow⟩
  · exact ⟨row', hrow'⟩

theorem Standing.committed (hS : s.Standing) (h : Committed now s call s') : s'.Standing := by
  refine ⟨hS.filed.committed h, fun e k hk => ?_, fun e hp => ?_, fun e => ?_⟩
  · rcases (desk_committed h hS.filed e).mem hk with hold | ⟨_, row, _, hg, _⟩
    · obtain ⟨row, hrow⟩ := hS.rowed e k hold
      exact row_stays h hrow
    · exact row_stays h hg.found
  · cases desk_committed h hS.filed e with
    | idle _ tickets cancelling | rewritten _ _ _ tickets cancelling =>
      rw [tickets, hS.halted e (cancelling hp)]
    | issued hg _ _ cancelling => cases hg.notCancelling.symm.trans (cancelling hp)
    | used _ _ _ tickets cancelling | overtaken _ _ _ _ _ _ tickets cancelling =>
      rw [tickets, hS.halted e (cancelling hp)]
      rfl
    | void pending _ tickets =>
      rw [tickets, hS.halted e pending]
      rfl
    | cleared _ tickets => exact tickets
  · have hsub : ∀ {p : Ticket → Bool},
        ((s.tickets e).filter p).Pairwise fun a b => a.requestId < b.requestId :=
      (hS.sorted e).sublist List.filter_sublist
    cases desk_committed h hS.filed e with
    | idle _ tickets _ | rewritten _ _ _ tickets _ => exact tickets ▸ hS.sorted e
    | issued hg _ tickets _ =>
      rw [tickets, List.pairwise_append]
      refine ⟨hS.sorted e, List.pairwise_singleton .., fun k hk _ hc => ?_⟩
      have hle := hS.filed.ticket_le hk
      rw [List.mem_singleton.1 hc, ControlRow.ticket, hg.requestId]
      exact Nat.lt_succ_of_le hle
    | used _ _ _ tickets _ | overtaken _ _ _ _ _ _ tickets _ | void _ _ tickets =>
      exact tickets ▸ hsub
    | cleared _ tickets => exact tickets ▸ List.Pairwise.nil

theorem tickets_initial (e : ExecutionId) : initial.tickets e = [] := rfl

theorem standing_initial : initial.Standing := by
  refine ⟨filed_initial, fun e k hk => ?_, fun e _ => tickets_initial e, fun e => ?_⟩
  · rw [tickets_initial] at hk
    cases hk
  · rw [tickets_initial]
    exact .nil

/-- Whatever calls are made, control requests are sound and stand in order. -/
theorem controls_standing (ls : List Label) :
    (after initial ls).Standing ∧ (after initial ls).Applicable := by
  refine ⟨(reachable_after ls).invariant (fun _ _ _ hS _ hst => ?_) standing_initial,
    applicable_of_run (reachable_after ls)⟩
  exact hst.cases.elim (fun h => h ▸ hS) hS.committed

/-! ## The two listings -/

theorem Filed.mem_pendingControls (hf : s.Filed) : c ∈ s.pendingControls e ↔
    s.controls.find? c.requestId = some c ∧ c.executionId = e ∧ c.phase.pending = true := by
  simp only [pendingControls, List.mem_insertionSort, List.mem_filter, Bool.and_eq_true,
    decide_eq_true_eq, Option.isNone_iff_eq_none, Table.find?_eq_some, and_true]
  refine and_congr_right fun hc => and_congr_right fun _ => ?_
  exact hf.closed _ c (Table.find?_eq_some.2 ⟨hc, rfl⟩)

theorem Filed.ticket_of_pending (hf : s.Filed) (hc : c ∈ s.pendingControls e) :
    c.ticket ∈ s.tickets e := by
  obtain ⟨hfind, he, hp⟩ := hf.mem_pendingControls.1 hc
  exact mem_tickets.2 ⟨c, hfind, he, hp, rfl⟩

theorem Filed.length_pendingControls (hf : s.Filed) (e : ExecutionId) :
    (s.pendingControls e).length = (s.tickets e).length := by
  rw [pendingControls, List.length_insertionSort, ← List.countP_eq_length_filter, tickets,
    List.length_filterMap_eq_countP]
  refine List.countP_congr fun c hc => ?_
  have hclosed := hf.closed _ c (Table.find?_eq_some.2 ⟨hc, rfl⟩)
  by_cases he : c.executionId = e
  · simp [ControlRow.ticketFor, he, hclosed]
  · simp [ControlRow.ticketFor, he]

theorem Accept.version {action : ExecutionControlAction} {row : ExecutionRow}
    (hg : Accept s now e action row c) (hf : s.Filed) :
    c.ticket.version = row.version + (s.tickets e).length := by
  obtain ⟨_, hp⟩ := hg.projected
  rw [← hf.length_pendingControls]
  exact version_of_projected hp

end Store
end Orchestrator
