import Orchestrator.Persistence.Proof.Tickets

/-!
# The order of control requests

What ordering there is among the requests of an execution rests on the versions their tickets are
for, and each result of this module names the calls that spoil it: a request whose transaction began
before those of requests already accepted, or a request made stale while later ones wait
(`controls_listed_in_order`); progress reported while requests wait (`controls_complete_in_order`);
the finalization of an execution with requests waiting (`no_control_outlives_attempt`).
-/

namespace Orchestrator

open Relational

variable {s s' : Store} {now : Timestamp} {e : ExecutionId} {c : ControlRow}

namespace Store

/-! ## Listing -/

/-- A request is made by a transaction that began no earlier than those of the waiting requests. -/
def timely (s : Store) (now : Timestamp) {β : Type} : StoreCall β → Bool
  | .requestControl id _ _ => (s.tickets id).all fun k => k.requestedAt ≤ now
  | _ => true

/-- A request that is overtaken when it is begun is the last one waiting. -/
def newest (s : Store) {β : Type} : StoreCall β → Bool
  | .beginControl r w a => (s.controls.find? r).all fun c =>
      (s.executions.find? c.executionId).all fun row =>
        decide (c.acceptedWorkerId = w ∧ c.acceptedAttemptId = a ∧ acceptedFor c row) ||
          (s.tickets c.executionId).all fun k => k.requestId ≤ r
  | _ => true

/-- Requests are accepted in the order their transactions began. -/
def inTurn : Store → Label → Prop := fun s l => s.timely l.now l.call

/-- The same, and none is made stale while later ones wait. -/
def inStep : Store → Label → Prop := fun s l => s.timely l.now l.call ∧ s.newest l.call

instance (s : Store) (l : Label) : Decidable (inTurn s l) := inferInstanceAs (Decidable (_ = true))
instance (s : Store) (l : Label) : Decidable (inStep s l) := inferInstanceAs (Decidable (_ ∧ _))

/-- Tickets were asked for in the order they were issued. -/
def Dated (s : Store) : Prop :=
  ∀ e, (s.tickets e).Pairwise fun a b => a.requestedAt ≤ b.requestedAt

/-- Tickets are for increasing versions, all below the one the next would be for. -/
structure Spaced (s : Store) : Prop where
  versions : ∀ e, (s.tickets e).Pairwise fun a b => a.version < b.version
  below : ∀ e row, s.executions.find? e = some row → ∀ k ∈ s.tickets e,
    k.version < row.version + (s.tickets e).length

theorem Dated.committed {β : Type} {call : StoreCall β} (hD : s.Dated) (hf : s.Filed)
    (hok : s.timely now call = true) (h : Committed now s call s') : s'.Dated := by
  intro e
  have hsub : ∀ {p : Ticket → Bool},
      ((s.tickets e).filter p).Pairwise fun a b => a.requestedAt ≤ b.requestedAt :=
    (hD e).sublist List.filter_sublist
  cases desk_committed h hf e with
  | idle _ tickets _ | rewritten _ _ _ tickets _ => exact tickets ▸ hD e
  | issued hg _ tickets _ =>
    rw [tickets, List.pairwise_append]
    refine ⟨hD e, List.pairwise_singleton .., fun k hk _ hc => ?_⟩
    rw [List.mem_singleton.1 hc, ControlRow.ticket, hg.requestedAt]
    exact of_decide_eq_true (List.all_eq_true.1 hok k hk)
  | used _ _ _ tickets _ | overtaken _ _ _ _ _ _ tickets _ | void _ _ tickets =>
    exact tickets ▸ hsub
  | cleared _ tickets => exact tickets ▸ List.Pairwise.nil

theorem length_le_filter_ne {l : List Ticket} (h : l.Pairwise fun a b => a.requestId < b.requestId)
    (r : Nat) : l.length ≤ (l.filter fun k => k.requestId ≠ r).length + 1 := by
  induction l with
  | nil => exact Nat.zero_le _
  | cons k l ih =>
    obtain ⟨hk, hl⟩ := List.pairwise_cons.1 h
    by_cases hr : k.requestId = r
    · -- no later ticket has this number
      have hrest : l.filter (fun x => x.requestId ≠ r) = l := by
        refine List.filter_eq_self.2 fun x hx => ?_
        have := hk x hx
        simp only [ne_eq, decide_eq_true_eq]
        omega
      rw [List.filter_cons_of_neg (by simp [hr]), hrest]
      exact Nat.le_refl _
    · rw [List.filter_cons_of_pos (by simp [hr]), List.length_cons, List.length_cons]
      have := ih hl
      omega

theorem rel_of_lt {R : Ticket → Ticket → Prop} {l : List Ticket}
    (hid : l.Pairwise fun a b => a.requestId < b.requestId) (hR : l.Pairwise R) {a b : Ticket}
    (ha : a ∈ l) (hb : b ∈ l) (hlt : a.requestId < b.requestId) : R a b := by
  have hboth := hid.and hR
  refine List.Pairwise.forall_of_forall_of_flip (l := l)
    (R := fun a b => a.requestId < b.requestId → R a b) (fun x _ hx => absurd hx (lt_irrefl _))
    (hboth.imp fun h _ => h.2) (hboth.imp fun h hx => ?_) ha hb hlt
  exact absurd hx (lt_asymm h.1)

theorem Spaced.committed {β : Type} {call : StoreCall β} (hP : s.Spaced) (hS : s.Standing)
    (hok : s.newest call = true) (h : Committed now s call s') : s'.Spaced := by
  have hsub : ∀ e {p : Ticket → Bool},
      ((s.tickets e).filter p).Pairwise fun a b => a.version < b.version :=
    fun e => (hP.versions e).sublist List.filter_sublist
  refine ⟨fun e => ?_, fun e row' hrow' k hk => ?_⟩
  · cases desk_committed h hS.filed e with
    | idle _ tickets _ | rewritten _ _ _ tickets _ => exact tickets ▸ hP.versions e
    | issued hg _ tickets _ =>
      rw [tickets, List.pairwise_append]
      refine ⟨hP.versions e, List.pairwise_singleton .., fun k hk _ hc => ?_⟩
      rw [List.mem_singleton.1 hc, hg.version hS.filed]
      exact hP.below e _ hg.found k hk
    | used _ _ _ tickets _ | overtaken _ _ _ _ _ _ tickets _ | void _ _ tickets =>
      exact tickets ▸ hsub e
    | cleared _ tickets => exact tickets ▸ List.Pairwise.nil
  · cases desk_committed h hS.filed e with
    | idle row tickets _ =>
      rw [tickets] at hk ⊢
      exact hP.below e row' (row ▸ hrow') k hk
    | @rewritten _ _ _ row'' _ hre hrow tickets _ =>
      rw [tickets] at hk ⊢
      obtain rfl := Option.mem_unique hrow' hrow
      obtain ⟨row, hrow⟩ := hS.rowed e k hk
      have hlt := hP.below e row hrow k hk
      rw [(hre.over hrow).1]
      omega
    | issued hg hrow tickets _ =>
      rw [hrow, hg.found] at hrow'
      obtain rfl := Option.some.inj hrow'
      rw [tickets] at hk ⊢
      rw [List.length_append, List.length_singleton]
      rcases List.mem_append.1 hk with hk | hk
      · have hlt := hP.below e _ hg.found k hk
        omega
      · rw [List.mem_singleton.1 hk, hg.version hS.filed]
        omega
    | @used _ _ _ c _ hg id hrow tickets _ =>
      obtain rfl := Option.mem_unique hrow' hrow
      rw [tickets] at hk ⊢
      have hlt := hP.below e _ (id ▸ hg.found) k (List.mem_filter.1 hk).1
      have hlen := length_le_filter_ne (hS.sorted e) c.requestId
      simp only [controlled]
      omega
    | @overtaken w a c row _ control id pending found changed hrow tickets _ =>
      rw [hrow, found] at hrow'
      obtain rfl := Option.some.inj hrow'
      rw [tickets] at hk ⊢
      obtain ⟨hk, hne⟩ := List.mem_filter.1 hk
      have hmem : c.ticket ∈ s.tickets e := mem_tickets.2 ⟨c, control, id, pending, rfl⟩
      -- the row has changed, so the overtaken request is the last one
      have hlast : k.requestId ≤ c.requestId := by
        simp only [newest, control, id, found, Option.all_some, Bool.or_eq_true, decide_eq_true_eq,
          List.all_eq_true] at hok
        rcases changed with hchanged | hcancel
        · exact hok.resolve_left hchanged k hk
        · rw [hS.halted e hcancel] at hk
          cases hk
      have hlt : k.requestId < c.ticket.requestId :=
        lt_of_le_of_ne hlast (by simpa [ControlRow.ticket] using hne)
      have hver := rel_of_lt (hS.sorted e) (hP.versions e) hk hmem hlt
      have hbelow := hP.below e _ found _ hmem
      have hlen := length_le_filter_ne (hS.sorted e) c.requestId
      omega
    | void pending _ tickets =>
      rw [tickets, hS.halted e pending] at hk
      cases hk
    | cleared _ tickets =>
      rw [tickets] at hk
      cases hk

theorem dated_run (h : Reaches Orchestrator.Step inTurn initial s) : s.Standing ∧ s.Dated := by
  refine Reaches.invariant (I := fun t => t.Standing ∧ t.Dated) ?_ h
    ⟨standing_initial, fun e => tickets_initial e ▸ .nil⟩
  rintro t l t' ⟨hS, hD⟩ hok hst
  rcases hst.cases with rfl | hc
  · exact ⟨hS, hD⟩
  · exact ⟨hS.committed hc, hD.committed hS.filed hok hc⟩

theorem spaced_run (h : Reaches Orchestrator.Step inStep initial s) : s.Spaced := by
  refine (Reaches.invariant (I := fun t => t.Standing ∧ t.Spaced) ?_ h
    ⟨standing_initial, fun e => tickets_initial e ▸ .nil, fun e _ _ k hk => ?_⟩).2
  · rintro t l t' ⟨hS, hP⟩ hok hst
    rcases hst.cases with rfl | hc
    · exact ⟨hS, hP⟩
    · exact ⟨hS.committed hc, hP.committed hS hok.2 hc⟩
  · rw [tickets_initial] at hk
    cases hk

instance : Std.Total ControlRow.before where
  total a b := by
    rcases lt_trichotomy a.requestedAt b.requestedAt with h | h | h
    · exact .inl (.inl h)
    · exact (Nat.le_total a.requestId b.requestId).imp (fun hle => .inr ⟨h, hle⟩)
        fun hle => .inr ⟨h.symm, hle⟩
    · exact .inr (.inl h)

instance : IsTrans ControlRow ControlRow.before where
  trans a b c := by
    rintro (hab | ⟨hab, hid⟩) (hbc | ⟨hbc, hid'⟩)
    · exact .inl (hab.trans hbc)
    · exact .inl (hbc ▸ hab)
    · exact .inl (hab ▸ hbc)
    · exact .inr ⟨hab.trans hbc, hid.trans hid'⟩

theorem sorted_by_id (hS : s.Standing) (hD : s.Dated) {l : List ControlRow}
    (hl : ∀ c ∈ l, s.controls.find? c.requestId = some c ∧ c.phase.pending = true) (hnd : l.Nodup) :
    (l.insertionSort ControlRow.before).Pairwise fun a b =>
      a.executionId = b.executionId → a.requestId < b.requestId := by
  have hnd' : (l.insertionSort ControlRow.before).Nodup :=
    (List.perm_insertionSort _ l).nodup_iff.2 hnd
  refine ((List.pairwise_insertionSort _ l).and hnd').imp_of_mem fun {a b} ha hb h he => ?_
  obtain ⟨hfa, hpa⟩ := hl a (by simpa using ha)
  obtain ⟨hfb, hpb⟩ := hl b (by simpa using hb)
  have hne : a.requestId ≠ b.requestId := fun hid =>
    h.2 (Option.some.inj (hfa.symm.trans (hid ▸ hfb)))
  by_contra hlt
  have hle : b.ticket.requestedAt ≤ a.ticket.requestedAt :=
    rel_of_lt (hS.sorted a.executionId) (hD a.executionId)
      (mem_tickets.2 ⟨b, hfb, he.symm, hpb, rfl⟩) (mem_tickets.2 ⟨a, hfa, rfl, hpa, rfl⟩)
      (by simp only [ControlRow.ticket]; omega)
  rcases h.1 with hbefore | ⟨_, hid⟩
  · exact absurd hle (not_le.2 hbefore)
  · omega

theorem nodup_pending (s : Store) (p : ControlRow → Bool) : (s.controls.rows.filter p).Nodup :=
  (List.Nodup.of_map _ s.controls.nodup).sublist List.filter_sublist

theorem pendingControls_sorted (hS : s.Standing) (hD : s.Dated) (e : ExecutionId) :
    (s.pendingControls e).Pairwise fun a b => a.requestId < b.requestId := by
  have hmem : ∀ c ∈ s.pendingControls e, c.executionId = e := fun c hc =>
    (hS.filed.mem_pendingControls.1 hc).2.1
  have hsorted := sorted_by_id hS hD
    (l := s.controls.rows.filter fun c => c.executionId = e && c.completedAt.isNone) (fun c hc => ?_)
    (nodup_pending s _)
  · exact hsorted.imp_of_mem fun ha hb h => h ((hmem _ ha).trans (hmem _ hb).symm)
  · have hc' : c ∈ s.pendingControls e := by simpa [pendingControls] using hc
    obtain ⟨hfind, _, hp⟩ := hS.filed.mem_pendingControls.1 hc'
    exact ⟨hfind, hp⟩

theorem mem_listPendingControls {w : WorkerId} {x : PendingExecutionControl}
    (h : x ∈ s.listPendingControls w) : ∃ c, s.controls.find? c.requestId = some c ∧
      c.phase.pending = true ∧ x.request = c.request ∧ x.acceptedVersion = c.acceptedVersion := by
  simp only [listPendingControls, List.mem_filterMap, List.mem_insertionSort, List.mem_filter,
    Option.map_eq_some_iff] at h
  obtain ⟨c, ⟨hc, hp⟩, _, _, rfl⟩ := h
  exact ⟨c, Table.find?_eq_some.2 ⟨hc, rfl⟩, hp, rfl, rfl⟩

theorem listPendingControls_sorted (hS : s.Standing) (hD : s.Dated) (w : WorkerId) :
    (s.listPendingControls w).Pairwise fun a b =>
      a.request.executionId = b.request.executionId → a.request.requestId < b.request.requestId := by
  have hsorted := sorted_by_id hS hD (l := s.controls.rows.filter fun c => c.phase.pending)
    (fun c hc => ⟨Table.find?_eq_some.2 ⟨(List.mem_filter.1 hc).1, rfl⟩, (List.mem_filter.1 hc).2⟩)
    (nodup_pending s _)
  refine List.Pairwise.filterMap _ (fun a b hab x hx y hy => ?_) hsorted
  simp only [Option.map_eq_some_iff] at hx hy
  obtain ⟨_, _, rfl⟩ := hx
  obtain ⟨_, _, rfl⟩ := hy
  exact hab

theorem version_lt (hS : s.Standing) (hP : s.Spaced) {a b : ControlRow}
    (ha : s.controls.find? a.requestId = some a) (hb : s.controls.find? b.requestId = some b)
    (hpa : a.phase.pending = true) (hpb : b.phase.pending = true)
    (he : a.executionId = b.executionId) (hlt : a.requestId < b.requestId) :
    a.acceptedVersion < b.acceptedVersion :=
  rel_of_lt (a := a.ticket) (b := b.ticket) (hS.sorted b.executionId) (hP.versions b.executionId)
    (mem_tickets.2 ⟨a, ha, he, hpa, rfl⟩) (mem_tickets.2 ⟨b, hb, rfl, hpb, rfl⟩) hlt

end Store

open Store

namespace Sample

/-- Two requests that are accepted in the order opposite to the one their transactions began in. -/
def crossed : List Label :=
  running ++ [⟨_, .requestControl ⟨"e"⟩ .pause "second", 20⟩,
    ⟨_, .requestControl ⟨"e"⟩ .resume "first", 10⟩]

def progress (now : Timestamp) : Label :=
  let started := inState .running (some ⟨"session"⟩)
  ⟨_, .recordProgress started (eventOf started .testsStarted) false, now⟩

/-- Progress is reported between two requests; the first is found overtaken, and a third follows. -/
def staled : List Label :=
  running ++ [⟨_, .requestControl ⟨"e"⟩ .forkConversation "one", 5⟩, progress 6,
    ⟨_, .requestControl ⟨"e"⟩ .forkConversation "two", 7⟩, ⟨_, .beginControl 1 ⟨"w"⟩ ⟨"a"⟩, 8⟩,
    ⟨_, .requestControl ⟨"e"⟩ .forkConversation "three", 9⟩]

end Sample

namespace Store

/-! ## Completion -/

/-- Nothing but a control moves an execution to another version while requests of it wait. -/
def quiet (s : Store) {β : Type} : StoreCall β → Bool
  | .transition id _ | .transitionWithEvent id _ _ => (s.tickets id).isEmpty
  | .recordProgress x _ _ => x.state.isTerminal || (s.tickets x.id).isEmpty
  | _ => true

/-- Executions are created by `create_execution`, and no progress is reported while requests
wait. -/
def undisturbed : Store → Label → Prop := fun s l => l.call.admissible ∧ s.quiet l.call

instance (s : Store) (l : Label) : Decidable (undisturbed s l) :=
  inferInstanceAs (Decidable (_ ∧ _))

/-- The tickets of the current attempt are for versions ahead, each by as many as wait before it. -/
def Ahead (current : Option AttemptId) : Nat → List Ticket → Prop
  | _, [] => True
  | v, k :: ks => (current = some k.attempt → v ≤ k.version) ∧ Ahead current (v + 1) ks

variable {β : Type} {current : Option AttemptId} {ks : List Ticket} {v : Nat} {k : Ticket}
  {call : StoreCall β}

theorem Ahead.mono {v w : Nat} (h : Ahead current w ks) (hle : v ≤ w) : Ahead current v ks := by
  induction ks generalizing v w with
  | nil => trivial
  | cons k ks ih => exact ⟨fun hk => hle.trans (h.1 hk), ih h.2 (Nat.succ_le_succ hle)⟩

theorem Ahead.filter
    (h : Ahead current v ks) (p : Ticket → Bool) : Ahead current v (ks.filter p) := by
  induction ks generalizing v with
  | nil => trivial
  | cons k ks ih =>
    cases hp : p k
    · rw [List.filter_cons_of_neg (by simp [hp])]
      exact (ih h.2).mono (Nat.le_succ v)
    · rw [List.filter_cons_of_pos hp]
      exact ⟨h.1, ih h.2⟩

theorem Ahead.append
    (h : Ahead current v ks) (hk : v + ks.length ≤ k.version) : Ahead current v (ks ++ [k]) := by
  induction ks generalizing v with
  | nil => exact ⟨fun _ => hk, trivial⟩
  | cons x ks ih =>
    refine ⟨h.1, ih h.2 ?_⟩
    rw [List.length_cons] at hk
    omega

theorem ahead_of_ne (h : ∀ k ∈ ks, current ≠ some k.attempt) : Ahead current v ks := by
  induction ks generalizing v with
  | nil => trivial
  | cons k ks ih =>
    exact ⟨fun hk => absurd hk (h k List.mem_cons_self),
      ih fun x hx => h x (List.mem_cons_of_mem _ hx)⟩

theorem Ahead.first
    (h : Ahead current v ks) (hk : k ∈ ks) (hcur : current = some k.attempt) (hv : k.version ≤ v) :
    ∃ rest, ks = k :: rest ∧ Ahead current (v + 1) rest := by
  have hnot : ∀ {w : Nat} {xs : List Ticket}, Ahead current w xs → k ∈ xs → w ≤ k.version := by
    intro w xs
    induction xs generalizing w with
    | nil => exact fun _ hx => nomatch hx
    | cons x xs ih =>
      intro hxs hx
      rcases List.mem_cons.1 hx with rfl | hx
      · exact hxs.1 hcur
      · exact (Nat.le_succ w).trans (ih hxs.2 hx)
  cases ks with
  | nil => cases hk
  | cons x rest =>
    rcases List.mem_cons.1 hk with rfl | hx
    · exact ⟨rest, rfl, h.2⟩
    · have := hnot h.2 hx
      omega

/-- What keeps the controls of executions in order. -/
structure Ordered (s : Store) : Prop where
  standing : s.Standing
  slate : ∀ e, (s.life e).Slate
  known : ∀ e k, k ∈ s.tickets e → ∃ t, s.attempts.find? k.attempt = some t
  ahead : ∀ e row, s.executions.find? e = some row → Ahead row.attemptId row.version (s.tickets e)
  done : ∀ r c, s.controls.find? r = some c → c.phase = .completed →
    ∀ k ∈ s.tickets c.executionId, r < k.requestId

theorem attempt_stays {a : AttemptId} {t : AttemptRow}
    (h : Committed now s call s') (ht : s.attempts.find? a = some t) :
    ∃ t', s'.attempts.find? a = some t' := by
  obtain rfl : t.attemptId = a := attempt_id ht
  have hlife := life_attempt ht
  rcases life_committed h t.executionId with hsame | ⟨act, _, hstep⟩
  · rw [← hsame] at hlife
    obtain ⟨t', ht', _⟩ := life_attempts_eq_some.1 hlife
    exact ⟨t', ht'⟩
  · obtain ⟨x, hx, _⟩ := hstep.attempt_kept hlife
    obtain ⟨t', ht', _⟩ := life_attempts_eq_some.1 hx
    exact ⟨t', ht'⟩

theorem known_committed (hO : s.Ordered) (h : Committed now s call s') (hk : k ∈ s'.tickets e) :
    ∃ t, s'.attempts.find? k.attempt = some t := by
  rcases (desk_committed h hO.standing.filed e).mem hk with hold | ⟨_, row, c, hg, rfl⟩
  · obtain ⟨t, ht⟩ := hO.known e k hold
    exact attempt_stays h ht
  · have hcur : (s.life e).current = some c.acceptedAttemptId := by
      rw [life_current hg.found, hg.attempt]
    obtain ⟨x, hx⟩ := (hO.slate e).known _ hcur
    obtain ⟨t, ht, _⟩ := life_attempts_eq_some.1 hx
    exact attempt_stays h ht

theorem first_of_complete {requestId : Nat} {x : Execution} {event : ExecutionEvent}
    {row : ExecutionRow} (hO : s.Ordered) (hg : Complete s requestId x event row c) :
    ∃ rest, s.tickets x.id = c.ticket :: rest ∧ Ahead row.attemptId (row.version + 1) rest := by
  obtain ⟨_, hcomp⟩ := completable_spec.1 hg.checked
  obtain rfl := control_id hg.control
  refine (hO.ahead _ row hg.found).first (mem_tickets.2 ⟨c, hg.control, hg.ownedBy, ?_, rfl⟩)
    hcomp.rowAttempt hcomp.rowVersion.ge
  rw [hg.applied]
  rfl

theorem ahead_committed (hO : s.Ordered)
    (hok : s.quiet call = true) (h : Committed now s call s') {row' : ExecutionRow}
    (hrow' : s'.executions.find? e = some row') :
    Ahead row'.attemptId row'.version (s'.tickets e) := by
  cases desk_committed h hO.standing.filed e with
  | idle row tickets _ => exact tickets ▸ hO.ahead e row' (row ▸ hrow')
  | rewritten plain hre hrow tickets _ =>
    rw [tickets]
    obtain rfl := Option.mem_unique hrow' hrow
    have hnil : s.tickets e = [] → Ahead row'.attemptId row'.version (s.tickets e) := fun h => by
      rw [h]
      trivial
    cases hre with
    | inserted new | created new =>
      refine hnil (List.eq_nil_iff_forall_not_mem.2 fun k hk => ?_)
      obtain ⟨_, hrow⟩ := hO.standing.rowed e k hk
      cases new.symm.trans hrow
    | cancelled | controlled => cases plain
    | settled hg => exact hnil (hO.standing.halted e hg.pending)
    | moved | announced => exact hnil (List.isEmpty_iff.1 hok)
    | progressed hg id =>
      subst id
      simp only [StoreCall.plain, Bool.not_eq_true'] at plain
      simp only [quiet, plain, Bool.false_or, List.isEmpty_iff] at hok
      exact hnil hok
    | claimed hg =>
      -- the new attempt was unknown, and those of the tickets are known
      refine ahead_of_ne fun k hk heq => ?_
      obtain ⟨t, ht⟩ := hO.known e k hk
      rw [← Option.some.inj heq] at ht
      cases hg.freshAttempt.symm.trans ht
    | detached => exact ahead_of_ne fun _ _ => by simp [detached]
  | issued hg row tickets _ =>
    rw [row, hg.found] at hrow'
    obtain rfl := Option.some.inj hrow'
    rw [tickets]
    exact (hO.ahead e _ hg.found).append (hg.version hO.standing.filed).ge
  | used hg id row tickets _ =>
    subst id
    obtain rfl := Option.mem_unique hrow' row
    obtain ⟨rest, hrest, hahead⟩ := first_of_complete hO hg
    rw [tickets, hrest, List.filter_cons_of_neg (by simp [ControlRow.ticket])]
    exact hahead.filter _
  | overtaken _ _ _ found _ row tickets _ | void _ row tickets =>
    rw [tickets]
    exact (hO.ahead e row' (row ▸ hrow')).filter _
  | cleared _ tickets =>
    rw [tickets]
    trivial

theorem done_committed {r : Nat} (hO : s.Ordered)
    (h : Committed now s call s') (hc : s'.controls.find? r = some c) (hdone : c.phase = .completed)
    (hk : k ∈ s'.tickets c.executionId) : r < k.requestId := by
  have hf := hO.standing.filed
  rcases completed_cases h hc hdone with hold | ⟨d, hh, hd, hput⟩
  · rcases (desk_committed h hf c.executionId).mem hk with hmem | ⟨_, _, d, hg, rfl⟩
    · exact hO.done r c hold hdone k hmem
    · have hle := hf.numbered r c hold
      rw [ControlRow.ticket, hg.requestId]
      exact Nat.lt_succ_of_le hle
  · have htickets := tickets_put_settled (e := c.executionId) hd hh.requestId hput (by rw [hdone]; rfl)
    obtain rfl := control_id hc
    cases hh with
    | completed hg =>
    -- the tickets behind the first have larger numbers
    obtain ⟨rest, hrest, _⟩ := first_of_complete hO hg
    rw [← hg.ownedBy] at hrest
    have hsorted := hO.standing.sorted d.executionId
    obtain ⟨hmem, hne⟩ := List.mem_filter.1 (htickets ▸ hk)
    rw [hrest] at hmem hsorted
    rcases List.mem_cons.1 hmem with rfl | hmem
    · simp [ControlRow.ticket] at hne
    · exact (List.pairwise_cons.1 hsorted).1 k hmem
    | _ => cases hdone

theorem ordered_run (h : Reaches Orchestrator.Step undisturbed initial s) : s.Ordered := by
  refine Reaches.invariant (I := Ordered) ?_ h
    ⟨standing_initial, fun _ => Life.slate_unborn, fun e k hk => ?_, fun e row hrow => ?_,
      fun r c hc => ?_⟩
  · intro t l t' hO hok hst
    rcases hst.cases with rfl | hc
    · exact hO
    exact ⟨hO.standing.committed hc, fun e => slate_step (hO.slate e) hok.1 hst,
      fun e k hk => known_committed hO hc hk, fun e row hrow => ahead_committed hO hok.2 hc hrow,
      fun r c hc' hdone k hk => done_committed hO hc hc' hdone hk⟩
  · rw [tickets_initial] at hk
    cases hk
  · simp [initial] at hrow
  · simp [initial] at hc

end Store

/-- Controls take effect in order, in every run in which no progress is reported, and no plain state
change made, while requests of the execution wait: a completed request has no waiting request of its
execution before it. -/
theorem controls_complete_in_order (h : Reaches Step undisturbed initial s)
    {r q : Nat} {d : ControlRow} (hc : s.controls.find? r = some c)
    (hd : s.controls.find? q = some d) (he : d.executionId = c.executionId)
    (hdone : c.phase = .completed) (hlt : q < r) : d.phase = .completed ∨ d.phase = .stale := by
  cases hp : d.phase.pending with
  | true =>
    obtain rfl := control_id hd
    have := (ordered_run h).done r c hc hdone d.ticket (mem_tickets.2 ⟨d, hd, he, hp, rfl⟩)
    simp only [ControlRow.ticket] at this
    omega
  | false => cases hph : d.phase <;> simp_all [ControlPhase.pending]

namespace Sample

/-- The calls of a worker that resumes the execution for request `r`. -/
def resuming (r : Nat) (now : Timestamp) : List Label :=
  let started := inState .running (some ⟨"session"⟩)
  [⟨_, .beginControl r ⟨"w"⟩ ⟨"a"⟩, now⟩, ⟨_, .markControlSideEffectApplied r none, now⟩,
    ⟨_, .completeControl r started (eventOf started .executionResumed), now⟩]

def obeyed : List Label :=
  running ++ [⟨_, .requestControl ⟨"e"⟩ .pause "one", 5⟩,
    ⟨_, .requestControl ⟨"e"⟩ .resume "two", 6⟩] ++ pausing 1 7 ++ resuming 2 8

/-- Progress is reported twice while three requests wait, and the worker turns to the third. -/
def overtaking : List Label :=
  running ++ [⟨_, .requestControl ⟨"e"⟩ .pause "one", 5⟩, ⟨_, .requestControl ⟨"e"⟩ .resume "two", 6⟩,
    ⟨_, .requestControl ⟨"e"⟩ .pause "three", 7⟩, progress 8, progress 9] ++ pausing 3 10

/-- Identifier, execution and phase of request `r`. -/
def phaseOf (s : Store) (r : Nat) : Option (ExecutionId × ControlPhase) :=
  (s.controls.find? r).map fun c => (c.executionId, c.phase)

theorem exists_of_phaseOf {s : Store} {r : Nat} {e : ExecutionId} {p : ControlPhase}
    (h : phaseOf s r = some (e, p)) :
    ∃ c, s.controls.find? r = some c ∧ c.executionId = e ∧ c.phase = p := by
  obtain ⟨c, hc, hx⟩ := Option.map_eq_some_iff.1 h
  obtain ⟨he, hp⟩ := Prod.mk.inj hx
  exact ⟨c, hc, he, hp⟩

end Sample

open Sample in
theorem controls_complete_in_order_sample : ∃ c d, (after initial obeyed).controls.find? 2 = some c ∧
    (after initial obeyed).controls.find? 1 = some d ∧ c.phase = .completed ∧
    (d.phase = .completed ∨ d.phase = .stale) := by
  obtain ⟨c, hc, hce, hcp⟩ := exists_of_phaseOf
    (show phaseOf (after initial obeyed) 2 = some (⟨"e"⟩, .completed) by decide)
  obtain ⟨d, hd, hde, _⟩ := exists_of_phaseOf
    (show phaseOf (after initial obeyed) 1 = some (⟨"e"⟩, .completed) by decide)
  exact ⟨c, d, hc, hd, hcp, controls_complete_in_order (reaches_of_allMet (by decide)) hc hd
    (hde.trans hce.symm) hcp (by decide)⟩

open Sample in
/-- Progress brings the row to the version a later request was accepted for, and that request
completes while the two before it still wait. -/
theorem controls_complete_out_of_order : ¬ ∀ s, Reachable s → ∀ (r q : Nat) (c d : ControlRow),
    s.controls.find? r = some c → s.controls.find? q = some d → d.executionId = c.executionId →
    c.phase = .completed → q < r → d.phase = .completed ∨ d.phase = .stale := by
  intro h
  obtain ⟨c, hc, hce, hcp⟩ := exists_of_phaseOf
    (show phaseOf (after initial overtaking) 3 = some (⟨"e"⟩, .completed) by decide)
  obtain ⟨d, hd, hde, hdp⟩ := exists_of_phaseOf
    (show phaseOf (after initial overtaking) 1 = some (⟨"e"⟩, .accepted) by decide)
  have := h _ (reachable_after overtaking) 3 1 c d hc hd (hde.trans hce.symm) hcp (by decide)
  rw [hdp] at this
  rcases this with h | h <;> cases h

namespace Store

/-! ## The end of an attempt -/

/-- An execution is finalized when no request of it waits, and its state is never changed from
outside. -/
def discharged (s : Store) {β : Type} : StoreCall β → Bool
  | .transition .. | .transitionWithEvent .. => false
  | .finalizeCleanup id _ => (s.tickets id).isEmpty
  | _ => true

def wellEnded : Store → Label → Prop := fun s l => l.call.admissible ∧ s.discharged l.call

instance (s : Store) (l : Label) : Decidable (wellEnded s l) :=
  inferInstanceAs (Decidable (_ ∧ _))

/-- Requests wait only for the current attempt of an execution that is neither over nor queued. -/
structure Awaited (s : Store) (e : ExecutionId) (row : ExecutionRow) : Prop where
  done : row.state.isTerminal = true ∨ row.state = .queued → s.tickets e = []
  current : ∀ k ∈ s.tickets e, row.attemptId = some k.attempt

structure Attended (s : Store) : Prop where
  standing : s.Standing
  slate : ∀ e, (s.life e).Slate
  awaited : ∀ e row, s.executions.find? e = some row → s.Awaited e row

variable {row : ExecutionRow}

theorem awaited_nil (h : s.tickets e = []) : s.Awaited e row := by
  refine ⟨fun _ => h, fun k hk => ?_⟩
  rw [h] at hk
  cases hk

theorem Awaited.filter {p : Ticket → Bool} (h : s.Awaited e row)
    (hs : s'.tickets e = (s.tickets e).filter p) : s'.Awaited e row := by
  refine ⟨fun hover => ?_, fun k hk => h.current k (List.mem_filter.1 (hs ▸ hk)).1⟩
  rw [hs, h.done hover]
  rfl

theorem Attended.accepting {action : ExecutionControlAction}
    (hA : s.Attended) (hg : Accept s now e action row c) :
    ¬ (row.state.isTerminal = true ∨ row.state = .queued) := by
  intro hover
  -- nothing waits, so the projection is the row itself
  have hnil : s.pendingControls e = [] := by
    refine List.eq_nil_of_length_eq_zero ?_
    rw [hA.standing.filed.length_pendingControls, (hA.awaited e row hg.found).done hover]
    rfl
  obtain ⟨_, hp⟩ := hg.projected
  rw [hnil] at hp
  have hstate : row.state = c.acceptedState := congrArg Projection.state (Txn.pure_eq_ok.1 hp)
  have hallowed := hg.allowed
  rw [← hstate] at hallowed
  rcases hover with h | h
  · cases hst : row.state <;> rw [hst] at h hallowed <;> cases action <;> cases h <;> cases hallowed
  · rw [h] at hallowed
    cases action <;> cases hallowed

theorem Attended.committed {β : Type} {call : StoreCall β} (hA : s.Attended)
    (hadm : call.admissible = true) (hok : s.discharged call = true) (h : Committed now s call s')
    {row' : ExecutionRow} (hrow' : s'.executions.find? e = some row') : s'.Awaited e row' := by
  cases desk_committed h hA.standing.filed e with
  | idle row tickets _ =>
    have hold := hA.awaited e row' (row ▸ hrow')
    exact ⟨tickets ▸ hold.done, tickets ▸ hold.current⟩
  | rewritten plain hre hrow tickets _ =>
    obtain rfl := Option.mem_unique hrow' hrow
    cases hre with
    | inserted => cases hadm
    | created new =>
      refine awaited_nil (tickets.trans (List.eq_nil_iff_forall_not_mem.2 fun k hk => ?_))
      obtain ⟨_, hrow⟩ := hA.standing.rowed e k hk
      cases new.symm.trans hrow
    | cancelled | controlled => cases plain
    | settled hg => exact awaited_nil (tickets.trans (hA.standing.halted e hg.pending))
    | moved | announced => cases hok
    | @progressed x _ _ _ _ hg id =>
      subst id
      have hlive : x.state.isTerminal = false := by simpa [StoreCall.plain] using plain
      refine ⟨fun hover => ?_, fun k hk =>
        hg.current.trans ((hA.awaited _ _ hg.found).current k (tickets ▸ hk))⟩
      rcases hover with hterm | hq
      · cases hlive.symm.trans hterm
      · exact absurd hq (hg.left_queue (hA.slate _))
    | claimed hg id =>
      exact awaited_nil (tickets.trans ((hA.awaited e _ (id ▸ hg.found)).done (.inr hg.queued)))
    | detached => exact awaited_nil (tickets.trans (List.isEmpty_iff.1 hok))
  | issued hg row tickets _ =>
    rw [row, hg.found] at hrow'
    obtain rfl := Option.some.inj hrow'
    refine ⟨fun hover => absurd hover (hA.accepting hg), fun k hk => ?_⟩
    rw [tickets] at hk
    rcases List.mem_append.1 hk with hk | hk
    · exact (hA.awaited e _ hg.found).current k hk
    · rw [List.mem_singleton.1 hk]
      exact hg.attempt
  | used hg id row tickets _ =>
    subst id
    obtain rfl := Option.mem_unique hrow' row
    obtain ⟨_, hcomp⟩ := completable_spec.1 hg.checked
    have hleft := (hA.awaited _ _ hg.found).filter tickets
    refine ⟨fun hover => ?_, hleft.current⟩
    rcases hcomp.moves with hsame | ⟨_, hst⟩
    · exact hleft.done (hsame ▸ hover)
    · simp only [controlled] at hover
      rcases hst with hst | hst <;> rw [hst] at hover <;> rcases hover with h | h <;> cases h
  | overtaken _ _ _ _ _ row tickets _ | void _ row tickets =>
    exact (hA.awaited e row' (row ▸ hrow')).filter tickets
  | cleared _ tickets => exact awaited_nil tickets

theorem attended_run (h : Reaches Orchestrator.Step wellEnded initial s) : s.Attended := by
  refine Reaches.invariant (I := Attended) ?_ h ⟨standing_initial, fun _ => Life.slate_unborn,
    fun e _ _ => awaited_nil (tickets_initial e)⟩
  intro t l t' hA hok hst
  rcases hst.cases with rfl | hc
  · exact hA
  · exact ⟨hA.standing.committed hc, fun e => slate_step (hA.slate e) hok.1 hst,
      fun e row hrow => hA.committed hok.1 hok.2 hc hrow⟩

end Store

namespace Sample

/-- The worker that was asked to pause is recovered as lost, its resources are cleaned up, and the
execution is finalized. -/
def cleanedUp : List Label :=
  let advance (a b : CleanupDisposition) : Label := ⟨_, .transitionCleanup ⟨"e"⟩ a b {}, 10⟩
  lost ++ [advance .cleanupPending .runtimeStopped, advance .runtimeStopped .runtimeDestroyed,
    advance .runtimeDestroyed .gitRecoveredCleaned, advance .gitRecoveredCleaned .storageReleased,
    ⟨_, .finalizeCleanup ⟨"e"⟩ ⟨"a"⟩, 11⟩]

def regranted : List Label :=
  cleanedUp ++ [⟨_, .resolve ⟨"e"⟩, 12⟩, ⟨_, .register worker, 13⟩,
    ⟨_, .reserveNext ⟨"w"⟩ ⟨"b"⟩ [], 14⟩]

end Sample

end Orchestrator
