import Orchestrator.Api.Events
import Orchestrator.Persistence.Proof.EventLog

/-!
# The event stream is complete

What a stream has emitted, what it has pending and what the log still holds for it are consecutive
pieces of the durable log (`Subscription.Follows`): a batch starts where the cursor stands, and only
the cursor's successor is ever taken. So nothing is skipped and nothing comes twice.

After a wake-up the stream does not wait again before it has seen a batch that is not full
(`Subscription.Owes`): such a batch holds the rest of the log, whose end is past everything committed
before the wake-up.
-/

namespace Orchestrator

open EventLog

/-- The stream has nothing to do until the channel wakes it up. -/
def StreamState.Waits (state : StreamState) : Prop := state.pending = [] ∧ state.needsFetch = false

theorem events_ok {found : Except StoreError Unit}
    {sinceBatch : Nat → Nat → Except StoreError (List ExecutionEvent)} {id : ExecutionId}
    {query header : Option (Option Nat)} {stream : StreamState}
    (h : events found sinceBatch id query header = .ok stream) :
    ∃ batch, sinceBatch stream.cursor eventBatchSize = .ok batch ∧
      stream = ⟨id, stream.cursor, batch, batch.length = eventBatchSize⟩ := by
  cases query with
  | none => cases h
  | some query =>
    cases found with
    | error => cases h
    | ok =>
      simp only [events, Except.mapError, bind, Except.bind] at h
      split at h
      · cases h
      split at h
      · cases h
      cases hb : sinceBatch (((header.bind fun value => value).or query).getD 0) eventBatchSize with
      | error => rw [hb] at h; cases h
      | ok batch =>
        rw [hb] at h
        cases h
        exact ⟨batch, hb, rfl⟩

namespace Subscription

variable {κ : Type} [DecidableEq κ] {hash : ExecutionId → κ} {sys sys' : Subscription κ} {act : Act}
  {id : ExecutionId} {c n : Nat}

/-- What a step of the system can do. -/
inductive Does (hash : ExecutionId → κ) (sys : Subscription κ) : Act → Subscription κ → Prop
  | database {act log} (step : sys.log.next hash act = some log) :
      Does hash sys (.database act) { sys with log }
  | emitted {state event pending} (here : sys.stream = some state)
      (next : state.pending = event :: pending) (new : state.cursor < event.sequence) :
      Does hash sys .turn { sys with
        stream := some { state with pending, cursor := event.sequence }
        emitted := sys.emitted ++ [toSse event] }
  | skipped {state event pending} (here : sys.stream = some state)
      (next : state.pending = event :: pending) (old : event.sequence ≤ state.cursor) :
      Does hash sys .turn { sys with stream := some { state with pending } }
  | fetched {state batch} (here : sys.stream = some state) (none : state.pending = [])
      (due : state.needsFetch = true)
      (read : sys.log.sinceBatch state.executionId state.cursor eventBatchSize = batch) :
      Does hash sys (.fetch .none) { sys with
        stream := some { state with
          pending := batch, needsFetch := decide (batch.length = eventBatchSize) } }
  | failed {error} : Does hash sys (.fetch (some error)) { sys with stream := none }
  | woken {state result} (here : sys.stream = some state) (waits : state.Waits)
      (open_ : result ≠ .closed) :
      Does hash sys (.receive result) { sys with stream := some { state with needsFetch := true } }
  | closed {state} (here : sys.stream = some state) (waits : state.Waits) :
      Does hash sys (.receive .closed) { sys with stream := none }

theorem does_of_next (h : sys.next hash act = some sys') : Does hash sys act sys' := by
  cases act with
  | database act =>
    obtain ⟨log, hstep, rfl⟩ := Option.map_eq_some_iff.1 h
    exact .database hstep
  | turn =>
    obtain ⟨⟨e, cursor, _ | ⟨event, pending⟩, needsFetch⟩, hstate, h⟩ := Option.bind_eq_some_iff.1 h
    · cases needsFetch <;> cases h
    · by_cases hold : event.sequence ≤ cursor
      · simp only [StreamState.round, hold, if_true, Option.some.injEq] at h
        exact h ▸ .skipped hstate rfl hold
      · simp only [StreamState.round, hold, if_false, Option.some.injEq] at h
        exact h ▸ .emitted hstate rfl (by simpa using hold)
  | fetch failure =>
    obtain ⟨⟨e, cursor, _ | ⟨event, pending⟩, needsFetch⟩, hstate, h⟩ := Option.bind_eq_some_iff.1 h
    · cases needsFetch with
      | false => cases h
      | true =>
        cases failure with
        | none => exact Option.some.inj h ▸ .fetched hstate rfl rfl rfl
        | some error => exact Option.some.inj h ▸ .failed
    · by_cases hold : event.sequence ≤ cursor <;> simp [StreamState.round, hold] at h
  | receive result =>
    obtain ⟨⟨e, cursor, _ | ⟨event, pending⟩, needsFetch⟩, hstate, h⟩ := Option.bind_eq_some_iff.1 h
    · cases needsFetch with
      | false =>
        cases result with
        | closed => exact Option.some.inj h ▸ .closed hstate ⟨rfl, rfl⟩
        | elapsed | message | lagged => exact Option.some.inj h ▸ .woken hstate ⟨rfl, rfl⟩ nofun
      | true => cases h
    · by_cases hold : event.sequence ≤ cursor <;> simp [StreamState.round, hold] at h

variable {state : StreamState}

theorem next_of_not_waits (h : sys.stream = some state) (hw : ¬state.Waits) :
    ∃ act ∈ [Act.turn, .fetch none], (sys.next hash act).isSome := by
  obtain ⟨e, cursor, _ | ⟨event, pending⟩, needsFetch⟩ := state
  · cases needsFetch with
    | false => exact absurd ⟨rfl, rfl⟩ hw
    | true => exact ⟨.fetch none, by simp, by rw [next, h]; rfl⟩
  · refine ⟨.turn, by simp, ?_⟩
    by_cases hold : event.sequence ≤ cursor <;> simp [next, h, StreamState.round, hold]

/-! ## What was emitted -/

/-- The cursor and what is pending fit what was emitted and the log. -/
structure Fits (id : ExecutionId) (c : Nat) (log : EventLog κ) (emitted : List SseEvent)
    (state : StreamState) : Prop where
  owner : state.executionId = id
  cursor : state.cursor = c + emitted.length
  pending : state.pending <+: (log.durable id).drop state.cursor

/-- The stream emits the log after `c`, and goes on where it stands. -/
structure Follows (id : ExecutionId) (c : Nat) (sys : Subscription κ) : Prop where
  emitted : sys.emitted <+: ((sys.log.durable id).drop c).map toSse
  stream : ∀ state, sys.stream = some state → Fits id c sys.log sys.emitted state

omit [DecidableEq κ] in
theorem Follows.ended (h : Follows id c sys) : Follows id c { sys with stream := none } :=
  ⟨h.emitted, nofun⟩

omit [DecidableEq κ] in
theorem Follows.resume (h : Follows id c sys) (hfits : Fits id c sys.log sys.emitted state) :
    Follows id c { sys with stream := some state } :=
  ⟨h.emitted, fun _ hstate => Option.some.inj hstate ▸ hfits⟩

omit [DecidableEq κ] in
/-- The head of what is pending is the event after the cursor. -/
theorem Fits.head {log : EventLog κ} {emitted : List SseEvent}
    {event : ExecutionEvent} {pending : List ExecutionEvent} (h : Fits id c log emitted state)
    (hs : Sound hash log) (next : state.pending = event :: pending) :
    event.sequence = state.cursor + 1 ∧
      (log.durable id).drop state.cursor = event :: (log.durable id).drop (state.cursor + 1) ∧
      pending <+: (log.durable id).drop (state.cursor + 1) := by
  obtain ⟨rest, hrest⟩ := next ▸ h.pending
  rw [List.cons_append] at hrest
  have htail := List.tail_drop (l := log.durable id) (i := state.cursor)
  rw [← hrest, List.tail_cons] at htail
  have hseq := congrArg (List.map fun event => event.sequence) hrest
  rw [List.map_drop, hs.durable_sequences, List.drop_range', Nat.mul_one] at hseq
  refine ⟨?_, by rw [← hrest, htail], rest, htail⟩
  cases hlen : (log.durable id).length - state.cursor with
  | zero => rw [hlen] at hseq; cases hseq
  | succ k =>
    rw [hlen, List.range'_succ, List.map_cons] at hseq
    rw [(List.cons.inj hseq).1, Nat.add_comm]

theorem emitted_snoc {emitted : List SseEvent} {events : List ExecutionEvent}
    {event : ExecutionEvent} {rest : List ExecutionEvent} (h : emitted <+: (events.drop c).map toSse)
    (hdrop : events.drop (c + emitted.length) = event :: rest) :
    emitted ++ [toSse event] <+: (events.drop c).map toSse := by
  obtain ⟨later, hlater⟩ := h
  have hnext : later = toSse event :: rest.map toSse := by
    have hdropped := congrArg (List.drop emitted.length) hlater
    rw [List.drop_left, ← List.map_drop, List.drop_drop, hdrop] at hdropped
    exact hdropped
  exact ⟨rest.map toSse, by rw [← hlater, hnext, List.append_assoc]; rfl⟩

theorem Follows.step (h : Follows id c sys) (hs : Sound hash sys.log)
    (hstep : sys.next hash act = some sys') : Follows id c sys' := by
  cases does_of_next hstep with
  | database step =>
    have hgrown := durable_prefix step id
    refine ⟨h.emitted.trans ((hgrown.drop c).map toSse), fun state here => ?_⟩
    have hfits := h.stream state here
    exact ⟨hfits.owner, hfits.cursor, hfits.pending.trans (hgrown.drop _)⟩
  | emitted here next new =>
    have hfits := h.stream _ here
    obtain ⟨hseq, hdrop, hrest⟩ := hfits.head hs next
    rw [hfits.cursor] at hseq hdrop
    refine ⟨emitted_snoc h.emitted hdrop, fun state hstate => ?_⟩
    obtain rfl := Option.some.inj hstate
    refine ⟨hfits.owner, ?_, ?_⟩
    · rw [List.length_append, List.length_singleton]
      exact hseq
    · rw [hfits.cursor, ← hseq] at hrest
      exact hrest
  | skipped here next old =>
    have hseq := ((h.stream _ here).head hs next).1
    omega
  | fetched here none due read =>
    have hfits := h.stream _ here
    refine h.resume ⟨hfits.owner, hfits.cursor, ?_⟩
    rw [← read, hfits.owner, hs.sinceBatch_eq]
    exact List.take_prefix ..
  | failed | closed => exact h.ended
  | woken here =>
    have hfits := h.stream _ here
    exact h.resume ⟨hfits.owner, hfits.cursor, hfits.pending⟩

theorem sound_step (hs : Sound hash sys.log) (hstep : sys.next hash act = some sys') :
    Sound hash sys'.log := by
  cases does_of_next hstep with
  | database step => exact hs.step step
  | _ => exact hs

theorem durable_step (hstep : sys.next hash act = some sys') (id : ExecutionId) :
    sys.log.durable id <+: sys'.log.durable id := by
  cases does_of_next hstep with
  | database step => exact durable_prefix step id
  | _ => exact List.prefix_rfl

theorem emitted_step (hstep : sys.next hash act = some sys') : sys.emitted <+: sys'.emitted := by
  cases does_of_next hstep with
  | emitted => exact List.prefix_append ..
  | _ => exact List.prefix_rfl

theorem nexts_invariant {I : Subscription κ → Prop} {acts : List Act}
    (hstep : ∀ {a sys sys'}, I sys → a ∈ acts → next hash sys a = some sys' → I sys')
    (h : sys.nexts hash acts = some sys') (hI : I sys) : I sys' := by
  induction acts generalizing sys with
  | nil => exact Option.some.inj h ▸ hI
  | cons a acts ih =>
    obtain ⟨sys₁, hnext, hrest⟩ := Option.bind_eq_some_iff.1 h
    exact ih (fun hI ha => hstep hI (List.mem_cons_of_mem _ ha)) hrest
      (hstep hI List.mem_cons_self hnext)

theorem follows_run {acts : List Act} (hs : Sound hash sys.log) (h : Follows id c sys)
    (hrun : sys.nexts hash acts = some sys') : Sound hash sys'.log ∧ Follows id c sys' :=
  nexts_invariant (I := fun sys => Sound hash sys.log ∧ Follows id c sys)
    (fun hI _ hnext => ⟨sound_step hI.1 hnext, hI.2.step hI.1 hnext⟩) hrun ⟨hs, h⟩

omit [DecidableEq κ] in
theorem follows_open {log : EventLog κ} (hs : Sound hash log) {found : Except StoreError Unit}
    {query header : Option (Option Nat)} {stream : StreamState}
    (h : events found (fun after limit => .ok (log.sinceBatch id after limit)) id query header =
      .ok stream) : Follows id stream.cursor ⟨log, some stream, []⟩ := by
  obtain ⟨batch, hbatch, hstream⟩ := events_ok h
  refine ⟨List.nil_prefix, fun state hstate => ?_⟩
  obtain rfl := Option.some.inj hstate
  refine ⟨by rw [hstream], rfl, ?_⟩
  rw [hstream, ← Except.ok.inj hbatch, hs.sinceBatch_eq]
  exact List.take_prefix ..

omit [DecidableEq κ] in
theorem Follows.sequences (h : Follows id c sys) (hs : Sound hash sys.log) :
    sys.emitted.map (fun x => x.data.sequence) = List.range' (c + 1) sys.emitted.length := by
  have htake := List.prefix_iff_eq_take.1 h.emitted
  have hmap := congrArg (List.map fun x => x.data.sequence) htake
  have hlen := h.emitted.length_le
  rw [List.length_map, List.length_drop] at hlen
  have hdata : ((fun x => x.data.sequence) ∘ toSse) = fun event => event.sequence := rfl
  rw [List.map_take, List.map_map, hdata, List.map_drop, hs.durable_sequences, List.drop_range',
    Gapless.take_range', Nat.mul_one, Nat.add_comm 1, Nat.min_eq_left hlen] at hmap
  exact hmap

end Subscription

/-! ## What is emitted after a wake-up -/

/-- The stream has the log up to `n` pending, or fetches before it waits. -/
def StreamState.Owes (n : Nat) (state : StreamState) : Prop :=
  state.needsFetch = true ∨ n ≤ state.cursor + state.pending.length

/-- How many steps the stream takes at most up to `n`: a fetch and an emission for each event. -/
def StreamState.budget (n : Nat) (state : StreamState) : Nat :=
  2 * (n - state.cursor) + if state.pending = [] then 1 else 0

variable {n : Nat} {state : StreamState}

theorem StreamState.budget_woken (h : state.pending = []) :
    budget n { state with needsFetch := true } = 2 * (n - state.cursor) + 1 := by
  rw [budget, h, if_pos rfl]

theorem StreamState.le_of_budget (h : state.budget n ≤ 1) : n ≤ state.cursor := by
  rw [budget] at h
  omega

theorem StreamState.Owes.of_waits (h : state.Owes n) (hw : state.Waits) : n ≤ state.cursor := by
  rcases h with h | h
  · cases hw.2.symm.trans h
  · rwa [hw.1] at h

namespace Subscription

variable {κ : Type} [DecidableEq κ] {hash : ExecutionId → κ} {sys sys' : Subscription κ} {act : Act}
  {id : ExecutionId} {c n : Nat}

/-- A stream that owes the log up to `n` comes closer with each of its steps. -/
theorem owes_step {state : StreamState} (h : Follows id c sys) (hs : Sound hash sys.log)
    (hn : n ≤ (sys.log.durable id).length) (here : sys.stream = some state) (ho : state.Owes n)
    (hok : ∀ e, act ≠ .fetch (some e)) (hstep : sys.next hash act = some sys') :
    n ≤ c + sys'.emitted.length ∨ ∃ state', sys'.stream = some state' ∧ state'.Owes n ∧
      state'.budget n + (if act.own then 1 else 0) ≤ state.budget n := by
  have hfits := h.stream _ here
  by_cases hdone : n ≤ c + sys.emitted.length
  · exact .inl (hdone.trans (Nat.add_le_add_left (emitted_step hstep).length_le c))
  rw [← hfits.cursor] at hdone
  cases does_of_next hstep with
  | database => exact .inr ⟨state, here, ho, by simp [Act.own]⟩
  | @emitted _ event pending here' next new =>
    obtain rfl := Option.mem_unique here here'
    have hseq := (hfits.head hs next).1
    refine .inr ⟨_, rfl, ?_, ?_⟩
    · refine ho.imp (fun hfetch => hfetch) fun hle => ?_
      rw [next, List.length_cons] at hle
      show n ≤ event.sequence + pending.length
      omega
    · rw [StreamState.budget, StreamState.budget, next]
      show 2 * (n - event.sequence) + (if pending = [] then 1 else 0) + 1 ≤
        2 * (n - state.cursor) + 0
      split <;> omega
  | skipped here' next old =>
    obtain rfl := Option.mem_unique here here'
    have hseq := (hfits.head hs next).1
    omega
  | @fetched _ batch here' none due read =>
    obtain rfl := Option.mem_unique here here'
    have hlen : batch.length = min eventBatchSize ((sys.log.durable id).length - state.cursor) := by
      rw [← read, hfits.owner, hs.sinceBatch_eq, List.length_take, List.length_drop]
    have hsize : eventBatchSize = 128 := rfl
    refine .inr ⟨_, rfl, ?_, ?_⟩
    · by_cases hfull : batch.length = eventBatchSize
      · exact .inl (decide_eq_true hfull)
      · -- a batch that is not full ends where the log ends
        refine .inr ?_
        show n ≤ state.cursor + batch.length
        omega
    · have hsome : batch ≠ [] := by
        rintro rfl
        rw [List.length_nil] at hlen
        omega
      simp [StreamState.budget, hsome, none, Act.own]
  | failed => exact absurd rfl (hok _)
  | woken here' waits | closed here' waits =>
    obtain rfl := Option.mem_unique here here'
    exact absurd (ho.of_waits waits) hdone

theorem owes_run {state : StreamState} {acts : List Act} (h : Follows id c sys)
    (hs : Sound hash sys.log) (hn : n ≤ (sys.log.durable id).length) (here : sys.stream = some state)
    (ho : state.Owes n) (hok : ∀ e, .fetch (some e) ∉ acts)
    (hrun : sys.nexts hash acts = some sys') :
    n ≤ c + sys'.emitted.length ∨ ∃ state', sys'.stream = some state' ∧ state'.Owes n ∧
      state'.budget n + acts.countP Act.own ≤ state.budget n := by
  induction acts generalizing sys state with
  | nil =>
    obtain rfl := Option.some.inj hrun
    exact .inr ⟨state, here, ho, le_rfl⟩
  | cons a acts ih =>
    obtain ⟨sys₁, hnext, hrest⟩ := Option.bind_eq_some_iff.1 hrun
    have hok' : ∀ e, .fetch (some e) ∉ acts := fun e he => hok e (List.mem_cons_of_mem _ he)
    rcases owes_step h hs hn here ho (fun e he => hok e (he ▸ List.mem_cons_self)) hnext with
      hdone | ⟨state₁, here₁, ho₁, hspent⟩
    · -- what is emitted stays emitted
      have hgrown : sys₁.emitted <+: sys'.emitted :=
        nexts_invariant (I := fun x => sys₁.emitted <+: x.emitted)
          (fun hI _ hx => hI.trans (emitted_step hx)) hrest List.prefix_rfl
      exact .inl (hdone.trans (Nat.add_le_add_left hgrown.length_le c))
    · have hn₁ := hn.trans (durable_step hnext id).length_le
      rcases ih (h.step hs hnext) (sound_step hs hnext) hn₁ here₁ ho₁ hok' hrest with
        hdone | ⟨state', here', ho', hspent'⟩
      · exact .inl hdone
      · refine .inr ⟨state', here', ho', ?_⟩
        rw [List.countP_cons]
        omega

end Subscription

namespace Sample

def appending : List EventLog.Act :=
  [.lock 0 (noted ⟨"e"⟩), .number 0, .insert 0, .commit 0]

def noLocks : ExecutionId → Unit := fun _ => ()

def filled : EventLog Unit := (EventLog.nexts noLocks {} appending).get (by decide)

def streaming : StreamState := ⟨⟨"e"⟩, 0, filled.sinceBatch ⟨"e"⟩ 0 eventBatchSize, false⟩

def following : Subscription Unit :=
  (Subscription.nexts noLocks ⟨filled, some streaming, []⟩
    (.turn :: appending.map .database)).get (by decide)

def polling : Subscription Unit := (following.next noLocks (.receive .elapsed)).get (by decide)

end Sample

end Orchestrator
