import Orchestrator.Worker.Proof.Handling
import Orchestrator.Worker.Proof.Quiet

/-!
# Polled events are published

A ledger beside the world notes what the event loop polled, batch by batch, and what it passed to
`record_progress` on that account. As long as no control wins against the health probe while polled
events are pending, only events of the latest batch are ever pending, and everything before them was
passed on exactly once and in order. A control that arrives during the health probe makes the loop
start over, and what it had polled is gone.
-/

namespace Orchestrator

open Prog Effect

/-! ## The ledger -/

structure Ledger where
  world : World
  /-- What each poll returned. -/
  batches : List (List ExecutionEvent) := []
  /-- What was passed to `record_progress` because it was polled. -/
  relayed : List ExecutionEvent := []

def AgentCall.batch? : {β : Type} → AgentCall β → β → Option (List ExecutionEvent)
  | _, .poll _ _, .done (.ok events) => some events
  | _, _, _ => none

def StoreCall.event? : {β : Type} → StoreCall β → Option ExecutionEvent
  | _, .recordProgress _ event _ => some event
  | _, _ => none

/-- A control wins against the health probe. -/
def AgentCall.interrupted : {β : Type} → AgentCall β → β → Bool
  | _, .resourceSample _, .control _ => true
  | _, _, _ => false

def WorkerCall.interrupted {β : Type} : WorkerCall β → β → Bool
  | .agent c, b => c.interrupted b
  | _, _ => false

namespace Ledger

def noted {β : Type} (l : Ledger) (c : WorkerCall β) (b : β) (w : World) : Ledger :=
  match c with
  | .agent c => { l with world := w, batches := l.batches ++ (c.batch? b).toList }
  | .store c true => { l with world := w, relayed := l.relayed ++ c.event?.toList }
  | _ => { l with world := w }

def pending (l : Ledger) : List ExecutionEvent := l.batches.flatten.drop l.relayed.length

/-- Calls, with any reply, and their notes. -/
def Writes {β : Type} (c : WorkerCall β) (l : Ledger) (b : β) (l' : Ledger) : Prop :=
  ∃ w, c.Does l.world b w ∧ l' = l.noted c b w

/-- No control wins against the health probe while polled events are pending. -/
def Patient {β : Type} (c : WorkerCall β) (l : Ledger) (b : β) (l' : Ledger) : Prop :=
  Writes c l b l' ∧ (c.interrupted b = true → l.pending = [])

def Elsewhere (l l' : Ledger) : Prop := ∃ w, l' = { l with world := w }

end Ledger

/-- The polled event, stamped with state and attempt when it is passed on. -/
def Stamped (polled passed : ExecutionEvent) : Prop :=
  passed = { polled with state := passed.state, attemptId := passed.attemptId }

/-- Everything polled was passed on, but `post` at the end of the latest batch. -/
def Owes (post : List ExecutionEvent) (l : Ledger) : Prop :=
  ∃ pre, l.batches.flatten = pre ++ post ∧ List.Forall₂ Stamped pre l.relayed ∧
    post <:+ l.batches.getLast?.getD []

/-- Only events of the latest batch are pending. -/
def Published (l : Ledger) : Prop := ∃ post, Owes post l

theorem Owes.pending {post : List ExecutionEvent} {l : Ledger} (h : Owes post l) :
    l.pending = post := by
  obtain ⟨pre, hall, hpre, _⟩ := h
  rw [Ledger.pending, hall, ← hpre.length_eq, List.drop_left]

/-! ## Rules -/

/-- A patient host, on which others may do anything else. -/
def publishing : Setting WorkerCall Ledger where
  sem := Ledger.Patient
  env := Ledger.Elsewhere
  safe := Published

def owing (post : List ExecutionEvent) : Assertion publishing where
  holds := Owes post
  stable hst h := by
    obtain ⟨w, rfl⟩ := hst
    exact h
  within h := ⟨post, h⟩

def interim : Assertion publishing := .some owing

section Rules
variable {α : Type} {post : List ExecutionEvent}

theorem Owes.plain {β : Type} {c : WorkerCall β} {l l' : Ledger} {b : β} (h : Owes post l)
    (hc : c.plain) (hsem : Ledger.Patient c l b l') : Owes post l' := by
  obtain ⟨⟨w, _, rfl⟩, _⟩ := hsem
  cases c with
  | store c relayed =>
    obtain ⟨rfl, _⟩ := hc
    exact h
  | agent c =>
    have hbatch : c.batch? b = none := by
      cases c with
      | poll x session => exact nomatch hc
      | _ => rfl
    show Owes post { l with world := w, batches := l.batches ++ (c.batch? b).toList }
    rw [hbatch, Option.toList_none, List.append_nil]
    exact h
  | storage id c | runtime id op => exact hc.elim

theorem triple_plain {t : Task α} (ht : Task.Plain t) :
    TripleS (fun _ => owing post) t (fun _ _ => owing post) (fun _ => interim) :=
  (TripleS.of_mild ht (P := fun _ => owing post) (fun _ _ _ _ _ hc h hsem => h.plain hc hsem)
    fun _ _ _ _ h => h).err fun _ _ h => ⟨post, h⟩

def polled : Wake (Except WorkerError (List ExecutionEvent)) → Assertion publishing
  | .done (.ok events) => owing events
  | _ => owing []

theorem triple_poll {execution : Execution} {session : SessionRef} {E : Assertion publishing} :
    TripleE (owing []) (ask (.poll execution session)) polled E := by
  refine Triple.bind (Triple.ask (Q := polled) fun l b l' hl hc => ?_) fun _ => fun _ h => h
  obtain ⟨⟨w, _, rfl⟩, _⟩ := hc
  have hsame : ∀ {bs}, (AgentCall.poll execution session).batch? b = bs → bs = none →
      Owes [] (l.noted (.agent (.poll execution session)) b w) := by
    rintro _ hbatch rfl
    show Owes [] { l with world := w, batches := l.batches ++ (AgentCall.batch? _ b).toList }
    rw [hbatch, Option.toList_none, List.append_nil]
    exact hl
  match b with
  | .done (.ok events) =>
    obtain ⟨pre, hall, hpre, _⟩ := hl
    refine ⟨pre, ?_, hpre, ?_⟩
    · show (l.batches ++ [events]).flatten = pre ++ events
      rw [List.flatten_append, hall, List.append_nil, List.flatten_singleton]
    · show events <:+ (l.batches ++ [events]).getLast?.getD []
      rw [List.getLast?_concat]
      exact List.suffix_refl _
  | .done (.error err) | .control c | .cancelled => exact hsame rfl rfl

/-- What the health probe leaves: a control that won found nothing pending. -/
def probed (post : List ExecutionEvent) : Wake (Except WorkerError ResourceSample) →
    Assertion publishing
  | .control _ => owing []
  | _ => owing post

theorem triple_probe {execution : Execution} {E : Assertion publishing} :
    TripleE (owing post) (ask (.resourceSample execution)) (probed post) E := by
  refine Triple.bind (Triple.ask (Q := probed post) fun l b l' hl hc => ?_) fun _ => fun _ h => h
  have hnext : Owes post l' := hl.plain (c := .agent (.resourceSample execution)) rfl hc
  match b with
  | .control c =>
    have hnone : post = [] := hl.pending.symm.trans (hc.2 rfl)
    exact hnone ▸ hnext
  | .done r => exact hnext
  | .cancelled => exact hnext

theorem triple_relay {event stamped : ExecutionEvent} (hst : Stamped event stamped)
    {execution : Execution} {f : StoreError → WorkerError} :
    TripleE (owing (event :: post))
      (attemptAs f (.store (.recordProgress execution stamped false) true))
      (fun _ => owing post) interim := by
  have hnext : ∀ {l b l'}, Owes (event :: post) l → Ledger.Patient
      (.store (.recordProgress execution stamped false) true) l b l' → Owes post l' := by
    rintro l b l' ⟨pre, hall, hpre, hlast⟩ ⟨⟨w, _, rfl⟩, _⟩
    refine ⟨pre ++ [event], ?_, ?_, (List.suffix_cons event post).trans hlast⟩
    · rw [List.append_assoc]
      exact hall
    · exact List.rel_append hpre (.cons hst .nil)
  exact .attemptAs (fun _ _ _ h hc => hnext h hc) fun _ _ _ h hc => ⟨post, hnext h hc⟩

end Rules

/-! ## The event loop -/

section Loop
variable {m : Task.Monitor}

/-- The loop ends with a `ReviewReady` event, and everything before it was passed on. -/
def endedWell : Assertion publishing :=
  .some fun q : ExecutionEvent × List ExecutionEvent =>
    (owing (q.1 :: q.2)).and (q.1.kind = .reviewReady)

def roundLeft : Task.Round → Assertion publishing
  | .again _ => owing []
  | .reviewReady _ => endedWell

theorem triple_relayed (events : List ExecutionEvent) :
    TripleS (fun _ => owing events) (Task.relayEvents m events) (fun r _ => roundLeft r)
      (fun _ => interim) := by
  induction events with
  | nil => exact .pure fun _ _ h => h
  | cons event rest ih =>
    unfold Task.relayEvents
    split
    · next hkind => exact .pure fun _ _ h => ⟨(event, rest), h, hkind⟩
    · exact .bind (triple_plain Task.plain_persistFailure) fun _ =>
        .throw fun _ _ h => ⟨_, h⟩
    · refine .bind (Q := fun _ _ => owing rest) (.await fun x => ?_) fun _ => ih
      have hst : Stamped event { event with
        state := x.execution.state, attemptId := x.execution.attemptId } := rfl
      exact .bind (triple_relay hst) fun _ => .pure fun _ h => h

theorem triple_assessed {events : List ExecutionEvent} {sample : ResourceSample} :
    TripleS (fun _ => owing events) (Task.assessRound m events sample) (fun r _ => roundLeft r)
      (fun _ => interim) := by
  refine .bind (triple_plain (Task.plain_ask rfl)) fun now => ?_
  refine .bind (triple_plain (Task.plain_ask rfl)) fun later => ?_
  refine .bind (triple_plain Task.plain_publishSample) fun m' => ?_
  exact .bind (triple_plain (Task.plain_reactTo _)) fun _ => triple_relayed events

theorem triple_controlled {closed : String} {c : Option PendingExecutionControl} :
    TripleS (fun _ => owing []) (Task.takeControl m closed c) (fun r _ => roundLeft r)
      (fun _ => interim) := by
  refine .bind (triple_plain (Task.plain_perform .demand)) fun control => ?_
  exact .bind (triple_plain Task.plain_handleControl) fun m' => .pure fun _ _ h => h

theorem triple_probing {events : List ExecutionEvent} :
    TripleS (fun _ => owing events) (Task.probeRound m events) (fun r _ => roundLeft r)
      (fun _ => interim) := by
  refine .bind (triple_plain .look) fun x => ?_
  refine .bind (Q := fun b _ => probed events b) (.await fun _ => triple_probe)
    fun wake => ?_
  match wake with
  | .control c => exact triple_controlled
  | .cancelled | .done (.error err) => exact .throw fun _ _ h => ⟨events, h⟩
  | .done (.ok sample) => exact triple_assessed

theorem triple_polling :
    TripleS (fun _ => owing []) (Task.runningRound m) (fun r _ => roundLeft r)
      (fun _ => interim) := by
  refine .bind (triple_plain .look) fun x => ?_
  refine .bind (Q := fun b _ => polled b) (.await fun _ => triple_poll) fun wake => ?_
  match wake with
  | .control c => exact triple_controlled
  | .cancelled | .done (.error err) => exact .throw fun _ _ h => ⟨[], h⟩
  | .done (.ok events) =>
    exact .bind (triple_plain Task.plain_noteEvents) fun m' => triple_probing

theorem triple_pausing :
    TripleS (fun _ => owing []) (Task.pausedRound m) (fun r _ => roundLeft r)
      (fun _ => interim) := by
  refine .bind (triple_plain (Task.plain_ask rfl)) fun wake => ?_
  cases wake with
  | done a => exact nomatch a
  | control c => exact triple_controlled
  | cancelled => exact .throw fun _ _ h => ⟨[], h⟩

theorem triple_published_round :
    TripleS (fun _ => owing []) (Task.round m) (fun r _ => roundLeft r) (fun _ => interim) := by
  refine .bind (triple_plain (Task.plain_ask rfl)) fun cancelled => ?_
  refine .bind (triple_plain (Task.plain_perform .refuse)) fun _ => ?_
  refine .bind (triple_plain .look) fun x => ?_
  split
  · exact triple_pausing
  · exact triple_polling

theorem triple_published (n : Nat) (m : Task.Monitor) :
    TripleS (fun _ => owing []) (Task.eventLoop n m) (fun _ _ => endedWell) (fun _ => interim) := by
  induction n generalizing m with
  | zero => exact .bind (triple_plain (Task.plain_ask rfl)) fun never => nomatch never
  | succ n ih =>
    refine .bind triple_published_round fun r => ?_
    cases r with
    | again m' => exact ih m'
    | reviewReady session => exact .pure fun _ _ h => h

end Loop

def Settled (l : Ledger) : Prop := List.Forall₂ Stamped l.batches.flatten l.relayed

theorem settled_iff {l : Ledger} : Settled l ↔ Owes [] l := by
  refine ⟨fun h => ⟨_, (List.append_nil _).symm, h, List.nil_suffix⟩, fun ⟨pre, hall, hpre, _⟩ => ?_⟩
  rw [Settled, hall, List.append_nil]
  exact hpre

/-- No control wins against the health probe while polled events are pending. Then a round that is
followed by another one has passed on everything it polled, exactly once and in order; at every
moment only events of the latest batch are pending; and a loop that ends has passed on everything
before the `ReviewReady` event that ended it. -/
theorem polled_events_published (n : Nat) (m : Task.Monitor) (x : TaskState) (l : Ledger)
    (hl : Settled l) :
    (∀ m' x' l', Runs Ledger.Patient Ledger.Elsewhere ((Task.round m).run.run x) l
      (.ok (.again m'), x') l' → Settled l') ∧
    (∀ l', Dies Ledger.Patient Ledger.Elsewhere ((Task.eventLoop n m).run.run x) l l' →
      Published l') ∧
    ∀ session x' l', Runs Ledger.Patient Ledger.Elsewhere ((Task.eventLoop n m).run.run x) l
      (.ok session, x') l' → ∃ pre event post, l'.batches.flatten = pre ++ event :: post ∧
        event.kind = .reviewReady ∧ List.Forall₂ Stamped pre l'.relayed := by
  have howes := settled_iff.1 hl
  refine ⟨fun m' x' l' hrun => ?_, fun l' hdies => ?_, fun session x' l' hrun => ?_⟩
  · exact settled_iff.2 ((triple_published_round x l howes).of_runs hrun)
  · exact (triple_published n m x l howes).of_dies hdies
  · obtain ⟨⟨event, post⟩, ⟨pre, hall, hpre, _⟩, hkind⟩ :=
      (triple_published n m x l howes).of_runs hrun
    exact ⟨pre, event, post, hall, hkind, hpre⟩

/-! ## Samples -/

/-- A host, and what it has seen polled and passed on. -/
structure Recorder where
  host : Host
  batches : List (List ExecutionEvent) := []
  relayed : List ExecutionEvent := []

namespace Recorder

def ledger (r : Recorder) : Ledger := ⟨r.host.world, r.batches, r.relayed⟩

/-- A `patient` one does not let a control win while something is pending. -/
def exec (patient : Bool) {β : Type} (c : WorkerCall β) (r : Recorder) : Option (β × Recorder) :=
  (Host.exec (fun _ _ => true) c r.host).bind fun (b, host) =>
    if patient && c.interrupted b && r.ledger.pending ≠ [] then none
    else
      let l := r.ledger.noted c b host.world
      some (b, ⟨host, l.batches, l.relayed⟩)

variable {patient : Bool} {β : Type}

theorem exec_cases {c : WorkerCall β} {r r' : Recorder} {b : β}
    (h : exec patient c r = some (b, r')) : Ledger.Writes c r.ledger b r'.ledger ∧
      ¬(patient && c.interrupted b && r.ledger.pending ≠ []) = true := by
  obtain ⟨⟨b', host⟩, hexec, hnote⟩ := Option.bind_eq_some_iff.1 h
  dsimp only at hnote
  split at hnote
  · exact nomatch hnote
  · next hcond =>
    obtain ⟨rfl, rfl⟩ := Prod.mk.inj (Option.some.inj hnote)
    refine ⟨⟨host.world, (WorkerCall.tidy_of_answers (Host.answers_of_exec c _ _ _ hexec)).1, ?_⟩, hcond⟩
    cases c with
    | store c relayed => cases relayed <;> rfl
    | _ => rfl

theorem writes_of_exec (c : WorkerCall β) (r : Recorder) (b : β) (r' : Recorder)
    (h : exec false c r = some (b, r')) : Ledger.Writes c r.ledger b r'.ledger :=
  (exec_cases h).1

theorem patient_of_exec (c : WorkerCall β) (r : Recorder) (b : β) (r' : Recorder)
    (h : exec true c r = some (b, r')) : Ledger.Patient c r.ledger b r'.ledger := by
  obtain ⟨hwrites, hcond⟩ := exec_cases h
  refine ⟨hwrites, fun hint => ?_⟩
  simpa [hint] using hcond

end Recorder

namespace Sample

/-- A client asks for a fork of the conversation. -/
def forking : List Label := Sample.running ++ [⟨_, .requestControl ⟨"e"⟩ .forkConversation "fork", 5⟩]

def polledEvent (kind : ExecutionEventKind) : ExecutionEvent :=
  eventOf (inState .running (some ⟨"session"⟩)) kind

def opened : Ledger :=
  { world := { store := after Store.initial forking, storage := fun _ => {}, runtime := fun _ => {} } }

def recorder (cues : List Cue) : Recorder := { host := { world := opened.world, cues, clock := 6 } }

theorem ledger_recorder (cues : List Cue) : (recorder cues).ledger = opened := rfl

/-- Two batches, each followed by a healthy sample. -/
def undisturbed : List Cue :=
  [.events [polledEvent .testsStarted], .sample { cpuPercent := 0 },
    .events [polledEvent .reviewReady], .sample { cpuPercent := 0 }]

/-- The request of the client arrives in place of the first sample. -/
def disturbed : List Cue :=
  .events [polledEvent .testsStarted] ::
    (((after Store.initial forking).listPendingControls ⟨"w"⟩).map .control ++
      [.events [polledEvent .reviewReady], .sample { cpuPercent := 0 }])

end Sample

open Sample in
theorem polled_events_published_sample : ∃ session x' l',
    Runs Ledger.Patient Ledger.Elsewhere ((Task.eventLoop 2 monitor).run.run watching) opened
      (.ok session, x') l' ∧ l'.relayed.length = 1 ∧
    ∃ pre event post, l'.batches.flatten = pre ++ event :: post ∧ event.kind = .reviewReady ∧
      List.Forall₂ Stamped pre l'.relayed := by
  let last := play (Recorder.exec true) ((Task.eventLoop 2 monitor).run.run watching)
    (recorder undisturbed)
  have hplay : last.1.any (fun r => r.1.isOk) = true := by decide
  have hrelayed : last.2.ledger.relayed.length = 1 := by decide
  obtain ⟨⟨r, x'⟩, hlast, hok⟩ := (Option.any_eq_true _ _).mp hplay
  cases r with
  | error err => exact nomatch hok
  | ok session =>
    have hrun := runs_of_play Ledger.Elsewhere Recorder.ledger Recorder.patient_of_exec hlast
    rw [ledger_recorder] at hrun
    exact ⟨session, x', _, hrun, hrelayed,
      (polled_events_published 2 monitor watching opened .nil).2.2 session x' _ hrun⟩

open Sample in
/-- A control arrives during the health probe of a round that polled an event: the event is gone, and
the loop goes on to its end. -/
theorem probe_control_drops_events : ∃ session x' l',
    Runs Ledger.Writes Ledger.Elsewhere ((Task.eventLoop 2 monitor).run.run watching) opened
      (.ok session, x') l' ∧
    l'.batches.flatten = [polledEvent .testsStarted, polledEvent .reviewReady] ∧
    l'.relayed = [] := by
  let last := play (Recorder.exec false) ((Task.eventLoop 2 monitor).run.run watching)
    (recorder disturbed)
  have hplay : last.1.any (fun r => r.1.isOk) = true := by decide
  have hbatches : last.2.ledger.batches.flatten =
      [polledEvent .testsStarted, polledEvent .reviewReady] := by decide
  have hrelayed : last.2.ledger.relayed = [] := by decide
  obtain ⟨⟨r, x'⟩, hlast, hok⟩ := (Option.any_eq_true _ _).mp hplay
  cases r with
  | error err => exact nomatch hok
  | ok session =>
    have hrun := runs_of_play Ledger.Elsewhere Recorder.ledger Recorder.writes_of_exec hlast
    rw [ledger_recorder] at hrun
    exact ⟨session, x', _, hrun, hbatches, hrelayed⟩

end Orchestrator
