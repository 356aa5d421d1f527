import Orchestrator.Worker.Run

/-!
# Calls that succeed

What a worker sees when nothing goes wrong: a store call is answered by what its transaction did,
every other call succeeds, and nobody cancels. Which controls reach the event loop is left open
(`hears`). `Host` plays such a world: it answers by itself, and takes what the event loop waits for
from a list of cues.
-/

namespace Orchestrator

open Prog

/-- What ends the wait of the event loop: the call it waits for, or a control. -/
def Wake.Succeeds {α : Type} (hears : PendingExecutionControl → Prop) :
    Wake (Except WorkerError α) → Prop
  | .done r => r.isOk = true
  | .control (some c) => hears c
  | .control none | .cancelled => False

/-- The reply of a call that succeeds. A poll returns events of the session's own execution, and a
forked session differs from its source in its name. -/
def AgentCall.Succeeds (hears : PendingExecutionControl → Prop) :
    {β : Type} → AgentCall β → β → Prop
  | _, .now, _ | _, .instant, _ | _, .rounds, _ | _, .forever, _ | _, .cancelTask _, _ => True
  | _, .cancelled, b => b = false
  | _, .awaitControl, b => ∃ c, b = .control (some c) ∧ hears c
  | _, .poll _ session, b => b.Succeeds hears ∧ ∀ events, b = .done (.ok events) →
      ∀ event ∈ events, event.executionId = session.executionId
  | _, .resourceSample _, b => b.Succeeds hears
  | _, .forkConversation _ session target, b => b = .ok { session with id := target }
  | _, .createIn .., b => b.isOk = true
  | _, .start .., b => b.isOk = true
  | _, .resume .., b => b.isOk = true
  | _, .pause .., b => b.isOk = true
  | _, .stop .., b => b.isOk = true
  | _, .capture _, b => b.isOk = true
  | _, .persistEvidence .., b => b.isOk = true
  | _, .destroyWorktree _, b => b.isOk = true
  | _, .ackDestroyWorktree _, b => b.isOk = true
  | _, .recoverInterruptedCreate _, b => b.isOk = true
  | _, .recoverAbandoned .., b => b.isOk = true
  | _, .readOwner _, b => b.isOk = true
  | _, .holds _, b => b.isOk = true
  | _, .verifyAdoption _, b => b.isOk = true
  | _, .signalControl .., b => b.isOk = true

def RuntimeOp.succeeded : {β : Type} → RuntimeOp β → β → Bool
  | _, .check, r => r.isOk
  | _, .credentialValid, r => r.isOk
  | _, .present, r => r.isOk
  | _, .describe, r => r.isOk
  | _, .change _, r => r.isOk

/-- What a call answers and leaves when it succeeds; a store call may still refuse. -/
def WorkerCall.Answers (hears : World → PendingExecutionControl → Prop) {β : Type} :
    WorkerCall β → World → β → World → Prop
  | .store c _, w, b, w' => ∃ now,
      b = (c.exec now w.store).1 ∧ w' = { w with store := (c.exec now w.store).2 }
  | .storage id c, w, b, w' => ∃ a, c.Does (w.storage id) b a ∧ w' = w.setStorage id a ∧
      c.op.succeeded b = true
  | .runtime id op, w, b, w' => ∃ r, op.Does (w.runtime id) b r ∧ w' = w.setRuntime id r ∧
      op.succeeded b = true
  | .agent c, w, b, w' => c.Succeeds (hears w) b ∧ w' = w

theorem WorkerCall.tidy_of_answers {hears : World → PendingExecutionControl → Prop} {β : Type}
    {c : WorkerCall β} {w w' : World} {b : β} (h : c.Answers hears w b w') : c.Tidy w b w' := by
  cases c with
  | store c relayed =>
    obtain ⟨now, hb, hw⟩ := h
    exact ⟨⟨now, .inl ⟨hb, hw⟩⟩, trivial⟩
  | storage id c =>
    obtain ⟨a, hdoes, hw, hs⟩ := h
    exact ⟨⟨a, hdoes, hw⟩, fun _ => hs⟩
  | runtime id op =>
    obtain ⟨r, hdoes, hw, _⟩ := h
    exact ⟨⟨r, hdoes, hw⟩, trivial⟩
  | agent c => exact ⟨h.2, trivial⟩

/-! ## A host that plays along -/

/-- What the event loop is woken by. -/
inductive Cue where
  | events (events : List ExecutionEvent)
  | sample (sample : ResourceSample)
  | control (c : PendingExecutionControl)

def Cue.polled? (session : SessionRef) : Cue → Option (List ExecutionEvent)
  | .events polled =>
    if ∀ event ∈ polled, event.executionId = session.executionId then some polled else none
  | _ => none

def Cue.sample? : Cue → Option ResourceSample
  | .sample taken => some taken
  | _ => none

structure Host where
  world : World
  cues : List Cue
  /-- The time of its store calls. -/
  clock : Timestamp

namespace Host

/-- The next cue ends the wait for a call that `done` recognises the reply of. -/
def woken {α : Type} (hears : PendingExecutionControl → Bool) (done : Cue → Option α) :
    List Cue → Option (Wake α × List Cue)
  | .control c :: cues => if hears c then some (.control (some c), cues) else none
  | cue :: cues => (done cue).map fun a => (.done a, cues)
  | [] => none

/-- Replies of harness, worktrees and clocks. -/
def reply (hears : PendingExecutionControl → Bool) :
    {β : Type} → AgentCall β → List Cue → Option (β × List Cue)
  | _, .poll _ session, cues => woken hears (fun cue => (cue.polled? session).map .ok) cues
  | _, .resourceSample _, cues => woken hears (fun cue => cue.sample?.map .ok) cues
  | _, .awaitControl, cues => woken hears (fun _ => none) cues
  | _, .now, cues => some (0, cues)
  | _, .instant, cues => some (0, cues)
  | _, .rounds, cues => some (cues.length, cues)
  | _, .cancelled, cues => some (false, cues)
  | _, .createIn labels repo base branch receipt, cues =>
    some (.ok ⟨labels.executionId, s!"{receipt.mountPath}/repository", branch, base, repo⟩, cues)
  | _, .start x receipt _ worktree _, cues =>
    some (.ok ⟨⟨"session"⟩, s!"{receipt.mountPath}/session", x.id, worktree.path⟩, cues)
  | _, .forkConversation _ session target, cues => some (.ok { session with id := target }, cues)
  | _, .capture _, cues => some (.ok ⟨"patch", ["file"]⟩, cues)
  | _, .persistEvidence .., cues => some (.ok "artifact", cues)
  | _, .readOwner x, cues => some (.ok ⟨x.labels, x.manifest.repository.branch.getD "", ""⟩, cues)
  | _, .holds _, cues => some (.ok (false, false), cues)
  | _, .resume .., cues | _, .pause .., cues | _, .stop .., cues | _, .destroyWorktree _, cues
  | _, .ackDestroyWorktree _, cues | _, .recoverInterruptedCreate _, cues
  | _, .recoverAbandoned .., cues | _, .verifyAdoption _, cues
  | _, .signalControl .., cues => some (.ok (), cues)
  | _, .cancelTask _, cues => some ((), cues)
  | _, .forever, _ => none

def runtimeReply (id : ExecutionId) : {β : Type} → RuntimeOp β → RuntimeState → β × RuntimeState
  | _, .check, r => (.ok (), r)
  | _, .credentialValid, r => (.ok true, r)
  | _, .present, r => (.ok r.present, r)
  | _, .describe, r =>
    let labels : OwnershipLabels := ⟨id, ⟨"worker"⟩, "repository", none⟩
    (.ok ⟨id, "network", "agent", "container", "daemon", labels, [], [], none⟩, r)
  | _, .change u, r => (.ok (), u.apply r)

variable (hears : World → PendingExecutionControl → Bool)

def exec {β : Type} (c : WorkerCall β) (h : Host) : Option (β × Host) :=
  match c with
  | .store c _ =>
    let r := c.exec h.clock h.world.store
    some (r.1, { h with world := { h.world with store := r.2 } })
  | .storage id c =>
    let r := c.op.exec (h.world.storage id)
    if c.op.succeeded r.1 then some (r.1, { h with world := h.world.setStorage id r.2 }) else none
  | .runtime id op =>
    let r := runtimeReply id op (h.world.runtime id)
    some (r.1, { h with world := h.world.setRuntime id r.2 })
  | .agent c => (reply (hears h.world) c h.cues).map fun (b, cues) => (b, { h with cues })

/-- The host goes down before a call that `stop` recognises. -/
def crashing (stop : {β : Type} → WorkerCall β → Bool) {β : Type} (c : WorkerCall β) (h : Host) :
    Option (β × Host) :=
  if stop c then none else exec hears c h

variable {hears}

variable {β : Type} {heard : PendingExecutionControl → Bool} {cues cues' : List Cue}

theorem woken_cases {α : Type} {done : Cue → Option α}
    {b : Wake α} (h : woken heard done cues = some (b, cues')) :
    (∃ c, b = .control (some c) ∧ heard c = true) ∨ ∃ cue a, done cue = some a ∧ b = .done a := by
  cases cues with
  | nil => exact nomatch h
  | cons cue cues =>
    have hdone : (done cue).map (fun a => (Wake.done a, cues)) = some (b, cues') →
        ∃ cue a, done cue = some a ∧ b = .done a := by
      intro hd
      obtain ⟨a, ha, heq⟩ := Option.map_eq_some_iff.1 hd
      exact ⟨cue, a, ha, (Prod.mk.inj heq).1.symm⟩
    cases cue with
    | control c =>
      simp only [woken] at h
      split at h
      · rename_i hc
        exact .inl ⟨c, (Prod.mk.inj (Option.some.inj h)).1.symm, hc⟩
      · exact nomatch h
    | events es | sample s => exact .inr (hdone h)

theorem succeeds_of_woken {α : Type} {done : Cue → Option α} {b : Wake (Except WorkerError α)}
    (h : woken heard (fun cue => (done cue).map .ok) cues = some (b, cues')) :
    b.Succeeds fun c => heard c = true := by
  rcases woken_cases h with ⟨c, rfl, hc⟩ | ⟨cue, r, hr, rfl⟩
  · exact hc
  · obtain ⟨a, _, rfl⟩ := Option.map_eq_some_iff.1 hr
    rfl

theorem polled_own {session : SessionRef} {cue : Cue} {polled : List ExecutionEvent}
    (h : cue.polled? session = some polled) :
    ∀ event ∈ polled, event.executionId = session.executionId := by
  cases cue with
  | events es =>
    simp only [Cue.polled?] at h
    split at h
    · rename_i hown
      exact Option.some.inj h ▸ hown
    · exact nomatch h
  | sample s | control c => exact nomatch h

theorem succeeds_of_reply {c : AgentCall β} {b : β} (h : reply heard c cues = some (b, cues')) :
    c.Succeeds (fun c => heard c = true) b := by
  cases c
  case poll x session =>
    refine ⟨succeeds_of_woken h, fun events hb => ?_⟩
    rcases woken_cases h with ⟨c, rfl, hc⟩ | ⟨cue, r, hr, rfl⟩
    · exact nomatch hb
    · obtain ⟨polled, hpolled, rfl⟩ := Option.map_eq_some_iff.1 hr
      obtain rfl := Except.ok.inj (Wake.done.inj hb)
      exact polled_own hpolled
  case resourceSample => exact succeeds_of_woken h
  case awaitControl =>
    rcases woken_cases h with ⟨c, rfl, hc⟩ | ⟨cue, r, hr, rfl⟩
    · exact ⟨c, rfl, hc⟩
    · exact nomatch hr
  case forever => exact nomatch h
  case now | instant | rounds | cancelTask => trivial
  all_goals
    obtain ⟨rfl, _⟩ := Prod.mk.inj (Option.some.inj h)
    rfl

theorem does_runtimeReply (id : ExecutionId) (op : RuntimeOp β) (r : RuntimeState) :
    op.Does r (runtimeReply id op r).1 (runtimeReply id op r).2 ∧
      op.succeeded (runtimeReply id op r).1 = true := by
  cases op with
  | present => exact ⟨⟨rfl, fun _ hb => (Except.ok.inj hb).symm⟩, rfl⟩
  | change u => exact ⟨.inl rfl, rfl⟩
  | check | credentialValid | describe => exact ⟨rfl, rfl⟩

theorem answers_of_exec (c : WorkerCall β) (h : Host) (b : β) (h' : Host)
    (hexec : exec hears c h = some (b, h')) :
    c.Answers (fun w c => hears w c = true) h.world b h'.world := by
  cases c with
  | store c relayed =>
    obtain ⟨rfl, rfl⟩ := Prod.mk.inj (Option.some.inj hexec)
    exact ⟨h.clock, rfl, rfl⟩
  | storage id c =>
    simp only [exec] at hexec
    split at hexec
    · rename_i hs
      obtain ⟨rfl, rfl⟩ := Prod.mk.inj (Option.some.inj hexec)
      exact ⟨_, c.op.does_exec _, rfl, hs⟩
    · exact nomatch hexec
  | runtime id op =>
    obtain ⟨rfl, rfl⟩ := Prod.mk.inj (Option.some.inj hexec)
    obtain ⟨hdoes, hs⟩ := does_runtimeReply id op (h.world.runtime id)
    exact ⟨_, hdoes, rfl, hs⟩
  | agent c =>
    obtain ⟨⟨b', cues⟩, hreply, heq⟩ := Option.map_eq_some_iff.1 hexec
    obtain ⟨rfl, rfl⟩ := Prod.mk.inj heq
    exact ⟨succeeds_of_reply hreply, rfl⟩

theorem answers_of_crashing {stop : {β : Type} → WorkerCall β → Bool} (c : WorkerCall β)
    (h : Host) (b : β) (h' : Host) (hexec : crashing hears stop c h = some (b, h')) :
    c.Answers (fun w c => hears w c = true) h.world b h'.world := by
  unfold crashing at hexec
  split at hexec
  · exact nomatch hexec
  · exact answers_of_exec c h b h' hexec

theorem tidy_of_crashing {stop : {β : Type} → WorkerCall β → Bool} (c : WorkerCall β)
    (h : Host) (b : β) (h' : Host) (hexec : crashing hears stop c h = some (b, h')) :
    c.Tidy h.world b h'.world :=
  WorkerCall.tidy_of_answers (answers_of_crashing c h b h' hexec)

end Host
end Orchestrator
