import Orchestrator.Worker.Daemon
import Orchestrator.Worker.Proof.Resumption
import Orchestrator.Worker.Proof.Traits

/-!
# The daemon tick beside its tasks

The first recovery loop of the tick leaves out the executions that have a task; the second one leaves
out those with a pending cancellation, and looks at no task. So the tick works on the cleanup of a
task's execution only through its listing of the authorities: `Managed.sparing` follows the calls of
the tick, and `daemon_tick_spares_tasks` reads them in a history. A task that fenced its own execution
is then not safe from the tick (`daemon_tick_overtakes_task`).
-/

namespace Orchestrator

open Prog Relational

/-! ## Calls that work on a cleanup -/

/-- The lifecycle is asked to do something for `e`. -/
def LifecycleCall.drives (e : ExecutionId) : {β : Type} → LifecycleCall β → Prop
  | _, .guard _ x => x.guard.execution.id = e
  | _, .step authority _ _ => authority.executionId = e
  | _, .ack authority _ => authority.executionId = e

instance (e : ExecutionId) (g : GuardStep) : {β : Type} → (c : LifecycleCall β) →
    Decidable (c.makes e g)
  | _, .guard _ _ => inferInstanceAs (Decidable (_ ∧ _))
  | _, .step _ _ _ => inferInstanceAs (Decidable (_ ∧ _))
  | _, .ack _ _ => inferInstanceAs (Decidable False)

namespace StoreCall

variable {β : Type}

/-- The call is about the cleanup authority of `e`, and is more than a question. -/
def drives (e : ExecutionId) : StoreCall β → Prop
  | .begin id _ _ | .fenceForCleanup id _ | .transitionCleanup id _ _ _ | .resolve id
  | .finalizeCleanup id _ | .completeCancellation id _ => id = e
  | _ => False

def listsCancellations : StoreCall β → Prop
  | .listPendingCancellations => True
  | _ => False

def listsAuthorities : StoreCall β → Prop
  | .listAuthorities _ => True
  | _ => False

/-- What a tick of `w` relies on in an answer. `asked`: the cancellation of `e` is pending when it is
looked for; otherwise no cleanup of `e` is unfinished when that is looked for. -/
def tells (e : ExecutionId) (w : WorkerId) (asked : Prop) :
    {β : Type} → StoreCall β → β → Prop
  | _, .getAuthority id, b => ∀ c, b = .ok c → c.executionId = id
  | _, .listPendingCancellations, b => ∀ pending, b = .ok pending → asked →
      ∃ request ∈ pending, request.execution.id = e
  | _, .listAuthorities lister, b => ∀ found, b = .ok found → lister = w → ¬asked →
      ∀ c ∈ found, c.executionId = e → c.phase.unfinished = false
  | _, _, _ => True

end StoreCall

namespace TraitCall

variable {β : Type}

/-- The call works on the cleanup of `e`. -/
def drives (e : ExecutionId) : TraitCall β → Prop
  | .lifecycle c => c.drives e
  | .store c => c.drives e
  | .task _ => False

def listsCancellations : TraitCall β → Prop
  | .store c => c.listsCancellations
  | _ => False

def listsAuthorities : TraitCall β → Prop
  | .store c => c.listsAuthorities
  | _ => False

def tells (e : ExecutionId) (w : WorkerId) (asked : Prop) : TraitCall β → β → Prop
  | .store c, b => c.tells e w asked b
  | _, _ => True

instance (e : ExecutionId) (g : GuardStep) (c : TraitCall β) : Decidable (c.makes e g) :=
  match c with
  | .lifecycle c => inferInstanceAs (Decidable (c.makes e g))
  | .store _ | .task _ => inferInstanceAs (Decidable False)

end TraitCall

/-! ## What a tick calls -/

namespace Managed

variable {α : Type} {e : ExecutionId} {w : WorkerId} {asked : Prop} {tasks : List ExecutionId}
  {pending : List PendingCancellation} {rounds : Nat}

/-- Nothing works on the cleanup of `e`. -/
def sparing (e : ExecutionId) (w : WorkerId) (asked : Prop) : Protocol TraitCall where
  answers := TraitCall.tells e w asked
  allows _ x := ¬x.call.drives e

abbrev spared (e : ExecutionId) (w : WorkerId) (asked : Prop) :
    Assertion (sparing e w asked).setting :=
  (sparing e w asked).past fun _ => True

theorem triple_spared {p : Managed α} (hp : p.run.Only fun c => ¬c.drives e) :
    (spared e w asked).KeptBy p := by
  refine .of_only hp fun c es b es' hc hs hsem => ?_
  obtain ⟨_, rfl⟩ := hsem
  exact ⟨ordered_snoc hs.1 hc, trivial⟩

theorem triple_told {S : α → Prop} {c : StoreCall (Except StoreError α)} (hc : ¬c.drives e)
    (hS : ∀ a, c.tells e w asked (.ok a) → S a) :
    (spared e w asked).Learns (store c) S := by
  refine (Protocol.attemptAs (R := sparing e w asked) (P := fun _ => True) (Q := fun a _ => S a)
    (E := fun _ => True) (c := TraitCall.store c) (fun _ _ _ _ => hc) (fun _ a _ ha => hS a ha)
    fun _ _ _ _ => trivial).post fun _ _ hs => ⟨⟨hs.1, trivial⟩, hs.2⟩

theorem triple_told_observed {S : α → Prop} {c : StoreCall (Except StoreError α)}
    (hc : ¬c.drives e) (hS : ∀ a, c.tells e w asked (.ok a) → S a) :
    (spared e w asked).Learns
      (observe (attempt (.store c) : ExceptT StoreError (Prog TraitCall) α) : Managed _)
      fun r => ∀ a, r = .ok a → S a := by
  have hcall := Protocol.attempt (R := sparing e w asked) (P := fun _ => True) (Q := fun a _ => S a)
    (E := fun _ => True) (c := TraitCall.store c) (fun _ _ _ _ => hc) (fun _ a _ ha => hS a ha)
    fun _ _ _ _ => trivial
  refine (TripleE.observe hcall).post fun r s hs => ?_
  cases r with
  | ok a =>
    refine ⟨⟨hs.1, trivial⟩, ?_⟩
    rintro _ ⟨⟩
    exact hs.2
  | error err => exact ⟨hs, nofun⟩

section Recovery
variable {authority : CleanupAuthority} {execution : Execution}

theorem only_advanceWhile (hne : authority.executionId ≠ e) (n : Nat) (d : CleanupDisposition) :
    (advanceWhile authority execution n d).run.Only fun c => ¬c.drives e := by
  induction n generalizing d with
  | zero => exact .pure _
  | succ n ih =>
    unfold advanceWhile
    split
    · exact .pure _
    · refine .seq ?_ fun next => ih next
      refine .seq (.provided fun _ => .attempt hne) fun _ => ?_
      refine .seq (.attempt hne) fun next => ?_
      exact .seq (.attemptAs hne) fun _ => .pure _

theorem only_tearDown (hne : authority.executionId ≠ e) :
    (tearDown rounds authority execution).run.Only fun c => ¬c.drives e := by
  refine .seq ?_ fun d => .seq (only_advanceWhile hne rounds d) fun d' => ?_
  · unfold fencedDisposition
    split
    · exact .pure _
    · exact .seq (.attemptAs hne) fun _ => .pure _
  · refine .seq ?_ fun d'' => .provided fun _ => ?_
    · unfold finalizeReleased
      split
      · exact .seq (.attemptAs hne) fun _ => .pure _
      · exact .pure _
    · exact .seq (.attempt hne) fun _ => .attemptAs hne

theorem only_recoverCleanupAuthority (hne : authority.executionId ≠ e) :
    (recoverCleanupAuthority rounds authority execution).run.Only fun c => ¬c.drives e := by
  refine .seq (.attemptAs not_false) fun cancelled => ?_
  split
  · exact .pure _
  · refine .seq (.provided fun _ => only_tearDown hne) fun _ => ?_
    exact .provided fun _ => .seq (.attemptAs hne) fun _ => .pure _

end Recovery

theorem triple_describing {id : ExecutionId} {p : Managed Unit}
    (hp : (spared e w asked).KeptBy p) :
    (spared e w asked).KeptBy (describing id p) := by
  refine .bind (.observe hp) fun r => ?_
  cases r with
  | ok u => exact .pure fun _ hs => hs
  | error err => exact .pure fun _ hs => hs

theorem triple_authorityFor {request : PendingCancellation} (hne : request.execution.id ≠ e) :
    (spared e w asked).Learns (authorityFor w request)
      fun authority => authority.executionId ≠ e := by
  have hown : ∀ c : CleanupAuthority,
      StoreCall.tells e w asked (.getAuthority request.execution.id) (.ok c) →
        c.executionId ≠ e :=
    fun c htells => htells c rfl ▸ hne
  refine .learn (triple_told_observed not_false hown) fun r hr => ?_
  cases r with
  | ok c => exact .pure fun _ hs => ⟨hs, hr c rfl⟩
  | error err =>
    cases err with
    | notFound what =>
      refine .learn (.demand fun _ hs => hs) fun a _ => ?_
      exact .bind (triple_spared (.attemptAs hne)) fun _ => triple_told not_false hown
    | _ => exact .throw fun _ hs => hs

theorem triple_reconcileRequest (he : e ∈ tasks) {request : PendingCancellation} :
    (spared e w asked).KeptBy (reconcileRequest rounds w tasks request) := by
  unfold reconcileRequest
  split
  · exact .pure fun _ hs => hs
  · rename_i hno
    have hne : request.execution.id ≠ e := fun heq => hno (.inr (heq ▸ he))
    refine triple_describing (.bind (triple_authorityFor hne) fun authority => ?_)
    exact .of_and fun hother => triple_spared (only_recoverCleanupAuthority hother)

theorem triple_reconcileUnfinished {authority : CleanupAuthority}
    (hpending : asked → ∃ request ∈ pending, request.execution.id = e)
    (hphase : ¬asked → authority.executionId = e → authority.phase.unfinished = false) :
    (spared e w asked).KeptBy (reconcileUnfinished rounds pending authority) := by
  unfold reconcileUnfinished
  split
  · exact .pure fun _ hs => hs
  split
  · exact .pure fun _ hs => hs
  · rename_i hlisted hunfinished
    have hne : authority.executionId ≠ e := by
      intro heq
      by_cases hasked : asked
      · obtain ⟨request, hmem, hid⟩ := hpending hasked
        exact hlisted (List.any_eq_true.2 ⟨request, hmem, by simp [hid, heq]⟩)
      · exact hunfinished (by simp [hphase hasked heq])
    refine .learn (triple_told_observed (S := fun _ => True) not_false fun _ _ => trivial)
      fun r _ => ?_
    cases r with
    | ok execution => exact triple_describing (triple_spared (only_recoverCleanupAuthority hne))
    | error err => exact .pure fun _ hs => hs

theorem triple_reconcileAuthorities
    (hpending : asked → ∃ request ∈ pending, request.execution.id = e) :
    (spared e w asked).KeptBy (reconcileAuthorities rounds w pending) := by
  have hlist : ∀ found : List CleanupAuthority,
      StoreCall.tells e w asked (.listAuthorities w) (.ok found) →
        ¬asked → ∀ c ∈ found, c.executionId = e → c.phase.unfinished = false :=
    fun found htells => htells found rfl rfl
  refine .learn (triple_told_observed not_false hlist) fun r hr => ?_
  cases r with
  | error err => exact .pure fun _ hs => hs
  | ok found =>
    have hloop := TripleE.collect found (I := fun left => (spared e w asked).and
      (¬asked → ∀ c ∈ left, c.executionId = e → c.phase.unfinished = false))
      (E := spared e w asked) (f := reconcileUnfinished rounds pending) fun c left =>
        .of_and fun hall => (triple_reconcileUnfinished hpending fun hno =>
          hall hno c List.mem_cons_self).post fun _ _ hs =>
            ⟨hs, fun hno d hd => hall hno d (List.mem_cons_of_mem _ hd)⟩
    exact hloop.weaken (fun _ hs => ⟨hs, hr found rfl⟩) (fun _ _ hs => hs.1) fun _ hs => hs

theorem triple_reconcileDaemonTick (he : e ∈ tasks) :
    (spared e w asked).KeptBy (reconcileDaemonTick rounds w tasks) := by
  refine .learn (triple_told not_false fun pending htells => htells pending rfl)
    fun pending hpending => ?_
  have hsignal : ∀ request, (signalCancellation w tasks request).run.Only fun c => ¬c.drives e :=
    fun request => .provided fun _ => .bind (.ask not_false) fun _ => .pure _
  have hdispatch : ∀ control,
      (dispatchControl tasks pending control).run.Only fun c => ¬c.drives e := by
    intro control
    unfold dispatchControl
    split
    · exact .pure _
    split
    · exact .attempt not_false
    · exact .attemptAs not_false
  refine .bind (triple_spared (.forEach hsignal pending)) fun _ => ?_
  refine .bind (triple_spared (.attemptAs not_false)) fun controls => ?_
  refine .bind (triple_spared (.forEach hdispatch controls)) fun _ => ?_
  refine .bind (.collect _ (I := fun _ => spared e w asked) fun _ _ =>
    triple_reconcileRequest he) fun cancelled => ?_
  refine .bind (triple_reconcileAuthorities hpending) fun cleaned => ?_
  exact triple_spared .refuse

end Managed

/-! ## Ticks in a history -/

/-- The cancellation of `e` is one of the pending ones. -/
def Store.Asked (s : Store) (e : ExecutionId) : Prop :=
  ∃ request ∈ s.listPendingCancellations, request.execution.id = e

/-- An unfinished cleanup of `e` is listed for `w`. -/
def Store.Exposed (s : Store) (w : WorkerId) (e : ExecutionId) : Prop :=
  ∃ c ∈ s.listAuthorities w, c.executionId = e ∧ c.phase.unfinished = true

section History
variable {ι : Type} [DecidableEq ι] {s t : Store} {h : List (Moment ι Store TraitCall)} {i : ι}
  {e : ExecutionId} {w : WorkerId} {asked : Prop} {tasks : List ExecutionId} {rounds : Nat}
  {result : Option (Except WorkerError Unit)}

theorem TraitCall.Does.tells {β : Type} {c : TraitCall β} {s s' : Store} {b : β}
    (hdoes : c.Does s b s') (hcancel : c.listsCancellations → asked → s.Asked e)
    (hlist : c.listsAuthorities → ¬asked → ¬s.Exposed w e) : c.tells e w asked b := by
  cases c with
  | lifecycle c => trivial
  | task c => trivial
  | store call =>
    cases call
    case getAuthority id =>
      rintro c rfl
      obtain ⟨now, hexec⟩ := hdoes.committed fun _ => rfl
      exact Store.authority_id (Txn.require_eq_ok.1 (Prod.mk.inj hexec).1)
    case listPendingCancellations =>
      rintro pending rfl hasked
      obtain ⟨now, hexec⟩ := hdoes.committed fun _ => rfl
      obtain rfl := Except.ok.inj (Prod.mk.inj hexec).1
      exact hcancel trivial hasked
    case listAuthorities lister =>
      rintro found rfl rfl hasked c hc hid
      obtain ⟨now, hexec⟩ := hdoes.committed fun _ => rfl
      obtain rfl := Except.ok.inj (Prod.mk.inj hexec).1
      exact Bool.eq_false_iff.2 fun hphase => hlist trivial hasked ⟨c, hc, hid, hphase⟩
    all_goals trivial

/-- A tick does not work on the cleanup of an execution that has a task, where it finds its
cancellation pending or finds no unfinished cleanup of it. -/
theorem daemon_tick_spares_tasks (hh : Happens TraitCall.Does s h t)
    (htick : Makes (Managed.reconcileDaemonTick rounds w tasks).run (callsOf h i) result)
    (he : e ∈ tasks)
    (hwhen : ∀ m ∈ h, ∀ n ∈ h, m.who = i → n.who = i → m.call.listsCancellations →
      n.call.listsAuthorities → m.before.Asked e ∨ ¬n.before.Exposed w e) :
    ∀ m ∈ h, m.who = i → ¬m.call.drives e := by
  have hdoes : ∀ m ∈ h, m.call.Does m.before m.answer m.after :=
    (hh.all (I := fun _ => True) (Q := fun m => m.call.Does m.before m.answer m.after)
      (fun _ _ _ _ _ _ hsem => ⟨trivial, hsem⟩) trivial).2
  -- either every listing of the cancellations had that of `e`, or no listing of authorities its own
  let asked := ∀ m ∈ h, m.who = i → m.call.listsCancellations → m.before.Asked e
  have htells : ∀ x ∈ callsOf h i, x.call.tells e w asked x.answer := by
    intro x hx
    obtain ⟨n, hn, hwho, rfl⟩ := mem_callsOf.1 hx
    refine (hdoes n hn).tells (fun hlists hasked => hasked n hn hwho hlists) fun hlists hasked => ?_
    obtain ⟨m, hm⟩ := not_forall.1 hasked
    simp only [Classical.not_imp] at hm
    obtain ⟨hm, hwho', hcancel, hno⟩ := hm
    exact (hwhen m hm n hn hwho' hwho hcancel hlists).resolve_left hno
  intro m hm hwho
  have hordered := Protocol.makes (Managed.triple_reconcileDaemonTick he) trivial htick htells
  have hmem : m.toAnswered ∈ callsOf h i := mem_callsOf.2 ⟨m, hm, hwho, rfl⟩
  obtain ⟨past, rest, hsplit⟩ := List.append_of_mem hmem
  exact hordered past _ rest hsplit

end History

/-! ## A task that can be carried through -/

namespace Sample

def job (persistence : PersistenceMode) : Execution :=
  { execution with
    manifest :=
      { manifest with
        persistence, taskPacket := some { goal := "goal" }
        repository := { manifest.repository with branch := some "branch" } } }

def granting (persistence : PersistenceMode) : List Label :=
  [⟨_, .register worker, 0⟩, ⟨_, .createIdempotent (job persistence) created "key" "scope", 1⟩,
    ⟨_, .reserveNext ⟨"w"⟩ ⟨"a"⟩ [], 2⟩]

def grantedJob (persistence : PersistenceMode) : Execution :=
  { job persistence with
    state := .workerAssigned, workerId := some ⟨"w"⟩, attemptId := some ⟨"a"⟩
    labels := { execution.labels with workerId := ⟨"w"⟩ }, updatedAt := 2 }

/-- The host of the worker; the agent will say that its work is ready. -/
def ready (persistence : PersistenceMode) : Host :=
  { world :=
      { store := after Store.initial (granting persistence), storage := fun _ => {}
        runtime := fun _ => {} }
    cues := [.events [{ created with state := .running, kind := .reviewReady }],
      .sample { cpuPercent := 0 }]
    clock := 3 }

def jobTask (persistence : PersistenceMode) : Prog WorkerCall (Except WorkerError ExecutionResult) :=
  (Worker.runWithCancelAndControls "/state" (grantedJob persistence)).run

/-- What a task asks when its work has ended. -/
def asksCancellation {β : Type} : WorkerCall β → Bool
  | .store c _ => match c with
    | .cancellationRequested _ => true
    | _ => false
  | _ => false

def tick : Managed Unit := Managed.reconcileDaemonTick 4 ⟨"w"⟩ [⟨"e"⟩]

def Ticks : World → World → Prop :=
  Dies (WorkerCall.Answers fun _ _ => False) alone (Managed.onHost tick).run

/-- The host makes a tick when the work of its task has ended. -/
def ticking {β : Type} (c : WorkerCall β) (h : Host) : Option (β × Host) :=
  let host := if asksCancellation c then
    (play (Host.exec fun _ _ => false) (Managed.onHost tick).run h).2 else h
  Host.exec (fun _ _ => false) c host

theorem answers_exec {β : Type} (c : WorkerCall β) (h : Host) (b : β) (h' : Host)
    (hexec : Host.exec (fun _ _ => false) c h = some (b, h')) :
    c.Answers (fun _ _ => False) h.world b h'.world := by
  simpa using Host.answers_of_exec c h b h' hexec

theorem answers_ticking {β : Type} (c : WorkerCall β) (h : Host) (b : β) (h' : Host)
    (hexec : ticking c h = some (b, h')) :
    ∃ u, Relation.ReflTransGen Ticks h.world u ∧ c.Answers (fun _ _ => False) u b h'.world := by
  unfold ticking at hexec
  split at hexec
  · exact ⟨_, .single (dies_of_play _ Host.world answers_exec _ h), answers_exec _ _ _ _ hexec⟩
  · exact ⟨_, .refl, answers_exec _ _ _ _ hexec⟩

def polls {β : Type} : WorkerCall β → Bool
  | .agent c => match c with
    | .poll _ _ => true
    | _ => false
  | _ => false

def atWork : Host :=
  (play (Host.crashing (fun _ _ => false) polls) (jobTask .ephemeral) (ready .ephemeral)).2

def fenced : Host :=
  (play (Host.crashing (fun _ _ => false) asksCancellation) (jobTask .ephemeral) (ready .ephemeral)).2

def failsCleanup {α : Type} : Except WorkerError α → Bool
  | .error (.cleanup _) => true
  | _ => false

end Sample

open Sample in
/-- A tick while the agent is at work. -/
theorem daemon_tick_spares_tasks_sample :
    (atWork.world.store.authorities.find? ⟨"e"⟩).map (·.phase) = some (.active .running) ∧
      ∀ m ∈ moments tend () tick.run atWork.world.store, ¬m.call.drives ⟨"e"⟩ := by
  refine ⟨by decide, fun m hm => ?_⟩
  have hh := happens_moments (ι := Unit) does_tend () (p := tick.run) (h := [])
    (t := atWork.world.store) .nil
  have hmakes : Makes tick.run (callsOf (moments tend () tick.run atWork.world.store) ()) _ :=
    makes_moments () _
  have hlisted : ∀ n ∈ moments tend () tick.run atWork.world.store,
      ∀ c ∈ n.before.listAuthorities ⟨"w"⟩, c.phase.unfinished = false := by
    decide +kernel
  refine daemon_tick_spares_tasks hh hmakes (List.mem_singleton.2 rfl) ?_ m hm rfl
  intro _ _ n hn _ _ _ _
  refine .inr fun ⟨c, hc, _, hphase⟩ => ?_
  exact absurd ((hlisted n hn c hc).symm.trans hphase) nofun

open Sample in
/-- The work of the task has ended and its execution is fenced, when a tick lists it and tears it down.
The task then finds its own execution cleaned up and reports that as an error; without the tick it
succeeds. -/
theorem daemon_tick_overtakes_task :
    (∃ cut, Dies (WorkerCall.Answers fun _ _ => False) alone (jobTask .ephemeral)
        (ready .ephemeral).world cut ∧
      (cut.store.authorities.find? ⟨"e"⟩).map (·.phase) = some .cleanupPending ∧
      ∃ (h : List (Moment Unit Store TraitCall)) (t : Store),
        Happens TraitCall.Does cut.store h t ∧ Makes tick.run (callsOf h ()) (some (.ok ())) ∧
        ∀ g : GuardStep, ∃ m ∈ h, m.call.makes ⟨"e"⟩ g) ∧
    (∃ last detail, Runs (WorkerCall.Answers fun _ _ => False) Ticks (jobTask .ephemeral)
      (ready .ephemeral).world (.error (.cleanup detail)) last) ∧
    ∃ last result, Runs (WorkerCall.Answers fun _ _ => False) alone (jobTask .ephemeral)
      (ready .ephemeral).world (.ok result) last := by
  have hphase : (fenced.world.store.authorities.find? ⟨"e"⟩).map (·.phase) =
      some .cleanupPending := by decide
  have hsteps : ∀ g : GuardStep, ∃ m ∈ moments tend () tick.run fenced.world.store,
      m.call.makes ⟨"e"⟩ g := by
    intro g
    cases g <;> decide +kernel
  have hticked : (tick.run.eval tend fenced.world.store).1 = .ok () := by decide +kernel
  have hmakes : Makes tick.run (callsOf (moments tend () tick.run fenced.world.store) ()) _ :=
    makes_moments () _
  have hhappens : Happens TraitCall.Does fenced.world.store
      (moments tend () tick.run fenced.world.store) (tick.run.eval tend fenced.world.store).2 :=
    happens_moments (p := tick.run) (h := []) does_tend () .nil
  refine ⟨⟨fenced.world, ?_, hphase, _, _, hhappens, hticked ▸ hmakes, hsteps⟩, ?_, ?_⟩
  · refine dies_of_play alone Host.world (fun c h b h' hexec => ?_) (jobTask .ephemeral) _
    simpa using Host.answers_of_crashing c h b h' hexec
  · have hplay : (play ticking (jobTask .ephemeral) (ready .ephemeral)).1.any failsCleanup = true := by
      decide
    obtain ⟨r, hr, hcleanup⟩ := (Option.any_eq_true _ _).mp hplay
    unfold failsCleanup at hcleanup
    split at hcleanup
    · exact ⟨_, _, runs_of_play_waiting Ticks Host.world answers_ticking hr⟩
    · cases hcleanup
  · have hplay : (play (Host.exec fun _ _ => false) (jobTask .ephemeral) (ready .ephemeral)).1.any
        (fun r => r.isOk) = true := by decide
    obtain ⟨r, hr, hok⟩ := (Option.any_eq_true _ _).mp hplay
    cases r with
    | error err => cases hok
    | ok result => exact ⟨_, result, runs_of_play alone Host.world answers_exec hr⟩

end Orchestrator
