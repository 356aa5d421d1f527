import Orchestrator.Worker.Proof.Order

/-!
# A teardown resumes where it stopped

Tasks and recoveries clean up after `e` in one history (`Cleans`), beside others who leave its cleanup
to them. The step of a phase was made, since the execution was fenced, before anybody leaves that
phase (`Paced`), so a phase that is reached has its steps behind it (`stepped_of_reached`).
-/

namespace Orchestrator

open Prog Relational

variable {ι : Type} {s s' t : Store} {e : ExecutionId} {n : Nat}

/-! ## Phases along a history -/

/-- The phase of `e` has come as far as rank `n`. -/
def Store.Reached (s : Store) (e : ExecutionId) (n : Nat) : Prop :=
  ∃ c, s.authorities.find? e = some c ∧ n ≤ c.phase.rank

namespace TraitCall

variable {α β : Type} {b : β}

variable {c : TraitCall β}

theorem Does.cases (h : c.Does s b s') :
    s' = s ∨ ∃ call now, c = .store call ∧ Step s ⟨β, call, now⟩ s' := by
  cases c with
  | store call =>
    obtain ⟨now, ⟨_, rfl⟩ | ⟨_, _, rfl | rfl⟩⟩ := h
    · exact .inr ⟨call, now, rfl, rfl⟩
    · exact .inl rfl
    · exact .inr ⟨call, now, rfl, rfl⟩
  | lifecycle c => exact .inl h.2
  | task c => exact .inl h

theorem makes_of_stepped {g : GuardStep} (h : c.stepped e g b) : c.makes e g := by
  cases c with
  | lifecycle c => exact h.1
  | store c => exact h
  | task c => exact h

theorem Does.committed {call : StoreCall (Except StoreError α)} {a : α}
    (hfail : ∀ err, call.failed err = .error err) (h : (TraitCall.store call).Does s (.ok a) s') :
    ∃ now, call.exec now s = (.ok a, s') := by
  obtain ⟨now, ⟨ha, rfl⟩ | ⟨err, ha, _⟩⟩ := h
  · exact ⟨now, Prod.ext ha.symm rfl⟩
  · cases ha.trans (hfail err)

theorem Does.reached (h : c.Does s b s') (hs : s.Reached e n) : s'.Reached e n := by
  rcases h.cases with rfl | ⟨call, now, _, hst⟩
  · exact hs
  · obtain ⟨d, hd, hle⟩ := hs
    rcases Store.authority_step hst hd with ⟨d', hd', _, _, hq⟩ | ⟨q, ⟨d', hd', _, _, hq⟩, hshift⟩
    · exact ⟨d', hd', hq ▸ hle⟩
    · exact ⟨d', hd', hq ▸ hle.trans hshift.rank_le⟩

theorem Does.fenced (h : c.Does s b s') (hc : c.fences e b) :
    s'.Reached e CleanupDisposition.cleanupPending.rank := by
  cases c with
  | lifecycle c => exact hc.elim
  | task c => exact hc.elim
  | store call =>
    cases call
    case fenceForCleanup id handles =>
      obtain ⟨rfl, hok⟩ := hc
      obtain ⟨u, rfl⟩ : ∃ u, b = .ok u := by
        cases b with
        | ok u => exact ⟨u, rfl⟩
        | error err => cases hok
      obtain ⟨now, hexec⟩ := h.committed fun _ => rfl
      obtain ⟨d, _, _, hd, _, _, _, _, _, rfl⟩ := Store.fenceForCleanup_spec (Txn.run_ok.1 hexec)
      exact ⟨_, by rw [Table.find?_put, if_pos (Store.authority_id hd)], le_rfl⟩
    case getAuthority id =>
      obtain ⟨rfl, d, rfl, hphase⟩ := hc
      obtain ⟨now, hexec⟩ := h.committed fun _ => rfl
      obtain ⟨hget, rfl⟩ := Prod.mk.inj hexec
      exact ⟨d, Txn.require_eq_ok.1 hget, hphase ▸ le_rfl⟩
    all_goals exact hc.elim

theorem Does.resolved (h : c.Does s b s') (hc : c.resolves e b) :
    s'.Reached e CleanupDisposition.resolved.rank := by
  cases c with
  | lifecycle c => exact hc.elim
  | task c => exact hc.elim
  | store call =>
    cases call
    case resolve id =>
      obtain ⟨rfl, hok⟩ := hc
      obtain ⟨u, rfl⟩ : ∃ u, b = .ok u := by
        cases b with
        | ok u => exact ⟨u, rfl⟩
        | error err => cases hok
      obtain ⟨now, hexec⟩ := h.committed fun _ => rfl
      obtain ⟨d, hd, _, rfl⟩ := Store.resolve_spec (Txn.run_ok.1 hexec)
      exact ⟨_, by rw [Store.setPhase, Table.find?_put, if_pos (Store.authority_id hd)], le_rfl⟩
    all_goals exact hc.elim

end TraitCall

theorem CleanupDisposition.eq_resolved {p : CleanupDisposition} (h : resolved.rank ≤ p.rank) :
    p = .resolved := by
  revert h
  cases p with
  | active stage => cases stage <;> decide
  | _ => decide

section History
variable {h : List (Moment ι Store TraitCall)}

theorem reached_of_happens (hh : Happens TraitCall.Does s h t) (hs : s.Reached e n) : t.Reached e n :=
  (hh.all (I := fun u => u.Reached e n) (Q := fun _ => True)
    (fun _ _ _ _ _ hu hsem => ⟨TraitCall.Does.reached hsem hu, trivial⟩) hs).1

theorem reached_since {P : Moment ι Store TraitCall → Prop} (hh : Happens TraitCall.Does s h t)
    (hP : ∀ {γ : Type} (c : TraitCall γ) u b v i, c.Does u b v → P ⟨⟨c, b⟩, i, u, v⟩ →
      v.Reached e n) {m : Moment ι Store TraitCall} (hm : m ∈ h) (hp : P m) : t.Reached e n :=
  hh.since (I := fun _ u => u.Reached e n) hP
    (fun _ _ _ _ _ hu hsem => TraitCall.Does.reached hsem hu) m hm hp

end History

theorem StoreCall.Shifts.leaves {β : Type} {call : StoreCall β} {p q : CleanupDisposition}
    {g : GuardStep} (h : call.Shifts e p q) (hp : p.rank < g.reached.rank)
    (hq : g.reached.rank ≤ q.rank) : call.leaves e g := by
  have hreached : CleanupDisposition.cleanupPending.rank < g.reached.rank ∧
      g.reached.rank ≤ CleanupDisposition.storageReleased.rank := by
    cases g <;> decide
  cases call
  case transitionCleanup id expected next handles =>
    obtain ⟨hid, rfl, rfl, hlegal⟩ := h
    refine ⟨hid, ?_⟩
    have hrank := CleanupDisposition.rank_of_canTransitionTo hlegal
    have hphase : p.rank = g.phase.rank := by
      have : g.reached.rank = g.phase.rank + 1 := by cases g <;> rfl
      omega
    revert hphase
    cases g <;> cases p with
    | active stage => cases stage <;> decide
    | _ => decide
  case fenceForCleanup | fenceLostAttempt =>
    obtain ⟨_, _, rfl⟩ := h
    omega
  case recoverUnreachable =>
    obtain ⟨_, rfl⟩ := h
    omega
  case recordProgress | commitRetainedAndReleaseCapacity =>
    obtain ⟨_, _, rfl⟩ := h
    simp only [CleanupDisposition.rank] at hq hreached
    omega
  case resolve | finalizeCleanup =>
    obtain ⟨_, rfl, _⟩ := h
    simp only [CleanupDisposition.rank] at hp hreached
    omega
  all_goals exact h.elim

section History
variable {h : List (Moment ι Store TraitCall)}

/-- Step `g` was made for `e` when it was fenced, and returned `Ok`. -/
def Stepped (e : ExecutionId) (g : GuardStep) (m : Moment ι Store TraitCall) : Prop :=
  m.call.stepped e g m.answer ∧ m.before.Reached e CleanupDisposition.cleanupPending.rank

/-- Who leaves a phase comes after the step of that phase. -/
def Paced (e : ExecutionId) (past : List (Moment ι Store TraitCall))
    (m : Moment ι Store TraitCall) : Prop :=
  ∀ g, m.call.leaves e g → ∃ n ∈ past, Stepped e g n

theorem stepped_of_reached (hh : Happens TraitCall.Does s h t)
    (hstart : ∀ c, s.authorities.find? e = some c →
      c.phase.rank ≤ CleanupDisposition.cleanupPending.rank)
    (hpaced : Ordered (Paced e) h) {g : GuardStep} (ht : t.Reached e g.reached.rank) :
    ∃ m ∈ h, Stepped e g m := by
  have hlate : CleanupDisposition.cleanupPending.rank < g.reached.rank := by cases g <;> decide
  induction hh with
  | nil =>
    obtain ⟨c, hc, hle⟩ := ht
    have := hstart c hc
    omega
  | @snoc _ past u v i c b hpast act ih =>
    by_cases hu : u.Reached e g.reached.rank
    · obtain ⟨m, hm, hstep⟩ := ih hpaced.init hu
      exact ⟨m, List.mem_append_left _ hm, hstep⟩
    · have hlow : ∀ d, u.authorities.find? e = some d → d.phase.rank < g.reached.rank :=
        fun d hd => Nat.lt_of_not_le fun hle => hu ⟨d, hd, hle⟩
      obtain ⟨d', hd', hle⟩ := ht
      suffices hleaves : c.leaves e g by
        obtain ⟨m, hm, hstep⟩ := hpaced.last g hleaves
        exact ⟨m, List.mem_append_left _ hm, hstep⟩
      rcases act.cases with rfl | ⟨call, now, rfl, hst⟩
      · exact absurd ⟨d', hd', hle⟩ hu
      · cases hd : u.authorities.find? e with
        | none =>
          have hnew : d'.phase.rank ≤ CleanupDisposition.cleanupPending.rank := by
            rcases Store.phase_of_new hst hd hd' with hp | hp
            · rw [hp]; decide
            · rw [hp]
          omega
        | some d =>
          rcases Store.authority_step hst hd with
            ⟨d'', hd'', _, _, hq⟩ | ⟨q, ⟨d'', hd'', _, _, hq⟩, hshift⟩
          · obtain rfl := Option.mem_unique hd' hd''
            have := hlow d hd
            rw [hq] at hle
            omega
          · obtain rfl := Option.mem_unique hd' hd''
            exact hshift.leaves (hlow d hd) (hq ▸ hle)

end History

/-! ## Processes that clean up -/

section Processes
variable [DecidableEq ι] {h : List (Moment ι Store TraitCall)}

/-- In a history from `s` to `t`, process `i` cleans up after `e`: as the task of the attempt, or from
an authority of `e` that the database held before its first call. -/
inductive Cleans (e : ExecutionId) (s : Store) (h : List (Moment ι Store TraitCall)) (t : Store)
    (i : ι) : Prop
  | task {x : TaskState} {cancellation : Bool} {attemptId : AttemptId} {errors : List String}
      {result : Option (Except WorkerError (List String) × TaskState)}
      (execution : x.execution.id = e) (guard : x.guard.execution.id = e)
      (makes : Makes ((Managed.cleanUpTask cancellation attemptId errors).run.run x) (callsOf h i)
        result)
  | recovery {authority : CleanupAuthority} {execution : Execution} {k : Nat}
      {before after : List (Moment ι Store TraitCall)} {u : Store}
      {result : Option (Except WorkerError Unit)} (split : h = before ++ after)
      (past : Happens TraitCall.Does s before u) (future : Happens TraitCall.Does u after t)
      (read : u.authorities.find? e = some authority) (unstarted : callsOf before i = [])
      (makes : Makes (Managed.recoverCleanupAuthority (4 + k) authority execution).run (callsOf h i)
        result)

/-- The call takes the cleanup of `e` further. -/
def TraitCall.Tears {β : Type} (e : ExecutionId) (c : TraitCall β) : Prop :=
  (∃ g, c.leaves e g) ∨ c.finalizes e ∨ c.completes e

variable {i : ι}

theorem answers_of_happens (hh : Happens TraitCall.Does s h t) :
    ∀ x ∈ callsOf h i, x.call.Answers x.answer := by
  intro x hx
  obtain ⟨m, hm, _, rfl⟩ := mem_callsOf.1 hx
  exact (hh.all (I := fun _ => True) (Q := fun m => m.call.Answers m.answer)
    (fun _ _ _ _ _ _ hsem => ⟨trivial, TraitCall.Does.answers hsem⟩) trivial).2 m hm

theorem Cleans.follows (hi : Cleans e s h t i) (hh : Happens TraitCall.Does s h t) :
    ∃ r, Ordered (Follows e r) (callsOf h i) ∧
      ∀ h₁ m h₂, h = h₁ ++ m :: h₂ → m.who = i → r = 0 ∨ m.before.Reached e r := by
  cases hi with
  | @task x cancellation a errors _ execution guard makes =>
    refine ⟨0, ?_, fun _ _ _ _ _ => .inl rfl⟩
    have htriple : Triple ((teardown e 0).past fun _ => True)
        ((Managed.cleanUpTask cancellation a errors).run.run x) _ :=
      (Managed.triple_cleanUpTask cancellation a errors x).weaken
        (fun _ hs => ⟨hs, execution, guard⟩) fun _ _ hq => hq
    exact Protocol.makes htriple trivial makes (answers_of_happens hh)
  | @recovery authority _ k before after u _ split past future read unstarted makes =>
    refine ⟨authority.phase.rank, ?_, fun h₁ m h₂ hsplit hwho => .inr ?_⟩
    · exact Protocol.makes (Managed.triple_recoverCleanupAuthority (Store.authority_id read) rfl k)
        trivial makes (answers_of_happens hh)
    · have hread : u.Reached e authority.phase.rank := ⟨authority, read, le_rfl⟩
      rcases List.append_eq_append_iff.1 (split.symm.trans hsplit) with
        ⟨mid, rfl, rfl⟩ | ⟨mid, rfl, hmid⟩
      · exact reached_of_happens future.split.1 hread
      · cases mid with
        | nil =>
          obtain rfl : after = m :: h₂ := by simpa using hmid.symm
          have hfuture : Happens TraitCall.Does u ([] ++ m :: h₂) t := future
          exact reached_of_happens hfuture.split.1 hread
        | cons n mid =>
          obtain ⟨rfl, _⟩ := List.cons.inj hmid
          rw [← hwho, callsOf_split] at unstarted
          simp at unstarted

theorem has_of_callsOf {p : {β : Type} → TraitCall β → β → Prop}
    (hp : Has p (callsOf h i)) : ∃ n ∈ h, n.who = i ∧ p n.call n.answer := by
  obtain ⟨y, hy, hp⟩ := hp
  obtain ⟨n, hn, hwho, rfl⟩ := mem_callsOf.1 hy
  exact ⟨n, hn, hwho, hp⟩

theorem fenced_of_makes (hh : Happens TraitCall.Does s h t) {r : Nat}
    (hfollows : Ordered (Follows e r) (callsOf h i))
    (hknows : ∀ h₁ m h₂, h = h₁ ++ m :: h₂ → m.who = i → r = 0 ∨ m.before.Reached e r)
    {h₁ h₂ : List (Moment ι Store TraitCall)} {m : Moment ι Store TraitCall} {g : GuardStep}
    (hsplit : h = h₁ ++ m :: h₂) (hwho : m.who = i) (hmakes : m.call.makes e g) :
    m.before.Reached e CleanupDisposition.cleanupPending.rank := by
  have hcalls : callsOf h i = callsOf h₁ i ++ m.toAnswered :: callsOf h₂ i := by
    rw [hsplit, ← hwho, callsOf_split]
  rcases (hfollows _ _ _ hcalls).make g hmakes with hfence | hrank
  · obtain ⟨n, hn, _, hfence⟩ := has_of_callsOf hfence
    rw [hsplit] at hh
    exact reached_since (P := fun n => n.call.fences e n.answer) hh.split.1
      (fun _ _ _ _ _ hsem hc => TraitCall.Does.fenced hsem hc) hn hfence
  · rcases hknows _ _ _ hsplit hwho with rfl | ⟨c, hc, hle⟩
    · exact absurd hrank (by decide)
    · exact ⟨c, hc, hrank.trans hle⟩

theorem paced_of_cleans (hh : Happens TraitCall.Does s h t)
    (hproc : ∀ i, Cleans e s h t i ∨ ∀ m ∈ h, m.who = i → ¬m.call.Tears e) :
    Ordered (Paced e) h := by
  intro h₁ m h₂ hsplit g hleaves
  rcases hproc m.who with hi | hother
  · obtain ⟨r, hfollows, hknows⟩ := hi.follows hh
    have hcalls : callsOf h m.who = callsOf h₁ m.who ++ m.toAnswered :: callsOf h₂ m.who := by
      rw [hsplit, callsOf_split]
    obtain ⟨n, hn, hwho, hstep⟩ := has_of_callsOf ((hfollows _ _ _ hcalls).leave g hleaves)
    refine ⟨n, hn, hstep, ?_⟩
    obtain ⟨l₁, l₂, rfl⟩ := List.append_of_mem hn
    exact fenced_of_makes hh hfollows hknows (hsplit.trans (List.append_assoc ..)) hwho
      (TraitCall.makes_of_stepped hstep)
  · exact absurd (.inl ⟨g, hleaves⟩) (hother m (hsplit ▸ by simp) rfl)

/-- Tasks and recoveries clean up after `e`, any number of them, and each may have stopped anywhere.
Whenever a phase is reached, the steps before it have returned `Ok` since the execution was fenced; a
finalization comes after the step that releases the storage, and the completion of a cancellation
finds the authority resolved. A recovery makes four steps at most. -/
theorem teardown_resumes_in_order (hh : Happens TraitCall.Does s h t)
    (hstart : ∀ c, s.authorities.find? e = some c →
      c.phase.rank ≤ CleanupDisposition.cleanupPending.rank)
    (hproc : ∀ i, Cleans e s h t i ∨ ∀ m ∈ h, m.who = i → ¬m.call.Tears e) :
    (∀ h₁ h₂ u, h = h₁ ++ h₂ → Happens TraitCall.Does s h₁ u →
      ∀ g : GuardStep, u.Reached e g.reached.rank → ∃ m ∈ h₁, Stepped e g m) ∧
    (∀ h₁ m h₂, h = h₁ ++ m :: h₂ → m.call.finalizes e → ∃ n ∈ h₁, Stepped e .releaseStorage n) ∧
    (∀ m ∈ h, m.call.completes e →
      ∃ c, m.before.authorities.find? e = some c ∧ c.phase = .resolved) ∧
    ∀ rounds authority execution es result,
      Makes (Managed.recoverCleanupAuthority rounds authority execution).run es result →
      (∀ x ∈ es, x.call.Answers x.answer) → es.countP (fun x => x.call.steps) ≤ 4 := by
  have hpaced := paced_of_cleans hh hproc
  -- who finalizes or completes is one of those who clean up
  have hcleans : ∀ {m}, m ∈ h → m.call.finalizes e ∨ m.call.completes e → Cleans e s h t m.who :=
    fun {m} hm hcall => (hproc m.who).resolve_right fun hother => hother m hm rfl (.inr hcall)
  refine ⟨fun h₁ h₂ u hsplit hu g hg => ?_, fun h₁ m h₂ hsplit hfinal => ?_,
    fun m hm hcomplete => ?_, fun rounds authority execution es result hmakes hanswers => ?_⟩
  · exact stepped_of_reached hu hstart (hsplit ▸ hpaced).init hg
  · obtain ⟨r, hfollows, hknows⟩ := (hcleans (hsplit ▸ by simp) (.inl hfinal)).follows hh
    have hcalls : callsOf h m.who = callsOf h₁ m.who ++ m.toAnswered :: callsOf h₂ m.who := by
      rw [hsplit, callsOf_split]
    rcases (hfollows _ _ _ hcalls).finalize hfinal with hown | hrank
    · obtain ⟨n, hn, hwho, hstep⟩ := has_of_callsOf hown
      refine ⟨n, hn, hstep, ?_⟩
      obtain ⟨l₁, l₂, rfl⟩ := List.append_of_mem hn
      exact fenced_of_makes hh hfollows hknows (hsplit.trans (List.append_assoc ..)) hwho
        (TraitCall.makes_of_stepped hstep)
    · rcases hknows _ _ _ hsplit rfl with rfl | ⟨c, hc, hle⟩
      · exact absurd hrank (by decide)
      · subst hsplit
        exact stepped_of_reached (g := .releaseStorage) hh.split.1 hstart hpaced.init
          ⟨c, hc, hrank.trans hle⟩
  · obtain ⟨r, hfollows, hknows⟩ := (hcleans hm (.inr hcomplete)).follows hh
    obtain ⟨h₁, h₂, hsplit⟩ := List.append_of_mem hm
    have hcalls : callsOf h m.who = callsOf h₁ m.who ++ m.toAnswered :: callsOf h₂ m.who := by
      rw [hsplit, callsOf_split]
    suffices hreached : m.before.Reached e CleanupDisposition.resolved.rank by
      obtain ⟨c, hc, hle⟩ := hreached
      exact ⟨c, hc, CleanupDisposition.eq_resolved hle⟩
    rcases (hfollows _ _ _ hcalls).complete hcomplete with hown | hrank
    · obtain ⟨n, hn, _, hresolve⟩ := has_of_callsOf hown
      subst hsplit
      exact reached_since (P := fun n => n.call.resolves e n.answer) hh.split.1
        (fun _ _ _ _ _ hsem hc => TraitCall.Does.resolved hsem hc) hn hresolve
    · rcases hknows _ _ _ hsplit rfl with rfl | ⟨c, hc, hle⟩
      · exact absurd hrank (by decide)
      · exact ⟨c, hc, hrank.trans hle⟩
  · exact (Protocol.makes (Managed.triple_recoverCleanupAuthority_spare rounds) le_rfl hmakes
      hanswers).countP_le

end Processes

namespace Sample

def obliging : {β : Type} → LifecycleCall β → β
  | _, .guard _ _ => .ok ()
  | _, .ack _ _ => .ok ()
  | _, .step _ _ .cleanupPending => .ok .runtimeStopped
  | _, .step _ _ .runtimeStopped => .ok .runtimeDestroyed
  | _, .step _ _ .runtimeDestroyed => .ok .gitRecoveredCleaned
  | _, .step _ _ .gitRecoveredCleaned => .ok .storageReleased
  | _, .step _ _ d => .error (.lifecycle s!"cleanup step cannot advance {d}")

def tend {β : Type} : TraitCall β → Store → β × Store
  | .store c, s => c.exec 9 s
  | .lifecycle c, s => (obliging c, s)
  | .task c, s => (heard c, s)
where
  heard : {β : Type} → TaskCall β → β
    | _, .cancel _ => ()
    | _, .signalControl _ _ => .ok ()

theorem does_tend {β : Type} (c : TraitCall β) (s : Store) : c.Does s (tend c s).1 (tend c s).2 := by
  cases c with
  | store c => exact ⟨9, .inl ⟨rfl, rfl⟩⟩
  | task c => rfl
  | lifecycle c =>
    refine ⟨?_, rfl⟩
    cases c with
    | guard g x => trivial
    | ack authority d => trivial
    | step authority execution d =>
      intro next hnext
      cases d <;> first | cases hnext; rfl | cases hnext

/-- The worker is lost and its attempt is fenced. -/
def fencedAttempt : Store := after Store.initial (assigned ++
  [⟨_, .begin ⟨"e"⟩ ⟨"a"⟩ ⟨"w"⟩, 3⟩, ⟨_, .fenceLostAttempt ⟨"e"⟩ ⟨"a"⟩, 4⟩])

def fencedAuthority : CleanupAuthority := (fencedAttempt.authorities.find? ⟨"e"⟩).get (by decide)

def recovering : Prog TraitCall (Except WorkerError Unit) :=
  (Managed.recoverCleanupAuthority 4 fencedAuthority execution).run

end Sample

open Sample in
/-- A recovery alone, after a fence. -/
theorem teardown_resumes_in_order_sample :
    (((recovering.eval tend fencedAttempt).2.authorities.find? ⟨"e"⟩).map fun c => c.phase) =
        some .resolved ∧
      ∃ m ∈ moments tend () recovering fencedAttempt, Stepped ⟨"e"⟩ .releaseStorage m := by
  have hend : (((recovering.eval tend fencedAttempt).2.authorities.find? ⟨"e"⟩).map
      fun c => c.phase) = some .resolved := by decide +kernel
  refine ⟨hend, ?_⟩
  have hread : fencedAttempt.authorities.find? ⟨"e"⟩ = some fencedAuthority :=
    (Option.some_get _).symm
  have hh : Happens TraitCall.Does fencedAttempt (moments tend () recovering fencedAttempt)
      (recovering.eval tend fencedAttempt).2 :=
    happens_moments does_tend () (p := recovering) (h := []) .nil
  have hmakes : Makes recovering (callsOf (moments tend () recovering fencedAttempt) ()) _ :=
    makes_moments () fencedAttempt
  have hall := teardown_resumes_in_order (e := ⟨"e"⟩) hh (fun c hc => ?_) fun _ => .inl
    (.recovery (k := 0) rfl .nil hh hread rfl hmakes)
  · obtain ⟨c, hc, hphase⟩ := Option.map_eq_some_iff.1 hend
    exact hall.1 _ [] _ (List.append_nil _).symm hh .releaseStorage ⟨c, hc, hphase ▸ by decide⟩
  · obtain rfl := Option.mem_unique hread hc
    decide +kernel

end Orchestrator
