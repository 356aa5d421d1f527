import Orchestrator.Api.Executions
import Orchestrator.Lib.History
import Orchestrator.Persistence.Proof.Capacity
import Orchestrator.Persistence.Proof.Rows

/-!
# Creation is idempotent

Any number of `create_execution` calls, interleaved with each other and with any other calls of the
store. Two facts about single calls carry the result: an idempotency key that is bound stays bound to
the same execution (`requests_step`), and the reply of `create_idempotent` names the execution its key
is bound to afterwards, as created only where the key was free (`createIdempotent_reply`). A program
that returned an execution got it from such a reply (`makes_createFrom`).
-/

namespace Orchestrator

open Relational Txn Prog

namespace Store

variable {s s' : Store} {now : Timestamp}

/-! ## Bound keys -/

theorem createIdempotent_reply {x : Execution} {event : ExecutionEvent} {key scope : String}
    {r : IdempotentExecution} (h : createIdempotent x event key scope s = .ok (r, s')) :
    (∃ q row, s.requests.find? key = some q ∧ q.requestScope = scope ∧
        s.executions.find? q.executionId = some row ∧ row.manifest = x.manifest ∧
        r = ⟨row.toExecution, false, none⟩ ∧ s' = s) ∨
      s.requests.find? key = none ∧ r.created = true ∧ r.execution = x ∧
        s'.requests = s.requests.put ⟨key, scope, x.id⟩ := by
  simp only [createIdempotent, bind_eq_ok, ensure_eq_ok] at h
  obtain ⟨_, _, _, _, h⟩ := h
  split at h
  · rename_i q hq
    simp only [bind_eq_ok, ensure_eq_ok, require_eq_ok, pure_eq_ok, Prod.mk.injEq] at h
    obtain ⟨row, hrow, _, ⟨hscope, hmanifest⟩, hr, hs⟩ := h
    exact .inl ⟨q, row, hq, hscope, hrow, hmanifest, hr.symm, hs.symm⟩
  · simp only [bind_eq_ok, pure_eq_ok, Prod.mk.injEq] at h
    obtain ⟨s₁, hins, rfl, rfl⟩ := h
    obtain ⟨_, rfl⟩ := insertExecution_spec hins
    exact .inr ⟨‹_›, rfl, rfl, rfl⟩

/-- A key that is used for another request is refused. -/
theorem createIdempotent_conflict {x : Execution} {v : ExecutionEvent} {key scope : String}
    {q : RequestRow} {row : ExecutionRow} (hq : s.requests.find? key = some q)
    (hrow : s.executions.find? q.executionId = some row)
    (hother : q.requestScope ≠ scope ∨ row.manifest ≠ x.manifest)
    (hkey : key ≠ "" ∧ key.utf8ByteSize ≤ 255)
    (hevent : x.id = v.executionId ∧ x.state = v.state ∧ v.sequence = 0) :
    createIdempotent x v key scope s =
      .error (.idempotencyConflict "idempotency key was already used for a different request") := by
  have hne : ¬(q.requestScope = scope ∧ row.manifest = x.manifest) := by
    rintro ⟨hscope, hmanifest⟩
    exact hother.elim (fun h => h hscope) fun h => h hmanifest
  simp only [createIdempotent, ensure, if_pos hkey, if_pos hevent, hq, hrow, require]
  change Except.bind (if q.requestScope = scope ∧ row.manifest = x.manifest then _ else _) _ = _
  rw [if_neg hne]
  rfl

theorem requests_committed {β : Type} {call : StoreCall β} (h : Committed now s call s') :
    s'.requests = s.requests ∨ ∃ q : RequestRow,
      (q.idempotencyKey ≠ "" ∧ q.idempotencyKey.utf8ByteSize ≤ 255) ∧
      s.requests.find? q.idempotencyKey = none ∧ s.executions.find? q.executionId = none ∧
      (∃ row, s'.executions.find? q.executionId = some row) ∧ s'.requests = s.requests.put q := by
  have hframe := h.frame
  cases h with
  | @createIdempotent x _ key scope _ _ h =>
    have hvalid : key ≠ "" ∧ key.utf8ByteSize ≤ 255 := by
      simp only [createIdempotent, bind_eq_ok, ensure_eq_ok] at h
      exact h.choose_spec.1
    rcases createIdempotent_spec h with rfl | ⟨hkey, hnew, _, rfl⟩
    · exact .inl rfl
    · refine .inr ⟨⟨key, scope, x.id⟩, hvalid, hkey, hnew, ⟨{ toExecution := x, version := 1 }, ?_⟩,
        rfl⟩
      rw [append]
      simp
  | _ => exact .inl (hframe.requests (by simp [StoreCall.writes]))

variable {l : Label}

theorem manifest_step {e : ExecutionId} {row : ExecutionRow}
    (h : Orchestrator.Step s l s') (hrow : s.executions.find? e = some row) :
    ∃ row', s'.executions.find? e = some row' ∧ row'.manifest = row.manifest := by
  rcases h.cases with rfl | h
  · exact ⟨row, hrow, rfl⟩
  rcases row_committed h e with hsame | ⟨row', hrow', hw⟩
  · exact ⟨row, hsame.trans hrow, rfl⟩
  exact ⟨row', hrow', (hw.over hrow).2.1⟩

/-- Requests have valid keys and name executions that are there, no two the same. -/
structure Registered (s : Store) : Prop where
  valid : ∀ key q, s.requests.find? key = some q → key ≠ "" ∧ key.utf8ByteSize ≤ 255
  found : ∀ key q, s.requests.find? key = some q → ∃ row, s.executions.find? q.executionId = some row
  unique : ∀ key key' q q', s.requests.find? key = some q → s.requests.find? key' = some q' →
    q.executionId = q'.executionId → key = key'

theorem requests_step {key : String} {q : RequestRow} (h : Orchestrator.Step s l s')
    (hq : s.requests.find? key = some q) : s'.requests.find? key = some q := by
  rcases h.cases with rfl | h
  · exact hq
  rcases requests_committed h with hsame | ⟨p, _, hfree, _, _, hput⟩
  · rw [hsame]
    exact hq
  · rw [hput, Table.find?_put, if_neg]
    · exact hq
    · rintro rfl
      cases hfree.symm.trans hq

theorem Registered.step (hR : s.Registered) (h : Orchestrator.Step s l s') : s'.Registered := by
  have hkept : ∀ {e row}, s.executions.find? e = some row → ∃ row', s'.executions.find? e = some row' :=
    fun hrow => (manifest_step h hrow).imp fun _ hrow' => hrow'.1
  rcases h.cases with rfl | hcommit
  · exact hR
  rcases requests_committed hcommit with hsame | ⟨p, hvalid, hfree, hnew, hfound, hput⟩
  · refine ⟨fun key q hq => hR.valid key q (hsame ▸ hq), fun key q hq => ?_,
      fun key key' q q' hq hq' => ?_⟩
    · obtain ⟨row, hrow⟩ := hR.found key q (hsame ▸ hq)
      exact hkept hrow
    · exact hR.unique key key' q q' (hsame ▸ hq) (hsame ▸ hq')
  · -- a key other than the new one is bound to an execution that was there
    have hold : ∀ {key q}, s'.requests.find? key = some q →
        (p.idempotencyKey = key ∧ q = p) ∨ (p.idempotencyKey ≠ key ∧
          s.requests.find? key = some q ∧ q.executionId ≠ p.executionId) := by
      intro key q hq
      rw [hput] at hq
      rcases Table.find?_put_eq_some.1 hq with ⟨hkey, rfl⟩ | ⟨hkey, hq⟩
      · exact .inl ⟨hkey, rfl⟩
      · refine .inr ⟨hkey, hq, fun heq => ?_⟩
        obtain ⟨row, hrow⟩ := hR.found key q hq
        rw [heq, hnew] at hrow
        cases hrow
    refine ⟨fun key q hq => ?_, fun key q hq => ?_, fun key key' q q' hq hq' heq => ?_⟩
    · rcases hold hq with ⟨rfl, _⟩ | ⟨_, hq, _⟩
      · exact hvalid
      · exact hR.valid key q hq
    · rcases hold hq with ⟨_, rfl⟩ | ⟨_, hq, _⟩
      · exact hfound
      · obtain ⟨row, hrow⟩ := hR.found key q hq
        exact hkept hrow
    · rcases hold hq with ⟨hk, rfl⟩ | ⟨_, hq, hne⟩ <;> rcases hold hq' with ⟨hk', rfl⟩ | ⟨_, hq', hne'⟩
      · exact hk.symm.trans hk'
      · exact absurd heq.symm hne'
      · exact absurd heq hne
      · exact hR.unique key key' q q' hq hq' heq

theorem registered_of_reachable (h : Reachable s) : s.Registered :=
  h.invariant (fun _ _ _ hR _ hst => hR.step hst) ⟨nofun, nofun, nofun⟩

end Store

/-! ## Calls and programs -/

open Store

variable {s s' : Store}

variable {β : Type} {c : ApiCall β} {b : β} {request : CreateRequest} {es : List (Answered ApiCall)}

theorem ApiCall.step_of_does (h : c.Does s b s') : s' = s ∨ ∃ l, Step s l s' := by
  cases c with
  | aside c => exact .inl h
  | store c =>
    obtain ⟨now, ⟨_, hs⟩ | ⟨_, _, hs | hs⟩⟩ := h
    · exact .inr ⟨⟨_, c, now⟩, hs.symm⟩
    · exact .inl hs
    · exact .inr ⟨⟨_, c, now⟩, hs.symm⟩

theorem ApiCall.does_aside {d : HandlerCall β} (hc : c = .aside d)
    (h : c.Does s b s') : s' = s := by
  subst hc
  exact h

def creating (request : CreateRequest) (id : ExecutionId) (now : Timestamp)
    (r : Except StoreError IdempotentExecution) : Answered ApiCall :=
  ⟨.store (.createIdempotent (newExecution request.manifest id now) (createdEvent id now)
    request.idempotencyKey request.requestScope), r⟩

theorem makes_createFrom {lower : Char → List Char} {n ordinal : Nat}
    {st : StatusCode} {x : Execution}
    (h : Makes (createFrom lower request n ordinal).run es (some (.ok (st, x)))) :
    ∃ id now outcome, creating request id now (.ok outcome) ∈ es ∧ outcome.execution = x ∧
      st = if outcome.created then .created else .ok := by
  induction n generalizing ordinal es with
  | zero => cases (Makes.pure h).2
  | succ n ih =>
    obtain ⟨_, he, _⟩ | ⟨id, _, es₁, rfl, _, h₁⟩ := Makes.bind_run h
    · cases he
    obtain ⟨_, he, _⟩ | ⟨now, _, es₂, rfl, _, h₂⟩ := Makes.bind_run h₁
    · cases he
    obtain ⟨_, he, _⟩ | ⟨outcome, es₃, es₄, rfl, hcall, h₃⟩ := Makes.bind_run h₂
    · cases he
    obtain ⟨r, es₅, es₆, rfl, hask, hret⟩ := Makes.bind hcall
    obtain rfl := Makes.ask hask
    obtain ⟨rfl, hr⟩ := Makes.pure hret
    obtain rfl := Except.ok.inj hr
    cases outcome with
    | ok outcome =>
      obtain ⟨_, he, _⟩ | ⟨_, _, es₇, rfl, _, h₄⟩ := Makes.bind_run h₃
      · cases he
      obtain ⟨rfl, hx⟩ := Makes.pure h₄
      obtain ⟨rfl, rfl⟩ := Prod.mk.inj (Except.ok.inj hx)
      exact ⟨id, now, outcome, by simp [creating], rfl, rfl⟩
    | error error =>
      cases error with
      | duplicateExecutionId _ =>
        obtain ⟨id', now', outcome, hmem, hx⟩ := ih h₃
        exact ⟨id', now', outcome, by simp [hmem], hx⟩
      | _ => cases (Makes.pure h₃).2

def usedKey : StoreError :=
  .idempotencyConflict "idempotency key was already used for a different request"

/-- A program whose creations were all refused or failed returned the first such error, unless it
could not even name the execution. -/
theorem makes_createFrom_refused {lower : Char → List Char}
    {n ordinal : Nat} {q : Except ApiError (StatusCode × Execution)}
    (h : Makes (createFrom lower request (n + 1) ordinal).run es (some q))
    (hes : ∀ id now r, creating request id now r ∈ es →
      r = .error usedKey ∨ ∃ detail, r = .error (.db detail)) :
    (∃ e, allocateId lower request.manifest ordinal = .error e ∧ q = .error e) ∨
      q = .error (.store usedKey) ∨
      ∃ id now detail, creating request id now (.error (.db detail)) ∈ es ∧
        q = .error (.store (.db detail)) := by
  obtain ⟨e, rfl, h₁⟩ | ⟨id, _, es₁, rfl, _, h₁⟩ := Makes.bind_run h
  · exact .inl ⟨e, ((Makes.pure h₁).2).symm, rfl⟩
  obtain ⟨e, _, h₂⟩ | ⟨now, _, es₂, rfl, _, h₂⟩ := Makes.bind_run h₁
  · obtain ⟨_, _, _, _, _, hret⟩ := Makes.bind h₂
    cases (Makes.pure hret).2
  obtain ⟨e, _, h₃⟩ | ⟨outcome, es₃, es₄, rfl, hcall, h₃⟩ := Makes.bind_run h₂
  · obtain ⟨_, _, _, _, _, hret⟩ := Makes.bind h₃
    cases (Makes.pure hret).2
  obtain ⟨r, es₅, es₆, rfl, hask, hret⟩ := Makes.bind hcall
  obtain rfl := Makes.ask hask
  obtain ⟨rfl, hr⟩ := Makes.pure hret
  obtain rfl := Except.ok.inj hr
  obtain rfl | ⟨detail, rfl⟩ := hes id now outcome (by simp [creating])
  · exact .inr (.inl (Makes.pure h₃).2)
  · exact .inr (.inr ⟨id, now, detail, by simp [creating], (Makes.pure h₃).2⟩)

def ApiCall.creates {β : Type} (request : CreateRequest) (c : ApiCall β) : Prop :=
  (∃ d, c = .aside d) ∨ ∀ b, ∃ id now r, (⟨c, b⟩ : Answered ApiCall) = creating request id now r

theorem only_createFrom (lower : Char → List Char) (request : CreateRequest) (n ordinal : Nat) :
    (createFrom lower request n ordinal).run.Only (ApiCall.creates request) := by
  induction n generalizing ordinal with
  | zero => trivial
  | succ n ih =>
    have haside : ∀ {γ : Type} (c : HandlerCall γ), (aside c).run.Only (ApiCall.creates request) :=
      fun c => .bind (.ask (.inl ⟨c, rfl⟩)) fun _ => trivial
    rw [createFrom]
    generalize allocateId lower request.manifest ordinal = name
    refine .seq (p := ExceptT.mk (.pure name)) trivial fun id => ?_
    refine .seq (haside .now) fun now => ?_
    refine .seq (.observe (.attempt (.inr fun r => ⟨id, now, r, rfl⟩))) ?_
    intro outcome
    cases outcome with
    | ok outcome => exact .seq (.whenSome fun _ _ => haside _) fun _ => trivial
    | error error =>
      cases error with
      | duplicateExecutionId _ => exact ih _
      | _ => trivial

theorem only_createExecution (lower : Char → List Char) (request : CreateRequest) :
    (createExecution lower request).run.Only (ApiCall.creates request) := by
  unfold createExecution
  exact only_createFrom lower request maxIdAttempts 1

/-! ## Histories -/

section History
variable {ι : Type} {t : Store} {h : List (Moment ι Store ApiCall)}

variable {request : CreateRequest} {q : RequestRow}

theorem does_creating {id : ExecutionId}
    {now : Timestamp} {r : Except StoreError IdempotentExecution} (h : c.Does s b s')
    (heq : (⟨c, b⟩ : Answered ApiCall) = creating request id now r) :
    let tx := createIdempotent (newExecution request.manifest id now) (createdEvent id now)
      request.idempotencyKey request.requestScope
    (r = (run tx s).1 ∧ s' = (run tx s).2) ∨
      ∃ detail, r = .error (.db detail) ∧ (s' = s ∨ s' = (run tx s).2) := by
  cases heq
  exact h.choose_spec

theorem bound_kept {key : String}
    (hq : s.requests.find? key = some q) (h : c.Does s b s') : s'.requests.find? key = some q := by
  rcases ApiCall.step_of_does h with rfl | ⟨l, hst⟩
  · exact hq
  · exact requests_step hst hq

theorem bound_happens (hh : Happens ApiCall.Does s h t) {key : String}
    (hq : s.requests.find? key = some q) : t.requests.find? key = some q :=
  (hh.all (I := fun t => t.requests.find? key = some q) (Q := fun _ => True)
    (fun _ _ _ _ _ hq hact => ⟨bound_kept hq hact, trivial⟩) hq).1

theorem registered_happens (hh : Happens ApiCall.Does s h t) (hR : s.Registered) : t.Registered := by
  refine (hh.all (I := Store.Registered) (Q := fun _ => True) (fun _ _ _ _ _ hR hact => ⟨?_, trivial⟩)
    hR).1
  rcases ApiCall.step_of_does hact with rfl | ⟨l, hst⟩
  · exact hR
  · exact hR.step hst

def Grants (request : CreateRequest) (outcome : IdempotentExecution)
    (m : Moment ι Store ApiCall) : Prop :=
  ∃ id now, m.toAnswered = creating request id now (.ok outcome)

/-- A moment at which an execution was created under `key`. -/
def Creates (key : String) (m : Moment ι Store ApiCall) : Prop :=
  ∃ request outcome, request.idempotencyKey = key ∧ Grants request outcome m ∧
    outcome.created = true

theorem bound_of_grants (hh : Happens ApiCall.Does s h t)
    {outcome : IdempotentExecution} {m : Moment ι Store ApiCall} (hm : m ∈ h)
    (hg : Grants request outcome m) :
    ∃ q, t.requests.find? request.idempotencyKey = some q ∧
      q.executionId = outcome.execution.id ∧ q.requestScope = request.requestScope := by
  refine hh.since (I := fun _ t => ∃ q, t.requests.find? request.idempotencyKey = some q ∧
    q.executionId = outcome.execution.id ∧ q.requestScope = request.requestScope)
    (P := Grants request outcome) ?_ ?_ m hm hg
  · rintro _ c u b v i hact ⟨id, now, heq⟩
    rcases does_creating hact heq with ⟨hr, hv⟩ | ⟨_, hr, _⟩
    · have hok := run_ok.1 (Prod.ext hr.symm hv.symm)
      rcases createIdempotent_reply hok with ⟨q, row, hq, hscope, hrow, _, rfl, hs⟩ | ⟨_, _, hx, hs⟩
      · refine ⟨q, by rw [hs]; exact hq, ?_, hscope⟩
        exact (execution_id hrow).symm
      · exact ⟨_, by rw [hs, Table.find?_put, if_pos rfl], by rw [hx], rfl⟩
    · cases hr
  · rintro _ c u b v _ ⟨q, hq, hrest⟩ hact
    exact ⟨q, bound_kept hq hact, hrest⟩

theorem created_once (hh : Happens ApiCall.Does s h t) (key : String)
    {m n : Moment ι Store ApiCall} (hm : m ∈ h) (hn : n ∈ h) (hne : m ≠ n) :
    ¬(Creates key m ∧ Creates key n) := by
  refine hh.at_most_one (I := fun t => t.requests.find? key ≠ none) (P := Creates key) ?_ ?_ ?_ hm hn
    hne
  · rintro _ c u b v i hact ⟨request, outcome, rfl, ⟨id, now, heq⟩, hcreated⟩
    obtain ⟨q, hq, _⟩ := bound_of_grants (h := [⟨⟨c, b⟩, i, u, v⟩]) (.snoc .nil hact)
      (List.mem_singleton_self _) ⟨id, now, heq⟩
    rw [hq]
    nofun
  · intro _ c u b v hI hact
    obtain ⟨q, hq⟩ := Option.ne_none_iff_exists'.1 hI
    rw [bound_kept hq hact]
    nofun
  · rintro _ c u b v i hI hact ⟨request, outcome, rfl, ⟨id, now, heq⟩, hcreated⟩
    rcases does_creating hact heq with ⟨hr, hv⟩ | ⟨_, hr, _⟩
    · have hok := run_ok.1 (Prod.ext hr.symm hv.symm)
      rcases createIdempotent_reply hok with ⟨_, _, _, _, _, _, rfl, _⟩ | ⟨hfree, _⟩
      · cases hcreated
      · exact hI hfree
    · cases hr

theorem refused_happens (hh : Happens ApiCall.Does s h t) (hR : s.Registered) {row : ExecutionRow}
    (hq : s.requests.find? request.idempotencyKey = some q)
    (hrow : s.executions.find? q.executionId = some row)
    (hother : q.requestScope ≠ request.requestScope ∨ row.manifest ≠ request.manifest) :
    ∀ m ∈ h, m.call.creates request → m.after = m.before ∧
      ∀ id now r, m.toAnswered = creating request id now r →
        r = .error usedKey ∨ ∃ detail, r = .error (.db detail) := by
  refine (hh.all (I := fun t => t.Registered ∧ t.requests.find? request.idempotencyKey = some q ∧
    ∃ row', t.executions.find? q.executionId = some row' ∧ row'.manifest = row.manifest)
    (Q := fun m => m.call.creates request → m.after = m.before ∧
      ∀ id now r, m.toAnswered = creating request id now r →
        r = .error usedKey ∨ ∃ detail, r = .error (.db detail)) ?_ ⟨hR, hq, row, hrow, rfl⟩).2
  rintro γ c u b v i ⟨hRu, hqu, row', hrow', hmanifest⟩ hact
  have hrefused : ∀ id now, run (createIdempotent (newExecution request.manifest id now)
      (createdEvent id now) request.idempotencyKey request.requestScope) u = (.error usedKey, u) := by
    intro id now
    have hconflict := createIdempotent_conflict (x := newExecution request.manifest id now)
      (v := createdEvent id now) hqu hrow' (hmanifest.symm ▸ hother) (hRu.valid _ _ hqu)
      ⟨rfl, rfl, rfl⟩
    rw [run, hconflict]
    rfl
  refine ⟨?_, fun hcreates => ⟨?_, fun id now r heq => ?_⟩⟩
  · rcases ApiCall.step_of_does hact with rfl | ⟨l, hst⟩
    · exact ⟨hRu, hqu, row', hrow', hmanifest⟩
    · obtain ⟨row'', hrow'', hsame⟩ := manifest_step hst hrow'
      exact ⟨hRu.step hst, requests_step hst hqu, row'', hrow'', hsame.trans hmanifest⟩
  · rcases hcreates with ⟨d, hd⟩ | hcreates
    · exact ApiCall.does_aside hd hact
    · obtain ⟨id, now, r, heq⟩ := hcreates b
      rcases does_creating hact heq with ⟨_, hv⟩ | ⟨_, _, hv | hv⟩
      · exact hv.trans (by rw [hrefused])
      · exact hv
      · exact hv.trans (by rw [hrefused])
  · rcases does_creating hact heq with ⟨hr, _⟩ | ⟨detail, hr, _⟩
    · exact .inl (by rw [hr, hrefused])
    · exact .inr ⟨detail, hr⟩

end History

def Failed {ι : Type} (m : Moment ι Store ApiCall) (detail : String) : Prop :=
  ∃ request id now, m.toAnswered = creating request id now (.error (.db detail))

namespace Sample

def lower (c : Char) : List Char := [c.toLower]

def reply : {β : Type} → HandlerCall β → β
  | _, .now => 0
  | _, .send _ => ()

def answer {β : Type} : ApiCall β → Store → β × Store
  | .store c, s => c.exec 0 s
  | .aside c, s => (reply c, s)

theorem does_answer {β : Type} (c : ApiCall β) (s : Store) :
    c.Does s (answer c s).1 (answer c s).2 := by
  cases c with
  | store c => exact ⟨0, .inl ⟨rfl, rfl⟩⟩
  | aside c => rfl

def twice : CreateRequest := ⟨manifest, "key", "create"⟩

def again : Except ApiError (StatusCode × Execution) :=
  ((createExecution lower twice).run.eval answer
    ((createExecution lower twice).run.eval answer Store.initial).2).1

def unnamed : ExecutionManifest := { manifest with repository := { repo := "owner/---", baseRef := "main" } }

end Sample

end Orchestrator
