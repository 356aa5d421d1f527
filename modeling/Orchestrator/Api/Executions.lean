import Orchestrator.Lib.Program
import Orchestrator.Persistence.Calls

/-!
# Creating executions

`create_execution` (`orchestrator-api/src/executions.rs`) names an execution after its repository,
task and role and numbers it: it tries one ordinal after another until the store accepts the name.
The store decides about the idempotency key, in one transaction for each attempt, so other calls may
commit between two of them. `lower` stands for `char::to_lowercase`.
-/

namespace Orchestrator

open Prog

/-! ## Errors -/

inductive StatusCode where
  | ok | created | accepted | badRequest | forbidden | notFound | conflict | internalServerError
deriving DecidableEq, Repr

structure ApiError where
  status : StatusCode
  code : String
  message : String
deriving DecidableEq, Repr

namespace ApiError

def validation (message : String) : ApiError := ⟨.badRequest, "VALIDATION", message⟩

def conflict (message : String) : ApiError := ⟨.conflict, "CONFLICT", message⟩

/-- `ApiError::store`; what the database reports stays inside. -/
def store : StoreError → ApiError
  | .notFound what => ⟨.notFound, "NOT_FOUND", what⟩
  | .illegalTransition source target =>
    ⟨.conflict, "ILLEGAL_TRANSITION", s!"illegal state transition: {source} -> {target}"⟩
  | .idempotencyConflict message => ⟨.conflict, "IDEMPOTENCY_CONFLICT", message⟩
  | .duplicateExecutionId id => ⟨.conflict, "DUPLICATE_EXECUTION_ID", id⟩
  | .conflict message => conflict message
  | .db _ => ⟨.internalServerError, "INTERNAL", "internal server error"⟩

end ApiError

/-! ## Names -/

/-- `trim_end_matches('-')`. -/
def trimHyphens (s : List Char) : List Char := (s.reverse.dropWhile (· = '-')).reverse

/-- One character of a slug: letters and digits are kept, a run of others is one hyphen. -/
def slugStep (acc : List Char × Bool) (c : Char) : List Char × Bool :=
  if c.isAlphanum then (acc.1 ++ [c], false)
  else if acc.1 ≠ [] ∧ !acc.2 then (acc.1 ++ ['-'], true)
  else acc

def slug (lower : Char → List Char) (value : String) : List Char :=
  trimHyphens ((value.toList.flatMap lower).foldl slugStep ([], false)).1

def Role.abbreviation : Role → String
  | .implementation => "impl"
  | .review => "review"
  | .documentation => "doc"
  | .uiReview => "ui"
  | .integrationTest => "itest"
  | .interactive => "inter"

/-- `{ordinal:02}`. -/
def padded (ordinal : Nat) : String :=
  let digits := toString ordinal
  if digits.length < 2 then "0" ++ digits else digits

/-- The part of the name that says which task, role and ordinal. -/
def idSuffix (lower : Char → List Char) (manifest : ExecutionManifest) (ordinal : Nat) : List Char :=
  let issue := match manifest.task with
    | some task => slug lower task.issueId
    | none => []
  let issue := if issue = [] then "adhoc".toList else issue
  '-' :: issue ++ '-' :: manifest.role.abbreviation.toList ++ '-' :: (padded ordinal).toList

/-- At most 63 characters, all of them ASCII; the repository's name gives way. -/
def allocateId (lower : Char → List Char) (manifest : ExecutionManifest) (ordinal : Nat) :
    Except ApiError ExecutionId :=
  let repository := slug lower (String.ofList (finalComponent manifest.repository.repo.toList))
  if repository = [] then .error (.validation "repository cannot produce an execution id")
  else
    let suffix := idSuffix lower manifest ordinal
    let repository := trimHyphens (repository.take (63 - suffix.length))
    if repository = [] then .error (.validation "execution id prefix is too long")
    else .ok ⟨String.ofList (repository ++ suffix)⟩

/-! ## Calls of the API -/

/-- What a handler does outside the database. -/
inductive HandlerCall : Type → Type
  /-- `Utc::now`. -/
  | now : HandlerCall Timestamp
  /-- `event_tx.send`. -/
  | send (event : ExecutionEvent) : HandlerCall Unit

inductive ApiCall (β : Type) : Type
  | store (c : StoreCall β)
  | aside (c : HandlerCall β)

/-- What a call may answer, and what it leaves of the database. A call of the store may fail, and
may then have taken effect. -/
def ApiCall.Does {β : Type} : ApiCall β → Store → β → Store → Prop
  | .store c, s, b, s' => ∃ now, (b = (c.exec now s).1 ∧ s' = (c.exec now s).2) ∨
      ∃ detail, b = c.failed (.db detail) ∧ (s' = s ∨ s' = (c.exec now s).2)
  | .aside _, s, _, s' => s' = s

abbrev Handler := ExceptT ApiError (Prog ApiCall)

/-- A call that cannot fail. -/
def aside {α : Type} (c : HandlerCall α) : Handler α :=
  ExceptT.mk (ask (.aside c) >>= fun a => .pure (.ok a))

/-! ## Creation -/

structure CreateRequest where
  manifest : ExecutionManifest
  idempotencyKey : String
  requestScope : String

@[irreducible] def maxIdAttempts : Nat := 10000

def newExecution (manifest : ExecutionManifest) (id : ExecutionId) (now : Timestamp) : Execution :=
  { id, role := manifest.role, state := .queued, manifest,
    labels :=
      { executionId := id, workerId := ⟨"unassigned"⟩, repository := manifest.repository.repo,
        issue := manifest.task.map fun task => task.issueId },
    createdAt := now, updatedAt := now }

def createdEvent (id : ExecutionId) (now : Timestamp) : ExecutionEvent :=
  { executionId := id, attemptId := none, sequence := 0, at_ := now, state := .queued,
    kind := .executionCreated }

/-- Tell the streams about the event, if one was appended, and answer. -/
def answerCreated (event : ExecutionEvent) (outcome : IdempotentExecution) :
    Handler (StatusCode × Execution) := do
  whenSome outcome.eventSequence fun sequence => aside (.send { event with sequence })
  pure (if outcome.created then .created else .ok, outcome.execution)

/-- `for ordinal in …`, for the next `n` ordinals. -/
def createFrom (lower : Char → List Char) (request : CreateRequest) :
    Nat → Nat → Handler (StatusCode × Execution)
  | 0, _ => throw (.conflict "execution identifier space is exhausted for this task and role")
  | n + 1, ordinal => do
    let id ← ExceptT.mk (.pure (allocateId lower request.manifest ordinal))
    let now ← aside .now
    let event := createdEvent id now
    let outcome ← observe (attempt (ApiCall.store (.createIdempotent
      (newExecution request.manifest id now) event request.idempotencyKey request.requestScope)))
    match outcome with
    | .ok outcome => answerCreated event outcome
    | .error (StoreError.duplicateExecutionId _) => createFrom lower request n (ordinal + 1)
    | .error error => throw (.store error)

def createExecution (lower : Char → List Char) (request : CreateRequest) :
    Handler (StatusCode × Execution) :=
  createFrom lower request maxIdAttempts 1

end Orchestrator
