import Orchestrator.Api.Executions
import Orchestrator.Persistence.EventLog

/-!
# The event stream of an execution

`events` (`orchestrator-api/src/events.rs`) answers with a stream of server-sent events: it replays
the durable log after the client's cursor in batches and then follows it. The broadcast channel only
wakes it up; what it emits always comes from the log.

`StreamState.round` is one round of the loop of `next_event`: what it does at once, or what it awaits
and how it goes on. `Subscription.next` puts the stream beside the database; the channel may hand
over anything at any time (a message, a lag, nothing within 500 ms, that it is closed).
-/

namespace Orchestrator

/-- A server-sent event. -/
structure SseEvent where
  id : String
  event : String
  data : ExecutionEvent
deriving DecidableEq, Repr

def toSse (event : ExecutionEvent) : SseEvent := ⟨toString event.sequence, "execution", event⟩

/-- What `timeout(receiver.recv())` returns. -/
inductive Received where
  | elapsed
  | message (event : ExecutionEvent)
  | lagged (skipped : Nat)
  | closed
deriving DecidableEq, Repr

structure StreamState where
  executionId : ExecutionId
  cursor : Nat
  pending : List ExecutionEvent
  needsFetch : Bool
deriving DecidableEq, Repr

def eventBatchSize : Nat := 128

/-- The handler, up to the stream it answers with. `found` is what `executions.get` returned,
`sinceBatch` reads the log; a query or a header that does not parse is `none` inside. -/
def events (found : Except StoreError Unit)
    (sinceBatch : Nat → Nat → Except StoreError (List ExecutionEvent)) (id : ExecutionId)
    (query : Option (Option Nat)) (lastEventId : Option (Option Nat)) :
    Except ApiError StreamState := do
  let some query := query | throw (.validation "cursor must be an unsigned integer")
  found.mapError .store
  if lastEventId = some none then
    throw (.validation "Last-Event-ID must be an unsigned integer")
  let cursor := ((lastEventId.bind fun value => value).or query).getD 0
  -- `i64::try_from`
  if 2 ^ 63 ≤ cursor then
    throw (.validation "event cursor exceeds the supported range")
  let pending ← (sinceBatch cursor eventBatchSize).mapError .store
  return ⟨id, cursor, pending, pending.length = eventBatchSize⟩

/-- One round of the loop of `next_event`. -/
inductive Round where
  | emit (event : SseEvent) (state : StreamState)
  | again (state : StreamState)
  /-- Awaits `since_batch(after, limit)`; `none` ends the stream. -/
  | fetch (after limit : Nat)
      (resume : Except StoreError (List ExecutionEvent) → Option StreamState)
  /-- Awaits the channel. -/
  | wait (resume : Received → Option StreamState)

def StreamState.round (state : StreamState) : Round :=
  match state.pending with
  | event :: pending =>
    if event.sequence ≤ state.cursor then .again { state with pending }
    else .emit (toSse event) { state with pending, cursor := event.sequence }
  | [] =>
    if state.needsFetch then
      .fetch state.cursor eventBatchSize fun
        | .ok events =>
          some { state with
            needsFetch := events.length = eventBatchSize, pending := state.pending ++ events }
        | .error _ => none
    else
      .wait fun
        | .closed => none
        | .elapsed | .message _ | .lagged _ => some { state with needsFetch := true }

/-- A stream beside the database. -/
structure Subscription (κ : Type) where
  log : EventLog κ
  /-- `none` once it has ended. -/
  stream : Option StreamState
  emitted : List SseEvent := []

namespace Subscription

inductive Act where
  /-- A statement, commit or rollback of some connection. -/
  | database (act : EventLog.Act)
  /-- The stream takes the next pending event. -/
  | turn
  /-- The stream's `since_batch` returns. -/
  | fetch (failure : Option StoreError)
  | receive (result : Received)
deriving DecidableEq, Repr

def Act.own : Act → Bool
  | .database _ => false
  | _ => true

variable {κ : Type} [DecidableEq κ]

/-- One step; `none` where it does not come next. -/
def next (hash : ExecutionId → κ) (sys : Subscription κ) : Act → Option (Subscription κ)
  | .database act => (sys.log.next hash act).map fun log => { sys with log }
  | .turn => sys.stream.bind fun state =>
    match state.round with
    | .emit event state => some { sys with stream := some state, emitted := sys.emitted ++ [event] }
    | .again state => some { sys with stream := some state }
    | .fetch .. | .wait _ => none
  | .fetch failure => sys.stream.bind fun state =>
    match state.round with
    | .fetch after limit resume =>
      let answer := match failure with
        | none => .ok (sys.log.sinceBatch state.executionId after limit)
        | some error => .error error
      some { sys with stream := resume answer }
    | .emit .. | .again _ | .wait _ => none
  | .receive result => sys.stream.bind fun state =>
    match state.round with
    | .wait resume => some { sys with stream := resume result }
    | .emit .. | .again _ | .fetch .. => none

/-- The system after the steps of `acts`, if each comes next where it stands. -/
def nexts (hash : ExecutionId → κ) (sys : Subscription κ) : List Act → Option (Subscription κ)
  | [] => some sys
  | a :: acts => (sys.next hash a).bind fun sys' => sys'.nexts hash acts

end Subscription
end Orchestrator
