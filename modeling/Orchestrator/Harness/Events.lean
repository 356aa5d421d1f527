import Orchestrator.Persistence.Schema

/-!
# Pi's live events

`spawn` starts Pi with a piped stdout and a pump thread that copies it, line by line and redacted,
into the session's live-event file. `poll_events` reads the cursor, samples whether the process is
gone, reduces the complete lines behind the cursor (`normalize`) and writes the cursor back; a
process that is gone without a terminal record is reported as `HarnessFailed`.

`LiveSession.next` is one step of Pi, of the pump or of a poll; they interleave freely, and polls
may overlap. The file is modelled by the complete lines in it: a poll ignores what follows the last
newline, so offsets count lines. `seen` stands for the redaction and the JSON decoding of a line.
-/

namespace Orchestrator

/-! ## The reducer -/

/-- The `message` of a record, or the record itself where it has none. -/
structure PiMessage where
  role : Option String := none
  stopReason : Option String := none
  /-- Whether `errorMessage` is there. -/
  errorMessage : Bool := false
deriving DecidableEq, Repr

/-- A record of Pi by its `type`, with the fields `normalize` reads. -/
inductive PiRecord where
  /-- `type` is missing or not a string. -/
  | untyped
  | agentStart
  | testRun
  | testFailed
  | done
  | agentSettled
  | modelError
  | messageEnd (message : PiMessage)
  | agentEnd (willRetry : Option Bool)
  | autoRetryStart
  | autoRetryEnd (success : Option Bool)
  | toolExecutionStart (toolName command : Option String)
  /-- One of the other types `normalize` lists: `session`, `turn_start`, `message_update`, … -/
  | ignored
  /-- Any other type. -/
  | unrecognized
deriving DecidableEq, Repr

inductive TerminalState where
  | active
  | reviewReady
  | modelFailed
  /-- Pi settled without a single assistant turn. -/
  | harnessFailed
deriving DecidableEq, Repr

structure ReducerState where
  pendingModelError : Bool := false
  retrying : Bool := false
  terminal : TerminalState := .active
  /-- Assistant `message_end` records that are not model errors. -/
  assistantTurns : Nat := 0
deriving DecidableEq, Repr

/-- What became of a record; `event` in the source is completed by `liveEvent` here. -/
inductive Normalized where
  | event (state : ExecutionState) (kind : ExecutionEventKind)
  | knownIgnored
  | unknown
deriving DecidableEq, Repr

def isAssistantMessage (message : PiMessage) : Bool := message.role = some "assistant"

def isModelError (message : PiMessage) : Bool :=
  message.role = some "assistant" && (message.stopReason = some "error" || message.errorMessage)

def isTestTool (toolName command : Option String) : Bool :=
  toolName = some "bash" && command.any fun c => "test".toList <:+: c.toList

namespace ReducerState

def harnessFailed (reducer : ReducerState) : Normalized × ReducerState :=
  (.event .failed (.executionFailed .harnessFailed), { reducer with terminal := .harnessFailed })

def modelFailed (reducer : ReducerState) : Normalized × ReducerState :=
  if reducer.terminal = .modelFailed ∨ reducer.terminal = .harnessFailed then
    (.knownIgnored, reducer)
  else
    (.event .failed (.executionFailed .modelFailed),
      { reducer with pendingModelError := false, retrying := false, terminal := .modelFailed })

def settle (reducer : ReducerState) : Normalized × ReducerState :=
  if reducer.terminal = .modelFailed ∨ reducer.terminal = .harnessFailed then
    (.knownIgnored, reducer)
  else if reducer.pendingModelError || reducer.retrying then reducer.modelFailed
  else if reducer.assistantTurns = 0 then reducer.harnessFailed
  else if reducer.terminal = .reviewReady then (.knownIgnored, reducer)
  else (.event .reviewReady .reviewReady, { reducer with terminal := .reviewReady })

end ReducerState

def normalize (session : SessionRef) (reducer : ReducerState) :
    PiRecord → Normalized × ReducerState
  | .untyped => (.unknown, reducer)
  | .agentStart => (.event .running (.agentStarted session.id), {})
  | .testRun => (.event .running .testsStarted, reducer)
  | .testFailed => (.event .running .testsFailed, reducer)
  | .done => reducer.settle
  | .agentSettled => reducer.settle
  | .modelError => reducer.modelFailed
  | .messageEnd message =>
    if isAssistantMessage message then
      let failed := isModelError message
      (.knownIgnored, { reducer with
        pendingModelError := failed
        assistantTurns := reducer.assistantTurns + if failed then 0 else 1 })
    else (.knownIgnored, reducer)
  | .agentEnd willRetry =>
    let willRetry := willRetry.getD false
    let reducer := { reducer with retrying := willRetry }
    if !willRetry && reducer.pendingModelError then reducer.modelFailed
    else (.knownIgnored, reducer)
  | .autoRetryStart => (.knownIgnored, { reducer with retrying := true })
  | .autoRetryEnd success =>
    (.knownIgnored, { reducer with retrying := false, pendingModelError := !success.getD false })
  | .toolExecutionStart toolName command =>
    if isTestTool toolName command then (.event .running .testsStarted, reducer)
    else (.knownIgnored, reducer)
  | .ignored => (.knownIgnored, reducer)
  | .unrecognized => (.unknown, reducer)

/-! ## One poll -/

/-- A complete line of the live-event file. -/
inductive LiveLine where
  | blank
  /-- Not JSON. -/
  | invalid
  | record (record : PiRecord)
deriving DecidableEq, Repr

structure JsonlCursor where
  offset : Nat := 0
  reducer : ReducerState := {}
deriving DecidableEq, Repr

inductive HarnessError where
  | invalidSession
deriving DecidableEq, Repr

def liveEvent (session : SessionRef) (now : Timestamp) (state : ExecutionState)
    (kind : ExecutionEventKind) : ExecutionEvent where
  executionId := session.executionId
  sequence := 0
  at_ := now
  state := state
  kind := kind

/-- Why a poll reports an event: the record on some line, or the process being gone. -/
inductive EventSource where
  | line (index : Nat)
  | exit
deriving DecidableEq, Repr

/-- An event of a poll; `source` is for the proofs. -/
structure LiveEvent where
  source : EventSource
  event : ExecutionEvent
deriving DecidableEq, Repr

/-- What the loop of `poll_events` has in hand. -/
structure Batch where
  cursor : JsonlCursor
  events : List LiveEvent := []
  unknown : Nat := 0
deriving DecidableEq, Repr

section
variable (session : SessionRef) (now : Timestamp)

/-- The loop body of `poll_events`. -/
def Batch.feed (batch : Batch) : LiveLine → Except HarnessError Batch
  | .blank => .ok { batch with cursor.offset := batch.cursor.offset + 1 }
  | .invalid => .error .invalidSession
  | .record record =>
    let (normalized, reducer) := normalize session batch.cursor.reducer record
    let cursor : JsonlCursor := ⟨batch.cursor.offset + 1, reducer⟩
    match normalized with
    | .event state kind =>
      let event := liveEvent session now state kind
      .ok { batch with cursor, events := batch.events ++ [⟨.line batch.cursor.offset, event⟩] }
    | .knownIgnored => .ok { batch with cursor }
    | .unknown => .ok { batch with cursor, unknown := batch.unknown + 1 }

/-- `if process_gone && terminal == Active { harness_failed(…) }`. -/
def Batch.reportExit (batch : Batch) : Batch :=
  let event := liveEvent session now .failed (.executionFailed .harnessFailed)
  { batch with
    cursor.reducer := batch.cursor.reducer.harnessFailed.2
    events := batch.events ++ [⟨.exit, event⟩] }

/-- `poll_events` from the read of the file on; `none` where it returns without writing the
cursor. -/
def readEvents (cursor : JsonlCursor) (exited : Bool) (file : List LiveLine) :
    Except HarnessError (Option Batch) :=
  if file.length < cursor.offset then .error .invalidSession
  else
    let complete := file.drop cursor.offset
    let processGone := exited && cursor.reducer.terminal = .active
    if complete = [] ∧ !processGone then .ok none
    else do
      let batch ← complete.foldlM (Batch.feed session now) { cursor }
      if processGone && batch.cursor.reducer.terminal = .active then
        return some (batch.reportExit session now)
      else return some batch

end

/-! ## Pi, the pump and the polls -/

/-- A call of `poll_events`. -/
abbrev PollId := Nat

inductive Poll where
  /-- It has read the cursor, -/
  | opened (cursor : JsonlCursor)
  /-- sampled the process, -/
  | sampled (cursor : JsonlCursor) (exited : Bool)
  /-- and reduced what was in the file. -/
  | reduced (batch : Batch)
deriving DecidableEq, Repr

structure LiveSession (α : Type) where
  /-- The complete lines Pi wrote. -/
  stdout : List α := []
  /-- The child has exited and its container group is empty. -/
  exited : Bool := false
  /-- How many of the lines the pump has copied. -/
  copied : Nat := 0
  cursor : JsonlCursor := {}
  polls : PollId → Option Poll := fun _ => none
  /-- What the polls returned. -/
  returned : List LiveEvent := []
  unknownEvents : Nat := 0

namespace LiveSession

variable {α : Type}

/-- A process was just spawned; the live-event file may hold lines of an earlier one. -/
def spawned (earlier : List α) : LiveSession α := { stdout := earlier, copied := earlier.length }

inductive Act (α : Type) where
  | write (line : α)
  | exit
  | copy
  /-- `read_cursors`. -/
  | openPoll (i : PollId)
  /-- `session_process_exited`; after a restart the harness has no process registered. -/
  | sample (i : PollId) (registered : Bool)
  | read (i : PollId) (now : Timestamp)
  /-- `atomic_write` of the cursor, and the return. -/
  | save (i : PollId)
  /-- The poll ends early: an I/O error, or the worker stopped. -/
  | abandon (i : PollId)
deriving DecidableEq, Repr

def setPoll (w : LiveSession α) (i : PollId) (poll : Option Poll) : LiveSession α :=
  { w with polls := fun j => if j = i then poll else w.polls j }

section
variable (session : SessionRef) (seen : α → LiveLine)

def file (w : LiveSession α) : List LiveLine := (w.stdout.take w.copied).map seen

/-- One step; `none` where it is not possible. -/
def next (w : LiveSession α) : Act α → Option (LiveSession α)
  | .write line => if w.exited then none else some { w with stdout := w.stdout ++ [line] }
  | .exit => some { w with exited := true }
  | .copy => if w.copied < w.stdout.length then some { w with copied := w.copied + 1 } else none
  | .openPoll i =>
    match w.polls i with
    | none => some (w.setPoll i (some (.opened w.cursor)))
    | some _ => none
  | .sample i registered =>
    match w.polls i with
    | some (.opened cursor) => some (w.setPoll i (some (.sampled cursor (registered && w.exited))))
    | _ => none
  | .read i now =>
    match w.polls i with
    | some (.sampled cursor exited) =>
      match readEvents session now cursor exited (w.file seen) with
      | .ok (some batch) => some (w.setPoll i (some (.reduced batch)))
      | .ok none => some (w.setPoll i none)
      | .error _ => some (w.setPoll i none)
    | _ => none
  | .save i =>
    match w.polls i with
    | some (.reduced batch) =>
      some { w.setPoll i none with
        cursor := batch.cursor
        returned := w.returned ++ batch.events
        unknownEvents := w.unknownEvents + batch.unknown }
    | _ => none
  | .abandon i => some (w.setPoll i none)

end
end LiveSession
end Orchestrator
