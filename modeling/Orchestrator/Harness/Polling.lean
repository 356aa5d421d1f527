import Orchestrator.Harness.Events
import Orchestrator.Harness.Redaction

/-!
# Polls of the live-event file, in bytes

`Harness.Events` counts the lines of the file. Here the file is its bytes, of which a poll sees what
the pump has written by then, cut anywhere: `poll_events` reads behind the offset of the cursor and
takes what is complete up to the last newline. The cursor file is all that one poll leaves to the
next, so a restart of the harness between them makes no difference. `decode` stands for
`serde_json::from_slice` and the fields `normalize` reads.
-/

namespace Orchestrator

open Lines

def seenLine (decode : List UInt8 → Option PiRecord) (line : List UInt8) : LiveLine :=
  if line = [] then .blank
  else match decode line with
    | none => .invalid
    | some record => .record record

section
variable (session : SessionRef) (decode : List UInt8 → Option PiRecord)

/-- `poll_events` from the read of the file on; `none` where it returns without writing the
cursor. -/
def pollEvents (now : Timestamp) (cursor : JsonlCursor) (exited : Bool) (file : List UInt8) :
    Except HarnessError (Option Batch) :=
  if file.length < cursor.offset then .error .invalidSession
  else
    let complete := upToLast newline (file.drop cursor.offset)
    let processGone := exited && cursor.reducer.terminal = .active
    if complete = [] ∧ !processGone then .ok none
    else do
      let batch ← ((split newline complete).map (seenLine decode)).foldlM (Batch.feed session now)
        { cursor }
      let batch := { batch with cursor.offset := cursor.offset + complete.length }
      if processGone && batch.cursor.reducer.terminal = .active then
        return some (batch.reportExit session now)
      else return some batch

/-- Polls while the process is alive: when each of them is made and what it sees of the file. The
events they return, and the cursor the last one leaves. -/
def polls : JsonlCursor → List (Timestamp × List UInt8) →
    Except HarnessError (List ExecutionEvent × JsonlCursor)
  | cursor, [] => .ok ([], cursor)
  | cursor, (now, visible) :: rest => do
    let polled ← pollEvents session decode now cursor false visible
    let batch := polled.getD { cursor }
    let (events, last) ← polls batch.cursor rest
    return (batch.events.map LiveEvent.event ++ events, last)

def normalizeAll (reducer : ReducerState) : List PiRecord → List Normalized × ReducerState
  | [] => ([], reducer)
  | record :: records =>
    let (normalized, reducer) := normalize session reducer record
    let (rest, last) := normalizeAll reducer records
    (normalized :: rest, last)

end
end Orchestrator
