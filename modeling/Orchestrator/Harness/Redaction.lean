import Orchestrator.Lib.Lines

/-!
# Redaction of Pi's output

`spawn` (`session.rs`) starts two pump threads: one copies Pi's stderr to a log, the other one its
stdout, after the two records of the supervisor, to the live-event file. Both go record by record and
overwrite the credential in each of them (`redact_bytes`). `VerifiedPiHarnessFactory::build` reads the
credential from its file.

Bytes are `UInt8`. The `while` loop of `redact_bytes` has fuel, and returns nothing when that runs out.
A stream is what Pi writes until it closes it; what a pump has written at some moment, or when a read
or a write failed, is a first part of what it writes for the whole stream.
-/

namespace Orchestrator

open Lines

def newline : UInt8 := 10

def redaction : List UInt8 :=
  [91, 82, 69, 68, 65, 67, 84, 69, 68, 95, 67, 82, 69, 68, 69, 78, 84, 73, 65, 76, 93]

/-- `while let Some(index) = …`: overwrite the first occurrence and look again. -/
def redactLoop (secret : List UInt8) : Nat → List UInt8 → Option (List UInt8)
  | 0, _ => none
  | fuel + 1, bytes =>
    match position secret bytes with
    | none => some bytes
    | some index =>
      redactLoop secret fuel
        (bytes.take index ++ redaction ++ bytes.drop (index + secret.length))

def redactBytes (fuel : Nat) (bytes secret : List UInt8) : Option (List UInt8) :=
  if secret = [] then some bytes else redactLoop secret fuel bytes

def redactAll (fuel : Nat) (secrets : List (List UInt8)) (record : List UInt8) :
    Option (List UInt8) :=
  secrets.foldlM (redactBytes fuel) record

def pump (fuel : Nat) (secrets : List (List UInt8)) (stream : List UInt8) : Option (List UInt8) :=
  ((records newline stream).mapM (redactAll fuel secrets)).map List.flatten

/-- What the thread `pi-stderr` writes to its log. -/
def pumpStderr (fuel : Nat) (secrets : List (List UInt8)) (stderr : List UInt8) :
    Option (List UInt8) :=
  pump fuel secrets stderr

/-- What the thread `pi-events` writes to the live-event file. `control` and `ready` tell whether a
line is UTF-8 that `parse_supervisor_header` and `parse_supervisor_ready` accept. -/
def pumpEvents (fuel : Nat) (secrets : List (List UInt8)) (control ready : List UInt8 → Bool)
    (stdout : List UInt8) : Option (List UInt8) :=
  let (header, rest) := readUntil newline stdout
  if header = [] ∨ !control header then some []
  else
    let (confirmation, rest) := readUntil newline rest
    if confirmation = [] ∨ !ready confirmation then some []
    else pump fuel secrets rest

/-- The token of a credential file: its first line, when that is long enough. -/
def credentialToken (credential : List UInt8) : Option (List UInt8) :=
  some (credential.takeWhile (· ≠ newline)) |>.filter fun token => 32 ≤ token.length

end Orchestrator
