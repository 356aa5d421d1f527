import Orchestrator.Core.Manifest
import Orchestrator.Lib.Lines

/-!
# Worker tokens

`PerWorkerTokens` of `orchestrator-api/src/auth.rs`: the file of token digests, one worker to a line,
and the comparison of a presented token with all of them.
-/

namespace Orchestrator.PerWorkerTokens

abbrev Entry := WorkerId × List UInt8

/-- `str::lines`: `\n` or `\r\n` ends a line. -/
def lines (text : List Char) : List (List Char) :=
  (Lines.records '\n' text).map fun record =>
    if record.getLast? = some '\n' then
      if record.dropLast.getLast? = some '\r' then record.dropLast.dropLast else record.dropLast
    else record

/-- A line without its comment. -/
def content (raw : List Char) : List Char := Text.trim (raw.takeWhile (· ≠ '#'))

def splitWhitespace (line : List Char) : List (List Char) :=
  (line.splitOnP Text.isWhitespace).filter (· ≠ [])

/-- `char::to_digit(16)` of the character with this code. -/
def toDigit (code : Nat) : Option Nat :=
  if 48 ≤ code ∧ code ≤ 57 then some (code - 48)
  else if 97 ≤ code ∧ code ≤ 102 then some (code - 87)
  else if 65 ≤ code ∧ code ≤ 70 then some (code - 55)
  else none

def decodePairs : List UInt8 → Option (List UInt8)
  | high :: low :: rest => do
    let high ← toDigit high.toNat
    let low ← toDigit low.toNat
    let out ← decodePairs rest
    pure (UInt8.ofNat (high * 16 + low) :: out)
  | _ => some []

def decodeDigest (hex : List Char) : Option (List UInt8) :=
  let bytes := hex.flatMap String.utf8EncodeChar
  if bytes.length ≠ 64 then none else decodePairs bytes

/-- One round of the loop; the sets of workers and digests are those of the entries. -/
def parseLine (number : Nat) (entries : List Entry) (raw : List Char) :
    Except String (List Entry) :=
  let line := content raw
  if line = [] then .ok entries
  else match splitWhitespace line with
  | [worker, digest] =>
    match decodeDigest digest with
    | none =>
      .error s!"worker token file line {number}: digest is not 64 hexadecimal characters"
    | some digest =>
      let worker : WorkerId := ⟨String.ofList worker⟩
      if worker ∈ entries.map Prod.fst then
        .error s!"worker token file line {number}: worker id appears more than once"
      else if digest ∈ entries.map Prod.snd then
        .error s!"worker token file line {number}: digest is shared by more than one worker"
      else .ok (entries ++ [(worker, digest)])
  | _ => .error s!"worker token file line {number}: expected `<worker_id> <sha256-hex>`"

def parseLines (number : Nat) (entries : List Entry) :
    List (List Char) → Except String (List Entry)
  | [] => .ok entries
  | raw :: rest => do
    let entries ← parseLine number entries raw
    parseLines (number + 1) entries rest

def parse (text : List Char) : Except String (List Entry) := do
  let entries ← parseLines 1 [] (lines text)
  if entries = [] then .error "worker token file lists no workers" else .ok entries

def constantTimeEq (left right : List UInt8) : Bool :=
  (List.range (max left.length right.length)).foldl (fun difference index =>
    difference ||| (left.getD index 0 ^^^ right.getD index 0).toNat)
    (left.length ^^^ right.length) = 0

/-- `Sha256::digest` is `hash`. -/
def identify (hash : List UInt8 → List UInt8) (entries : List Entry) (presented : List UInt8) :
    Option WorkerId :=
  entries.foldl (fun found entry =>
    if constantTimeEq (hash presented) entry.2 then some entry.1 else found) none

end Orchestrator.PerWorkerTokens
