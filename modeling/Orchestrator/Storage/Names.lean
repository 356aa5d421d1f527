import Orchestrator.Lib.Lines
import Orchestrator.Storage.Manager

/-!
# The names of records and of what operations leave behind

`execution-storage/src/journal.rs`: an operation on a record first makes a temporary file whose name
carries the record's, a check of who owns a directory makes a probe file, and a crash leaves either
behind. Scans tell them from records by their names. A name is the list of its characters; process
id, clock and counter are those at the time it is made.
-/

namespace Orchestrator

abbrev FileName := List Char

namespace ExecutionStorage

/-! ## Names of an operation -/

def temporaryName (name : FileName) (process epochNanos counter : Nat) : FileName :=
  '.' :: name ++ '.' :: Nat.toDigits 10 process ++ '.' :: Nat.toDigits 16 epochNanos ++
    '.' :: Nat.toDigits 10 counter ++ ".tmp".toList

def ownershipProbeName (process epochNanos counter : Nat) : FileName :=
  ".autospec-owner-".toList ++ Nat.toDigits 10 process ++ '-' :: Nat.toDigits 16 epochNanos ++
    '-' :: Nat.toDigits 10 counter

def isHexDigit (c : Char) : Bool := c.isDigit || ('a' ≤ c && c ≤ 'f') || ('A' ≤ c && c ≤ 'F')

/-- A component that is there and has only such characters. -/
def component (of : Char → Bool) (xs : List Char) : Bool := !xs.isEmpty && xs.all of

/-- What a temporary name has between its dot and its extension. -/
def temporaryStem (name : FileName) : Option FileName := do
  let rest ← name.dropPrefix? ['.']
  rest.dropSuffix? ".tmp".toList

def legacyTemporaryOperation (name : FileName) : Option FileName := do
  let stem ← temporaryStem name
  let (rest, counter) ← Lines.rsplitOnce '.' stem
  let (operation, process) ← Lines.rsplitOnce '.' rest
  guard (operation ≠ [] ∧ process.all Char.isDigit ∧ component Char.isDigit counter)
  pure operation

def temporaryOperation (name : FileName) : Option FileName := do
  let stem ← temporaryStem name
  let (rest, counter) ← Lines.rsplitOnce '.' stem
  let (rest, epoch) ← Lines.rsplitOnce '.' rest
  let (operation, process) ← Lines.rsplitOnce '.' rest
  guard (operation ≠ [] ∧ process.all Char.isDigit ∧ component isHexDigit epoch ∧
    component Char.isDigit counter)
  pure operation

def isOperationTemporaryName (name : FileName) : Bool :=
  (temporaryOperation name).isSome || (legacyTemporaryOperation name).isSome

def isJournalTemporaryName (name : FileName) : Bool :=
  ((temporaryOperation name).or (legacyTemporaryOperation name)).any fun operation =>
    ".json".toList.isSuffixOf operation

/-- What follows the start of a probe's name: with the time, or in the older form without. -/
def ownerProbe (rest : List Char) : Bool :=
  (match Lines.split '-' rest with
    | [process, epoch, counter] =>
      component Char.isDigit process && component isHexDigit epoch &&
        component Char.isDigit counter
    | _ => false) ||
  (Lines.splitOnce '-' rest).any fun halves =>
    component Char.isDigit halves.1 && component Char.isDigit halves.2

def isOwnerProbeName (name : FileName) : Bool :=
  (name.dropPrefix? ".autospec-owner-".toList).any ownerProbe

/-! ## Names of records -/

def validateMetadataName (name : FileName) : Except StorageError Unit :=
  Txn.ensure (¬(name = [] ∨ name = ".".toList ∨ name = "..".toList ∨ '/' ∈ name ∨ '\\' ∈ name))
    (.invalidRequest "metadata record name is unsafe")

def holdName (id : ExecutionId) (holdId : String) : Except StorageError FileName := do
  let name := id.value.toList ++ "--".toList ++ holdId.toList ++ ".json".toList
  validateMetadataName name
  pure name

/-- The names `list` reads for an execution. -/
def listed (id : ExecutionId) (name : FileName) : Bool :=
  (id.value.toList ++ "--".toList).isPrefixOf name

/-- Every name under which a record of an execution is kept. -/
inductive RecordName (id : ExecutionId) : FileName → Prop
  | journal : RecordName id (id.value.toList ++ ".json".toList)
  | lease : RecordName id (id.value.toList ++ ".lease".toList)
  | hold {holdId name} (h : holdName id holdId = .ok name) : RecordName id name
  | createIntent : RecordName id (".create-".toList ++ id.value.toList ++ ".json".toList)
  | cleanupJournal : RecordName id (".cleanup-".toList ++ id.value.toList ++ ".json".toList)

end ExecutionStorage
end Orchestrator
