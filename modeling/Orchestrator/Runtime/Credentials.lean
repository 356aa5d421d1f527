import Orchestrator.Lib.Lines
import Orchestrator.Lib.Threads
import Orchestrator.Runtime.Mounts

/-!
# The credential of an execution

`LocalCredentialBroker` (`runtime-docker/src/credentials.rs`): `mint` publishes a credential file by
writing a candidate file and linking it to the published name, `revoke` removes it. Both hold the lock
of the execution's path from the first look at the directory until they return. What a crash leaves of
a candidate is removed by the next call (`scavenge_candidates`).

The directory maps names to files; a link makes two names of one file. Every call of the file system
may fail without an effect; a write that fails leaves anything in the file. The clock answers what it
likes. The execution id is a safe path component and the parent directory a real directory, so that
their checks pass.
-/

namespace Orchestrator.Credentials

open Prog

def credentialFile : String := "inferweave.credential"

abbrev Inode := Nat

inductive IoError where
  | notFound
  | alreadyExists
  | other (reason : String)
deriving DecidableEq, Repr

instance : ToString IoError where
  toString
    | .notFound => "entity not found"
    | .alreadyExists => "entity already exists"
    | .other reason => reason

structure Metadata where
  isFile : Bool
  isPrivate : Bool
deriving DecidableEq, Repr

structure File where
  metadata : Metadata
  text : String
deriving DecidableEq, Repr

/-! ## Calls -/

inductive Call : Type → Type
  /-- Waits for the lock; fails when it is poisoned. -/
  | lock : Call (Except RuntimeError Unit)
  /-- `verified_parent`. -/
  | verifiedParent : Call (Except RuntimeError Unit)
  | readDir : Call (Except IoError (List (Except IoError String)))
  /-- `symlink_metadata`. -/
  | inspect (name : String) : Call (Except IoError Metadata)
  | read (name : String) : Call (Except IoError String)
  | now : Call (Except IoError Timestamp)
  /-- 32 bytes of `/dev/urandom`. -/
  | entropy : Call (Except IoError (List UInt8))
  | createNew (name : String) : Call (Except IoError Inode)
  | write (file : Inode) (text : String) : Call (Except IoError Unit)
  | sync (file : Inode) : Call (Except IoError Unit)
  | hardLink (source target : String) : Call (Except IoError Unit)
  | removeFile (name : String) : Call (Except IoError Unit)
  | syncDirectory : Call (Except IoError Unit)

abbrev M := ExceptT RuntimeError (Prog Call)

/-- How times are written and read. -/
structure Rfc3339 where
  write : Timestamp → String
  parse : String → Option Timestamp
  parse_write : ∀ t, parse (write t) = some t
  /-- A time stands in a line. -/
  plain : ∀ t, '\n' ∉ (write t).toList ∧ '\r' ∉ (write t).toList

/-- An issuer: how times are written, and how long credentials live. -/
structure Broker where
  times : Rfc3339
  ttl : Timestamp
  ttl_pos : 0 < ttl

def Broker.new (times : Rfc3339) (ttl : Timestamp) : Except RuntimeError Broker :=
  if h : 0 < ttl then .ok ⟨times, ttl, h⟩
  else .error (.provisioning "credential TTL must be positive")

/-! ## Texts -/

structure Credential where
  token : String
  expiresAt : Timestamp
deriving DecidableEq, Repr

/-- `format!("{byte:02x}")` of every byte. -/
def hex (bytes : List UInt8) : List Char :=
  bytes.flatMap fun byte => [Nat.digitChar (byte.toNat / 16), Nat.digitChar (byte.toNat % 16)]

def stripEnd (line : List Char) : List Char :=
  if line.getLast? = some '\n' then
    if line.dropLast.getLast? = some '\r' then line.dropLast.dropLast else line.dropLast
  else line

def lines (text : String) : List String :=
  (Lines.records '\n' text.toList).map fun line => String.ofList (stripEnd line)

namespace Broker

variable (B : Broker)

def contents (c : Credential) : String :=
  String.ofList (c.token.toList ++ '\n' :: ((B.times.write c.expiresAt).toList ++ ['\n']))

def expiryOf (text : String) : Except RuntimeError Timestamp := do
  let line ← Txn.require (lines text)[1]? (.resourceLimit "credential expiry is missing")
  Txn.require (B.times.parse line) (.resourceLimit "credential expiry is invalid")

end Broker

def candidateStart : List Char := '.' :: credentialFile.toList ++ ['.']
def candidateEnd : List Char := ".tmp".toList

def candidateName (suffix : List Char) : String :=
  String.ofList (candidateStart ++ suffix ++ candidateEnd)

/-- Whether the name is one of a candidate: 64 hexadecimal digits between start and end. -/
def isCandidate (name : String) : Bool :=
  candidateStart <+: name.toList ∧ candidateEnd <:+ name.toList.drop candidateStart.length ∧
    let entropy := (name.toList.drop candidateStart.length).dropLast.dropLast.dropLast.dropLast
    entropy.length = 64 ∧ entropy.all fun c => c.isDigit || ('a' ≤ c && c ≤ 'f')

/-! ## The broker -/

namespace Broker

variable (B : Broker)

def provisioning (operation : String) (error : IoError) : RuntimeError :=
  .provisioning s!"{operation}: {error}"

def syncDirectory (operation : String) : M Unit :=
  attemptAs (provisioning operation) .syncDirectory

def scavenge (entry : Except IoError String) : M Unit := do
  let name ← unwrap (entry.mapError (provisioning "read credential candidate entry"))
  provided (isCandidate name) (do
    let metadata ← attemptAs (provisioning "inspect credential candidate") (.inspect name)
    refuse (!metadata.isFile)
      (.resourceLimit "credential candidate authority is not a regular file")
    attemptAs (fun error => .cleanup s!"remove credential crash candidate: {error}")
      (.removeFile name))

def scavengeCandidates : M Unit := do
  let entries ← attemptAs (provisioning "enumerate credential candidates") .readDir
  forEach entries scavenge
  syncDirectory "sync credential candidate cleanup"

/-- The expiry of the published credential, when there is one that has not expired. -/
def readLive : M (Option Timestamp) := do
  let inspected ← observe (attempt (.inspect credentialFile))
  match inspected with
  | .error .notFound => pure none
  | .error error => throw (provisioning "inspect execution credential" error)
  | .ok metadata => do
    refuse (!metadata.isFile) (.resourceLimit "execution credential is not a regular file")
    refuse (!metadata.isPrivate)
      (.resourceLimit "execution credential permissions are not private")
    let text ← attemptAs (provisioning "read execution credential") (.read credentialFile)
    let expiresAt ← unwrap (B.expiryOf text)
    let now ← attemptAs (provisioning "clock") .now
    pure (if now < expiresAt then some expiresAt else none)

def randomHex : M (List Char) := do
  let bytes ← attemptAs (fun error => .unavailable s!"secure operating-system entropy: {error}")
    .entropy
  pure (hex bytes)

/-- A candidate is removed when it goes out of scope with an error. -/
def orDrop {α : Type} (name : String) (t : M α) : M α := do
  let done ← observe t
  match done with
  | .ok a => pure a
  | .error error => do
    let _ ← (observe (attempt (.removeFile name)) : M (Except IoError Unit))
    throw error

def createCandidate (expiresAt : Timestamp) : M String := do
  let token ← randomHex
  let suffix ← randomHex
  let name := candidateName suffix
  let file ← attemptAs (provisioning "create execution credential") (.createNew name)
  orDrop name (do
    attemptAs (provisioning "write execution credential")
      (.write file (B.contents ⟨String.ofList token, expiresAt⟩))
    attemptAs (provisioning "persist execution credential") (.sync file))
  pure name

def removeCandidate (name operation : String) : M Unit :=
  orDrop name (attemptAs (provisioning operation) (.removeFile name))

/-- From the candidate to the published credential. -/
def publish (name : String) (expiresAt : Timestamp) : M Timestamp := do
  let linked ← observe (attempt (.hardLink name credentialFile))
  match linked with
  | .ok () => do
    removeCandidate name "remove linked credential candidate"
    syncDirectory "sync credential directory"
    pure expiresAt
  | .error .alreadyExists => do
    removeCandidate name "remove losing credential candidate"
    let winner ← B.readLive
    demand winner (.resourceLimit "concurrent credential winner is expired")
  | .error error =>
    orDrop name (throw (provisioning "publish execution credential" error))

/-- `mint`: the expiry of the credential at the published path. -/
def mint : M Timestamp := do
  attempt .lock
  attempt .verifiedParent
  scavengeCandidates
  let live ← B.readLive
  match live with
  | some expiresAt => pure expiresAt
  | none => do
    let inspected ← observe (attempt (.inspect credentialFile))
    match inspected with
    | .ok _ => throw (.resourceLimit
        "execution credential is expired and remains bound until cleanup")
    | .error _ => do
      let now ← attemptAs (provisioning "clock") .now
      let name ← B.createCandidate (now + B.ttl)
      B.publish name (now + B.ttl)

/-- From the scavenged directory to one without a credential. -/
def removeCredential : M Unit := do
  let inspected ← observe (attempt (.inspect credentialFile))
  match inspected with
  | .error .notFound => pure ()
  | .error error =>
    throw (.cleanup s!"inspect execution credential for revocation: {error}")
  | .ok metadata => do
    refuse (!metadata.isFile)
      (.resourceLimit "execution credential revocation authority is not a regular file")
    let removed ← observe (attempt (.removeFile credentialFile))
    match removed with
    | .ok () => do
      let synced ← observe (syncDirectory "sync credential revocation")
      match synced with
      | .ok () => pure ()
      | .error error => throw (.cleanup error.text)
    | .error .notFound => pure ()
    | .error error => throw (.cleanup s!"revoke execution credential: {error}")

def revoke : M Unit := do
  attempt .lock
  let parent ← observe (attempt .verifiedParent)
  match parent with
  | .ok () => do
    scavengeCandidates
    removeCredential
  | .error error => do
    let inspected ← observe (attempt (.inspect credentialFile))
    match inspected with
    | .error .notFound => pure ()
    | _ => throw error

end Broker

/-! ## What happens -/

/-- What a history of the credential is made of: its text is published and removed, a call of `mint`
returns with the text that stands there, the expiry it returns and the times it has read. -/
inductive Event where
  | published (text : String)
  | removed
  | minted (text : String) (expiresAt : Timestamp) (readings : List Timestamp)
deriving DecidableEq, Repr

/-- The directory, the lock, and what has happened. -/
structure Store where
  entry : String → Option Inode := fun _ => none
  file : Inode → File := fun _ => ⟨⟨true, true⟩, ""⟩
  /-- Inodes from here on are not used yet. -/
  unused : Inode := 0
  holder : Option Nat := none
  /-- What the clock told the holder of the lock. -/
  readings : List Timestamp := []
  /-- The newest first. -/
  history : List Event := []

namespace Store

def text (s : Store) (name : String) : Option String := (s.entry name).map fun k => (s.file k).text

/-- A name is given to a file. -/
def name (s : Store) (n : String) (k : Inode) : Store :=
  { s with entry := Function.update s.entry n (some k) }

def unname (s : Store) (n : String) : Store := { s with entry := Function.update s.entry n none }

def note (s : Store) (e : Event) : Store := { s with history := e :: s.history }

end Store

/-- What a call of thread `i` may answer, and what it leaves. -/
def Call.Does (i : Nat) : {β : Type} → Call β → Store → β → Store → Prop
  | _, .lock, s, .ok (), s' => s.holder = none ∧ s' = { s with holder := some i, readings := [] }
  | _, .verifiedParent, s, r, s' => r = .ok () ∧ s' = s
  | _, .readDir, s, .ok entries, s' => s' = s ∧ ∀ n, (s.entry n).isSome →
      .ok n ∈ entries ∨ ∃ e, .error e ∈ entries
  | _, .inspect n, s, .ok metadata, s' =>
    s' = s ∧ ∃ k, s.entry n = some k ∧ (s.file k).metadata = metadata
  | _, .inspect n, s, .error .notFound, s' => s' = s ∧ s.entry n = none
  | _, .read n, s, .ok text, s' => s' = s ∧ s.text n = some text
  | _, .now, s, .ok t, s' => s' = { s with readings := t :: s.readings }
  | _, .entropy, s, .ok bytes, s' => s' = s ∧ bytes.length = 32
  | _, .createNew n, s, .ok k, s' => s.entry n = none ∧ k = s.unused ∧
      s' = { s.name n k with
        file := Function.update s.file k ⟨⟨true, true⟩, ""⟩
        unused := s.unused + 1 }
  | _, .write k text, s, .ok (), s' =>
    s' = { s with file := Function.update s.file k { s.file k with text } }
  | _, .write k _, s, .error _, s' =>
    ∃ text, s' = { s with file := Function.update s.file k { s.file k with text } }
  | _, .hardLink n m, s, .ok (), s' => s.entry m = none ∧ ∃ k, s.entry n = some k ∧
      s' = if m = credentialFile then (s.name m k).note (.published (s.file k).text)
        else s.name m k
  | _, .hardLink _ m, s, .error .alreadyExists, s' => s' = s ∧ (s.entry m).isSome
  | _, .removeFile n, s, .ok (), s' => (s.entry n).isSome ∧
      s' = if n = credentialFile then (s.unname n).note .removed else s.unname n
  | _, .removeFile n, s, .error .notFound, s' => s' = s ∧ s.entry n = none
  | _, _, s, _, s' => s' = s

/-- What a call of the broker returns. -/
inductive Outcome where
  | minted (result : Except RuntimeError Timestamp)
  | revoked (result : Except RuntimeError Unit)

namespace Broker

variable (B : Broker)

def minting : Prog Call Outcome := B.mint.run >>= fun r => .pure (.minted r)
def revoking : Prog Call Outcome := revoke.run >>= fun r => .pure (.revoked r)

/-- The lock goes when its holder returns or dies. -/
def unlock (i : Nat) (s : Store) : Store :=
  if s.holder = some i then { s with holder := none } else s

/-- Threads that mint and revoke the credential of one execution. A crash of the process is the death
of its threads. -/
def system : System Call Store Nat Outcome where
  sem := Call.Does
  begins _ t s s' := (t = B.minting ∨ t = revoking) ∧ s' = s
  returns i r s s' :=
    match r with
    | .minted (.ok expiresAt) =>
      s' = (unlock i s).note (.minted ((s.text credentialFile).getD "") expiresAt s.readings)
    | _ => s' = unlock i s
  dies i s s' := s' = unlock i s

end Broker

end Orchestrator.Credentials
