import Mathlib.Algebra.GroupWithZero.Nat
import Orchestrator.Core.Execution
import Mathlib.Data.String.Basic

/-!
# Eviction from the shared build cache

`runtime-docker/src/cleanup.rs`: which key directories of the build cache are evicted so that what
remains is within the budget.
-/

namespace Orchestrator

/-- One key directory as the scan measured it. -/
structure CacheEntry where
  key : String
  bytes : Nat
  lastUsed : Int
  refs : List ExecutionId
deriving DecidableEq, Repr

namespace CacheEntry

/-- The sort key: oldest first, the name decides between two of one age. -/
def upTo (a b : CacheEntry) : Bool :=
  a.lastUsed < b.lastUsed || (a.lastUsed == b.lastUsed && a.key ≤ b.key)

def isLive (live : List ExecutionId) (entry : CacheEntry) : Bool :=
  entry.refs.any fun id => live.contains id

end CacheEntry

/-- A sum of `u64`. -/
def totalBytes (entries : List CacheEntry) : Nat :=
  (entries.map CacheEntry.bytes).sum % 2 ^ 64

/-- The loop of `select_evictions`, with the total that is left. -/
def evict (budget : Nat) (live : List ExecutionId) : Nat → List CacheEntry → List String
  | _, [] => []
  | total, entry :: rest =>
    if total ≤ budget then []
    else if entry.isLive live then evict budget live total rest
    else entry.key :: evict budget live (total - entry.bytes) rest

def selectEvictions (entries : List CacheEntry) (budget : Nat) (live : List ExecutionId) :
    List String :=
  evict budget live (totalBytes entries) (entries.mergeSort CacheEntry.upTo)

end Orchestrator
