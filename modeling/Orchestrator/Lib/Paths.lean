import Mathlib.Data.List.Infix

/-!
# Paths by their components

A path is known by its components, from the root on. `a <+: p` says that `a` is `p` or an ancestor of
it. `resolve` walks the components of a text and takes `.` and `..` away; `normalise` does so for the
text of an absolute path.
-/

namespace Paths

abbrev Path := List String

/-- The pieces between the slashes. -/
def split (text : String) : List String := (text.toList.splitOn '/').map String.ofList

/-- Where the pieces lead, from the components so far, the last one first. A `..` at the root leads
nowhere. -/
def resolve : List String → List String → Option Path
  | components, [] => some components.reverse
  | components, piece :: pieces =>
    if piece = "" ∨ piece = "." then resolve components pieces
    else if piece = ".." then
      match components with
      | [] => none
      | _ :: components => resolve components pieces
    else resolve (piece :: components) pieces

def normalise (text : String) : Option Path :=
  if text.startsWith '/' then resolve [] (split text) else none

/-- A path can be made longer by something else than `name`. -/
theorem exists_sibling (p : Path) (name : String) :
    ∃ q : Path, p <+: q ∧ q ≠ p ∧ ¬p ++ [name] <+: q := by
  refine ⟨p ++ [name ++ "-"], List.prefix_append p _, by simp, fun h => ?_⟩
  have hnames : [name] <+: [name ++ "-"] := (List.prefix_append_right_inj p).1 h
  have hname : name = name ++ "-" := by simpa [List.cons_prefix_cons] using hnames
  have hlength := congrArg String.length hname
  simp at hlength

end Paths
