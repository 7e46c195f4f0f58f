import ScriptTypings.Number.Fixed
import ScriptTypings.Surface.Basic

/-!
# Coverage

Coverage counts the reflected members, and those of them that the corpus describes.
-/

namespace ScriptTypings

open Number

structure Coverage where
  resolved : Nat
  total : Nat
  deriving DecidableEq, Repr

namespace Coverage

def ofSurface (node : Surface) : Coverage :=
  { resolved := (node.leaves.filter fun leaf => !leaf.isUnresolved).length,
    total := node.leaves.length }

/-- The share of described members; all, if there are no members. -/
def share (c : Coverage) : Binary64 :=
  if c.total = 0 then .ofRatio false 1 1 else .ofRatio false c.resolved c.total

/-- The share as a whole percentage. -/
def percentage (c : Coverage) : String :=
  (c.share.timesNat 100).fixed 0 ++ "%"

end Coverage

end ScriptTypings
