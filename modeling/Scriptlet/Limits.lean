/-!
# Limits

Reading, listing and running a program nest, and loops go round. `Limits` bounds both, so that
every run ends; a run that reaches a limit says so.
-/

namespace Scriptlet

/-- How far a program may go. -/
structure Limits where
  /-- How deeply the rules that read, list and run a program may nest. -/
  depth : Nat
  /-- How often one loop may go round. -/
  rounds : Nat
  deriving DecidableEq, Repr

namespace Limits

/-- The depth that is allowed unless the user asks for another. -/
def usualDepth : Nat := 10000

/-- More rounds than any loop ever gets through. -/
def manyRounds : Nat := 1000000000000000000

/-- The limits for a given depth. -/
def ofDepth (depth : Nat) : Limits where
  depth := depth
  rounds := manyRounds

/-- The limits that hold unless the user asks for others. -/
def usual : Limits := ofDepth usualDepth

end Limits

end Scriptlet
