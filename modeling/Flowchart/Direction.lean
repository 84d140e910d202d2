import Flowchart.Text.Basic

/-!
# Directions

The directions in which a flowchart can be drawn.
-/

set_option autoImplicit false

namespace Flowchart

inductive Direction where
  | td
  | tb
  | bt
  | lr
  | rl
deriving DecidableEq, Repr

namespace Direction

def name : Direction → Text
  | td => "TD".toList
  | tb => "TB".toList
  | bt => "BT".toList
  | lr => "LR".toList
  | rl => "RL".toList

/-- The directions, in the order in which they are listed. -/
def all : List Direction := [td, tb, bt, lr, rl]

def ofName? (t : Text) : Option Direction := all.find? fun direction => direction.name = t

end Direction

end Flowchart
