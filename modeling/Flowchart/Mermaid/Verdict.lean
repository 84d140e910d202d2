import Flowchart.Mermaid.SyntaxTool
import Flowchart.Value.Basic

/-!
# Verdicts as records

What is reported about a flowchart to a program: its sizes, and whether it is valid.
-/

set_option autoImplicit false

namespace Flowchart.Mermaid

/-- The fields for the sizes of a flowchart. -/
def Tally.fields (tally : Tally) : List (Text × Value) :=
  [("node_count".toList, .int tally.nodes), ("edge_count".toList, .int tally.edges)]

/-- The record of an opinion on a flowchart, with its sizes. The error is null unless there is
something to say. -/
def Opinion.toValue (opinion : Opinion) (tally : Tally) : Value :=
  .record
    ([("valid".toList, .bool opinion.isValid),
      ("error".toList, if opinion.message.isEmpty then .null else .ofRaw opinion.message)] ++
      tally.fields)

end Flowchart.Mermaid
