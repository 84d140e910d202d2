import Flowchart.Graph.Basic
import Flowchart.Value.Document
import Flowchart.Value.Reading

/-!
# Flow graphs as values

`Graph.toValue` is the record that stands for a graph in a document, and `Graph.ofValue` reads
such a record back. The reading checks neither shapes nor identifiers nor ends of edges, it
ignores fields that it does not know, and it fails only where the record has no graph in it.
-/

set_option autoImplicit false

namespace Flowchart

inductive RecordError where
  | noRecord (kind : Text)
  /-- The nodes or the edges have no items. -/
  | noItems (kind : Text)
  /-- A node or an edge is no record. -/
  | noItemRecord (kind : Text)
  | missing (what : Text) (fields : List Text)
deriving DecidableEq, Repr

namespace RecordError

/-- The names of missing fields, each between single quotes, in a sentence. -/
def listed (fields : List Text) : Text :=
  Text.join " and ".toList (fields.map fun field => '\'' :: field ++ ['\''])

/-- What is said about a value that is no graph. -/
def message : RecordError → Text
  | noRecord kind => '\'' :: kind ++ "' object has no attribute 'get'".toList
  | noItems kind => '\'' :: kind ++ "' object is not iterable".toList
  | noItemRecord kind => '\'' :: kind ++ "' object has no attribute 'items'".toList
  | missing what fields =>
      what ++ ".__init__() missing ".toList ++ Text.decimal fields.length ++
        " required positional ".toList ++
        (if fields.length = 1 then "argument: ".toList else "arguments: ".toList) ++ listed fields

end RecordError

namespace Node

def toValue (node : Node) : Value :=
  .record [("id".toList, node.id), ("label".toList, node.label), ("shape".toList, node.shape)]

/-- The node with the fields of a record. -/
def ofFields (fields : List (Text × Value)) : Except RecordError Node :=
  match Value.field? "id".toList fields, Value.field? "label".toList fields with
  | some id, some label =>
      .ok ⟨id, label, (Value.field? "shape".toList fields).getD (.text Shape.rect.name)⟩
  | some _, none => .error (.missing "GraphNode".toList ["label".toList])
  | none, some _ => .error (.missing "GraphNode".toList ["id".toList])
  | none, none => .error (.missing "GraphNode".toList ["id".toList, "label".toList])

end Node

namespace Edge

def toValue (edge : Edge) : Value :=
  .record [("source".toList, edge.source), ("target".toList, edge.target),
    ("label".toList, edge.label)]

/-- The edge with the fields of a record. -/
def ofFields (fields : List (Text × Value)) : Except RecordError Edge :=
  match Value.field? "source".toList fields, Value.field? "target".toList fields with
  | some source, some target =>
      .ok ⟨source, target, (Value.field? "label".toList fields).getD (.text [])⟩
  | some _, none => .error (.missing "GraphEdge".toList ["target".toList])
  | none, some _ => .error (.missing "GraphEdge".toList ["source".toList])
  | none, none => .error (.missing "GraphEdge".toList ["source".toList, "target".toList])

end Edge

namespace Graph

def schemaVersion : Text := "1.0.0".toList

def toValue (g : Graph) : Value :=
  .record [("nodes".toList, .list (g.nodes.map Node.toValue)),
    ("edges".toList, .list (g.edges.map Edge.toValue)),
    ("direction".toList, g.direction),
    ("schema_version".toList, .text schemaVersion)]

/-- The items of a value: those of a list, the code points of a string, the names in a record. -/
def itemsOf : Value → Except RecordError (List Value)
  | .list items => .ok items
  | .text t => .ok (t.map fun c => .text [c])
  | .broken s => .ok (s.points.map fun point => .ofRaw [point])
  | .record fields => .ok (fields.map fun (name, _) => .text name)
  | v => .error (.noItems v.kindName)

def fieldsOf : Value → Except RecordError (List (Text × Value))
  | .record fields => .ok fields
  | v => .error (.noItemRecord v.kindName)

/-- The graph that a record stands for: no nodes, no edges and the direction `TD` where the
record does not say otherwise. -/
def ofValue : Value → Except RecordError Graph
  | .record fields => do
      let nodes ← itemsOf ((Value.field? "nodes".toList fields).getD (.list []))
      let nodes ← nodes.mapM fun item => fieldsOf item >>= Node.ofFields
      let edges ← itemsOf ((Value.field? "edges".toList fields).getD (.list []))
      let edges ← edges.mapM fun item => fieldsOf item >>= Edge.ofFields
      return ⟨nodes, edges, (Value.field? "direction".toList fields).getD (.text "TD".toList)⟩
  | v => .error (.noRecord v.kindName)

def document (g : Graph) : Text := g.toValue.document

inductive DocumentError where
  | noDocument
  | noGraph (reason : RecordError)
deriving DecidableEq, Repr

def ofDocument (t : Text) : Except DocumentError Graph :=
  match Value.ofDocument? t with
  | none => .error .noDocument
  | some v => (ofValue v).mapError .noGraph

end Graph

end Flowchart
