import Flowchart.Graph.Record
import Flowchart.Proofs.Encoding.Utf8
import Flowchart.Proofs.Text.Lines
import Flowchart.Proofs.Value.RoundTrip

/-!
# Graphs are read back

A graph is read back from its record, whatever values it holds (`Graph.ofValue_toValue`), so
reading a record once more changes nothing. A record is read for its own fields only: two records
that agree on them are read alike (`Graph.ofValue_congr`). A graph that holds nothing but strings is
read back from its document with the pairs in its strings made characters
(`Graph.IsVerbal.ofDocument_document`), so a graph of texts is read back as it is, and the document
is ASCII. Main statement: `Graph.document_roundTrip`.
-/

set_option autoImplicit false

namespace Flowchart

open Text Value

/-! ## Reading a record back -/

/-- The items of a value, each read by its fields. -/
def Graph.itemsAs {α : Type} (read : List (Text × Value) → Except RecordError α) (v : Value) :
    Except RecordError (List α) :=
  itemsOf v >>= fun items => items.mapM fun item => fieldsOf item >>= read

theorem Graph.ofValue_record (fields : List (Text × Value)) :
    ofValue (.record fields) =
      itemsAs Node.ofFields ((field? "nodes".toList fields).getD (.list [])) >>= fun nodes =>
      itemsAs Edge.ofFields ((field? "edges".toList fields).getD (.list [])) >>= fun edges =>
      .ok ⟨nodes, edges, (field? "direction".toList fields).getD (.text "TD".toList)⟩ := by
  simp only [ofValue, itemsAs, bind_assoc]
  rfl

/-- Items that are read back one by one are read back from their list. -/
theorem Graph.itemsAs_map {α : Type} {read : List (Text × Value) → Except RecordError α}
    {write : α → Value} (h : ∀ a, (fieldsOf (write a) >>= read) = .ok a) (items : List α) :
    itemsAs read (.list (items.map write)) = .ok items := by
  show (items.map write).mapM (fun item => fieldsOf item >>= read) = .ok items
  induction items with
  | nil => rfl
  | cons a items ih =>
      rw [List.map_cons, List.mapM_cons, h a, ih]
      rfl

theorem Node.ofFields_toValue (node : Node) :
    (Graph.fieldsOf node.toValue >>= Node.ofFields) = .ok node :=
  rfl

theorem Edge.ofFields_toValue (edge : Edge) :
    (Graph.fieldsOf edge.toValue >>= Edge.ofFields) = .ok edge :=
  rfl

/-- A graph is read back from its record. -/
theorem Graph.ofValue_toValue (g : Graph) : ofValue g.toValue = .ok g := by
  have hnodes := itemsAs_map Node.ofFields_toValue g.nodes
  have hedges := itemsAs_map Edge.ofFields_toValue g.edges
  calc ofValue g.toValue
      = itemsAs Node.ofFields (.list (g.nodes.map Node.toValue)) >>= fun nodes =>
        itemsAs Edge.ofFields (.list (g.edges.map Edge.toValue)) >>= fun edges =>
        .ok ⟨nodes, edges, g.direction⟩ := ofValue_record _
    _ = .ok g := by
        rw [hnodes, hedges]
        rfl

/-! ## What reading a record passes over -/

/-- The fields with one of the names. -/
def keepFields (names : List Text) (fields : List (Text × Value)) : List (Text × Value) :=
  fields.filter fun entry => names.contains entry.1

/-- The fields with their values changed, each by its name. -/
def mapFields (f : Text → Value → Value) (fields : List (Text × Value)) : List (Text × Value) :=
  fields.map fun entry => (entry.1, f entry.1 entry.2)

theorem field?_keepFields {names : List Text} {name : Text} (h : name ∈ names)
    (fields : List (Text × Value)) :
    field? name (keepFields names fields) = field? name fields := by
  have hfind : ∀ entries : List (Text × Value),
      (entries.filter fun entry => names.contains entry.1).find? (fun entry => entry.1 == name) =
        entries.find? fun entry => entry.1 == name := by
    intro entries
    rw [List.find?_filter]
    congr
    funext entry
    by_cases hname : entry.1 = name
    · simp [hname, h]
    · simp [hname]
  rw [field?, field?, keepFields, ← List.filter_reverse, hfind]

theorem field?_mapFields (f : Text → Value → Value) (name : Text) (fields : List (Text × Value)) :
    field? name (mapFields f fields) = (field? name fields).map (f name) := by
  have hnames : ((fun entry => entry.1 == name) ∘ fun entry : Text × Value =>
      (entry.1, f entry.1 entry.2)) = fun entry => entry.1 == name := rfl
  rw [field?, field?, mapFields, ← List.map_reverse, List.find?_map, hnames, Option.map_map,
    Option.map_map]
  cases hfind : fields.reverse.find? fun entry => entry.1 == name with
  | none => rfl
  | some entry =>
      have hname : entry.1 = name := by simpa using List.find?_some hfind
      simp only [Option.map_some, Function.comp_apply, hname]

/-- An item with none but the named fields. -/
def ownItem (names : List Text) : Value → Value
  | .record fields => .record (keepFields names fields)
  | v => v

/-- A list of items with none but the named fields. -/
def ownItems (names : List Text) : Value → Value
  | .list items => .list (items.map (ownItem names))
  | v => v

namespace Node

def fieldNames : List Text := ["id".toList, "label".toList, "shape".toList]

theorem ofFields_keepFields (fields : List (Text × Value)) :
    ofFields (keepFields fieldNames fields) = ofFields fields := by
  have hkeep {name : Text} (h : name ∈ fieldNames) := field?_keepFields h fields
  rw [ofFields, ofFields, hkeep (by decide), hkeep (by decide), hkeep (by decide)]

end Node

namespace Edge

def fieldNames : List Text := ["source".toList, "target".toList, "label".toList]

theorem ofFields_keepFields (fields : List (Text × Value)) :
    ofFields (keepFields fieldNames fields) = ofFields fields := by
  have hkeep {name : Text} (h : name ∈ fieldNames) := field?_keepFields h fields
  rw [ofFields, ofFields, hkeep (by decide), hkeep (by decide), hkeep (by decide)]

end Edge

namespace Graph

def fieldNames : List Text := ["nodes".toList, "edges".toList, "direction".toList]

/-- The value of a field of a graph, its nodes or edges with none but their own fields. -/
def ownField (name : Text) (v : Value) : Value :=
  if name = "nodes".toList then ownItems Node.fieldNames v
  else if name = "edges".toList then ownItems Edge.fieldNames v
  else v

/-- A record with none but the fields of a graph, and in its nodes and edges none but theirs. -/
def ownFields : Value → Value
  | .record fields => .record (mapFields ownField (keepFields fieldNames fields))
  | v => v

section Items

variable {α : Type} {names : List Text} {read : List (Text × Value) → Except RecordError α}

theorem readItem_ownItem (h : ∀ fields, read (keepFields names fields) = read fields) (v : Value) :
    (fieldsOf (ownItem names v) >>= read) = fieldsOf v >>= read := by
  cases v with
  | record fields => exact h fields
  | _ => rfl

/-- Items are read for their own fields only. -/
theorem itemsAs_ownItems (h : ∀ fields, read (keepFields names fields) = read fields)
    (v : Value) : itemsAs read (ownItems names v) = itemsAs read v := by
  cases v with
  | list items =>
      have hread : (fun item => fieldsOf (ownItem names item) >>= read) =
          fun item => fieldsOf item >>= read := funext (readItem_ownItem h)
      calc itemsAs read (.list (items.map (ownItem names)))
          = items.mapM fun item => fieldsOf (ownItem names item) >>= read := List.mapM_map
        _ = items.mapM fun item => fieldsOf item >>= read := by rw [hread]
  | _ => rfl

theorem itemsAs_map_ownItems (h : ∀ fields, read (keepFields names fields) = read fields)
    (v? : Option Value) :
    itemsAs read ((v?.map (ownItems names)).getD (.list [])) =
      itemsAs read (v?.getD (.list [])) := by
  cases v? with
  | none => rfl
  | some v => exact itemsAs_ownItems h v

end Items

theorem ownField_nodes : ownField "nodes".toList = ownItems Node.fieldNames := by
  funext v
  exact if_pos rfl

theorem ownField_edges : ownField "edges".toList = ownItems Edge.fieldNames := by
  funext v
  rw [ownField, if_neg (by decide), if_pos rfl]

theorem ownField_direction : ownField "direction".toList = id := by
  funext v
  rw [ownField, if_neg (by decide), if_neg (by decide), id]

/-- A record is read for its own fields only. -/
theorem ofValue_ownFields (v : Value) : ofValue (ownFields v) = ofValue v := by
  cases v with
  | record fields =>
      have hfield {name : Text} (h : name ∈ fieldNames) :
          field? name (mapFields ownField (keepFields fieldNames fields)) =
            (field? name fields).map (ownField name) := by
        rw [field?_mapFields, field?_keepFields h]
      rw [ownFields, ofValue_record, ofValue_record, hfield (by decide), hfield (by decide),
        hfield (by decide), ownField_nodes, ownField_edges, ownField_direction, Option.map_id, id,
        itemsAs_map_ownItems Node.ofFields_keepFields,
        itemsAs_map_ownItems Edge.ofFields_keepFields]
  | _ => rfl

theorem ofValue_congr {v w : Value} (h : ownFields v = ownFields w) : ofValue v = ofValue w := by
  rw [← ofValue_ownFields v, h, ofValue_ownFields]

/-- What is read from a record is read from its own record again. -/
theorem ofValue_ofValue (v : Value) : (ofValue v >>= fun g => ofValue g.toValue) = ofValue v := by
  cases h : ofValue v with
  | error reason => rfl
  | ok g => exact ofValue_toValue g

end Graph

/-! ## Documents -/

def Value.isText : Value → Bool
  | .text _ => true
  | _ => false

/-- A value that is a string, whether it is a text or not. -/
def Value.isString (v : Value) : Bool := v.raw?.isSome

theorem Value.isVerbal_of_isString {v : Value} (h : v.isString = true) : v.IsVerbal := by
  obtain ⟨s, hs⟩ := Option.isSome_iff_exists.mp h
  rw [← ofRaw_of_raw? hs]
  exact .string s

theorem Value.isString_ofRaw (s : RawText) : (ofRaw s).isString = true := by
  rw [isString, raw?_ofRaw, Option.isSome_some]

theorem Value.isString_joined {v : Value} (h : v.isString = true) : v.joined.isString = true := by
  obtain ⟨s, hs⟩ := Option.isSome_iff_exists.mp h
  rw [← ofRaw_of_raw? hs, joined_ofRaw]
  exact isString_ofRaw s.joined

theorem Value.isString_of_isText {v : Value} (h : v.isText = true) : v.isString = true := by
  cases v with
  | text t => rfl
  | _ => exact nomatch h

theorem Value.joined_of_isText {v : Value} (h : v.isText = true) : v.joined = v := by
  cases v with
  | text t => rw [joined]
  | _ => cases h

namespace Node

/-- All that a node says is text. -/
def isTextual (node : Node) : Bool :=
  node.id.isText && node.label.isText && node.shape.isText

/-- All that a node says are strings. -/
def isVerbal (node : Node) : Bool :=
  node.id.isString && node.label.isString && node.shape.isString

/-- The node with the pairs in its strings made characters. -/
def joined (node : Node) : Node := ⟨node.id.joined, node.label.joined, node.shape.joined⟩

theorem isVerbal_of_isTextual {node : Node} (h : node.isTextual = true) :
    node.isVerbal = true := by
  simp only [isTextual, isVerbal, Bool.and_eq_true] at h ⊢
  exact h.imp (And.imp isString_of_isText isString_of_isText) isString_of_isText

theorem joined_of_isTextual {node : Node} (h : node.isTextual = true) : node.joined = node := by
  simp only [isTextual, Bool.and_eq_true] at h
  rw [joined, joined_of_isText h.1.1, joined_of_isText h.1.2, joined_of_isText h.2]

theorem isVerbal_joined {node : Node} (h : node.isVerbal = true) :
    node.joined.isVerbal = true := by
  simp only [isVerbal, Bool.and_eq_true] at h ⊢
  exact h.imp (And.imp isString_joined isString_joined) isString_joined

theorem isVerbal_toValue {node : Node} (h : node.isVerbal = true) : node.toValue.IsVerbal := by
  simp only [isVerbal, Bool.and_eq_true] at h
  obtain ⟨⟨hid, hlabel⟩, hshape⟩ := h
  refine .record ?_
  simp only [List.forall_mem_cons]
  exact ⟨isVerbal_of_isString hid, isVerbal_of_isString hlabel, isVerbal_of_isString hshape, nofun⟩

theorem joined_toValue (node : Node) : node.toValue.joined = node.joined.toValue := by
  simp only [toValue, Value.joined, joinedFields, joined]

end Node

namespace Edge

/-- All that an edge says is text. -/
def isTextual (edge : Edge) : Bool :=
  edge.source.isText && edge.target.isText && edge.label.isText

/-- All that an edge says are strings. -/
def isVerbal (edge : Edge) : Bool :=
  edge.source.isString && edge.target.isString && edge.label.isString

/-- The edge with the pairs in its strings made characters. -/
def joined (edge : Edge) : Edge := ⟨edge.source.joined, edge.target.joined, edge.label.joined⟩

theorem isVerbal_of_isTextual {edge : Edge} (h : edge.isTextual = true) :
    edge.isVerbal = true := by
  simp only [isTextual, isVerbal, Bool.and_eq_true] at h ⊢
  exact h.imp (And.imp isString_of_isText isString_of_isText) isString_of_isText

theorem joined_of_isTextual {edge : Edge} (h : edge.isTextual = true) : edge.joined = edge := by
  simp only [isTextual, Bool.and_eq_true] at h
  rw [joined, joined_of_isText h.1.1, joined_of_isText h.1.2, joined_of_isText h.2]

theorem isVerbal_joined {edge : Edge} (h : edge.isVerbal = true) :
    edge.joined.isVerbal = true := by
  simp only [isVerbal, Bool.and_eq_true] at h ⊢
  exact h.imp (And.imp isString_joined isString_joined) isString_joined

theorem isVerbal_toValue {edge : Edge} (h : edge.isVerbal = true) : edge.toValue.IsVerbal := by
  simp only [isVerbal, Bool.and_eq_true] at h
  obtain ⟨⟨hsource, htarget⟩, hlabel⟩ := h
  refine .record ?_
  simp only [List.forall_mem_cons]
  exact ⟨isVerbal_of_isString hsource, isVerbal_of_isString htarget, isVerbal_of_isString hlabel,
    nofun⟩

theorem joined_toValue (edge : Edge) : edge.toValue.joined = edge.joined.toValue := by
  simp only [toValue, Value.joined, joinedFields, joined]

end Edge

namespace Graph

/-- All that a graph says is text. Its shapes, identifiers and ends of edges may be any. -/
structure IsTextual (g : Graph) : Prop where
  nodes : ∀ node ∈ g.nodes, node.isTextual = true
  edges : ∀ edge ∈ g.edges, edge.isTextual = true
  direction : g.direction.isText = true

/-- All that a graph says are strings. -/
structure IsVerbal (g : Graph) : Prop where
  nodes : ∀ node ∈ g.nodes, node.isVerbal = true
  edges : ∀ edge ∈ g.edges, edge.isVerbal = true
  direction : g.direction.isString = true

/-- The graph with the pairs in its strings made characters. -/
def joined (g : Graph) : Graph :=
  ⟨g.nodes.map Node.joined, g.edges.map Edge.joined, g.direction.joined⟩

variable {g : Graph}

theorem IsTextual.isVerbal (h : g.IsTextual) : g.IsVerbal where
  nodes := fun node hnode => Node.isVerbal_of_isTextual (h.nodes node hnode)
  edges := fun edge hedge => Edge.isVerbal_of_isTextual (h.edges edge hedge)
  direction := isString_of_isText h.direction

theorem IsTextual.joined_eq (h : g.IsTextual) : g.joined = g := by
  have hnodes : g.nodes.map Node.joined = g.nodes :=
    (List.map_congr_left fun node hnode => Node.joined_of_isTextual (h.nodes node hnode)).trans
      (List.map_id g.nodes)
  have hedges : g.edges.map Edge.joined = g.edges :=
    (List.map_congr_left fun edge hedge => Edge.joined_of_isTextual (h.edges edge hedge)).trans
      (List.map_id g.edges)
  rw [joined, hnodes, hedges, joined_of_isText h.direction]

theorem IsVerbal.joined (h : g.IsVerbal) : g.joined.IsVerbal where
  nodes := List.forall_mem_map.mpr fun node hnode => Node.isVerbal_joined (h.nodes node hnode)
  edges := List.forall_mem_map.mpr fun edge hedge => Edge.isVerbal_joined (h.edges edge hedge)
  direction := isString_joined h.direction

theorem joined_toValue (g : Graph) : g.toValue.joined = g.joined.toValue := by
  have hnodes : (g.nodes.map Node.toValue).map Value.joined =
      (g.nodes.map Node.joined).map Node.toValue := by
    simp only [List.map_map, Function.comp_def, Node.joined_toValue]
  have hedges : (g.edges.map Edge.toValue).map Value.joined =
      (g.edges.map Edge.joined).map Edge.toValue := by
    simp only [List.map_map, Function.comp_def, Edge.joined_toValue]
  simp only [toValue, Value.joined, joinedFields, joinedItems_eq_map, hnodes, hedges, joined]

theorem IsVerbal.toValue (h : g.IsVerbal) : g.toValue.IsVerbal := by
  have hnodes : (Value.list (g.nodes.map Node.toValue)).IsVerbal :=
    .list (List.forall_mem_map.mpr fun node hnode => Node.isVerbal_toValue (h.nodes node hnode))
  have hedges : (Value.list (g.edges.map Edge.toValue)).IsVerbal :=
    .list (List.forall_mem_map.mpr fun edge hedge => Edge.isVerbal_toValue (h.edges edge hedge))
  have hversion : (Value.text schemaVersion).IsVerbal := isVerbal_of_isString rfl
  refine .record ?_
  simp only [List.forall_mem_cons]
  exact ⟨hnodes, hedges, isVerbal_of_isString h.direction, hversion, nofun⟩

/-- A graph of strings is read back from its document, but for the pairs in them. -/
theorem IsVerbal.ofDocument_document (h : g.IsVerbal) : ofDocument g.document = .ok g.joined := by
  rw [ofDocument, document, ofDocument?_document h.toValue, joined_toValue]
  show (ofValue g.joined.toValue).mapError DocumentError.noGraph = .ok g.joined
  rw [ofValue_toValue]
  rfl

theorem IsTextual.ofDocument_document (h : g.IsTextual) : ofDocument g.document = .ok g := by
  rw [h.isVerbal.ofDocument_document, h.joined_eq]

theorem IsVerbal.isAscii_document (h : g.IsVerbal) : ∀ c ∈ g.document, c.toNat < 0x80 := by
  intro c hc
  rcases allTyped_writeAt h.toValue 0 c hc with ⟨-, htilde⟩ | hfeed
  · have hlimit : c.toNat ≤ '~'.toNat := htilde
    have htoNat : '~'.toNat = 0x7e := rfl
    omega
  · rw [hfeed]
    decide

/-- The bytes of a document are read as the text that was written. -/
theorem IsVerbal.readUtf8_document (h : g.IsVerbal) :
    (Encoding.readUtf8 (Encoding.encodeUtf8 g.document)).map withLineFeeds = .ok g.document := by
  have hreturn : '\r' ∉ g.document := by
    intro hmem
    exact absurd (allTyped_writeAt h.toValue 0 _ hmem) (by decide)
  rw [Encoding.readUtf8_encodeUtf8, Except.map, withLineFeeds_of_not_mem hreturn]

/-- A graph of texts is read back from the bytes of its document, which are ASCII; what is read
from any record is read from its own record again; and a record is read for its own fields only. -/
theorem document_roundTrip :
    (∀ g : Graph, g.IsTextual →
      (∀ c ∈ g.document, c.toNat < 0x80) ∧
        (Encoding.readUtf8 (Encoding.encodeUtf8 g.document)).map withLineFeeds = .ok g.document ∧
        ofDocument g.document = .ok g) ∧
      (∀ v : Value, (ofValue v >>= fun g => ofValue g.toValue) = ofValue v) ∧
      ∀ v w : Value, ownFields v = ownFields w → ofValue v = ofValue w :=
  ⟨fun _ h => ⟨h.isVerbal.isAscii_document, h.isVerbal.readUtf8_document, h.ofDocument_document⟩,
    ofValue_ofValue, fun _ _ => ofValue_congr⟩

/-- A graph that is not valid, with texts that have to be escaped: two nodes with one identifier,
a shape that is none, an edge to no node, and a clef that takes a pair of units. -/
def clefGraph : Graph where
  nodes := [⟨.text ['"'], .text ['\\', '\x07'], .text "cloud".toList⟩,
    ⟨.text ['"'], .text ['\n', 'é'], .text []⟩]
  edges := [⟨.text ['"'], .text ['𝄞'], .text []⟩]
  direction := .text ['↓']

/-- The document of that graph, and records with and without fields that no graph has. -/
theorem document_roundTrip_clef :
    (∀ c ∈ clefGraph.document, c.toNat < 0x80) ∧
      ofDocument clefGraph.document = .ok clefGraph ∧
      ofValue (.record [("title".toList, .null),
          ("edges".toList, .list [.record [("source".toList, .int 3), ("size".toList, .bool true),
            ("target".toList, .null)]])]) =
        ofValue (.record [("edges".toList, .list [.record [("source".toList, .int 3),
          ("target".toList, .null)]])]) := by
  have htextual : clefGraph.IsTextual := ⟨by decide, by decide, rfl⟩
  obtain ⟨hascii, -, hback⟩ := document_roundTrip.1 clefGraph htextual
  exact ⟨hascii, hback, document_roundTrip.2.2 _ _ (by decide)⟩

end Graph

end Flowchart
