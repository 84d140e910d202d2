import Flowchart.Proofs.Graph.Additions
import Flowchart.Proofs.Graph.RoundTrip

/-!
# A graph under operations

A graph takes nodes and edges one at a time, and may be saved to a file and loaded again between
them. Loading checks nothing, so that a graph stays well formed through it rests on the file giving
back what was saved. It does so but for one thing: the document of a graph writes the two halves of
a pair as the character of the pair, so that two identifiers may become one.

`Graph.Stored` is what holds of a graph after every operation, and `Graph.Lawful` what an operation
does to it. Main statement: `stored_afterAll`, a graph that begins empty is stored and lawful after
every sequence of operations, refused ones included, and its identifiers are distinct unless one of
those given has a pair in it. `not_nodup_twins` is a run that such an identifier spoils.
-/

set_option autoImplicit false

namespace Flowchart.Graph

open Text Value

/-! ## Saving and loading -/

/-- Why a file gives no graph. -/
inductive LoadError where
  | unreadable (gap : Encoding.Gap)
  | noGraph (reason : DocumentError)
deriving DecidableEq, Repr

/-- The bytes of the file that a graph is saved in. -/
def saved (g : Graph) : Bytes := Encoding.encodeUtf8 g.document

/-- The graph that is loaded from the bytes of a file. -/
def loaded (bytes : Bytes) : Except LoadError Graph :=
  match Encoding.readUtf8 bytes with
  | .error gap => .error (.unreadable gap)
  | .ok t => (ofDocument (withLineFeeds t)).mapError .noGraph

/-! ## Operations -/

/-- Something that can be done to a graph. -/
inductive Operation where
  | addNode (id label shape : RawText)
  | addEdge (source target label : RawText)
  /-- Saves the graph, and goes on with what is loaded from the file. -/
  | reload
deriving DecidableEq, Repr

/-- Why an operation is refused. -/
inductive Refusal where
  | addition (reason : GraphError)
  | loading (reason : LoadError)
deriving DecidableEq, Repr

def rawNode (id label shape : RawText) : Node := ⟨.ofRaw id, .ofRaw label, .ofRaw shape⟩

def rawEdge (source target label : RawText) : Edge :=
  ⟨.ofRaw source, .ofRaw target, .ofRaw label⟩

/-- What an operation makes of a graph, unless it is refused. -/
def outcome (g : Graph) : Operation → Except Refusal Graph
  | .addNode id label shape => (g.addNode (rawNode id label shape)).mapError .addition
  | .addEdge source target label => (g.addEdge (rawEdge source target label)).mapError .addition
  | .reload => (loaded g.saved).mapError .loading

/-- The graph behind an operation, and the reason if the operation is refused. -/
def operate (g : Graph) (operation : Operation) : Graph × Option Refusal :=
  match g.outcome operation with
  | .ok after => (after, none)
  | .error refusal => (g, some refusal)

/-- The graph after operations, each done whether or not those before it were refused. -/
def afterAll (g : Graph) (operations : List Operation) : Graph :=
  operations.foldl (fun g operation => (g.operate operation).1) g

/-- A graph without nodes and edges. -/
def blank (direction : RawText) : Graph := { direction := .ofRaw direction }

/-! ## What holds between operations -/

/-- What holds of a graph after every operation. -/
structure Stored (g : Graph) : Prop where
  verbal : g.IsVerbal
  shapes : ∀ node ∈ g.nodes, ∃ shape ∈ Shape.all, node.shape = .text shape.name
  ends : ∀ edge ∈ g.edges, edge.source ∈ g.nodes.map Node.id ∧ edge.target ∈ g.nodes.map Node.id

/-- What operations do to a graph. -/
structure Lawful (g : Graph) : Prop where
  node_refused_iff : ∀ id label shape,
    (∃ refusal, (g.operate (.addNode id label shape)).2 = some refusal) ↔
      (∀ known ∈ Shape.all, shape ≠ .ofText known.name) ∨ .ofRaw id ∈ g.nodes.map Node.id
  edge_refused_iff : ∀ source target label,
    (∃ refusal, (g.operate (.addEdge source target label)).2 = some refusal) ↔
      .ofRaw source ∉ g.nodes.map Node.id ∨ .ofRaw target ∉ g.nodes.map Node.id
  /-- A refused operation leaves the graph as it was. -/
  refused : ∀ operation refusal,
    (g.operate operation).2 = some refusal → (g.operate operation).1 = g
  node_added : ∀ id label shape, (g.operate (.addNode id label shape)).2 = none →
    (g.operate (.addNode id label shape)).1 =
      { g with nodes := g.nodes ++ [rawNode id label shape] }
  edge_added : ∀ source target label, (g.operate (.addEdge source target label)).2 = none →
    (g.operate (.addEdge source target label)).1 =
      { g with edges := g.edges ++ [rawEdge source target label] }
  /-- Only a reload makes identifiers that are distinct the same. -/
  distinct : ∀ operation ≠ .reload, (g.nodes.map Node.id).Nodup →
    ((g.operate operation).1.nodes.map Node.id).Nodup
  /-- A graph is loaded from the file that it is saved in, with its pairs made characters. -/
  reloaded : g.operate .reload = (g.joined, none)

variable {g : Graph}

theorem stored_blank (direction : RawText) : (blank direction).Stored where
  verbal := ⟨fun _ h => absurd h List.not_mem_nil, fun _ h => absurd h List.not_mem_nil,
    isString_ofRaw direction⟩
  shapes := fun _ h => absurd h List.not_mem_nil
  ends := fun _ h => absurd h List.not_mem_nil

/-! ## When an addition is refused -/

/-- The graph takes a node: its shape is known, and its identifier is new. -/
def AdmitsNode (g : Graph) (id shape : RawText) : Prop :=
  (∃ known ∈ Shape.all, shape = .ofText known.name) ∧ .ofRaw id ∉ g.nodes.map Node.id

/-- The graph takes an edge: both its ends are nodes. -/
def AdmitsEdge (g : Graph) (source target : RawText) : Prop :=
  .ofRaw source ∈ g.nodes.map Node.id ∧ .ofRaw target ∈ g.nodes.map Node.id

theorem not_admitsNode {id shape : RawText} :
    ¬ g.AdmitsNode id shape ↔
      (∀ known ∈ Shape.all, shape ≠ .ofText known.name) ∨ .ofRaw id ∈ g.nodes.map Node.id := by
  rw [AdmitsNode, not_and_or, not_not]
  simp only [not_exists, not_and]

theorem not_admitsEdge {source target : RawText} :
    ¬ g.AdmitsEdge source target ↔
      .ofRaw source ∉ g.nodes.map Node.id ∨ .ofRaw target ∉ g.nodes.map Node.id :=
  not_and_or

theorem hasNode_ofRaw_iff_mem {s : RawText} :
    g.hasNode (.ofRaw s) = true ↔ .ofRaw s ∈ g.nodes.map Node.id := by
  simp [hasNode, List.any_eq_true, matchesValue_ofRaw]

theorem ofRaw_eq_text_iff {s : RawText} {t : Text} : ofRaw s = .text t ↔ s = .ofText t := by
  rw [← ofRaw_ofText]
  exact ⟨ofRaw_injective, congrArg ofRaw⟩

theorem ofValue?_ofRaw_eq_none_iff {s : RawText} :
    Shape.ofValue? (.ofRaw s) = none ↔ ∀ known ∈ Shape.all, s ≠ .ofText known.name := by
  simp [Shape.ofValue?, ofRaw_eq_text_iff]

/-- A node is refused for its shape first, and then for its identifier. -/
theorem addNode_rawNode (g : Graph) (id label shape : RawText) :
    g.addNode (rawNode id label shape) =
      if ∀ known ∈ Shape.all, shape ≠ .ofText known.name then
        .error (.unknownShape (.ofRaw shape))
      else if .ofRaw id ∈ g.nodes.map Node.id then .error (.duplicateNode (.ofRaw id))
      else .ok { g with nodes := g.nodes ++ [rawNode id label shape] } := by
  unfold addNode rawNode
  simp only [Option.isNone_iff_eq_none, ofValue?_ofRaw_eq_none_iff, hasNode_ofRaw_iff_mem]

/-- An edge is refused for its source first, and then for its target. -/
theorem addEdge_rawEdge (g : Graph) (source target label : RawText) :
    g.addEdge (rawEdge source target label) =
      if .ofRaw source ∉ g.nodes.map Node.id then .error (.unknownSource (.ofRaw source))
      else if .ofRaw target ∉ g.nodes.map Node.id then .error (.unknownTarget (.ofRaw target))
      else .ok { g with edges := g.edges ++ [rawEdge source target label] } := by
  unfold addEdge rawEdge
  simp only [Bool.not_eq_true', ← Bool.not_eq_true, hasNode_ofRaw_iff_mem]

/-! ## One operation -/

theorem operate_of_ok {operation : Operation} {after : Graph}
    (h : g.outcome operation = .ok after) : g.operate operation = (after, none) := by
  rw [operate, h]

theorem operate_of_error {operation : Operation} {refusal : Refusal}
    (h : g.outcome operation = .error refusal) : g.operate operation = (g, some refusal) := by
  rw [operate, h]

theorem operate_addNode {id shape : RawText} (h : g.AdmitsNode id shape) (label : RawText) :
    g.operate (.addNode id label shape) =
      ({ g with nodes := g.nodes ++ [rawNode id label shape] }, none) := by
  have hshape : ¬ ∀ known ∈ Shape.all, shape ≠ .ofText known.name := by simpa using h.1
  refine operate_of_ok ?_
  rw [outcome, addNode_rawNode, if_neg hshape, if_neg h.2]
  rfl

theorem operate_addNode_refused {id shape : RawText} (h : ¬ g.AdmitsNode id shape)
    (label : RawText) : ∃ refusal, g.operate (.addNode id label shape) = (g, some refusal) := by
  have hnode := addNode_rawNode g id label shape
  by_cases hshape : ∀ known ∈ Shape.all, shape ≠ .ofText known.name
  · rw [if_pos hshape] at hnode
    exact ⟨_, operate_of_error (by rw [outcome, hnode]; rfl)⟩
  · have hid := (not_admitsNode.mp h).resolve_left hshape
    rw [if_neg hshape, if_pos hid] at hnode
    exact ⟨_, operate_of_error (by rw [outcome, hnode]; rfl)⟩

theorem operate_addEdge {source target : RawText} (h : g.AdmitsEdge source target)
    (label : RawText) :
    g.operate (.addEdge source target label) =
      ({ g with edges := g.edges ++ [rawEdge source target label] }, none) := by
  refine operate_of_ok ?_
  rw [outcome, addEdge_rawEdge, if_neg (not_not.mpr h.1), if_neg (not_not.mpr h.2)]
  rfl

theorem operate_addEdge_refused {source target : RawText} (h : ¬ g.AdmitsEdge source target)
    (label : RawText) :
    ∃ refusal, g.operate (.addEdge source target label) = (g, some refusal) := by
  have hedge := addEdge_rawEdge g source target label
  by_cases hsource : .ofRaw source ∉ g.nodes.map Node.id
  · rw [if_pos hsource] at hedge
    exact ⟨_, operate_of_error (by rw [outcome, hedge]; rfl)⟩
  · have htarget := (not_admitsEdge.mp h).resolve_left hsource
    rw [if_neg hsource, if_pos htarget] at hedge
    exact ⟨_, operate_of_error (by rw [outcome, hedge]; rfl)⟩

/-- A graph of strings is loaded from the file that it is saved in, but for its pairs. -/
theorem IsVerbal.loaded_saved (h : g.IsVerbal) : loaded g.saved = .ok g.joined := by
  have hread := h.readUtf8_document
  unfold loaded saved
  cases hbytes : Encoding.readUtf8 (Encoding.encodeUtf8 g.document) with
  | error gap =>
      rw [hbytes] at hread
      cases hread
  | ok t =>
      rw [hbytes] at hread
      have htext : withLineFeeds t = g.document := Except.ok.inj hread
      simp only [htext, h.ofDocument_document]
      rfl

theorem operate_reload (h : g.IsVerbal) : g.operate .reload = (g.joined, none) := by
  refine operate_of_ok ?_
  rw [outcome, h.loaded_saved]
  rfl

/-! ## Additions and reloads -/

section Admission

variable {operation : Operation} {admitted : Prop} {after : Graph}
  (hdone : admitted → g.operate operation = (after, none))
  (hrefused : ¬ admitted → ∃ refusal, g.operate operation = (g, some refusal))

include hdone hrefused

theorem refused_iff : (∃ refusal, (g.operate operation).2 = some refusal) ↔ ¬ admitted := by
  constructor
  · rintro ⟨refusal, hrefusal⟩ hadmitted
    rw [hdone hadmitted] at hrefusal
    cases hrefusal
  · intro hadmitted
    obtain ⟨refusal, hoperate⟩ := hrefused hadmitted
    exact ⟨refusal, congrArg Prod.snd hoperate⟩

theorem operate_of_none (hnone : (g.operate operation).2 = none) :
    (g.operate operation).1 = after := by
  by_cases hadmitted : admitted
  · rw [hdone hadmitted]
  · obtain ⟨refusal, hoperate⟩ := hrefused hadmitted
    rw [hoperate] at hnone
    cases hnone

/-- What holds of a graph, and of it with the addition if that is admitted, holds behind the
operation. -/
theorem operate_induction {P : Graph → Prop} (hbefore : P g) (hafter : admitted → P after) :
    P (g.operate operation).1 := by
  by_cases hadmitted : admitted
  · rw [hdone hadmitted]
    exact hafter hadmitted
  · obtain ⟨refusal, hoperate⟩ := hrefused hadmitted
    rw [hoperate]
    exact hbefore

end Admission

/-! ## What an operation keeps -/

theorem ids_joined (g : Graph) :
    g.joined.nodes.map Node.id = (g.nodes.map Node.id).map Value.joined := by
  rw [Graph.joined, List.map_map, List.map_map]
  rfl

theorem Stored.addNode (h : g.Stored) {id shape : RawText} (hnew : g.AdmitsNode id shape)
    (label : RawText) : Stored { g with nodes := g.nodes ++ [rawNode id label shape] } := by
  obtain ⟨⟨known, hknown, hname⟩, -⟩ := hnew
  constructor
  case verbal =>
    refine ⟨?_, h.verbal.edges, h.verbal.direction⟩
    refine List.forall_mem_append.mpr ⟨h.verbal.nodes, List.forall_mem_singleton.mpr ?_⟩
    simp only [Node.isVerbal, rawNode, isString_ofRaw, Bool.and_self]
  case shapes =>
    refine List.forall_mem_append.mpr ⟨h.shapes, List.forall_mem_singleton.mpr ?_⟩
    exact ⟨known, hknown, ofRaw_eq_text_iff.mpr hname⟩
  case ends =>
    intro edge hedge
    have hids := ids_subset_append g.nodes (rawNode id label shape)
    exact (h.ends edge hedge).imp (@hids _) (@hids _)

theorem Stored.addEdge (h : g.Stored) {source target : RawText}
    (hends : g.AdmitsEdge source target) (label : RawText) :
    Stored { g with edges := g.edges ++ [rawEdge source target label] } := by
  constructor
  case verbal =>
    refine ⟨h.verbal.nodes, ?_, h.verbal.direction⟩
    refine List.forall_mem_append.mpr ⟨h.verbal.edges, List.forall_mem_singleton.mpr ?_⟩
    simp only [Edge.isVerbal, rawEdge, isString_ofRaw, Bool.and_self]
  case shapes => exact h.shapes
  case ends => exact List.forall_mem_append.mpr ⟨h.ends, List.forall_mem_singleton.mpr hends⟩

theorem Stored.joined (h : g.Stored) : g.joined.Stored := by
  constructor
  case verbal => exact h.verbal.joined
  case shapes =>
    refine List.forall_mem_map.mpr fun node hnode => ?_
    obtain ⟨known, hknown, hname⟩ := h.shapes node hnode
    exact ⟨known, hknown, by rw [Node.joined, hname, Value.joined]⟩
  case ends =>
    rw [ids_joined]
    refine List.forall_mem_map.mpr fun edge hedge => ?_
    exact (h.ends edge hedge).imp (List.mem_map_of_mem) (List.mem_map_of_mem)

/-- Every operation keeps a graph stored, a refused one too. -/
theorem Stored.operate (h : g.Stored) (operation : Operation) : (g.operate operation).1.Stored := by
  cases operation with
  | addNode id label shape =>
      exact operate_induction (operate_addNode · label) (operate_addNode_refused · label) h
        (h.addNode · label)
  | addEdge source target label =>
      exact operate_induction (operate_addEdge · label) (operate_addEdge_refused · label) h
        (h.addEdge · label)
  | reload =>
      rw [operate_reload h.verbal]
      exact h.joined

theorem Stored.afterAll (h : g.Stored) (operations : List Operation) :
    (g.afterAll operations).Stored := by
  induction operations generalizing g with
  | nil => exact h
  | cons operation operations ih => exact ih (h.operate operation)

/-! ## Identifiers -/

/-- The identifiers are distinct, and stay so when the graph is loaded. -/
structure Settled (g : Graph) : Prop where
  distinct : (g.nodes.map Node.id).Nodup
  fixed : ∀ id ∈ g.nodes.map Node.id, id.joined = id

theorem settled_blank (direction : RawText) : (blank direction).Settled where
  distinct := List.nodup_nil
  fixed := fun _ h => absurd h List.not_mem_nil

/-- Whether an operation gives no node an identifier with a pair in it. -/
def Operation.isPlain : Operation → Bool
  | .addNode id _ _ => id.isUnpaired
  | _ => true

theorem Settled.addNode (h : g.Settled) {id shape : RawText} (hplain : id.isUnpaired = true)
    (hnew : g.AdmitsNode id shape) (label : RawText) :
    Settled { g with nodes := g.nodes ++ [rawNode id label shape] } := by
  constructor
  case distinct => exact nodup_ids_append h.distinct hnew.2
  case fixed =>
    rw [List.map_append]
    refine List.forall_mem_append.mpr ⟨h.fixed, List.forall_mem_singleton.mpr ?_⟩
    show (ofRaw id).joined = ofRaw id
    rw [joined_ofRaw, RawText.joined_of_isUnpaired hplain]

theorem Settled.joined (h : g.Settled) : g.joined.Settled := by
  have hids : g.joined.nodes.map Node.id = g.nodes.map Node.id := by
    rw [ids_joined]
    exact (List.map_congr_left h.fixed).trans (List.map_id _)
  constructor
  case distinct =>
    rw [hids]
    exact h.distinct
  case fixed =>
    rw [hids]
    exact h.fixed

/-- An operation keeps the identifiers apart if it gives none with a pair. -/
theorem Settled.operate (h : g.Settled) (hverbal : g.IsVerbal) {operation : Operation}
    (hplain : operation.isPlain = true) : (g.operate operation).1.Settled := by
  cases operation with
  | addNode id label shape =>
      exact operate_induction (operate_addNode · label) (operate_addNode_refused · label) h
        (h.addNode hplain · label)
  | addEdge source target label =>
      exact operate_induction (operate_addEdge · label) (operate_addEdge_refused · label) h
        fun _ => ⟨h.distinct, h.fixed⟩
  | reload =>
      rw [operate_reload hverbal]
      exact h.joined

theorem Settled.afterAll (h : g.Settled) (hstored : g.Stored) {operations : List Operation}
    (hplain : operations.all Operation.isPlain = true) : (g.afterAll operations).Settled := by
  induction operations generalizing g with
  | nil => exact h
  | cons operation operations ih =>
      rw [List.all_cons, Bool.and_eq_true] at hplain
      exact ih (h.operate hstored.verbal hplain.1) (hstored.operate operation) hplain.2

/-! ## What an operation does -/

theorem Stored.lawful (h : g.Stored) : g.Lawful := by
  constructor
  case node_refused_iff =>
    intro id label shape
    rw [← not_admitsNode]
    exact refused_iff (operate_addNode · label) (operate_addNode_refused · label)
  case edge_refused_iff =>
    intro source target label
    rw [← not_admitsEdge]
    exact refused_iff (operate_addEdge · label) (operate_addEdge_refused · label)
  case refused =>
    intro operation refusal hrefused
    cases houtcome : g.outcome operation with
    | ok after =>
        rw [operate_of_ok houtcome] at hrefused
        cases hrefused
    | error reason => rw [operate_of_error houtcome]
  case node_added =>
    intro id label shape
    exact operate_of_none (operate_addNode · label) (operate_addNode_refused · label)
  case edge_added =>
    intro source target label
    exact operate_of_none (operate_addEdge · label) (operate_addEdge_refused · label)
  case distinct =>
    intro operation hne hdistinct
    cases operation with
    | addNode id label shape =>
        exact operate_induction (P := fun g => (g.nodes.map Node.id).Nodup)
          (operate_addNode · label) (operate_addNode_refused · label) hdistinct
          fun hnew => nodup_ids_append hdistinct hnew.2
    | addEdge source target label =>
        exact operate_induction (P := fun g => (g.nodes.map Node.id).Nodup)
          (operate_addEdge · label) (operate_addEdge_refused · label) hdistinct
          fun _ => hdistinct
    | reload => exact absurd rfl hne
  case reloaded => exact operate_reload h.verbal

/-- A graph that begins empty is well formed after every sequence of operations, and the next
operation does to it what it should. Its identifiers are distinct if none that was given has the
two halves of a pair side by side. -/
theorem stored_afterAll (direction : RawText) (operations : List Operation) :
    ((blank direction).afterAll operations).Stored ∧
      ((blank direction).afterAll operations).Lawful ∧
      (operations.all Operation.isPlain = true →
        (((blank direction).afterAll operations).nodes.map Node.id).Nodup) := by
  have hblank := stored_blank direction
  have hstored := hblank.afterAll operations
  exact ⟨hstored, hstored.lawful,
    fun hplain => ((settled_blank direction).afterAll hblank hplain).distinct⟩

/-! ## Twins -/

/-- The units of a clef, as two halves. -/
def clefHalves : RawText := [.half ⟨0xd834, by decide⟩, .half ⟨0xdd1e, by decide⟩]

/-- A node whose identifier is the two halves of a clef, one whose identifier is the clef, and a
reload. -/
def twins : List Operation :=
  [.addNode clefHalves [] (.ofText Shape.rect.name),
    .addNode (.ofText ['𝄞']) [] (.ofText Shape.rect.name), .reload]

/-- Both nodes are taken, and the reload gives them one identifier. -/
theorem not_nodup_twins :
    ¬ (((blank (.ofText "TD".toList)).afterAll twins).nodes.map Node.id).Nodup := by
  have hstored : ((blank (.ofText "TD".toList)).afterAll (twins.take 2)).Stored :=
    (stored_blank _).afterAll _
  have hreload : (blank (.ofText "TD".toList)).afterAll twins =
      ((blank (.ofText "TD".toList)).afterAll (twins.take 2)).joined :=
    congrArg Prod.fst (operate_reload hstored.verbal)
  rw [hreload]
  decide

/-- Halves that make no pair: two nodes, a third that is refused, and a reload. -/
def loners : List Operation :=
  [.addNode clefHalves.reverse [] (.ofText Shape.rect.name),
    .addNode (clefHalves.take 1) [] (.ofText Shape.round.name),
    .addNode (clefHalves.take 1) [] (.ofText Shape.rect.name), .reload]

/-- Identifiers with halves that make no pair are distinct. -/
theorem stored_afterAll_loners :
    loners.all Operation.isPlain = true ∧
      (((blank (.ofText "TD".toList)).afterAll loners).nodes.map Node.id).Nodup := by
  have hplain : loners.all Operation.isPlain = true := by decide
  exact ⟨hplain, (stored_afterAll _ loners).2.2 hplain⟩

end Flowchart.Graph
