import Flowchart.Proofs.Graph.RoundTrip
import Flowchart.Proofs.Mermaid.Valid
import Flowchart.Service

/-!
# The flowchart and the graph of a request

The service draws a source text on one route and gives its flow graph on another. The two read a
request alike, but that the first also looks for the flag that asks for markdown. Where the flag is
no obstacle, both take a body or both refuse it for the same reason, and what the first tells about
a source is what the graph of the second says (`agree`).
-/

set_option autoImplicit false

namespace Flowchart.Service

open Text

/-! ## Two replies to one body -/

/-- The field of a record. -/
def entry? (name : Text) : Value → Option Value
  | .record fields => Value.field? name fields
  | _ => none

/-- The flag for markdown is absent or a truth value, where a body is not refused before the flag
is looked at. -/
def FlagFits (settings : Settings) (body : Bytes) : Prop :=
  ∀ fields code, readBody body = .ok fields → readCode settings fields = .ok code →
    Value.field? fencedField fields = none ∨
      ∃ b, Value.field? fencedField fields = some (.bool b)

/-- What the replies of the two routes to one body have in common. -/
structure Agree (settings : Settings) (body : Bytes) (drawn given : Reply) : Prop where
  status : FlagFits settings body → drawn.status = given.status
  detail : FlagFits settings body → given.status ≠ 200 →
    ∃ detail, entry? "detail".toList drawn.body = some (.text detail) ∧
      entry? "detail".toList given.body = some (.text detail)
  /-- The flowchart and its sizes are those of the graph. -/
  content : ∀ fields code, readBody body = .ok fields → readText codeField fields = .ok code →
    isAllBlank code = false → drawn.status = 200 → given.status = 200 →
      ∃ g fenced nodes edges, Graph.ofValue given.body = .ok g ∧
        readFlag fencedField false fields = .ok fenced ∧
        entry? "nodes".toList given.body = some (.list nodes) ∧
        entry? "edges".toList given.body = some (.list edges) ∧
        drawn.body = .record [("mermaid".toList, .text (g.mermaid fenced)),
          ("node_count".toList, .int nodes.length), ("edge_count".toList, .int edges.length)]

/-! ## Requests that are refused -/

theorem Refusal.status_ne (refusal : Refusal) : refusal.status ≠ 200 := by
  cases refusal <;> simp [status]

/-- Two requests that are refused for the same reason get the same reply. -/
theorem agree_refused (settings : Settings) (body : Bytes) (refusal : Refusal) :
    Agree settings body refusal.reply refusal.reply where
  status := fun _ => rfl
  detail := fun _ _ => ⟨refusal.message, rfl, rfl⟩
  content := fun _ _ _ _ _ hstatus => absurd hstatus refusal.status_ne

section Routes

variable {settings : Settings} {body : Bytes} {fields : List (Text × Value)} {code : Text}

/-- The source text that is read is the one that the request holds. -/
theorem readText_of_readCode (h : readCode settings fields = .ok code) :
    readText codeField fields = .ok code := by
  unfold readCode at h
  cases htext : readText codeField fields with
  | error refusal =>
      rw [htext] at h
      cases h
  | ok t =>
      rw [htext] at h
      simp only at h
      split at h
      · cases h
      · exact h

theorem answerFlowchart_eq (hcode : readCode settings fields = .ok code) :
    answerFlowchart settings fields =
      (readFlag fencedField false fields).map fun fenced => flowchartRecord
        (Mermaid.ofSource settings.labelLimit settings.direction.name fenced code) := by
  unfold answerFlowchart
  rw [hcode]
  cases readFlag fencedField false fields with
  | error refusal => rfl
  | ok fenced => rfl

theorem answerGraph_eq (hcode : readCode settings fields = .ok code) :
    answerGraph settings fields =
      .ok (Graph.ofSource settings.labelLimit settings.direction.name code).toValue := by
  unfold answerGraph
  rw [hcode]
  rfl

/-! ## Requests that are taken -/

/-- The record of a flowchart tells the sizes of its graph. -/
theorem flowchartRecord_ofSource (limit : Int) (direction : Text) (fenced : Bool)
    (hblank : isAllBlank code = false) :
    flowchartRecord (Mermaid.ofSource limit direction fenced code) =
      .record [("mermaid".toList, .text ((Graph.ofSource limit direction code).mermaid fenced)),
        ("node_count".toList, .int (Graph.ofSource limit direction code).nodes.length),
        ("edge_count".toList, .int (Graph.ofSource limit direction code).edges.length)] := by
  have hdiagram : Mermaid.ofSource limit direction fenced code =
      (Graph.ofSource limit direction code).mermaid fenced :=
    if_neg (Bool.eq_false_iff.mp hblank)
  rw [hdiagram, flowchartRecord, Graph.ofSource, tally_ofStatements]
  rfl

/-- A source that both routes take. -/
theorem agree_taken (hbody : readBody body = .ok fields)
    (hcode : readCode settings fields = .ok code) {fenced : Bool}
    (hflag : readFlag fencedField false fields = .ok fenced) :
    Agree settings body
      ⟨200, flowchartRecord
        (Mermaid.ofSource settings.labelLimit settings.direction.name fenced code)⟩
      ⟨200, (Graph.ofSource settings.labelLimit settings.direction.name code).toValue⟩ where
  status := fun _ => rfl
  detail := fun _ hstatus => absurd rfl hstatus
  content := by
    intro fields' code' hbody' hcode' hblank _ _
    obtain rfl := Except.ok.inj (hbody.symm.trans hbody')
    obtain rfl := Except.ok.inj ((readText_of_readCode hcode).symm.trans hcode')
    refine ⟨_, fenced, _, _, Graph.ofValue_toValue _, hflag, rfl, rfl, ?_⟩
    rw [List.length_map, List.length_map]
    exact flowchartRecord_ofSource _ _ fenced hblank

/-- A source that only the flag keeps from being drawn. -/
theorem agree_flagged (hbody : readBody body = .ok fields)
    (hcode : readCode settings fields = .ok code) {refusal : Refusal}
    (hflag : readFlag fencedField false fields = .error refusal) (given : Reply) :
    Agree settings body refusal.reply given := by
  have hunfit : ¬ FlagFits settings body := by
    intro hfits
    unfold readFlag at hflag
    rcases hfits fields code hbody hcode with hnone | ⟨b, hbool⟩
    · rw [hnone] at hflag
      cases hflag
    · rw [hbool] at hflag
      cases hflag
  exact ⟨fun hfits => absurd hfits hunfit, fun hfits => absurd hfits hunfit,
    fun _ _ _ _ _ hstatus => absurd hstatus refusal.status_ne⟩

end Routes

/-- The two routes agree on every body, with all settings. -/
theorem agree (settings : Settings) (runs : List Mermaid.ToolRun) (body : Bytes) :
    Agree settings body (Route.flowchart.answer settings runs body).reply
      (Route.graph.answer settings runs body).reply := by
  show Agree settings body (replyWith (readBody body >>= answerFlowchart settings))
    (replyWith (readBody body >>= answerGraph settings))
  cases hbody : readBody body with
  | error refusal => exact agree_refused settings body refusal
  | ok fields =>
      show Agree settings body (replyWith (answerFlowchart settings fields))
        (replyWith (answerGraph settings fields))
      cases hcode : readCode settings fields with
      | error refusal =>
          unfold answerFlowchart answerGraph
          rw [hcode]
          exact agree_refused settings body refusal
      | ok code =>
          rw [answerFlowchart_eq hcode, answerGraph_eq hcode]
          cases hflag : readFlag fencedField false fields with
          | error refusal => exact agree_flagged hbody hcode hflag _
          | ok fenced => exact agree_taken hbody hcode hflag

/-- A body with a source of one call, and the flag for markdown. -/
def sample : Bytes :=
  Encoding.encodeUtf8 "\x7b\"code\": \"go()\", \"fenced\": true\x7d".toList

theorem agree_sample :
    FlagFits {} sample ∧
      (Route.flowchart.answer {} [] sample).reply.status = 200 ∧
      (Route.graph.answer {} [] sample).reply.status = 200 ∧
      ∃ g nodes edges, Graph.ofValue (Route.graph.answer {} [] sample).reply.body = .ok g ∧
        entry? "nodes".toList (Route.graph.answer {} [] sample).reply.body = some (.list nodes) ∧
        entry? "edges".toList (Route.graph.answer {} [] sample).reply.body = some (.list edges) ∧
        (Route.flowchart.answer {} [] sample).reply.body =
          .record [("mermaid".toList, .text (g.mermaid true)),
            ("node_count".toList, .int nodes.length),
            ("edge_count".toList, .int edges.length)] := by
  have hbody : readBody sample =
      .ok [("code".toList, .text "go()".toList), ("fenced".toList, .bool true)] := by
    decide +kernel
  have hfits : FlagFits {} sample := by
    intro fields code hfields _
    obtain rfl := Except.ok.inj (hbody.symm.trans hfields)
    exact Or.inr ⟨true, rfl⟩
  have hagree := agree {} [] sample
  have hgiven : (Route.graph.answer {} [] sample).reply.status = 200 := by
    decide +kernel
  have hdrawn := (hagree.status hfits).trans hgiven
  refine ⟨hfits, hdrawn, hgiven, ?_⟩
  obtain ⟨g, fenced, nodes, edges, hg, hflag, hnodes, hedges, hrecord⟩ :=
    hagree.content _ _ hbody rfl (by decide) hdrawn hgiven
  obtain rfl : true = fenced := Except.ok.inj hflag
  exact ⟨g, nodes, edges, hg, hnodes, hedges, hrecord⟩

end Flowchart.Service
