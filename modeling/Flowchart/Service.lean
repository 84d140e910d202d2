import Flowchart.Encoding.Detect
import Flowchart.Graph.Record
import Flowchart.Mermaid.Render
import Flowchart.Mermaid.Verdict
import Flowchart.Settings.Loading

/-!
# The service

The service answers requests: it draws a source text as a flowchart, gives its flow graph, and
checks a flowchart. `Route.answer` gives the reply to one request; `serve` loads the settings,
answers requests in order, and tells what came of them all. Requests come with their route: to find
it, and to refuse what has none, is not the matter of the service.

A request is refused for the first reason that applies, in the order in which `Refusal` lists
them, and whatever it is refused for, the service goes on.

A source text is read with the replacement character for each half of a pair in it.
-/

set_option autoImplicit false

namespace Flowchart.Service

open Text

/-! ## Requests and replies -/

inductive Route where
  | health
  | flowchart
  | graph
  | validate
deriving DecidableEq, Repr

namespace Route

def path : Route → Text
  | health => "/api/health".toList
  | flowchart => "/api/flowchart".toList
  | graph => "/api/flowchart/graph".toList
  | validate => "/api/validate".toList

/-- The method that a route is asked with. -/
def method : Route → Text
  | health => "GET".toList
  | _ => "POST".toList

def all : List Route := [health, flowchart, graph, validate]

end Route

structure Request where
  route : Route
  body : Bytes
deriving DecidableEq, Repr

/-- A reply: its status and the value of its body. -/
structure Reply where
  status : Nat
  body : Value
deriving DecidableEq, Repr

/-- The reply to a request over which the service breaks off. -/
def failedReply : Reply := ⟨500, .text "Internal Server Error".toList⟩

/-- Why a request is refused. -/
inductive Refusal where
  | noDocument
  /-- Its body is the document of something else than a record. -/
  | noRecord
  /-- A field has to be a text and is none. -/
  | noText (field : Text)
  | tooLong (limit : Nat)
  /-- A field has to be a truth value and is none. -/
  | noFlag (field : Text)
deriving DecidableEq, Repr

namespace Refusal

def status : Refusal → Nat
  | tooLong _ => 413
  | _ => 400

def message : Refusal → Text
  | noDocument => "Request body must be JSON".toList
  | noRecord => "Request body must be a JSON object".toList
  | noText field => field ++ " is required and must be a string".toList
  | tooLong limit => "code exceeds ".toList ++ decimal limit ++ " characters".toList
  | noFlag field => field ++ " must be a boolean".toList

def reply (refusal : Refusal) : Reply :=
  ⟨refusal.status, .record [("detail".toList, .text refusal.message)]⟩

end Refusal

/-! ## Reading a request -/

/-- The name of the field for a source text. -/
def codeField : Text := "code".toList

/-- The name of the field for a flowchart. -/
def mermaidField : Text := "mermaid".toList

/-- The name of the field that asks for markdown. -/
def fencedField : Text := "fenced".toList

/-- The name of the field that asks for the syntax tool. -/
def toolField : Text := "mmdc".toList

/-- The fields of the record that a body holds. -/
def readBody (body : Bytes) : Except Refusal (List (Text × Value)) :=
  match (Encoding.decodeDocument? body).bind fun s => Value.ofDocument? s.filled with
  | none => .error .noDocument
  | some (.record fields) => .ok fields
  | some _ => .error .noRecord

/-- The code points of a field that has to be a string. -/
def readString (name : Text) (fields : List (Text × Value)) : Except Refusal RawText :=
  match (Value.field? name fields).bind Value.raw? with
  | some s => .ok s
  | none => .error (.noText name)

def readText (name : Text) (fields : List (Text × Value)) : Except Refusal Text :=
  (readString name fields).map RawText.filled

/-- The truth value of a field; the default where there is no such field. -/
def readFlag (name : Text) (default : Bool) (fields : List (Text × Value)) :
    Except Refusal Bool :=
  match Value.field? name fields with
  | none => .ok default
  | some (.bool b) => .ok b
  | some _ => .error (.noFlag name)

/-- The source text of a request, if it is not too long. -/
def readCode (settings : Settings) (fields : List (Text × Value)) : Except Refusal Text :=
  match readText codeField fields with
  | .error refusal => .error refusal
  | .ok code =>
      if settings.inputLimit < code.length then .error (.tooLong settings.inputLimit)
      else .ok code

/-! ## Answering a request -/

/-- The record with a flowchart and its sizes. -/
def flowchartRecord (diagram : Text) : Value :=
  .record ((mermaidField, .text diagram) :: (Mermaid.tally diagram).fields)

def answerFlowchart (settings : Settings) (fields : List (Text × Value)) :
    Except Refusal Value := do
  let code ← readCode settings fields
  let fenced ← readFlag fencedField false fields
  return flowchartRecord
    (Mermaid.ofSource settings.labelLimit settings.direction.name fenced code)

def answerGraph (settings : Settings) (fields : List (Text × Value)) : Except Refusal Value := do
  let code ← readCode settings fields
  return (Graph.ofSource settings.labelLimit settings.direction.name code).toValue

/-- The flowchart to check, and whether the syntax tool is to check it too. -/
def readCheck (settings : Settings) (fields : List (Text × Value)) :
    Except Refusal (RawText × Bool) := do
  let diagram ← readString mermaidField fields
  let useTool ← readFlag toolField settings.useTool fields
  return (diagram, useTool)

/-- The reply with a value, or the one that refuses the request. -/
def replyWith : Except Refusal Value → Reply
  | .ok body => ⟨200, body⟩
  | .error refusal => refusal.reply

/-- Why the service breaks off over a request. -/
inductive Failure where
  | review (fault : Mermaid.ReviewFault)
  /-- What is to be sent has halves of pairs in it, which cannot be sent. -/
  | unsendable (s : RawText)
deriving DecidableEq, Repr

structure Answer where
  reply : Reply
  failure : Option Failure := none
  calls : List Mermaid.ToolCall := []
  /-- The ends of runs that have not been used. -/
  unused : List Mermaid.ToolRun
  notices : List Text := []
deriving DecidableEq, Repr

/-- What a review of a flowchart has to tell, or why it cannot be told. -/
def verdict (review : Mermaid.Review) (tally : Mermaid.Tally) : Except Failure Value :=
  match review.outcome with
  | .error fault => .error (.review fault)
  | .ok opinion =>
      if opinion.message.isWhole then .ok (opinion.toValue tally)
      else .error (.unsendable opinion.message)

def answerValidate (diagram : RawText) (useTool : Bool) (runs : List Mermaid.ToolRun) : Answer :=
  let review := Mermaid.review diagram useTool runs
  let (reply, failure) :=
    match verdict review (Mermaid.tally diagram.filled) with
    | .ok body => ((⟨200, body⟩ : Reply), none)
    | .error failure => (failedReply, some failure)
  { reply, failure, calls := review.calls, unused := review.unused, notices := review.notices }

/-- Answers a request that has been sent to a route. -/
def Route.answer (route : Route) (settings : Settings) (runs : List Mermaid.ToolRun)
    (body : Bytes) : Answer :=
  match route with
  | health =>
      { reply := ⟨200, .record [("status".toList, .text "ok".toList)]⟩, unused := runs }
  | flowchart =>
      { reply := replyWith (readBody body >>= answerFlowchart settings), unused := runs }
  | graph => { reply := replyWith (readBody body >>= answerGraph settings), unused := runs }
  | validate =>
      match readBody body >>= readCheck settings with
      | .error refusal => { reply := refusal.reply, unused := runs }
      | .ok (diagram, useTool) => answerValidate diagram useTool runs

/-! ## Serving -/

structure Session where
  replies : List Reply
  /-- Why the service has broken off over requests. -/
  failures : List Failure
  notices : List Text
  calls : List Mermaid.ToolCall
deriving DecidableEq, Repr

/-- What is told when the service has started. -/
def startNotice (settings : Settings) : Text :=
  "[server] Started (direction=".toList ++ settings.direction.name ++
    ", label_max_chars=".toList ++ decimal settings.labelLimit ++ [')']

/-- What is told when the service has stopped. -/
def stopNotice : Text := "[server] Shutdown complete".toList

/-- Answers requests in order; each one goes on with the runs of the tool that are left. -/
def answerAll (settings : Settings) : List Mermaid.ToolRun → List Request → List Answer
  | _, [] => []
  | runs, request :: more =>
      let first := request.route.answer settings runs request.body
      first :: answerAll settings first.unused more

/-- Serves requests, with the settings of a folder. -/
def serve (loader : EnvLoader) (tree : FileTree) (folder : Place) (vars : Variables)
    (runs : List Mermaid.ToolRun) (requests : List Request) : Except Settings.LoadFault Session :=
  match Settings.load loader tree folder vars with
  | .error fault => .error fault
  | .ok settings =>
      let answers := answerAll settings runs requests
      .ok
        { replies := answers.map (·.reply)
          failures := answers.filterMap (·.failure)
          notices := startNotice settings :: answers.flatMap (·.notices) ++ [stopNotice]
          calls := answers.flatMap (·.calls) }

end Flowchart.Service
