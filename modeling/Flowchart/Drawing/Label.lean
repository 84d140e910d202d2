import Flowchart.Source.Line

/-!
# Labels

What the nodes of a drawn statement say. A plain statement is drawn as a log message, a call or
another step, by what its line holds.
-/

set_option autoImplicit false

namespace Flowchart

open Text

/-! ## Shortening -/

/-- The text, or as much of it as `limit` allows with dots behind it. A negative limit takes
that many characters off the end. -/
def shorten (limit : Int) (t : Text) : Text :=
  if limit < t.length then keep limit t ++ "...".toList else t

/-! ## Log messages -/

/-- What stands before the first closing parenthesis, at least one character in; no line feed may
stand before it. -/
def upToClosing : Text → Option Text
  | [] => none
  | c :: t => if c = '\n' then none else (goOn t).map (c :: ·)
where
  goOn : Text → Option Text
    | [] => none
    | c :: t => if c = ')' then some [] else if c = '\n' then none else (goOn t).map (c :: ·)

/-- The argument of the log call that the text begins with. -/
def logArgumentHere? (t : Text) : Option Text :=
  ((after? "console.log".toList t).bind fun rest => after? ['('] (stripLeft rest)).bind
    upToClosing

/-- The argument of the first log call of a text that has one. -/
def logArgument? : Text → Option Text
  | [] => none
  | c :: t => (logArgumentHere? (c :: t)).or (logArgument? t)

/-- Whether a line of the text holds an opening parenthesis with a closing one behind it. -/
def holdsCall (t : Text) : Bool :=
  (pieces '\n' t).any fun line => (cutAt '(' line).any fun (_, rest) => rest.contains ')'

/-! ## Steps -/

inductive StepKind where
  | log
  | call
  | other
deriving DecidableEq, Repr

/-- What a plain statement is drawn as: a log message when it holds the words, a call when it
holds parentheses. -/
def stepKind (t : Text) : StepKind :=
  if hasPart "console.log".toList t then .log else if holdsCall t then .call else .other

def stepLabel (limit : Int) (t : Text) : Text :=
  match stepKind t with
  | .log => "Log: ".toList ++ (logArgument? t).getD []
  | .call => "Call: ".toList ++ shorten limit t
  | .other => "Execute: ".toList ++ shorten limit t

/-- The label of a conditional: its condition without parentheses. -/
def conditionLabel (condition : Text) : Text :=
  "if ".toList ++ strip (condition.filter fun c => !(c == '(' || c == ')'))

end Flowchart
