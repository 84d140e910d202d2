import Flowchart.Settings.Loading

/-!
# Settings files

A settings file holds bindings of names to texts, one a line. A name may follow the word
`export` and may stand between single quotes; a text may stand between quotes of either kind and
then go over several lines; a comment begins with a number sign. A line that is no binding is
passed over.

A text may mention variables as `${NAME}` or `${NAME:-default}`; what is set counts before what the
file has bound further up. `loader` sets the variables that the bindings of a file name, unless they
are set already. The program loads its settings with it.
-/

set_option autoImplicit false

namespace Flowchart.EnvFile

open Text

/-! ## Reading a binding

Each function takes its part off the front of a text; when the part is not there, the text from
that place on is the error. -/

/-- Whether a character is a blank inside a line. -/
def isInner (c : Char) : Bool := isBlank c && !(c == '\n' || c == '\r')

/-- The text without the blanks of its line that it begins with. -/
def skipInner (t : Text) : Text := t.dropWhile isInner

/-- The text behind the word `export` and blanks, if it begins with them. -/
def skipExport (t : Text) : Text :=
  match after? "export".toList t with
  | some (c :: rest) => if isInner c then skipInner rest else t
  | _ => t

/-- A text up to a closing quote, and what follows the quote. -/
abbrev Enclosed := Option (Text × Text)

/-- What is enclosed up to a closing quote: in the text, and in the text behind its first
character. A backslash takes the character behind it along, unless the quote would not be closed
then; to know that, both are needed. -/
def enclosed (quote : Char) : Text → Enclosed × Enclosed
  | [] => (none, none)
  | c :: t =>
      let (here, further) := enclosed quote t
      let escaped : Enclosed :=
        match t with
        | [] => none
        | x :: _ =>
            -- A backslash at the end of a line takes nothing along.
            if c = '\\' ∧ x ≠ '\n' then further.map fun (inside, rest) => (c :: x :: inside, rest)
            else none
      let plain : Enclosed :=
        if c = quote then some ([], t) else here.map fun (inside, rest) => (c :: inside, rest)
      -- The longer reading is tried first.
      (escaped.or plain, here)

/-- What is enclosed up to a closing quote, and what follows it. -/
def readQuoted (quote : Char) (t : Text) : Enclosed := (enclosed quote t).1

/-- The text with its escapes replaced by what they stand for. -/
def unescape (escapes : List (Char × Char)) : Text → Text
  | [] => []
  | [c] => [c]
  | c :: x :: t =>
      match if c = '\\' then escapes.lookup x else none with
      | some meant => meant :: unescape escapes t
      | none => c :: unescape escapes (x :: t)

def singleEscapes : List (Char × Char) := [('\\', '\\'), ('\'', '\'')]

def doubleEscapes : List (Char × Char) :=
  [('\\', '\\'), ('\'', '\''), ('"', '"'), ('a', Char.ofNat 7), ('b', Char.ofNat 8),
   ('f', Char.ofNat 12), ('n', '\n'), ('r', '\r'), ('t', '\t'), ('v', Char.ofNat 11)]

def readName (t : Text) : Except Text (Option Text × Text) :=
  match t with
  | '#' :: _ => .ok (none, t)
  | '\'' :: rest =>
      match cutAt '\'' rest with
      | some (c :: name, rest) => .ok (some (c :: name), rest)
      | _ => .error t
  | _ =>
      let isPart (c : Char) : Bool := !(c == '=' || c == '#' || isBlank c)
      let name := t.takeWhile isPart
      if name.isEmpty then .error t else .ok (some name, t.dropWhile isPart)

/-- A text without quotes, up to the first number sign behind blanks. -/
def cutComment : Text → Text
  | [] => []
  | c :: t =>
      if isBlank c && startsWith ['#'] (stripLeft t) then [] else c :: cutComment t

def readText (t : Text) : Except Text (Text × Text) :=
  match t with
  | '\'' :: rest =>
      match readQuoted '\'' rest with
      | some (inside, rest) => .ok (unescape singleEscapes inside, rest)
      | none => .error t
  | '"' :: rest =>
      match readQuoted '"' rest with
      | some (inside, rest) => .ok (unescape doubleEscapes inside, rest)
      | none => .error t
  | _ =>
      let inLine (c : Char) : Bool := !(c == '\n' || c == '\r')
      .ok (stripRight (cutComment (t.takeWhile inLine)), t.dropWhile inLine)

/-- Reads the text behind an equals sign. It is empty when a comment follows blanks there. -/
def readValue (t : Text) : Except Text (Text × Text) :=
  let rest := skipInner t
  if rest.length < t.length && startsWith ['#'] rest then .ok ([], rest) else readText rest

/-- The text behind a comment, if it begins with one. -/
def skipComment (t : Text) : Text :=
  let rest := skipInner t
  if startsWith ['#'] rest then rest.dropWhile fun c => !(c == '\n' || c == '\r') else t

/-- The text behind the end of a line. -/
def readLineEnd (t : Text) : Except Text Text :=
  match skipInner t with
  | [] => .ok []
  | '\n' :: rest => .ok rest
  | rest => .error rest

/-- Reads a line: its binding, if it has a name, and what follows the line. -/
def readBinding (t : Text) : Except Text (Option Binding × Text) := do
  let (name, t) ← readName (skipExport t)
  let t := skipInner t
  let (value, t) ←
    match t with
    | '=' :: rest => (readValue rest).map fun (value, rest) => (some value, rest)
    | _ => pure (none, t)
  let t ← readLineEnd (skipComment t)
  return (name.map fun name => (name, value), t)

/-- What follows the line that a text begins with. -/
def afterLine (t : Text) : Text := (t.dropWhile fun c => c != '\n').drop 1

/-- The bindings of a text. Each line that is read makes the text shorter, so its length is
`fuel` enough. -/
def readBindings : (fuel : Nat) → Text → List Binding
  | 0, _ => []
  | fuel + 1, t =>
      match stripLeft t with
      | [] => []
      | start =>
          match readBinding start with
          | .ok (binding, rest) => binding.toList ++ readBindings fuel rest
          | .error rest => readBindings fuel (afterLine rest)

def bindings (t : Text) : List Binding := readBindings (t.length + 1) t

/-! ## Mentions of variables -/

/-- The variable that a text mentions where it begins, the default given for it, and what follows
the mention. -/
def mention? (t : Text) : Option (Text × Option Text × Text) := do
  let t ← after? "$\x7b".toList t
  let isPart (c : Char) : Bool := !(c == '\x7d' || c == ':')
  let name := t.takeWhile isPart
  match t.dropWhile isPart with
  | '\x7d' :: rest => some (name, none, rest)
  | ':' :: '-' :: rest => (cutAt '\x7d' rest).map fun (default, rest) => (name, some default, rest)
  | _ => none

/-- The text with its mentions replaced, `meaning` giving the text for a variable and a default.
No replacement makes what is still to be read longer, so its length is `fuel` enough. -/
def replaceMentions (meaning : Text → Option Text → Text) : (fuel : Nat) → Text → Text
  | 0, t => t
  | _, [] => []
  | fuel + 1, c :: t =>
      match mention? (c :: t) with
      | some (name, default, rest) => meaning name default ++ replaceMentions meaning fuel rest
      | none => c :: replaceMentions meaning fuel t

/-- The variables that a text mentions. No step makes what is still to be read longer, so its length
is `fuel` enough. -/
def mentions : (fuel : Nat) → Text → List Text
  | 0, _ => []
  | _, [] => []
  | fuel + 1, c :: t =>
      match mention? (c :: t) with
      | some (name, _, rest) => name :: mentions fuel rest
      | none => mentions fuel t

/-- The variables that a settings file binds or mentions. -/
def namesIn (t : Text) : List Text :=
  (bindings t).flatMap fun (name, value) =>
    name :: (value.map fun text => mentions text.length text).getD []

/-- What a mention stands for: the text of a variable that is set, else what the file has bound
last, else the default. A name bound without a text stands for nothing. -/
def meaning (vars : Variables) (bound : List Binding) (name : Text) (default : Option Text) :
    Text :=
  match vars.get? name with
  | some text => text
  | none =>
      match bound.lookup name with
      | some value => value.getD []
      | none => default.getD []

/-- The bindings with one more; a name that is bound already is bound anew in its place. -/
def bind (name : Text) (value : Option Text) : List Binding → List Binding
  | [] => [(name, value)]
  | (known, old) :: more =>
      if known = name then (known, value) :: more else (known, old) :: bind name value more

/-- The bindings that are left of a file, behind those made further up: each name once, with its
last text, the mentions in it replaced. -/
def resolve (vars : Variables) (bound : List Binding) : List Binding → List Binding
  | [] => bound
  | (name, value) :: more =>
      let value := value.map fun text => replaceMentions (meaning vars bound) text.length text
      resolve vars (bind name value bound) more

/-! ## Loading -/

/-- The mark that may stand before the first character of a text. -/
def byteOrderMark : Char := Char.ofNat 0xfeff

/-- The text of a settings file: without a byte order mark, and with line feeds only. -/
def textOfFile (bytes : Bytes) : Except Encoding.Gap Text :=
  match Encoding.readUtf8 bytes with
  | .error gap => .error gap
  | .ok t => .ok (withLineFeeds (if startsWith [byteOrderMark] t then t.drop 1 else t))

/-- The bindings of a file; none where there is no file. -/
def bindingsOf : Option Bytes → Except Encoding.Gap (List Binding)
  | none => .ok []
  | some bytes => (textOfFile bytes).map bindings

/-- The variables that bindings set: those that are not set yet. A name without a text sets
nothing. -/
def assignments (vars : Variables) (bs : List Binding) : List (Text × Text) :=
  (resolve vars [] bs).filterMap fun (name, value) =>
    if (vars.get? name).isSome then none else value.map fun text => (name, text)

def loader : EnvLoader := { bindings := bindingsOf, assignments }

/-- The variables that the settings of a folder depend on. -/
def namesFor (tree : FileTree) (folder : Place) : List Text :=
  let inFile :=
    match (Settings.nearest tree folder).map fun path =>
        (FileTree.readPath tree [] path).toOption.map textOfFile with
    | some (some (.ok t)) => namesIn t
    | _ => []
  [Settings.directionName, Settings.labelLimitName, Settings.inputLimitName,
    Settings.useToolName] ++ inFile

end Flowchart.EnvFile
