import Flowchart.Command.Basic
import Flowchart.Text.Digit
import Flowchart.Text.Quoted

/-!
# Arguments

The arguments of a run are options of the program, then a command, then options of the command.
An option may be given by the beginning of a long name that no other name begins with; its value
is the next argument, or follows an equals sign, or follows a short name at once; and short names
may share one argument. Two dashes alone end the options; attached to an option they give it no
value.

`Call.ofArguments` reads arguments as a call. All arguments of a list are first looked at one by
one; then they are read from left to right, and what an option does is done as it is read.
-/

set_option autoImplicit false

namespace Flowchart

open Text

/-! ## Faults -/

inductive ArgumentFault where
  | ambiguous (argument : Text) (names : List Text)
  | missingValue (switch : Switch)
  /-- An option that stands alone has been given a value. -/
  | needlessValue (switch : Switch) (value : Text)
  | badDirection (value : Text)
  | badCommand (word : Text)
  | unrecognized (arguments : List Text)
deriving DecidableEq, Repr

namespace ArgumentFault

/-- What is said about a fault of an option. -/
def aboutSwitch (switch : Switch) (text : Text) : Text :=
  "argument ".toList ++ join ['/'] switch.names ++ ": ".toList ++ text

/-- What is said about a value that is none of those to choose from. -/
def aboutChoice (value : Text) (names : List Text) : Text :=
  "invalid choice: ".toList ++ quoted value ++ " (choose from ".toList ++
    join ", ".toList (names.map quoted) ++ [')']

/-- What is said about arguments that are refused. -/
def message : ArgumentFault → Text
  | ambiguous argument names =>
      "ambiguous option: ".toList ++ argument ++ " could match ".toList ++ join ", ".toList names
  | missingValue switch => aboutSwitch switch "expected one argument".toList
  | needlessValue switch value =>
      aboutSwitch switch ("ignored explicit argument ".toList ++ quoted value)
  | badDirection value =>
      "argument --direction: ".toList ++ aboutChoice value (Direction.all.map Direction.name)
  | badCommand word =>
      "argument command: ".toList ++ aboutChoice word (Command.all.map Command.name)
  | unrecognized arguments => "unrecognized arguments: ".toList ++ join [' '] arguments

end ArgumentFault

/-! ## Looking at one argument -/

inductive TokenKind where
  /-- Two dashes alone, the first of their kind. -/
  | mark
  /-- A word, which may be the value of an option. -/
  | plain
  | unknown
  /-- An option, by a name of one dash if `short`, perhaps with a text in the same argument. -/
  | switch (switch : Switch) (short : Bool) (attached : Option Text)
deriving DecidableEq, Repr

structure Token where
  text : Text
  kind : TokenKind
deriving DecidableEq, Repr

/-- Two dashes. -/
def twoDashes : Text := ['-', '-']

/-- The names of options, each with its option. -/
def namesOf (switches : List Switch) : List (Text × Switch) :=
  switches.flatMap fun switch => switch.names.map fun name => (name, switch)

def switch? (switches : List Switch) (name : Text) : Option Switch :=
  (namesOf switches).lookup name

def isShort (name : Text) : Bool := !startsWith twoDashes name

/-- Whether a text writes a negative number: decimal digits behind a minus sign, perhaps with a
point among them or in front of them. A line feed at the end does not count. -/
def isNegativeNumber (t : Text) : Bool :=
  let isDigit (c : Char) : Bool := (digitValue? c).isSome
  match lastLine? t with
  | some ('-' :: digits) =>
      match digits.dropWhile isDigit with
      | [] => !digits.isEmpty
      | '.' :: places => !places.isEmpty && places.all isDigit
      | _ => false
  | _ => false

/-- What an argument looks like that begins with a dash but with no known name. -/
def strangeKind (t : Text) : TokenKind :=
  if isNegativeNumber t || t.contains ' ' then .plain else .unknown

/-- What an argument looks like that begins with the beginning of a long name. -/
def longKind (switches : List Switch) (t : Text) : Except ArgumentFault TokenKind :=
  let (start, attached) : Text × Option Text :=
    match cutAt '=' t with
    | some (start, value) => (start, some value)
    | none => (t, none)
  match (namesOf switches).filter fun entry => startsWith start entry.1 with
  | [] => .ok (strangeKind t)
  | [(_, switch)] => .ok (.switch switch false attached)
  | several => .error (.ambiguous t (several.map (·.1)))

def kindOf (switches : List Switch) (t : Text) : Except ArgumentFault TokenKind :=
  if !startsWith ['-'] t then .ok .plain
  else
    match switch? switches t with
    | some switch => .ok (.switch switch (isShort t) none)
    | none =>
        if t = ['-'] then .ok .plain
        else
          let named := (cutAt '=' t).bind fun (name, value) =>
            (switch? switches name).map fun switch =>
              TokenKind.switch switch (isShort name) (some value)
          match named with
          | some kind => .ok kind
          | none =>
              if startsWith twoDashes t then longKind switches t
              else
                match switch? switches (t.take 2) with
                | some switch => .ok (.switch switch true (some (t.drop 2)))
                | none => .ok (strangeKind t)

/-- Looks at the arguments one by one. Behind two dashes there are only words. -/
def tokens (switches : List Switch) : List Text → Except ArgumentFault (List Token)
  | [] => .ok []
  | t :: more =>
      if t = twoDashes then .ok (⟨t, .mark⟩ :: more.map fun t => ⟨t, .plain⟩)
      else
        match kindOf switches t, tokens switches more with
        | .error fault, _ => .error fault
        | _, .error fault => .error fault
        | .ok kind, .ok tokens => .ok (⟨t, kind⟩ :: tokens)

/-! ## Reading options -/

inductive BundleEnd where
  | complete
  | value (slot : Slot) (text : Text)
  /-- The last option wants its value from the next argument. -/
  | wants (switch : Switch) (slot : Slot)
deriving DecidableEq, Repr

/-- The options of one argument: those that stand alone, and how they end. -/
structure Bundle where
  flags : List Flag
  last : BundleEnd
deriving DecidableEq, Repr

/-- The bundle of an option without a text attached. -/
def aloneBundle (switch : Switch) : Bundle :=
  match switch.effect with
  | .flag flag => ⟨[flag], .complete⟩
  | .value slot => ⟨[], .wants switch slot⟩

/-- The bundle of an option with a text attached. The text is the value of an option that takes
one; to an option that stands alone and has a short name, it says further short names. -/
def attachedBundle (switches : List Switch) :
    Text → (switch : Switch) → (short : Bool) → Except ArgumentFault Bundle
  | [], switch, _ =>
      match switch.effect with
      | .value slot => .ok ⟨[], .value slot []⟩
      | .flag _ => .error (.needlessValue switch [])
  | c :: rest, switch, short =>
      match switch.effect with
      | .value slot => .ok ⟨[], .value slot (c :: rest)⟩
      | .flag flag =>
          match if short then switch? switches ['-', c] else none with
          | none => .error (.needlessValue switch (c :: rest))
          | some next =>
              let more :=
                if rest.isEmpty then .ok (aloneBundle next)
                else attachedBundle switches rest next true
              more.map fun bundle => { bundle with flags := flag :: bundle.flags }

def bundleOf (switches : List Switch) (switch : Switch) (short : Bool) :
    Option Text → Except ArgumentFault Bundle
  | none => .ok (aloneBundle switch)
  | some text => attachedBundle switches text switch short

inductive Halt where
  | help
  | refused (fault : ArgumentFault)
deriving DecidableEq, Repr

def Flag.given : Flag → Except Halt Given
  | help => .error .help
  | tell given => .ok given

/-- What an option without a value tells: what was told before is taken back. -/
def Slot.nothingGiven : Slot → Given
  | input => .input []
  | output => .output []
  | direction => .direction none
  | name => .name []

/-- What an option with a text for its value tells. Two dashes are no value. -/
def Slot.given (slot : Slot) (t : Text) : Except Halt Given :=
  if t = twoDashes then .ok slot.nothingGiven
  else
    match slot with
    | input => .ok (.input t)
    | output => .ok (.output t)
    | name => .ok (.name t)
    | direction =>
        match Direction.ofName? t with
        | some found => .ok (.direction (some found))
        | none => .error (.refused (.badDirection t))

/-- What options tell, and the arguments that are left over. -/
abbrev Told := List Given × List Text

def Told.after (given : List Given) (left : List Text) (told : Told) : Told :=
  (given ++ told.1, left ++ told.2)

def readTokens (switches : List Switch) : List Token → Except Halt Told
  | [] => .ok ([], [])
  | token :: more =>
      match token.kind with
      | .switch switch short attached =>
          match bundleOf switches switch short attached with
          | .error fault => .error (.refused fault)
          | .ok ⟨flags, .complete⟩ => do
              let given ← flags.mapM Flag.given
              return (← readTokens switches more).after given []
          | .ok ⟨flags, .value slot text⟩ => do
              let given ← flags.mapM Flag.given
              let last ← slot.given text
              return (← readTokens switches more).after (given ++ [last]) []
          | .ok ⟨flags, .wants switch slot⟩ =>
              match more with
              | ⟨text, .plain⟩ :: more => do
                  let given ← flags.mapM Flag.given
                  let last ← slot.given text
                  return (← readTokens switches more).after (given ++ [last]) []
              | _ => .error (.refused (.missingValue switch))
      | _ => do return (← readTokens switches more).after [] [token.text]

/-! ## Reading arguments -/

/-- Why arguments give no call; `of` is the command whose options are read, if there is one. -/
inductive Stop where
  | help (of : Option Command)
  | refused (of : Option Command) (fault : ArgumentFault)
deriving DecidableEq, Repr

/-- The stop that the end of reading means. -/
def Halt.stop (of : Option Command) : Halt → Stop
  | help => .help of
  | refused fault => .refused of fault

/-- Reads the arguments of a command. `left` are the arguments before it that mean nothing. -/
def Command.read (command : Command) (left arguments : List Text) : Except Stop Call :=
  match tokens command.switches arguments with
  | .error fault => .error (.refused (some command) fault)
  | .ok tokens =>
      match readTokens command.switches tokens with
      | .error halt => .error (halt.stop (some command))
      | .ok (given, more) =>
          if (left ++ more).isEmpty then .ok (command.call given)
          else .error (.refused none (.unrecognized (left ++ more)))

/-- Reads the arguments up to the command, and then those of the command. Without a command the
help is given. -/
def readCommand (left : List Text) : List Token → Except Stop Call
  | [] =>
      if left.isEmpty then .error (.help none) else .error (.refused none (.unrecognized left))
  | token :: more =>
      match token.kind with
      | .plain =>
          match Command.ofName? token.text with
          | some command => command.read left (more.map (·.text))
          | none => .error (.refused none (.badCommand token.text))
      | .mark =>
          if more.isEmpty then .error (.refused none (.unrecognized (left ++ [token.text])))
          else .error (.refused none (.badCommand token.text))
      | .unknown => readCommand (left ++ [token.text]) more
      | .switch _ _ _ =>
          match readTokens [helpSwitch] [token] with
          | .error halt => .error (halt.stop none)
          | .ok (_, texts) => readCommand (left ++ texts) more

def Call.ofArguments (arguments : List Text) : Except Stop Call :=
  match tokens [helpSwitch] arguments with
  | .error fault => .error (.refused none fault)
  | .ok tokens => readCommand [] tokens

end Flowchart
