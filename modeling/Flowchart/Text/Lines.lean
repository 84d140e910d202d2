import Flowchart.Text.Basic

/-!
# Lines

A line ends at a line feed, at a carriage return, or at the two together in the order carriage
return, line feed. `lines` splits a text at its line ends; the text after the last line end is a
line too, so there is one line more than there are line ends.
-/

set_option autoImplicit false

namespace Flowchart.Text

/-- The lines of a text, without their line ends. -/
def lines : Text → List Text
  | [] => [[]]
  | c :: t =>
      if c = '\n' then [] :: lines t
      else if c = '\r' then
        match t with
        | '\n' :: u => [] :: lines u
        | u => [] :: lines u
      else consHead c (lines t)

/-- The text with every line end replaced by `sep`. -/
def joinLines (sep t : Text) : Text := join sep (lines t)

/-- The text with every line end written as one line feed. -/
def withLineFeeds (t : Text) : Text := joinLines ['\n'] t

end Flowchart.Text
