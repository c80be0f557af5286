import PipelineWaves.Text.Blank

/-!
# Lines

A line ends with a line feed, and with the carriage return before it if there is
one. A text that ends with a line feed has no empty line after it.
-/

set_option autoImplicit false

namespace PipelineWaves.Text

def withoutReturn (line : List Char) : List Char :=
  if line.getLast? = some '\r' then line.dropLast else line

/-- The lines of a text, where `line` holds the current line so far in reverse. -/
def linesFrom (line : List Char) : List Char → List (List Char)
  | [] => if line.isEmpty then [] else [line.reverse]
  | '\n' :: rest => withoutReturn line.reverse :: linesFrom [] rest
  | character :: rest => linesFrom (character :: line) rest

def lines (text : String) : List String :=
  (linesFrom [] text.toList).map String.ofList

def trimTrailingBlank (text : String) : String :=
  String.ofList (dropTrailing isBlank text.toList)

def padTo (width : Nat) (text : String) : String :=
  text ++ String.ofList (List.replicate (width - text.length) ' ')

end PipelineWaves.Text
