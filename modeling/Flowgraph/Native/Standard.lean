import Flowgraph.Native.Basic
import Flowgraph.Text.Upper

/-!
# Standard natives

Printing a line, printing into a text, the text of an integer, and upper case.
-/

namespace Flowgraph

namespace Native

/-- The stop of a native that does not accept its arguments. -/
def refuse (name message : String) : Reply := .stop (.fault (.native name message))

/-- Whether a value is a text. -/
def isText : Value → Bool
  | .str _ => true
  | _ => false

/-- The texts of values in a row, with a blank between two values neither of which is a
text. -/
def joinLoosely (s : Store) : List Value → String
  | [] => ""
  | [v] => s.render v
  | v :: w :: rest =>
    s.render v ++ (if isText v || isText w then "" else " ") ++ joinLoosely s (w :: rest)

/-- Print the arguments on a line of their own, separated by blanks. -/
def printLine : Native := fun _ s args => .print (s.renderLine args) []

/-- The texts of the arguments in a row. -/
def sprint : Native := fun _ s args => .results [.str (joinLoosely s args)]

/-- The decimal digits of an integer. -/
def itoa : Native
  | _, _, [.int i] => .results [.str (toString i.toInt)]
  | _, _, _ => refuse "strconv.Itoa" "expects one int"

/-- A text in upper case. -/
def toUpper : Native
  | _, _, [.str t] => .results [.str (Text.upper t)]
  | _, _, _ => refuse "strings.ToUpper" "expects one string"

end Native

/-- The natives that a program can count on. -/
def Registry.standard : Registry :=
  empty
    |>.register "fmt.Println" Native.printLine none
    |>.register "fmt.Sprint" Native.sprint none
    |>.register "strconv.Itoa" Native.itoa none
    |>.register "strings.ToUpper" Native.toUpper none

end Flowgraph
