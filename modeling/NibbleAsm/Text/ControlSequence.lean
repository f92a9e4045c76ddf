/-!
# Control sequences of terminals

An escape character, an opening bracket, parameters and a letter tell a terminal to change a
color or to move its cursor. Such a sequence is no part of the text that a reader sees.

## Main definitions

* `dropControl`: what an escape character and the text behind it leave to be seen
* `withoutControls`: a text without its control sequences
-/

namespace NibbleAsm.Text

/-- The character that starts a control sequence. -/
def controlStart : Char := '\x1b'

/-- Whether a character is a parameter of a control sequence, or divides parameters. -/
def isControlParameter (c : Char) : Bool :=
  c.isDigit || c = ';' || c = '?'

/-- What is seen of an escape character and the text behind it: only what follows the control
sequence, or all of it if there is none. -/
def dropControl : List Char → List Char
  | '[' :: rest =>
    match rest.dropWhile isControlParameter with
    | c :: after => if c.isAlpha then after else controlStart :: '[' :: rest
    | [] => controlStart :: '[' :: rest
  | behind => controlStart :: behind

/-- A text without its control sequences. No sequence holds a second escape character, so each
is found in a part of the text between two of them. -/
def withoutControls (s : String) : String :=
  match s.toList.splitOn controlStart with
  | [] => ""
  | first :: parts => String.ofList (first ++ parts.flatMap dropControl)

end NibbleAsm.Text
