import NibbleAsm.Location

/-!
# Notes

An assembly takes notes of what it does: warnings for definitions that change a symbol
and for include paths that are no directories, and details of every file and pass.

## Main definitions

* `Note`: what can be noted
* `Note.level`, `Note.message`: how grave a note is, and its text
* `Note.text`: a note with its level in front
-/

namespace NibbleAsm

/-- How grave a note is. -/
inductive Level where
  | debug
  | warning
  deriving DecidableEq, Repr

/-- The name of a level. -/
def Level.name : Level → String
  | debug => "DEBUG"
  | warning => "WARNING"

/-- What an assembly takes note of. -/
inductive Note where
  | reassigned (location : Location) (name : String) (old new : Int)
  | redefined (location : Location) (name : String) (old : Int) (previous : Location)
  | noDirectory (path : String)
  | assembling (path : String)
  | resolved (name path : String)
  | included (location : Location) (path : String) (lines : Nat)
  | copied (location : Location) (words : Nat) (path : String)
  | laidOut (lines commands words symbols : Nat)
  | generated (words : Nat)
  | wrote (words : Nat) (path : String)
  deriving DecidableEq, Repr

namespace Note

/-- How grave a note is. -/
def level : Note → Level
  | reassigned .. | redefined .. | noDirectory .. => .warning
  | _ => .debug

/-- The text of a note. -/
def message : Note → String
  | reassigned location name old new =>
    location.text ++ ": predefined symbol '" ++ name ++ "' reassigned from $" ++ Text.hex4 old ++
      " to $" ++ Text.hex4 new
  | redefined location name old previous =>
    location.text ++ ": symbol '" ++ name ++ "' redefined (was $" ++ Text.hex4 old ++ " at " ++
      previous.text ++ ")"
  | noDirectory path => "include path '" ++ path ++ "' is not a directory"
  | assembling path => "assembling " ++ path
  | resolved name path => "resolved '" ++ name ++ "' to " ++ path
  | included location path lines =>
    location.text ++ ": included " ++ path ++ " (" ++ toString lines ++ " lines)"
  | copied location words path =>
    location.text ++ ": copied " ++ toString words ++ " words from " ++ path
  | laidOut lines commands words symbols =>
    "pass 1: " ++ toString lines ++ " lines, " ++ toString commands ++ " commands, " ++
      toString words ++ " words, " ++ toString symbols ++ " symbols"
  | generated words => "pass 2: " ++ toString words ++ " words generated"
  | wrote words path => "wrote " ++ toString words ++ " words to " ++ path

/-- The text of a note with its level in front. -/
def text (n : Note) : String :=
  n.level.name ++ ": " ++ n.message

end Note

end NibbleAsm
