import NibbleAsm.Text.CaseTable
import NibbleAsm.Text.Ranges

/-!
# Letter case

Mnemonics are compared in upper case and symbol names, for suggestions, in lower case.
The mappings are those of Unicode, so one character may become several, and a capital
sigma at the end of a word has its own lower case.

## Main definitions

* `upper`, `lower`: a text in one case
* `capitalize`: a text with its first character in title case and the rest in lower case
-/

namespace NibbleAsm.Text

/-- The image of a code point under a table of runs. -/
def CaseRun.find? (runs : List CaseRun) (n : Nat) : Option Char :=
  (runs.find? fun r => r.first ≤ n && n ≤ r.last && (n - r.first) % r.step == 0).map fun r =>
    Char.ofNat ((n : Int) + r.shift).toNat

/-- A character mapped by its table of replacements, or else by its table of runs. -/
def mapCase? (specials : List (Nat × List Nat)) (runs : List CaseRun) (c : Char) :
    Option (List Char) :=
  match specials.lookup c.toNat with
  | some image => some (image.map Char.ofNat)
  | none => (CaseRun.find? runs c.toNat).map ([·])

/-- The upper case of a character. -/
def upperChar (c : Char) : List Char :=
  if c.toNat < 128 then [c.toUpper] else (mapCase? upperSpecials upperRuns c).getD [c]

/-- The title case of a character. -/
def titleChar (c : Char) : List Char :=
  if c.toNat < 128 then [c.toUpper] else (mapCase? titleSpecials titleRuns c).getD (upperChar c)

/-- The lower case of a character, whatever stands around it. -/
def lowerChar (c : Char) : List Char :=
  if c.toNat < 128 then [c.toLower] else (mapCase? lowerSpecials lowerRuns c).getD [c]

/-- Whether the nearest character that is not case-ignorable is cased. -/
def casedNext (cs : List Char) : Bool :=
  match cs.dropWhile (inRanges caseIgnorableRanges) with
  | [] => false
  | c :: _ => inRanges casedRanges c

/-- The lower case of characters that follow `left`, which is given nearest first. A capital
sigma after a cased character and before none is a final sigma. -/
def lowerAfter (left : List Char) : List Char → List Char → List Char
  | out, [] => out.reverse
  | out, c :: rest =>
    let image :=
      if c = 'Σ' then (if casedNext left && !casedNext rest then ['ς'] else ['σ'])
      else lowerChar c
    lowerAfter (c :: left) (image.reverse ++ out) rest

/-- A text in upper case. -/
def upper (s : String) : String :=
  String.ofList (s.toList.flatMap upperChar)

/-- A text in lower case. -/
def lower (s : String) : String :=
  String.ofList (lowerAfter [] [] s.toList)

/-- A text with its first character in title case and the others in lower case. -/
def capitalize (s : String) : String :=
  match s.toList with
  | [] => ""
  | c :: rest => String.ofList (titleChar c ++ lowerAfter [c] [] rest)

end NibbleAsm.Text
