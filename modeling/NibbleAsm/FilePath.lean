import NibbleAsm.Text.Blank
import NibbleAsm.Text.Numeral

/-!
# File paths

A path is the text of a file name taken apart at its slashes. Empty parts and single
dots carry no meaning and are dropped; double dots stay, since what they lead to
depends on the directory before them. So every part of a path is a name: this is kept with the
path, whether it comes from a text or from other paths.

## Main definitions

* `FilePath.ofString`, `FilePath.text`: a path and its text
* `FilePath.append`: a path seen from a directory
* `FilePath.parent`: the directory of a path
-/

namespace NibbleAsm

/-- Where a path starts. Exactly two leading slashes are kept apart from one. -/
inductive Anchor where
  | relative
  | root
  | doubleRoot
  deriving DecidableEq, Repr

/-- A path, as its start and its parts. The parts are names and are not divided any further. -/
@[ext]
structure FilePath where
  anchor : Anchor
  parts : List String
  named : ∀ part ∈ parts, part ≠ "" ∧ part ≠ "."
  undivided : ∀ part ∈ parts, '/' ∉ part.toList
  deriving DecidableEq, Repr

/-- The pieces of a text between its slashes. -/
def slashParts (s : String) : List String :=
  (s.toList.splitOn '/').map String.ofList

/-- The pieces of a text between its slashes have no slash. -/
theorem not_mem_of_mem_slashParts {s part : String} (h : part ∈ slashParts s) :
    '/' ∉ part.toList := by
  obtain ⟨cs, hcs, rfl⟩ := List.mem_map.mp h
  rw [String.toList_ofList]
  intro hmem
  obtain ⟨hne, -⟩ := (Text.mem_of_mem_splitOnPPrepend hcs '/' hmem).resolve_left List.not_mem_nil
  simp at hne

/-- The start of the path that a text names. -/
def Anchor.ofString (s : String) : Anchor :=
  match (s.toList.takeWhile (· = '/')).length with
  | 0 => .relative
  | 2 => .doubleRoot
  | _ => .root

/-- The text of a start. -/
def Anchor.text : Anchor → String
  | relative => ""
  | root => "/"
  | doubleRoot => "//"

namespace FilePath

/-- The path that a text names. -/
def ofString (s : String) : FilePath where
  anchor := Anchor.ofString s
  parts := (slashParts s).filter fun part => part ≠ "" ∧ part ≠ "."
  named part h := by simpa using (List.mem_filter.mp h).2
  undivided part h := not_mem_of_mem_slashParts (List.mem_filter.mp h).1

/-- The text of a path; the path of no parts is a dot. -/
def text (p : FilePath) : String :=
  if p.anchor = .relative ∧ p.parts = [] then "." else p.anchor.text ++ Text.join "/" p.parts

/-- A path seen from a directory, unless it has a start of its own. -/
def append (directory p : FilePath) : FilePath :=
  if p.anchor = .relative then
    { anchor := directory.anchor
      parts := directory.parts ++ p.parts
      named := fun part h =>
        (List.mem_append.mp h).elim (directory.named part) (p.named part)
      undivided := fun part h =>
        (List.mem_append.mp h).elim (directory.undivided part) (p.undivided part) }
  else p

/-- The directory of a path. -/
def parent (p : FilePath) : FilePath where
  anchor := p.anchor
  parts := p.parts.dropLast
  named part h := p.named part (List.dropLast_subset _ h)
  undivided part h := p.undivided part (List.dropLast_subset _ h)

end FilePath

end NibbleAsm
