import NibbleAsm.Program.Basic
import NibbleAsm.Text.Utf8

/-!
# Listings

A program is shown as a listing of its source with addresses and words, as a dump of its
words and as a list of its symbols.

## Main definitions

* `Program.listing`: the annotated source
* `Program.dump`: rows of words
* `Program.symbolListing`: the symbols, sorted by name
* `Program.symbolFile`: the symbols in the form of a file
-/

namespace NibbleAsm

/-- The number of words shown in a row of the listing. -/
def listingWords : Nat := 4

/-- The number of words in a row of the dump. -/
def dumpWords : Nat := 8

/-- Words in hexadecimal, divided by spaces. -/
def showWords (words : List Int) : String :=
  Text.join " " (words.map Text.hex4)

/-- The row of a command in the listing. Words beyond the first four are only counted. -/
def Row.text (r : Row) : String :=
  let shown := showWords (r.words.take listingWords)
  let count := r.words.length
  let (shown, source) :=
    if count > listingWords then
      (shown ++ " ...", r.source ++ "   (" ++ toString count ++ " words)")
    else (shown, r.source)
  Text.trimRight (Text.hex4 r.address ++ "  " ++ Text.padRight 23 shown ++ "  " ++ source)

/-- The rows of a dump from an address on; `rows` bounds their number. -/
def dumpRows : Nat → Nat → List Int → List String
  | 0, _, _ => []
  | rows + 1, address, words =>
    if words.isEmpty then []
    else
      (Text.hex4 address ++ ": " ++ showWords (words.take dumpWords)) ::
        dumpRows rows (address + dumpWords) (words.drop dumpWords)

namespace Program

/-- The heading of a listing. -/
def heading : List String :=
  ["Addr  Words                    Source",
   "----  -----------------------  ------------------------------"]

/-- The source with its addresses and words. -/
def listing (p : Program) : String :=
  Text.join "\n" (heading ++ p.rows.map Row.text)

/-- The words in rows of eight. -/
def dump (p : Program) : String :=
  Text.join "\n" (dumpRows p.words.length 0 p.words)

/-- The symbols, sorted by name. -/
def sortedSymbols (p : Program) : List (String × Int) :=
  p.symbols.toList.mergeSort fun a b => decide (a.1 ≤ b.1)

/-- The length of the longest symbol name. -/
def nameWidth (p : Program) : Nat :=
  p.symbols.names.foldl (fun n name => max n name.length) 0

/-- The symbols with their values, one in a line. -/
def symbolListing (p : Program) : String :=
  let width := p.nameWidth
  Text.join "\n" (p.sortedSymbols.map fun (name, value) =>
    "  " ++ Text.padLeft ' ' width name ++ " => " ++ Text.decimal value ++ " ($" ++
      Text.hex4 value ++ ")")

/-- The text of the symbol file. -/
def symbolFile (p : Program) : String :=
  "# Symbol table\n# Generated by vm16asm\n" ++
    Text.join "" (p.sortedSymbols.map fun (name, value) =>
      name ++ " $" ++ Text.hex4 value ++ "\n")

/-- The text of the listing file. -/
def listingFile (p : Program) : String :=
  p.listing ++ "\n"

end Program

/-- The bytes of a text file. -/
def textBytes (s : String) : List UInt8 :=
  Text.Utf8.encode s.toList

end NibbleAsm
