/-!
# Templates

A template is a text with fields: digits in braces. Filling it puts given texts in the places of
the fields, each as it is: nothing that is put in is searched for fields again.

## Main definitions

* `field`: the text of a field
* `fillTemplate`: a template with texts in its fields
-/

namespace NibbleAsm.Text

/-- The text of the field with a number below ten. -/
def field (n : Nat) : String :=
  String.ofList ['\x7b', Nat.digitChar n, '\x7d']

/-- The characters of a template with the given texts in its fields. The fields are numbered from
zero. -/
def fillFields (given : List String) : List Char → List Char
  | '\x7b' :: digit :: '\x7d' :: rest =>
    (given.getD (digit.toNat - '0'.toNat) "").toList ++ fillFields given rest
  | c :: rest => c :: fillFields given rest
  | [] => []

/-- A template with the given texts in its fields. -/
def fillTemplate (template : String) (given : List String) : String :=
  String.ofList (fillFields given template.toList)

end NibbleAsm.Text
