import NibbleAsm.Text.Blank

/-!
# Lines of text

A text is divided into lines at every line break, and a carriage return directly
followed by a line feed is one break. The text after the last break is a line only if
it is not empty. A text that is read from a file has line feeds only: every carriage return
in it, alone or with the line feed behind it, is read as a line feed.

## Main definitions

* `isLineBreak`: the characters that end a line
* `lines`: the lines of a text, without their breaks
* `unifyFeeds`: a text with line feeds in place of carriage returns
* `chomp`: a line without trailing carriage returns and line feeds
-/

namespace NibbleAsm.Text

/-- Whether a character ends a line. -/
def isLineBreak (c : Char) : Bool :=
  [0x0A, 0x0B, 0x0C, 0x0D, 0x1C, 0x1D, 0x1E, 0x85, 0x2028, 0x2029].contains c.toNat

/-- The lines of the text that follows a point, the unfinished line at the point first.
`feed` tells that a line feed comes next. -/
structure LineTail where
  lines : List (List Char)
  feed : Bool

/-- The lines seen from one character further left. -/
def LineTail.cons (c : Char) (t : LineTail) : LineTail :=
  if c = '\r' ∧ t.feed then { t with feed := false }
  else if isLineBreak c then { lines := [] :: t.lines, feed := c = '\n' }
  else
    match t.lines with
    | [] => { lines := [[c]], feed := false }
    | line :: rest => { lines := (c :: line) :: rest, feed := false }

/-- The lines of a text. -/
def lines (s : String) : List String :=
  (s.toList.foldr LineTail.cons { lines := [], feed := false }).lines.map String.ofList

/-- The text that follows a point, with line feeds in place of carriage returns. `feed` tells
that a line feed comes next in the text as it was. -/
structure FeedTail where
  text : List Char
  feed : Bool

/-- The text seen from one character further left. -/
def FeedTail.cons (c : Char) (t : FeedTail) : FeedTail :=
  if c = '\r' then
    if t.feed then { t with feed := false } else { text := '\n' :: t.text, feed := false }
  else { text := c :: t.text, feed := c = '\n' }

/-- A text with a line feed in place of every carriage return and of every carriage return
directly followed by a line feed. -/
def unifyFeeds (cs : List Char) : List Char :=
  (cs.foldr FeedTail.cons { text := [], feed := false }).text

/-- A line without trailing carriage returns and line feeds. -/
def chomp (s : String) : String :=
  String.ofList (dropTail (fun c => c = '\r' ∨ c = '\n') s.toList)

end NibbleAsm.Text
