/-!
# Characters with their places

In an indented text it matters where a character stands: its column shows to
which mapping it belongs, and a name ends on the line on which it starts.  So a
text is read as a list of characters that know their places.

There are several line ends.  A carriage return, a line feed, both together and
the next-line character are all the same; the line and paragraph separators end
a line too but are kept as they are.

## Main definitions

* `Glyph`: a character with its place;
* `glyphs?`: the characters of a text, if all of them may stand in it;
* `isBlank`, `isBreak`, `endsWord`: blanks and line ends;
* `Glyph.isByteOrderMark`, `marker?`: what may stand in front of a line, and what
  may stand between documents.
-/

namespace RouterCalldata.Yaml

/-- A character and where it stands: how many characters are in front of it,
in the text and on its line, and how many lines. -/
structure Glyph where
  char : Char
  index : Nat
  line : Nat
  column : Nat
  deriving DecidableEq, Repr

/-- Whether a character may stand in a text. -/
def isPrintable (c : Char) : Bool :=
  let n := c.toNat
  n == 9 || n == 10 || n == 13 || (0x20 ≤ n && n ≤ 0x7e) || n == 0x85 ||
    (0xa0 ≤ n && n ≤ 0xfffd) || 0x10000 ≤ n

/-- A blank within a line. -/
def isBlank (c : Char) : Bool := c == ' ' || c == '\t'

/-- A line end, all forms of the common one being written as a line feed. -/
def isBreak (c : Char) : Bool := c == '\n' || c == '\u2028' || c == '\u2029'

/-- A line end in its common form, and any other character unchanged. -/
def unified (c : Char) : Char := if c = '\r' ∨ c = '\u0085' then '\n' else c

/-- The characters of a text of which `index` characters in `line` lines have
been passed, `column` of them on the present line. -/
def glyphsFrom (index line column : Nat) : List Char → List Glyph
  | [] => []
  | '\r' :: '\n' :: rest => ⟨'\n', index, line, column⟩ :: glyphsFrom (index + 2) (line + 1) 0 rest
  | c :: rest =>
      ⟨unified c, index, line, column⟩ ::
        if isBreak (unified c) then glyphsFrom (index + 1) (line + 1) 0 rest
        else glyphsFrom (index + 1) line (column + 1) rest

/-- The characters of a text. -/
def glyphs? (s : String) : Option (List Glyph) :=
  if s.toList.all isPrintable then some (glyphsFrom 0 0 0 s.toList) else none

/-- A byte-order mark in front of a line. -/
def Glyph.isByteOrderMark (g : Glyph) : Bool := g.char == '\ufeff' && g.column == 0

/-- Whether a word may end in front of the rest of a text. -/
def endsWord : List Glyph → Bool
  | [] => true
  | g :: _ => isBlank g.char || isBreak g.char

/-- The two lines that stand between documents. -/
inductive Marker
  /-- Three hyphens. -/
  | start
  /-- Three points. -/
  | finish
  deriving DecidableEq, Repr

/-- The marker at the front of a line, if there is one. -/
def marker? : List Glyph → Option Marker
  | a :: b :: c :: rest =>
      if a.column = 0 ∧ endsWord rest then
        if a.char = '-' ∧ b.char = '-' ∧ c.char = '-' then some .start
        else if a.char = '.' ∧ b.char = '.' ∧ c.char = '.' then some .finish
        else none
      else none
  | _ => none

end RouterCalldata.Yaml
