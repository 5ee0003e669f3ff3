import RouterCalldata.Document.Value

/-!
# Tokens of a JSON text

The text is read character by character.  Between tokens the scanner is
`idle`; otherwise it is inside a word, a number or a quoted text.

A text may name its characters by UTF-16 code units.  Two halves of a pair
that follow each other make one character; a half on its own is well written
but leaves the text without a value.

## Main definitions

* `Token`: brackets, separators, scalars and texts;
* `Scan`: what the scanner is inside of;
* `joinHalves`: the characters that written units stand for;
* `tokens?`: the tokens of a text.
-/

namespace RouterCalldata.Json

/-- A token of a JSON text. -/
inductive Token
  | openArray
  | closeArray
  | openObject
  | closeObject
  | comma
  | colon
  | scalar (d : Document)
  /-- A quoted text, which has no value if it holds half of a pair. -/
  | text (s : Option String)

/-- A written unit of a text: a character, or half of a surrogate pair. -/
inductive Piece
  | char (c : Char)
  | half (unit : Nat)
  deriving DecidableEq, Repr

/-- The unit that four hex digits name. -/
def Piece.ofUnit (unit : Nat) : Piece :=
  if 0xd800 ≤ unit ∧ unit < 0xe000 then .half unit else .char (Char.ofNat unit)

/-- The characters that written units stand for, if no half is alone. -/
def joinHalves : List Piece → Option (List Char)
  | [] => some []
  | .char c :: rest => (joinHalves rest).map (c :: ·)
  | .half high :: .half low :: rest =>
      if high < 0xdc00 ∧ 0xdc00 ≤ low then
        (joinHalves rest).map
          (Char.ofNat (0x10000 + (high - 0xd800) * 0x400 + (low - 0xdc00)) :: ·)
      else none
  | .half _ :: _ => none

/-- What the scanner is inside of; what it has passed there is kept last
first. -/
inductive Scan
  | idle
  | word (seen : List Char)
  | number (seen : List Char)
  | text (seen : List Piece)
  /-- Behind a backslash in a text. -/
  | escape (seen : List Piece)
  /-- Inside the four digits of a unit. -/
  | unit (seen : List Piece) (digits : List Nat)

/-- The scanner: the tokens it has passed, last first, and where it is. -/
structure Scanner where
  passed : List Token
  scan : Scan

/-- The scalar that a word names. -/
def word? (s : List Char) : Option Document :=
  if s = ['n', 'u', 'l', 'l'] then some .null
  else if s = ['t', 'r', 'u', 'e'] then some (.bool true)
  else if s = ['f', 'a', 'l', 's', 'e'] then some (.bool false)
  else none

/-- The scalar that a number literal denotes. -/
def number? (cs : List Char) : Option Document := do
  let literal ← Literal.ofChars? cs
  match literal.value? with
  | some n => return .number n
  | none => return .unreadable

/-- The character a one-letter escape stands for. -/
def escaped? : Char → Option Char
  | '"' => some '"'
  | '\\' => some '\\'
  | '/' => some '/'
  | 'b' => some (Char.ofNat 8)
  | 'f' => some (Char.ofNat 12)
  | 'n' => some '\n'
  | 'r' => some '\r'
  | 't' => some '\t'
  | _ => none

/-- Whether a number literal may go on with the character. -/
def continuesNumber (c : Char) : Bool :=
  c.isDigit || c == '+' || c == '-' || c == '.' || c == 'e' || c == 'E'

/-- Reads the first character of a token, or a blank between tokens. -/
def start (passed : List Token) (c : Char) : Option Scanner :=
  if c = ' ' ∨ c = '\n' ∨ c = '\t' ∨ c = '\r' then some ⟨passed, .idle⟩
  else if c = '[' then some ⟨.openArray :: passed, .idle⟩
  else if c = ']' then some ⟨.closeArray :: passed, .idle⟩
  else if c = '\x7b' then some ⟨.openObject :: passed, .idle⟩
  else if c = '\x7d' then some ⟨.closeObject :: passed, .idle⟩
  else if c = ',' then some ⟨.comma :: passed, .idle⟩
  else if c = ':' then some ⟨.colon :: passed, .idle⟩
  else if c = '"' then some ⟨passed, .text []⟩
  else if c = '-' ∨ c.isDigit then some ⟨passed, .number [c]⟩
  else if c.isAlpha then some ⟨passed, .word [c]⟩
  else none

/-- The text whose units have been passed. -/
def textToken (seen : List Piece) : Token :=
  .text ((joinHalves seen.reverse).map String.ofList)

/-- Reads one character. -/
def Scanner.step (s : Scanner) (c : Char) : Option Scanner :=
  match s.scan with
  | .idle => start s.passed c
  | .word seen =>
      if c.isAlpha then some { s with scan := .word (c :: seen) }
      else do start (.scalar (← word? seen.reverse) :: s.passed) c
  | .number seen =>
      if continuesNumber c then some { s with scan := .number (c :: seen) }
      else do start (.scalar (← number? seen.reverse) :: s.passed) c
  | .text seen =>
      if c = '"' then some ⟨textToken seen :: s.passed, .idle⟩
      else if c = '\\' then some { s with scan := .escape seen }
      else if c.toNat < 0x20 then none
      else some { s with scan := .text (.char c :: seen) }
  | .escape seen =>
      if c = 'u' then some { s with scan := .unit seen [] }
      else do return { s with scan := .text (.char (← escaped? c) :: seen) }
  | .unit seen digits => do
      let digits := (← Hex.charValue? c) :: digits
      if digits.length < 4 then return { s with scan := .unit seen digits }
      let unit := digits.foldr (fun d n => 16 * n + d) 0
      return { s with scan := .text (Piece.ofUnit unit :: seen) }

/-- The tokens passed when the text ends here, last first. -/
def Scanner.finish (s : Scanner) : Option (List Token) :=
  match s.scan with
  | .idle => some s.passed
  | .word seen => do return .scalar (← word? seen.reverse) :: s.passed
  | .number seen => do return .scalar (← number? seen.reverse) :: s.passed
  | _ => none

/-- The tokens of a text. -/
def tokens? (cs : List Char) : Option (List Token) := do
  let s ← cs.foldlM Scanner.step { passed := [], scan := .idle }
  return (← s.finish).reverse

end RouterCalldata.Json
