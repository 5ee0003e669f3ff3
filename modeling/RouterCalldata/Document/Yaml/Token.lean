import RouterCalldata.Document.Value
import RouterCalldata.Document.Yaml.Scalar

/-!
# Tokens of an indented text

A mapping shows by indentation alone: it begins with the first name that stands
further in than the names around it, and it ends in front of the first token
that stands further out.  The scanner puts a token where a mapping begins or
ends.

A scalar is a name if a colon follows it on its line and not too far away.  So a
scalar that stands where a name may stand is held back as a candidate until the
next token tells.  Where the indentation leaves room for nothing but a name, a
candidate that turns out to be none is refused.

## Main definitions

* `Token`: marks, scalars, and where mappings begin and end;
* `Candidate`, `Scanner`: a scalar that may be a name, and what the scanner knows
  between tokens;
* `tokens?`: the tokens of a text.
-/

namespace RouterCalldata.Yaml

/-- A token of an indented text. -/
inductive Token
  /-- A mapping begins. -/
  | openMapping
  | closeMapping
  /-- A name comes next. -/
  | name
  /-- A value comes next. -/
  | value
  | scalar (d : Document)
  | marker (m : Marker)

/-- A scalar that is a name if a colon follows. -/
structure Candidate where
  scalar : Document
  start : Glyph
  /-- Whether nothing but a name may stand there. -/
  required : Bool

namespace Candidate

/-- How far away a colon may be from the start of a name. -/
def maxLength : Nat := 1024

/-- Whether a colon would still make the candidate a name. -/
def reaches (c : Candidate) (g : Glyph) : Bool :=
  c.start.line == g.line && g.index ≤ c.start.index + maxLength

end Candidate

/-- What the scanner knows between tokens. -/
structure Scanner where
  /-- The tokens so far, last first. -/
  passed : List Token
  /-- How far the open mappings are indented, the innermost first. -/
  indents : List Nat
  /-- Whether a name may come next. -/
  nameAllowed : Bool
  candidate : Option Candidate

namespace Scanner

/-- The scanner in front of a text. -/
def initial : Scanner :=
  { passed := [], indents := [], nameAllowed := true, candidate := none }

/-- Adds a token. -/
def pass (s : Scanner) (t : Token) : Scanner := { s with passed := t :: s.passed }

/-- Lets go of a candidate, which is no name. -/
def settle? (s : Scanner) : Option Scanner :=
  match s.candidate with
  | none => some s
  | some c => if c.required then none else some { s.pass (.scalar c.scalar) with candidate := none }

/-- Lets go of a candidate from which a token is too far away. -/
def expire? (s : Scanner) (g : Glyph) : Option Scanner :=
  if s.candidate.all (·.reaches g) then some s else s.settle?

/-- Closes the mappings that are indented by more than `column`. -/
def dedent (s : Scanner) (column : Nat) : Scanner :=
  let inner := s.indents.takeWhile (column < ·)
  { s with
    passed := inner.map (fun _ => .closeMapping) ++ s.passed
    indents := s.indents.drop inner.length }

/-- Closes all mappings. -/
def dedentAll (s : Scanner) : Scanner :=
  { s with passed := s.indents.map (fun _ => .closeMapping) ++ s.passed, indents := [] }

/-- Opens a mapping for a name in `column`, unless it is open. -/
def indent (s : Scanner) (column : Nat) : Scanner :=
  if s.indents.head?.all (· < column) then
    { s.pass .openMapping with indents := column :: s.indents }
  else s

/-- By how many columns the further lines of a scalar have to be indented. -/
def innerIndent (s : Scanner) : Nat :=
  match s.indents with
  | [] => 0
  | n :: _ => n + 1

/-- Takes a scalar that starts at `start`; a name may come next if the scalar
ends behind a line end. -/
def scalar? (s : Scanner) (d : Document) (start : Glyph) (nameAllowed : Bool) : Option Scanner :=
  if s.nameAllowed then
    some { s with
      nameAllowed
      candidate := some { scalar := d, start, required := s.indents.head? == some start.column } }
  else if s.candidate.isSome then none
  else some { s.pass (.scalar d) with nameAllowed }

/-- Takes a colon in front of a value. -/
def colon? (s : Scanner) (g : Glyph) : Option Scanner :=
  match s.candidate with
  | some c =>
      let s := ((s.indent c.start.column).pass .name).pass (.scalar c.scalar)
      some { s.pass .value with candidate := none, nameAllowed := false }
  | none => if s.nameAllowed then some ((s.indent g.column).pass .value) else none

/-- Takes a question mark in front of a name. -/
def question? (s : Scanner) (g : Glyph) : Option Scanner :=
  if s.nameAllowed then some ((s.indent g.column).pass .name) else none

/-- Takes a marker between documents. -/
def marker (s : Scanner) (m : Marker) : Scanner :=
  { s.dedentAll.pass (.marker m) with nameAllowed := false }

/-- Characters that start something other than a plain scalar. -/
def indicators : List Char :=
  [',', '[', ']', '\x7b', '\x7d', '#', '&', '*', '!', '|', '>', '\'', '"', '%', '@', '\x60']

/-- Whether a plain scalar may start with a character in front of the rest of a
text. -/
def startsPlain (c : Char) (rest : List Glyph) : Bool :=
  if c = '-' ∨ c = '?' ∨ c = ':' then !endsWord rest
  else !(isBlank c || isBreak c || indicators.contains c)

/-- Takes the token that starts with `g` and goes on in `rest`. -/
def token? (s : Scanner) (g : Glyph) (rest : List Glyph) : Option (Scanner × List Glyph) :=
  match marker? (g :: rest) with
  | some m => (s.settle?).map fun s => (s.marker m, rest.drop 2)
  | none =>
      if g.char = ':' ∧ endsWord rest then (s.colon? g).map (·, rest)
      else if g.char = '?' ∧ endsWord rest then (s.question? g).map (·, rest)
      else if g.char = '\'' then
        (singleQuoted? .empty rest).bind fun (text, rest) =>
          (s.scalar? (.string text) g false).map (·, rest)
      else if g.char = '"' then
        (doubleQuoted? .empty rest).bind fun (text, rest) =>
          (s.scalar? (.string text) g false).map (·, rest)
      else if startsPlain g.char rest then
        (plainFrom? s.innerIndent (Draft.empty.push g.char) rest).bind fun (d, rest) =>
          (s.scalar? (.plain d.word) g d.gap.isBroken).map (·, rest)
      else none

/-- Taking a token leaves no more than there was behind its first character, so
scanning ends. -/
theorem length_le_of_token? {s t : Scanner} {g : Glyph} {gs rest : List Glyph}
    (h : s.token? g gs = some (t, rest)) : rest.length ≤ gs.length := by
  unfold token? at h
  split at h
  · obtain ⟨_, _, h⟩ := Option.map_eq_some_iff.1 h
    cases h
    simp
  · split at h
    · obtain ⟨_, _, h⟩ := Option.map_eq_some_iff.1 h
      cases h
      exact Nat.le_refl _
    split at h
    · obtain ⟨_, _, h⟩ := Option.map_eq_some_iff.1 h
      cases h
      exact Nat.le_refl _
    split at h
    · obtain ⟨⟨_, _⟩, hr, h⟩ := Option.bind_eq_some_iff.1 h
      obtain ⟨_, _, h⟩ := Option.map_eq_some_iff.1 h
      cases h
      exact length_le_of_singleQuoted? hr
    split at h
    · obtain ⟨⟨_, _⟩, hr, h⟩ := Option.bind_eq_some_iff.1 h
      obtain ⟨_, _, h⟩ := Option.map_eq_some_iff.1 h
      cases h
      exact length_le_of_doubleQuoted? hr
    split at h
    · obtain ⟨⟨_, _⟩, hr, h⟩ := Option.bind_eq_some_iff.1 h
      obtain ⟨_, _, h⟩ := Option.map_eq_some_iff.1 h
      cases h
      exact length_le_of_plainFrom? hr
    · cases h

/-- The tokens passed when the text ends here. -/
def finish? (s : Scanner) : Option (List Token) :=
  (s.settle?).map fun s => s.dedentAll.passed.reverse

/-- Scans a text to its end.  A tab may stand between tokens, but not where a
name may.  A byte-order mark between tokens is passed over, but the line goes on
in the next column. -/
def scan? (s : Scanner) : List Glyph → Option (List Token)
  | [] => s.finish?
  | g :: rest =>
      if g.char = ' ' ∨ (g.char = '\t' ∧ !s.nameAllowed) ∨ g.isByteOrderMark then s.scan? rest
      else if isBreak g.char then { s with nameAllowed := true }.scan? rest
      else if g.char = '#' then s.scan? (rest.dropWhile fun g => !isBreak g.char)
      else
        match s.expire? g with
        | none => none
        | some s =>
            match _h : (s.dedent g.column).token? g rest with
            | none => none
            | some (s, rest) => s.scan? rest
termination_by gs => gs.length
decreasing_by
  · simp
  · simp
  · exact Nat.lt_succ_of_le (List.dropWhile_suffix _).length_le
  · exact Nat.lt_succ_of_le (length_le_of_token? ‹_›)

end Scanner

/-- The tokens of a text. -/
def tokens? (s : String) : Option (List Token) :=
  (glyphs? s).bind Scanner.initial.scan?

end RouterCalldata.Yaml
