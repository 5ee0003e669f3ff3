import RouterCalldata.Document.Value
import RouterCalldata.Number.Shortest

/-!
# Writing a JSON text

A document is written either on one line without blanks, or over several
lines, two blanks for each level.  In a text the quote, the backslash and the
control characters below the blank are escaped, and nothing else is.

## Main definitions

* `quoted`: a text between quotes;
* `Document.toJson`: the form on one line;
* `Document.toJsonLines`: the form over several lines.
-/

namespace RouterCalldata

namespace Json

/-- Four hex digits of a control character. -/
def unitDigits (c : Char) : List Char :=
  ['0', '0', Hex.digit (c.toNat / 16), Hex.digit (c.toNat % 16)]

/-- A character as it stands in a text. -/
def escape (c : Char) : List Char :=
  if c = '"' then ['\\', '"']
  else if c = '\\' then ['\\', '\\']
  else if c = '\n' then ['\\', 'n']
  else if c = '\r' then ['\\', 'r']
  else if c = '\t' then ['\\', 't']
  else if c.toNat = 8 then ['\\', 'b']
  else if c.toNat = 12 then ['\\', 'f']
  else if c.toNat < 0x20 then '\\' :: 'u' :: unitDigits c
  else [c]

/-- A text between quotes. -/
def quoted (s : String) : String :=
  "\"" ++ String.ofList (s.toList.flatMap escape) ++ "\""

/-- A number.  A double that is none is written as null. -/
def numeral : Numeral → String
  | .nat n => Nat.repr n
  | .negative n => "-" ++ Nat.repr n
  | .double x => if x.isFinite then x.text else "null"

end Json

namespace Document

mutual

/-- The JSON text of a document on one line. -/
def toJson : Document → String
  | null => "null"
  | bool true => "true"
  | bool false => "false"
  | number n => Json.numeral n
  | string s => Json.quoted s
  | plain s => Json.quoted s
  | array items => "[" ++ itemsToJson "" items ++ "]"
  | object members => "\x7b" ++ membersToJson "" members ++ "\x7d"
  | wideNamed members => "\x7b" ++ membersToJson "" members ++ "\x7d"
  | nameless => "null"
  | unreadable => "null"

/-- Items, `mark` standing in front of the first one. -/
def itemsToJson (mark : String) : List Document → String
  | [] => ""
  | d :: rest => mark ++ toJson d ++ itemsToJson "," rest

/-- Members, `mark` standing in front of the first one. -/
def membersToJson (mark : String) : List (String × Document) → String
  | [] => ""
  | (name, d) :: rest => mark ++ Json.quoted name ++ ":" ++ toJson d ++ membersToJson "," rest

end

/-- A line end and the blanks of a level. -/
def lineStart (level : Nat) : String :=
  "\n" ++ String.ofList (List.replicate (2 * level) ' ')

mutual

/-- The JSON text of a document over several lines, as it stands at a level. -/
def toJsonAt (level : Nat) : Document → String
  | array [] => "[]"
  | object [] => "\x7b\x7d"
  | wideNamed [] => "\x7b\x7d"
  | array (d :: items) =>
      "[" ++ itemsToJsonAt (level + 1) "" (d :: items) ++ lineStart level ++ "]"
  | object (m :: members) =>
      "\x7b" ++ membersToJsonAt (level + 1) "" (m :: members) ++ lineStart level ++ "\x7d"
  | wideNamed (m :: members) =>
      "\x7b" ++ membersToJsonAt (level + 1) "" (m :: members) ++ lineStart level ++ "\x7d"
  | null => "null"
  | bool b => toJson (bool b)
  | number n => Json.numeral n
  | string s => Json.quoted s
  | plain s => Json.quoted s
  | nameless => "null"
  | unreadable => "null"

/-- Items on lines of their own, `mark` ending the line before them. -/
def itemsToJsonAt (level : Nat) (mark : String) : List Document → String
  | [] => ""
  | d :: rest => mark ++ lineStart level ++ toJsonAt level d ++ itemsToJsonAt level "," rest

/-- Members on lines of their own, `mark` ending the line before them. -/
def membersToJsonAt (level : Nat) (mark : String) : List (String × Document) → String
  | [] => ""
  | (name, d) :: rest =>
      mark ++ lineStart level ++ Json.quoted name ++ ": " ++ toJsonAt level d ++
        membersToJsonAt level "," rest

end

/-- The JSON text of a document over several lines. -/
def toJsonLines (d : Document) : String := d.toJsonAt 0

end Document

end RouterCalldata
