import RouterCalldata.Document.Plain

/-!
# Documents

Configuration, transactions and records are exchanged as documents: scalars,
arrays and objects.  An object is the list of its members as they were
written, repetitions included, so that a reader can refuse a member that is
given twice.

A scalar without quotes in an indented document has no type of its own; it is
`plain`, and what it means depends on what the reader asks for.  A value that
is well written but cannot be taken, such as half of a surrogate pair or a value
that is nested too deeply, is `unreadable`: it does no harm in a member that
nobody reads.

## Main definitions

* `Document`: the values;
* `resolved`: a scalar without quotes as what its spelling makes it;
* `asText?`, `asNat?`, `asBool?`, `asDouble?`, `asBytes?`: scalars by type;
* `members?`, `member?`: the members of an object by name;
* `required`, `optional`, `orElse`: members that have to be there, may be
  missing, or have a default;
* `isReadable`: whether a value can be taken as a whole.
-/

namespace RouterCalldata

/-- A document. -/
inductive Document
  | null
  | bool (b : Bool)
  | number (n : Numeral)
  | string (s : String)
  /-- A scalar that takes the type its reader asks for. -/
  | plain (s : String)
  | array (items : List Document)
  | object (members : List (String × Document))
  /-- An object whose members can be read by their names but which cannot be taken
  as a whole, because one of its names is a number that is too wide. -/
  | wideNamed (members : List (String × Document))
  /-- An object with a name that is no text.  It can be taken as a whole, but nothing
  in it can be read. -/
  | nameless
  /-- A value that cannot be taken: a scalar that denotes nothing, an object with
  such a name in it, or a value that is nested too deeply. -/
  | unreadable

namespace Document

/-! ## Scalars -/

/-- A scalar without quotes as what its spelling makes it, and any other document
unchanged. -/
def resolved : Document → Document
  | plain s =>
      match Plain.kind s with
      | .null => null
      | .bool b => bool b
      | .number n => number n
      | .wide => unreadable
      | .text => string s
  | d => d

/-- A text. -/
def asText? : Document → Option String
  | string s => some s
  | plain s => some s
  | _ => none

/-- A whole number of at most 64 bits. -/
def asNat? : Document → Option Nat
  | number (.nat n) => some n
  | plain s => Plain.nat? s
  | _ => none

/-- A truth value. -/
def asBool? : Document → Option Bool
  | bool b => some b
  | plain s => Plain.bool? s
  | _ => none

/-- A double; a whole number is rounded to one. -/
def asDouble? : Document → Option Double
  | number (.nat n) => some (Double.ofNat n)
  | number (.negative n) => some (Double.ofNat n).neg
  | number (.double x) => some x
  | plain s => Plain.double? s
  | _ => none

/-- A number of at most eight bits. -/
def asByte? (d : Document) : Option UInt8 := do
  let n ← d.asNat?
  if n < 256 then some (UInt8.ofNat n) else none

/-- The items of an array.  A value that is left out is an array without items. -/
def asArray? : Document → Option (List Document)
  | array items => some items
  | plain s => if s = "" then some [] else none
  | _ => none

/-- A byte string: hex text with nothing around it, or a list of bytes.  Hex
digits that spell a number are no text. -/
def asBytes? (d : Document) : Option Bytes :=
  match d.resolved with
  | string s => (Hex.parseExact s.toList).toOption
  | array items => items.mapM asByte?
  | _ => none

/-- Whether the document says that there is no value. -/
def isNull : Document → Bool
  | null => true
  | plain s => Plain.isNull s
  | _ => false

/-- A value that may be null. -/
def asOption? {α : Type} (read : Document → Option α) (d : Document) : Option (Option α) :=
  if d.isNull then some none else (read d).map some

/-- One of several named choices: its name, or an object that holds null under
that name. -/
def asChoice? : Document → Option String
  | string s => some s
  | plain s => some s
  | object [(name, null)] => some name
  | _ => none

/-! ## Objects -/

/-- The members of an object with fields `names`.  An array gives the values
of the first fields in order. -/
def members? (names : List String) : Document → Option (List (String × Document))
  | object members => some members
  | wideNamed members => some members
  | array items => if items.length ≤ names.length then some (names.zip items) else none
  | plain s => if s = "" then some [] else none
  | _ => none

/-- The entries of an object whose names are free. -/
def entries? : Document → Option (List (String × Document))
  | object members => some members
  | wideNamed members => some members
  | plain s => if s = "" then some [] else none
  | _ => none

/-- The value of the member `name`, where there is one.  Two members of that
name are refused. -/
def member? (members : List (String × Document)) (name : String) : Option (Option Document) :=
  match members.filter (·.1 == name) with
  | [] => some none
  | [(_, d)] => some (some d)
  | _ => none

/-- A member that has to be there. -/
def required {α : Type} (members : List (String × Document)) (name : String)
    (read : Document → Option α) : Option α := do
  (← member? members name).bind read

/-- A member that has the value `default` when it is missing. -/
def orElse {α : Type} (members : List (String × Document)) (name : String) (default : α)
    (read : Document → Option α) : Option α := do
  match ← member? members name with
  | some d => read d
  | none => some default

/-- A member that may be missing or null. -/
def optional {α : Type} (members : List (String × Document)) (name : String)
    (read : Document → Option α) : Option (Option α) :=
  orElse members name none (asOption? read)

/-- The member that shows an optional value, where it is set. -/
def shown {α : Type} (name : String) (value : Option α) (show' : α → Document) :
    List (String × Document) :=
  match value with
  | some v => [(name, show' v)]
  | none => []

/-! ## Readability -/

mutual

/-- Whether a value can be taken as a whole. -/
def isReadable : Document → Bool
  | array items => areReadable items
  | object members => haveReadable members
  | plain s => Plain.kind s != .wide
  | wideNamed _ => false
  | unreadable => false
  | _ => true

/-- Whether all items can be taken as a whole. -/
def areReadable : List Document → Bool
  | [] => true
  | d :: rest => isReadable d && areReadable rest

/-- Whether the values of all members can be taken as a whole. -/
def haveReadable : List (String × Document) → Bool
  | [] => true
  | (_, d) :: rest => isReadable d && haveReadable rest

end

end Document

end RouterCalldata
