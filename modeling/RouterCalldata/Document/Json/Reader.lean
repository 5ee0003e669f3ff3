import RouterCalldata.Document.Json.Token

/-!
# Reading a JSON text

The tokens are taken one by one by a machine that keeps a stack of the arrays
and objects that are still open, and what it has to see next.

## Main definitions

* `Frame`, `Expect`, `Machine`: the open containers and what comes next;
* `Machine.step`: takes one token;
* `Document.ofJson?`: the document a text denotes.
-/

namespace RouterCalldata

namespace Json

/-- A container that is still open, its contents last first. -/
inductive Frame
  | array (items : List Document)
  /-- An object, the name whose value is awaited, and whether all names so far
  have a value. -/
  | object (members : List (String × Document)) (name : String) (readable : Bool)

/-- What the machine has to see next. -/
inductive Expect
  | value
  /-- Behind an opening bracket: an item, or the end of the array. -/
  | firstItem
  | name
  /-- Behind an opening brace: a name, or the end of the object. -/
  | firstName
  | colon
  /-- Behind an item or a member: a comma, or the end of the container. -/
  | more
  /-- The document is complete. -/
  | nothing (d : Document)

/-- The open containers, the innermost first, and what has to come next. -/
structure Machine where
  stack : List Frame
  expect : Expect

/-- The greatest number of containers inside each other that can be taken. -/
def maxDepth : Nat := 127

namespace Machine

/-- Puts a complete value where it belongs. -/
def deliver (stack : List Frame) (d : Document) : Machine :=
  match stack with
  | [] => ⟨[], .nothing d⟩
  | .array items :: rest => ⟨.array (d :: items) :: rest, .more⟩
  | .object members name readable :: rest =>
      ⟨.object ((name, d) :: members) name readable :: rest, .more⟩

/-- Takes a token where a value has to come. -/
def value? (stack : List Frame) : Token → Option Machine
  | .scalar d => some (deliver stack d)
  | .text (some s) => some (deliver stack (.string s))
  | .text none => some (deliver stack .unreadable)
  | .openArray => some ⟨.array [] :: stack, .firstItem⟩
  | .openObject => some ⟨.object [] "" true :: stack, .firstName⟩
  | _ => none

/-- Takes a member's name. -/
def name? : List Frame → Token → Option Machine
  | .object members _ readable :: rest, .text (some s) =>
      some ⟨.object members s readable :: rest, .colon⟩
  -- A name without a value makes the whole object unreadable once it is closed.
  | .object members _ _ :: rest, .text none => some ⟨.object members "" false :: rest, .colon⟩
  | _, _ => none

/-- Delivers a container that has been closed, with the containers around it. -/
def deliverContainer (stack : List Frame) (d : Document) : Machine :=
  deliver stack (if stack.length < maxDepth then d else .unreadable)

/-- Closes the innermost container. -/
def close? : List Frame → Token → Option Machine
  | .array items :: rest, .closeArray => some (deliverContainer rest (.array items.reverse))
  | .object members _ readable :: rest, .closeObject =>
      some (deliverContainer rest (if readable then .object members.reverse else .unreadable))
  | _, _ => none

/-- Takes a comma between items or members. -/
def comma? : List Frame → Option Machine
  | [] => none
  | .array items :: rest => some ⟨.array items :: rest, .value⟩
  | .object members name readable :: rest => some ⟨.object members name readable :: rest, .name⟩

/-- Takes one token. -/
def step (m : Machine) (t : Token) : Option Machine :=
  match m.expect with
  | .value => value? m.stack t
  | .firstItem => (close? m.stack t).or (value? m.stack t)
  | .name => name? m.stack t
  | .firstName => (close? m.stack t).or (name? m.stack t)
  | .colon =>
      match t with
      | .colon => some { m with expect := .value }
      | _ => none
  | .more =>
      match t with
      | .comma => comma? m.stack
      | t => close? m.stack t
  | .nothing _ => none

end Machine

end Json

/-- The document a JSON text denotes. -/
def Document.ofJson? (s : String) : Option Document := do
  let m ← (← Json.tokens? s.toList).foldlM Json.Machine.step { stack := [], expect := .value }
  match m.expect with
  | .nothing d => return d
  | _ => none

end RouterCalldata
