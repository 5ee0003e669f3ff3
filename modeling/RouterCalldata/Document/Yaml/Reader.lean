import RouterCalldata.Document.Yaml.Token

/-!
# Reading an indented text

Configurations may be written as block mappings of YAML: one member a line, a
nested mapping on the lines below its name and further in.

The tokens are taken one by one by a machine that keeps a stack of the mappings
that are still open, and for each of them how far its last member has come.  A
name or a value that is left out is empty.

## Main definitions

* `Frame`, `Stage`, `Machine`: the open mappings and what has been read around
  them;
* `Machine.step`: takes one token;
* `Document.ofYaml?`: the document a text denotes.
-/

namespace RouterCalldata

namespace Yaml

/-- How far the last member of a mapping has come. -/
inductive Stage
  /-- It is complete. -/
  | complete
  /-- Its name comes next. -/
  | atName
  /-- Behind its name. -/
  | named (name : Document)
  /-- Its value comes next. -/
  | atValue (name : Document)

/-- A mapping that is still open. -/
structure Frame where
  /-- The complete members, last first. -/
  members : List (String × Document)
  /-- Whether all names so far are scalars. -/
  named : Bool
  /-- Whether all names so far can be taken by their spelling. -/
  readable : Bool
  stage : Stage

/-- What has been read outside of all mappings. -/
inductive Outside
  | nothing
  /-- The marker in front of a document. -/
  | started
  | document (d : Document)

/-- The open mappings, the innermost first, and what has been read around
them. -/
structure Machine where
  stack : List Frame
  outside : Outside

/-- The greatest number of mappings inside each other that can be taken. -/
def maxDepth : Nat := 128

/-- A name or a value that is left out. -/
def missing : Document := .plain ""

namespace Frame

/-- A mapping without members. -/
def empty : Frame := { members := [], named := true, readable := true, stage := .complete }

/-- Adds a member. -/
def add (f : Frame) (name value : Document) : Frame :=
  { members := (name.asText?.getD "", value) :: f.members
    named := f.named && name.asText?.isSome
    readable := f.readable && name.isReadable
    stage := .complete }

/-- Completes the last member with what is left out. -/
def complete (f : Frame) : Frame :=
  match f.stage with
  | .complete => f
  | .atName => f.add missing missing
  | .named name => f.add name missing
  | .atValue name => f.add name missing

/-- Takes a document as a name or as a value. -/
def take? (f : Frame) (d : Document) : Option Frame :=
  match f.stage with
  | .atName => some { f with stage := .named d }
  | .atValue name => some (f.add name d)
  | _ => none

/-- Takes the mark of a value. -/
def value? (f : Frame) : Option Frame :=
  match f.stage with
  | .atName => some { f with stage := .atValue missing }
  | .named name => some { f with stage := .atValue name }
  | _ => none

/-- The document of a mapping whose last member is complete, with `depth` mappings
around it. -/
def close (f : Frame) (depth : Nat) : Document :=
  if maxDepth ≤ depth then .unreadable
  else if f.named then
    if f.readable then .object f.members.reverse else .wideNamed f.members.reverse
  else if f.readable && Document.haveReadable f.members then .nameless
  else .unreadable

end Frame

namespace Machine

/-- The machine in front of a text. -/
def initial : Machine := ⟨[], .nothing⟩

/-- Puts a complete document where it belongs. -/
def deliver? (m : Machine) (d : Document) : Option Machine :=
  match m.stack, m.outside with
  | f :: rest, outside => (f.take? d).map fun f => ⟨f :: rest, outside⟩
  | [], .document _ => none
  | [], _ => some ⟨[], .document d⟩

/-- Takes a marker between documents; there is no more than one document. -/
def marker? (m : Machine) : Marker → Option Machine
  | .start =>
      match m.outside with
      | .nothing => some ⟨[], .started⟩
      | _ => none
  | .finish =>
      match m.outside with
      | .nothing => none
      | .started => some ⟨[], .document missing⟩
      | .document d => some ⟨[], .document d⟩

/-- Takes one token. -/
def step (m : Machine) (t : Token) : Option Machine :=
  match t, m.stack with
  | .scalar d, _ => m.deliver? d
  | .openMapping, stack => some { m with stack := .empty :: stack }
  | .closeMapping, f :: rest => deliver? { m with stack := rest } (f.complete.close rest.length)
  | .name, f :: rest => some { m with stack := { f.complete with stage := .atName } :: rest }
  | .value, f :: rest => (f.value?).map fun f => { m with stack := f :: rest }
  | .marker k, [] => m.marker? k
  | _, _ => none

/-- The document that has been read when the text ends. -/
def finish (m : Machine) : Document :=
  match m.outside with
  | .document d => d
  | _ => missing

end Machine

end Yaml

/-- The document an indented text denotes. -/
def Document.ofYaml? (s : String) : Option Document := do
  let m ← (← Yaml.tokens? s).foldlM Yaml.Machine.step .initial
  return m.finish

end RouterCalldata
