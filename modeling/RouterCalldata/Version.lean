import RouterCalldata.Text.Blank

/-!
# Router versions

The two generations of the router.  Each has its own table of methods, so a
call can only be read once its version is known.

## Main definitions

* `Version`: the two generations, with the `name` they are written by;
* `Version.ofText?`: reads a user's text in any letter case;
* `Version.ofLabel?`: reads the exact spellings a document may hold.
-/

namespace RouterCalldata

/-- A generation of the router. -/
inductive Version
  | v2
  | v3
  deriving DecidableEq, Repr

namespace Version

/-- Both versions, the older first. -/
def all : List Version := [v2, v3]

/-- The written name. -/
def name : Version → String
  | v2 => "V2"
  | v3 => "V3"

/-- Reads a version name in any letter case, with blanks around it or not. -/
def ofText? (s : String) : Option Version :=
  let t := (Text.trim s).map Char.toLower
  if t = "v2" then some v2 else if t = "v3" then some v3 else none

/-- Reads one of the exact spellings `V2`, `v2`, `V3` and `v3`. -/
def ofLabel? (s : String) : Option Version :=
  if s = "V2" ∨ s = "v2" then some v2
  else if s = "V3" ∨ s = "v3" then some v3
  else none

end Version

end RouterCalldata
