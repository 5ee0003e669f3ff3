import RouterCalldata.Method.V2
import RouterCalldata.Method.V3

/-!
# Methods of either router

## Main definitions

* `Method`: a method together with the router whose table lists it;
* `Method.table`: the methods of a version in table order;
* `Method.resolve`: looks a selector up in the table of a version.
-/

namespace RouterCalldata

/-- A method of one of the two routers. -/
inductive Method
  | v2 (method : V2Method)
  | v3 (method : V3Method)
  deriving DecidableEq, Repr

namespace Method

/-- The router whose table lists the method. -/
def version : Method → Version
  | v2 _ => .v2
  | v3 _ => .v3

/-- The table entry. -/
def info : Method → MethodInfo
  | v2 m => m.info
  | v3 m => m.info

/-- The selector. -/
def selector (m : Method) : Selector := m.info.selector

/-- The name. -/
def name (m : Method) : String := m.info.name

/-- The word that holds the offset of the array of calls, for the methods that
take one. -/
def headWord? : Method → Option Nat
  | v2 _ => none
  | v3 m => m.headWord?

/-- The methods of a version in table order. -/
def table : Version → List Method
  | .v2 => V2Method.all.map v2
  | .v3 => V3Method.all.map v3

/-- The method of a version that has a given selector. -/
def ofSelector? (version : Version) (s : Selector) : Option Method :=
  match version with
  | .v2 => (V2Method.ofSelector? s).map v2
  | .v3 => (V3Method.ofSelector? s).map v3

/-- Looks a selector up in the table of a version. -/
def resolve (version : Version) (s : Selector) : Decoded Method :=
  match ofSelector? version s with
  | some m => .ok m
  | none => .error (.unknownSelector s version)

/-- The fields of a method's parameter block. -/
def decode (m : Method) (params : Bytes) : Decoded SwapFields :=
  match m with
  | v2 m => m.decode params
  | v3 m => m.decode params

end Method

end RouterCalldata
