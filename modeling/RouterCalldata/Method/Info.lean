import RouterCalldata.Selector

/-!
# What a method table holds

A router serves a closed table of methods.  An entry gives the selector, the
name and the signature of a method, and says whether its name speaks of native
currency going in or coming out.

## Main definitions

* `MethodInfo`: an entry of a table;
* `MethodInfo.display`: an entry as it is listed.
-/

namespace RouterCalldata

/-- An entry of a method table. -/
structure MethodInfo where
  selector : Selector
  /-- The name shown to the user. -/
  name : String
  /-- The canonical signature, whose hash starts with the selector. -/
  signature : String
  /-- Valuation counts the method as taking native currency in.  For the
  methods that remove liquidity this is a convention and not the way funds
  move. -/
  ethIn : Bool
  /-- Valuation counts the method as paying native currency out. -/
  ethOut : Bool
  deriving DecidableEq, Repr

/-- The name with the selector behind it. -/
def MethodInfo.display (m : MethodInfo) : String :=
  s!"{m.name} (0x{m.selector.hex})"

end RouterCalldata
