import RouterCalldata.Version

/-!
# Router addresses

The main network's routers.  The address a transaction is sent to tells which
version its call is of, where it is one of these.

## Main definitions

* `v2Address`, `v3Address`, `v3Address02`: the three routers;
* `versionOf?`: the version served at an address.
-/

namespace RouterCalldata.Router

/-- The older router. -/
def v2Address : String := "0x7a250d5630b4cf539739df2c5dacb4c659f2488d"

/-- The newer router. -/
def v3Address : String := "0xe592427a0aece92de3edee1f18e0157c05861564"

/-- The newer router in its second edition. -/
def v3Address02 : String := "0x68b3465833fb72a70ecdf485e0e4c7bd8665fc45"

/-- The version served at an address, which may be written in any letter case
and with blanks around it. -/
def versionOf? (address : String) : Option Version :=
  let a := (Text.trim address).map Char.toLower
  if a = v2Address then some .v2
  else if a = v3Address ∨ a = v3Address02 then some .v3
  else none

end RouterCalldata.Router
