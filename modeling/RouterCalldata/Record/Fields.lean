/-!
# The fields of a call

A decoded call is a small set of named texts: amounts as decimal numerals,
addresses and fees in hex.  Which of them are set depends on the method.

## Main definitions

* `Field`: the eighteen fields a call may set;
* `Field.name`, `Field.ofName?`: the name of a field and the field of a name;
* `SwapFields`: an optional text for each field.
-/

namespace RouterCalldata

/-- The fields a call may set. -/
inductive Field
  | amountIn
  | amountOutMin
  | amountOut
  | amountInMax
  | tokenPathFrom
  | tokenPathTo
  | recipient
  | fee
  | tokenA
  | tokenB
  | amountADesired
  | amountBDesired
  | amountAMin
  | amountBMin
  | amountTokenDesired
  | amountTokenMin
  | amountEthMin
  | liquidity
  deriving DecidableEq, Repr

namespace Field

/-- All fields in the order in which a document lists them. -/
def all : List Field :=
  [amountIn, amountOutMin, amountOut, amountInMax, tokenPathFrom, tokenPathTo, recipient, fee,
    tokenA, tokenB, amountADesired, amountBDesired, amountAMin, amountBMin, amountTokenDesired,
    amountTokenMin, amountEthMin, liquidity]

theorem mem_all (f : Field) : f ∈ all := by
  cases f <;> decide

/-- The name a document uses. -/
def name : Field → String
  | amountIn => "amount_in"
  | amountOutMin => "amount_out_min"
  | amountOut => "amount_out"
  | amountInMax => "amount_in_max"
  | tokenPathFrom => "token_path_from"
  | tokenPathTo => "token_path_to"
  | recipient => "recipient"
  | fee => "fee"
  | tokenA => "token_a"
  | tokenB => "token_b"
  | amountADesired => "amount_a_desired"
  | amountBDesired => "amount_b_desired"
  | amountAMin => "amount_a_min"
  | amountBMin => "amount_b_min"
  | amountTokenDesired => "amount_token_desired"
  | amountTokenMin => "amount_token_min"
  | amountEthMin => "amount_eth_min"
  | liquidity => "liquidity"

/-- The field that a look-up takes under a given name. -/
def ofName? : String → Option Field
  | "amount_in" => some amountIn
  | "amount_out_min" => some amountOutMin
  | "amount_out" => some amountOut
  | "amount_in_max" => some amountInMax
  | "token_path_from" => some tokenPathFrom
  | "token_path_to" => some tokenPathTo
  | "recipient" => some recipient
  | "fee" => some fee
  | "token_a" => some tokenA
  | "token_b" => some tokenB
  | "amount_a_desired" => some amountADesired
  | "amount_b_desired" => some amountBDesired
  | "amount_a_min" => some amountAMin
  | "amount_b_min" => some amountBMin
  | "amount_token_desired" => some amountTokenDesired
  | "amount_token_min" => some amountTokenMin
  | "amount_eth_min" => some amountEthMin
  | "liquidity" => some liquidity
  | _ => none

end Field

/-- An optional text for each field. -/
@[ext] structure SwapFields where
  /-- The text of a field, where it is set. -/
  value : Field → Option String

namespace SwapFields

instance : DecidableEq SwapFields := fun a b =>
  decidable_of_iff (∀ f ∈ Field.all, a.value f = b.value f)
    ⟨fun h => SwapFields.ext (funext fun f => h f (Field.mem_all f)), fun h _ _ => h ▸ rfl⟩

/-- No field is set. -/
def empty : SwapFields := ⟨fun _ => none⟩

/-- Sets one field. -/
def set (fs : SwapFields) (f : Field) (text : String) : SwapFields :=
  ⟨fun g => if g = f then some text else fs.value g⟩

@[simp] theorem value_empty (f : Field) : empty.value f = none := rfl

@[simp] theorem value_set (fs : SwapFields) (f g : Field) (text : String) :
    (fs.set f text).value g = if g = f then some text else fs.value g := rfl

/-- The text of the field of a given name. -/
def get? (fs : SwapFields) (name : String) : Option String :=
  (Field.ofName? name).bind fs.value

/-- The set fields with their texts, in listing order. -/
def toList (fs : SwapFields) : List (Field × String) :=
  Field.all.filterMap fun f => (fs.value f).map (f, ·)

/-- Whether no field is set. -/
def isEmpty (fs : SwapFields) : Bool :=
  Field.all.all fun f => (fs.value f).isNone

end SwapFields

end RouterCalldata
