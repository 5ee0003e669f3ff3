import RouterCalldata.Proofs.Abi.Parameters
import RouterCalldata.Proofs.Decoder.Stamp

/-!
# Calls of the older router, encoded and decoded

Each of the seventeen methods has a signature, and each parameter of it a role: what the method
reports of its argument.  The layouts of the decoder are hand-made tables of words; each of them
is the layout of the signature, so what the decoder gives for a canonical call is what the
arguments report.

## Main definitions

* `V2Method.parameters`: the signature of a method, with the roles of its parameters;
* `V2Method.encodeCall`: the calldata of a call.

## Main results

* `V2Method.signature_eq`: the types are the ones that the method table lists;
* `V2Method.layout_eq_layoutOf`: the layout of a method is the layout of its signature;
* `V2Method.decode_encodeCall`: a canonical call decodes to one record, with the fields that its
  arguments report.
-/

namespace RouterCalldata.V2Method

open Abi

/-! ## Signatures -/

/-- The deadline, which no record tells. -/
def deadline : Parameter := .unread "uint256"

/-- An approval by signature, which no record tells. -/
def permit : List Parameter :=
  [.unread "bool", .unread "uint8", .unread "bytes32", .unread "bytes32"]

/-- The signature of a method, with what it reports of each argument. -/
def parameters : V2Method → List Parameter
  | swapExactTokensForTokens
  | swapExactTokensForETH
  | swapExactTokensForTokensSupportingFee
  | swapExactTokensForETHSupportingFee =>
      [.amount .amountIn, .amount .amountOutMin, .path, .account .recipient, deadline]
  | swapTokensForExactTokens
  | swapTokensForExactETH =>
      [.amount .amountOut, .amount .amountInMax, .path, .account .recipient, deadline]
  | swapExactETHForTokens
  | swapExactETHForTokensSupportingFee =>
      [.amount .amountOutMin, .path, .account .recipient, deadline]
  | swapETHForExactTokens => [.amount .amountOut, .path, .account .recipient, deadline]
  | addLiquidity =>
      [.account .tokenA, .account .tokenB, .amount .amountADesired, .amount .amountBDesired,
        .amount .amountAMin, .amount .amountBMin, .account .recipient, deadline]
  | addLiquidityETH =>
      [.account .tokenA, .amount .amountTokenDesired, .amount .amountTokenMin,
        .amount .amountEthMin, .account .recipient, deadline]
  | removeLiquidity => removePairParameters
  | removeLiquidityWithPermit => removePairParameters ++ permit
  | removeLiquidityETH
  | removeLiquidityETHSupportingFee => removeEthParameters
  | removeLiquidityETHWithPermit
  | removeLiquidityETHWithPermitSupportingFee => removeEthParameters ++ permit
where
  /-- What is common to the methods that give up the liquidity of a pair. -/
  removePairParameters : List Parameter :=
    [.account .tokenA, .account .tokenB, .amount .liquidity, .amount .amountAMin,
      .amount .amountBMin, .account .recipient, deadline]
  /-- What is common to the methods that give up liquidity for native
  currency.  Of the liquidity only the low ten bytes are told. -/
  removeEthParameters : List Parameter :=
    [.account .tokenA, .lowAmount .liquidity, .amount .amountTokenMin, .amount .amountEthMin,
      .account .recipient, deadline]

/-- The types of a method are those of the signature in the method table. -/
theorem signature_eq (m : V2Method) :
    m.info.signature =
      m.name.decapitalize ++ "(" ++ ",".intercalate (m.parameters.map Parameter.type) ++ ")" := by
  cases m <;> decide +kernel

/-- **The layout of a method is the layout of its signature.** -/
theorem layout_eq_layoutOf (m : V2Method) : m.layout = layoutOf m.parameters := by
  cases m <;> decide

/-! ## Calls -/

/-- The calldata of a call: the selector, and the canonical encoding of the
arguments. -/
def encodeCall (m : V2Method) (args : Arguments m.parameters) : Bytes :=
  m.selector.toBytes ++ components (encoded m.parameters args)

theorem multicall_ofSelector?_selector (m : V2Method) :
    Multicall.ofSelector? m.selector = none := by
  have hword : (Method.v2 m).headWord? = none := rfl
  exact Multicall.ofSelector?_selector_eq_none_iff.mpr hword

/-- **A canonical call decodes to what its arguments report.**  For each of the
seventeen methods and all arguments of its signature, the decoder gives one
record, of the version, with the id and the name of that method.  Its fields are
the ends of the path and the arguments that the method reports; no other field is
set.  The record bears the stamp of the transaction and belongs to no multicall.

The call is held in memory, so its length is a number of 64 bits. -/
theorem decode_encodeCall (d : Decoder) (tx : TxMetadata) (m : V2Method)
    (args : Arguments m.parameters) (hfit : (m.encodeCall args).length < Offset.limit) :
    m.info.signature =
        m.name.decapitalize ++ "(" ++ ",".intercalate (m.parameters.map Parameter.type) ++ ")" ∧
      ∃ r, d.decode .v2 tx (m.encodeCall args) = .ok [r] ∧
        r.version = .v2 ∧ r.methodId = m.selector.hex ∧ r.methodName = m.name ∧
        r.fields = reported m.parameters args ∧
        (∀ f, (∀ p ∈ m.parameters, f ∉ p.fields) → r.fields.value f = none) ∧
        r.HasStamp d tx ∧ r.value = none ∧ r.numberOfCalls = none ∧ r.callsData = [] := by
  have hparams : (components (encoded m.parameters args)).length < Offset.limit := by
    rw [encodeCall, List.length_append] at hfit
    exact Nat.lt_of_le_of_lt (Nat.le_add_left ..) hfit
  have hfields : m.decode (components (encoded m.parameters args)) =
      .ok (reported m.parameters args) := by
    rw [V2Method.decode, layout_eq_layoutOf, decode_layoutOf _ _ _ hparams]
  have hdecode := Decoder.decode_selector_append d tx (.v2 m)
    m.multicall_ofSelector?_selector hfields
  exact ⟨m.signature_eq, _, hdecode, rfl, rfl, rfl, rfl,
    fun f hf => value_reported_eq_none hf args, ⟨rfl, rfl, rfl, rfl⟩, rfl, rfl, rfl⟩

/-- The arguments of a swap along three tokens. -/
def threeTokens : Arguments swapExactTokensForTokens.parameters :=
  (⟨1000, by decide⟩, ⟨990, by decide⟩, ⟨[account 1, account 2, account 3], Nat.le_add_left 2 1⟩,
    account 4, .ofNat 1700000000, ())
where
  account (b : UInt8) : Address := ⟨List.replicate addressSize b, List.length_replicate ..⟩

theorem decode_encodeCall_threeTokens :
    (swapExactTokensForTokens.encodeCall threeTokens).length < Offset.limit ∧
      ∃ r, Decoder.default.decode .v2 (.ofCall "hash" "router")
          (swapExactTokensForTokens.encodeCall threeTokens) = .ok [r] ∧
        r.version = .v2 ∧ r.methodId = "38ed1739" ∧ r.methodName = "SwapExactTokensForTokens" ∧
        r.fields.toList =
          [(.amountIn, "1000"), (.amountOutMin, "990"),
            (.tokenPathFrom, "0x0101010101010101010101010101010101010101"),
            (.tokenPathTo, "0x0303030303030303030303030303030303030303"),
            (.recipient, "0x0404040404040404040404040404040404040404")] ∧
        r.txHash = "hash" ∧ r.toAddress = "router" ∧ r.txValue = "0" ∧
        r.exchange = "Uniswap" := by
  have hfit : (swapExactTokensForTokens.encodeCall threeTokens).length < Offset.limit := by
    decide +kernel
  obtain ⟨-, r, hdecode, hversion, hid, hname, hfields, -, hstamp, -⟩ :=
    decode_encodeCall .default (.ofCall "hash" "router") _ threeTokens hfit
  refine ⟨hfit, r, hdecode, hversion, hid, hname, ?_, hstamp.txHash_eq, hstamp.toAddress_eq,
    hstamp.txValue_eq, hstamp.exchange_eq⟩
  rw [hfields]
  rfl

end RouterCalldata.V2Method
