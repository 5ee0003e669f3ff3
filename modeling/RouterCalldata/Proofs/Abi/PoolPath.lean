import RouterCalldata.Proofs.Abi.Encoding
import RouterCalldata.Proofs.Record.PackedPath

/-!
# Paths through pools

A swap goes from one token through one pool or more, each of them with a fee and a token behind it.
Such a path is written without padding, so where its last token stands depends on the number of
pools.

## Main definitions

* `FeeTier`: the fee of a pool;
* `PoolPath`: a token, and at least one pool;
* `PoolPath.bytes`: the written form;
* `PoolPath.fields`: what is told of a path, which lists the tokens from either end of the swap.

## Main results

* `PoolPath.ofBytes_bytes`: what is told of the written form;
* `readPackedPath_holdsAt`: a path is read from the buffer that holds it.
-/

namespace RouterCalldata

/-- Three bytes. -/
structure FeeTier where
  bytes : Bytes
  length_bytes : bytes.length = feeSize

/-- The written form of a fee. -/
def FeeTier.text (fee : FeeTier) : String := hexText fee.bytes

namespace Abi

/-- A token, and at least one pool that leads on to another token. -/
structure PoolPath where
  first : Address
  /-- The pools, each with its fee and the token behind it. -/
  pools : List (FeeTier × Address)
  pools_ne_nil : pools ≠ []

namespace PoolPath

/-- The bytes that a pool adds to a path. -/
def hop (pool : FeeTier × Address) : Bytes := pool.1.bytes ++ pool.2.bytes

@[simp] theorem length_hop (pool : FeeTier × Address) : (hop pool).length = hopSize := by
  rw [hop, List.length_append, pool.1.length_bytes, pool.2.length_bytes]
  rfl

theorem length_flatMap_hop (pools : List (FeeTier × Address)) :
    (pools.flatMap hop).length = hopSize * pools.length := by
  induction pools with
  | nil => rfl
  | cons pool pools ih =>
    rw [List.flatMap_cons, List.length_append, length_hop, ih, List.length_cons, Nat.mul_succ,
      Nat.add_comm]

variable (path : PoolPath)

/-- The token behind the last pool. -/
def last : Address := (path.pools.getLast path.pools_ne_nil).2

/-- The fee of the first pool. -/
def fee : FeeTier := (path.pools.head path.pools_ne_nil).1

/-- The written form: the first token, and the fee and the token of each pool. -/
def bytes : Bytes := path.first.bytes ++ path.pools.flatMap hop

/-- The ends of the swap and the first fee as fields.  A path that lists the bought
token first ends with the sold one. -/
def fields : PathOrder → SwapFields
  | .inputFirst => (SwapFields.ofPath path.first.text path.last.text).set .fee path.fee.text
  | .outputFirst => (SwapFields.ofPath path.last.text path.first.text).set .fee path.fee.text

/-- What is told of a path. -/
def packed : PackedPath where
  first := path.first.text
  last := path.last.text
  fee := path.fee.text
  hops := path.pools.length

theorem fields_packed (order : PathOrder) : path.packed.fields order = path.fields order := by
  cases order with
  | inputFirst => rfl
  | outputFirst => rfl

theorem length_bytes : path.bytes.length = addressSize + hopSize * path.pools.length := by
  rw [bytes, List.length_append, path.first.length_bytes, length_flatMap_hop]

theorem isPackedLength : IsPackedLength path.bytes.length :=
  isPackedLength_iff.mpr
    ⟨path.pools.length, List.length_pos_of_ne_nil path.pools_ne_nil, path.length_bytes⟩

/-! ## The parts of a path -/

/-- The first token is in front. -/
theorem take_bytes : path.bytes.take addressSize = path.first.bytes :=
  List.take_left' path.first.length_bytes

/-- The fee of the first pool is behind the first token. -/
theorem take_drop_bytes : (path.bytes.drop addressSize).take feeSize = path.fee.bytes := by
  have hsplit := List.cons_head_tail path.pools_ne_nil
  have hdrop : path.bytes.drop addressSize = path.pools.flatMap hop :=
    List.drop_left' path.first.length_bytes
  rw [hdrop, ← hsplit, List.flatMap_cons, hop, List.append_assoc]
  exact List.take_left' path.fee.length_bytes

/-- The last token is at the end, wherever that is. -/
theorem drop_bytes : path.bytes.drop (path.bytes.length - addressSize) = path.last.bytes := by
  obtain ⟨front, hfront⟩ : ∃ front, path.bytes = front ++ path.last.bytes := by
    have hsplit := List.dropLast_concat_getLast path.pools_ne_nil
    refine ⟨path.first.bytes ++ (path.pools.dropLast.flatMap hop ++
      (path.pools.getLast path.pools_ne_nil).1.bytes), ?_⟩
    have hpools : path.pools.flatMap hop = path.pools.dropLast.flatMap hop ++
        hop (path.pools.getLast path.pools_ne_nil) := by
      rw [← List.flatMap_singleton hop, ← List.flatMap_append, hsplit]
    rw [bytes, hpools, hop, last]
    simp only [List.append_assoc]
  have hlen : path.bytes.length - addressSize = front.length := by
    rw [hfront, List.length_append, path.last.length_bytes, Nat.add_sub_cancel]
  rw [hlen, hfront, List.drop_left]

/-- **What is told of the written form** is what there is to tell of the path. -/
theorem ofBytes_bytes : PackedPath.ofBytes path.bytes = path.packed := by
  have hhops : (path.bytes.length - addressSize) / hopSize = path.pools.length := by
    rw [path.length_bytes, Nat.add_sub_cancel_left]
    exact Nat.mul_div_cancel_left _ (by decide)
  rw [PackedPath.ofBytes, path.take_bytes, path.take_drop_bytes, path.drop_bytes, hhops]
  simp only [encode0x_eq_hexText]
  rfl

end PoolPath

/-- **A path is read from the buffer that holds it**, at any offset. -/
theorem readPackedPath_holdsAt {buf : Bytes} (hfit : buf.length < Offset.limit) {path : PoolPath}
    {offset : Nat} (h : buf.HoldsAt offset (bytes path.bytes).bytes) :
    readPackedPath buf offset = .ok path.packed := by
  have hpath : buf.HoldsAt (offset + wordSize) path.bytes := by
    have hbehind := h.right.left
    rwa [(Word.ofNat path.bytes.length).length_bytes] at hbehind
  have hle := hpath.length_le
  have hadd : Offset.checkedAdd offset wordSize = some (offset + wordSize) := if_pos (by omega)
  rw [readPackedPath_eq, h.left.readOffset (by omega) hfit, Decoded.ok_bind,
    if_pos path.isPackedLength]
  simp only [hadd, hpath.slice hfit, Decoded.ok_bind, path.ofBytes_bytes]

end Abi

end RouterCalldata
