import Mathlib.Data.List.Basic
import RouterCalldata.Proofs.Decoder.Calls
import RouterCalldata.Proofs.Multicall.Splitting

/-!
# Trees of calls

A call tree is a plain call or a multicall of call trees.  Decoding the canonical encoding of a
tree gives the records of its plain calls from left to right, each with the number of calls of the
multicall that it stands in directly, or refuses the tree for being too high.

The proof goes down the tree.  At the depth `depth` a tree is refused exactly if its height takes
it beyond the limit, and every tree that is refused is refused for the same reason, so that it
does not matter which of the calls of a multicall fails first.  The length of the encoding bounds
the depth, since a call is shorter than the multicall around it.

## Main definitions

* `PlainCall`, `CallTree`: the calls at the leaves, and the trees;
* `CallTree.encode`, `CallTree.height`, `CallTree.records`: the calldata of a tree, how deep its
  multicalls are nested, and the records of its leaves;
* `CallTree.outcome`: what a tree decodes to at a given depth.

## Main results

* `CallTree.decodeAtDepth_node`: one step, from the calls of a multicall to the multicall;
* `CallTree.decodeAtDepth_encode`: the outcome of every tree at every depth;
* `CallTree.decode_encode`: the outcome of a multicall.
-/

namespace RouterCalldata

/-- Calldata that is no multicall and decodes to one record. -/
structure PlainCall (d : Decoder) (tx : TxMetadata) where
  calldata : Bytes
  record : SwapRecord
  not_isMulticall : ¬ IsMulticall calldata
  decode_eq : d.decode .v3 tx calldata = .ok [record]

/-- A plain call, or a multicall of any calls, with or without a word in front
of them. -/
inductive CallTree (d : Decoder) (tx : TxMetadata)
  | leaf (call : PlainCall d tx)
  | node (first? : Option Word) (calls : List (CallTree d tx))

variable {d : Decoder} {tx : TxMetadata}

/-- The record of a plain call says nothing about a multicall. -/
theorem PlainCall.numberOfCalls_eq_none (call : PlainCall d tx) :
    call.record.numberOfCalls = none := by
  have hdecode := call.decode_eq
  rw [Decoder.decode] at hdecode
  rcases Call.read_of_not_isMulticall .v3 call.not_isMulticall with ⟨e, hread⟩ | ⟨m, params, hread⟩
  · rw [Decoder.decodeAtDepth_error hread] at hdecode
    cases hdecode
  · rw [Decoder.decodeAtDepth_plain hread, Decoder.record] at hdecode
    obtain ⟨record, hrecord, hsingle⟩ := Decoded.bind_eq_ok_iff.mp hdecode
    obtain ⟨fields, -, hfields⟩ := Decoded.bind_eq_ok_iff.mp hrecord
    obtain rfl := Except.ok.inj hfields
    rw [← List.head_eq_of_cons_eq (Except.ok.inj hsingle)]
    rfl

namespace CallTree

/-- Induction over trees: a multicall may use what holds of its calls. -/
@[elab_as_elim, induction_eliminator]
theorem induction {motive : CallTree d tx → Prop} (leaf : ∀ call, motive (leaf call))
    (node : ∀ first? calls, (∀ t ∈ calls, motive t) → motive (node first? calls)) :
    ∀ t, motive t
  | .leaf call => leaf call
  | .node first? calls => node first? calls fun t _ => induction leaf node t

/-! ## The parts of a tree -/

mutual

/-- The canonical calldata of a tree. -/
def encode : CallTree d tx → Bytes
  | leaf call => call.calldata
  | node first? calls => Multicall.encode first? (encodeAll calls)

/-- The canonical calldata of each tree of a list. -/
def encodeAll : List (CallTree d tx) → List Bytes
  | [] => []
  | t :: ts => encode t :: encodeAll ts

end

mutual

/-- How many multicalls are nested inside one another. -/
def height : CallTree d tx → Nat
  | leaf _ => 0
  | node _ calls => heightAll calls + 1

/-- The greatest height of a list of trees. -/
def heightAll : List (CallTree d tx) → Nat
  | [] => 0
  | t :: ts => max (height t) (heightAll ts)

end

mutual

/-- The records of the leaves of a tree, from left to right.  Each tells of how
many calls it is one: as many as the multicall has that it stands in directly,
or `siblings?` if it stands in none of the tree. -/
def records (siblings? : Option Nat) : CallTree d tx → List SwapRecord
  | leaf call => [{ call.record with numberOfCalls := siblings? }]
  | node _ calls => recordsAll (some calls.length) calls

/-- The records of the leaves of a list of trees. -/
def recordsAll (siblings? : Option Nat) : List (CallTree d tx) → List SwapRecord
  | [] => []
  | t :: ts => records siblings? t ++ recordsAll siblings? ts

end

/-- What a tree decodes to inside `depth` multicalls. -/
def outcome (depth : Nat) (t : CallTree d tx) : Decoded (List SwapRecord) :=
  if depth + t.height ≤ d.maxMulticallDepth then .ok (t.records none)
  else .error d.depthError

theorem encodeAll_eq_map (ts : List (CallTree d tx)) : encodeAll ts = ts.map encode := by
  induction ts with
  | nil => rfl
  | cons t ts ih => rw [encodeAll, ih, List.map_cons]

theorem recordsAll_eq_flatMap (siblings? : Option Nat) (ts : List (CallTree d tx)) :
    recordsAll siblings? ts = ts.flatMap (records siblings?) := by
  induction ts with
  | nil => rfl
  | cons t ts ih => rw [recordsAll, ih, List.flatMap_cons]

theorem heightAll_le_iff {ts : List (CallTree d tx)} {n : Nat} :
    heightAll ts ≤ n ↔ ∀ t ∈ ts, t.height ≤ n := by
  induction ts with
  | nil => simp [heightAll]
  | cons t ts ih => rw [heightAll, Nat.max_le, ih, List.forall_mem_cons]

/-- The multicall has its place at depth `depth`, and so have its calls one
level further in. -/
theorem add_height_node_le_iff {first? : Option Word} {calls : List (CallTree d tx)}
    {depth limit : Nat} :
    depth + (node first? calls).height ≤ limit ↔
      depth < limit ∧ ∀ t ∈ calls, depth + 1 + t.height ≤ limit := by
  have hall : heightAll calls ≤ limit - (depth + 1) ↔
      ∀ t ∈ calls, t.height ≤ limit - (depth + 1) := heightAll_le_iff
  rw [height]
  constructor
  · intro h
    refine ⟨by omega, ?_⟩
    intro t ht
    have hle := hall.mp (by omega) t ht
    omega
  · rintro ⟨hlt, hle⟩
    have hmax := hall.mpr fun t ht => by
      have := hle t ht
      omega
    omega

/-! ## Counting calls -/

/-- Leaves that stand in a multicall of the tree have their number already. -/
theorem map_within_records_some (n k : Nat) (t : CallTree d tx) :
    (t.records (some n)).map (·.within k) = t.records (some n) := by
  induction t generalizing n with
  | leaf call => rfl
  | node first? calls ih =>
    rw [records, recordsAll_eq_flatMap, List.map_flatMap]
    apply List.flatMap_congr
    intro t ht
    exact ih t ht calls.length

/-- A tree on its own leaves its number to the multicall that it is put in. -/
theorem map_within_records_none (n : Nat) (t : CallTree d tx) :
    (t.records none).map (·.within n) = t.records (some n) := by
  cases t with
  | leaf call => rfl
  | node first? calls => exact map_within_records_some 0 n (node first? calls)

theorem map_within_flatten (n : Nat) (ts : List (CallTree d tx)) :
    (ts.map (records none)).flatten.map (·.within n) = recordsAll (some n) ts := by
  rw [← List.flatMap_def, List.map_flatMap, recordsAll_eq_flatMap]
  apply List.flatMap_congr
  intro t _
  exact map_within_records_none n t

/-! ## Decoding -/

variable {depth : Nat}

theorem read_encode (version : Version) (first? : Option Word) (calls : List (CallTree d tx)) :
    Call.read version (node first? calls).encode =
      .ok (.multicall (Multicall.method first?) (Multicall.headWord first?)
        (Multicall.encodeParams first? (calls.map encode))) := by
  rw [encode, encodeAll_eq_map, Multicall.encode]
  exact Call.read_multicall (Multicall.ofSelector?_method first?)

/-- **One step up the tree.**  If its calls have their outcome one level further
in, a multicall has its own. -/
theorem decodeAtDepth_node (version : Version) {first? : Option Word}
    {calls : List (CallTree d tx)} (hdepth : depth ≤ d.maxMulticallDepth)
    (hfit : depth + (node first? calls).encode.length < Offset.limit)
    (hcalls : depth < d.maxMulticallDepth → ∀ t ∈ calls,
      d.decodeAtDepth tx (depth + 1) .v3 t.encode = t.outcome (depth + 1)) :
    d.decodeAtDepth tx depth version (node first? calls).encode =
      (node first? calls).outcome depth := by
  have hread := read_encode version first? calls
  have hlen : (node first? calls).encode.length =
      4 + (Multicall.encodeParams first? (calls.map encode)).length := by
    rw [encode, encodeAll_eq_map, Multicall.encode, List.length_append]
    rfl
  rcases Nat.lt_or_ge depth d.maxMulticallDepth with hlt | hge
  · have hsplit := Multicall.split_encodeParams first? (calls.map encode) (by omega)
    rw [Decoder.decodeAtDepth_multicall hread hlt, hsplit, Decoded.ok_bind, List.mapM_map,
      List.length_map]
    by_cases hall : ∀ t ∈ calls, depth + 1 + t.height ≤ d.maxMulticallDepth
    · have hok : calls.mapM (d.decodeAtDepth tx (depth + 1) .v3 ∘ encode) =
          .ok (calls.map (records none)) := by
        apply Decoded.mapM_eq_ok
        intro t ht
        rw [Function.comp_apply, hcalls hlt t ht, outcome, if_pos (hall t ht)]
      rw [hok, Decoded.ok_bind, outcome, if_pos (add_height_node_le_iff.mpr ⟨hlt, hall⟩),
        map_within_flatten, records]
    · have hhigh : ¬ depth + (node first? calls).height ≤ d.maxMulticallDepth := by
        intro h
        exact hall (add_height_node_le_iff.mp h).2
      have herror : calls.mapM (d.decodeAtDepth tx (depth + 1) .v3 ∘ encode) =
          .error d.depthError := by
        apply Decoded.mapM_eq_error
        · intro t ht
          rw [Function.comp_apply, hcalls hlt t ht, outcome]
          split
          · exact Or.inl ⟨_, rfl⟩
          · exact Or.inr rfl
        · rw [Classical.not_forall] at hall
          obtain ⟨t, hall⟩ := hall
          obtain ⟨ht, hdeep⟩ := Classical.not_imp.mp hall
          refine ⟨t, ht, ?_⟩
          rw [Function.comp_apply, hcalls hlt t ht, outcome, if_neg hdeep]
      rw [herror, Decoded.error_bind, outcome, if_neg hhigh]
  · have hhigh : ¬ depth + (node first? calls).height ≤ d.maxMulticallDepth := by
      intro h
      exact Nat.not_lt.mpr hge (add_height_node_le_iff.mp h).1
    obtain rfl : depth = d.maxMulticallDepth := Nat.le_antisymm hdepth hge
    rw [Decoder.decodeAtDepth_limit hread (by omega), outcome, if_neg hhigh]

/-- A call is shorter than the multicall that it stands in. -/
theorem length_encode_lt (first? : Option Word) {calls : List (CallTree d tx)}
    {t : CallTree d tx} (ht : t ∈ calls) :
    t.encode.length < (node first? calls).encode.length := by
  rw [encode, encodeAll_eq_map]
  exact Multicall.length_lt_of_mem first? (List.mem_map_of_mem ht)

/-- **Every tree has its outcome at every depth.** -/
theorem decodeAtDepth_encode (t : CallTree d tx) (hdepth : depth ≤ d.maxMulticallDepth)
    (hfit : depth + t.encode.length < Offset.limit) :
    d.decodeAtDepth tx depth .v3 t.encode = t.outcome depth := by
  induction t generalizing depth with
  | leaf call =>
    have hrecord : { call.record with numberOfCalls := none } = call.record := by
      rw [← call.numberOfCalls_eq_none]
    have hdecode := call.decode_eq
    rw [Decoder.decode, Decoder.decodeAtDepth_of_not_isMulticall rfl call.not_isMulticall 0 depth]
      at hdecode
    rw [encode, hdecode, outcome, height, Nat.add_zero, if_pos hdepth, records, hrecord]
  | node first? calls ih =>
    apply decodeAtDepth_node .v3 hdepth hfit
    -- A call is one level further in, but shorter by at least as much.
    intro hlt t ht
    have hshort := length_encode_lt first? ht
    exact ih t ht hlt (by omega)

/-- **A multicall decodes to the records of its leaves**, from left to right, each
with the number of calls of the multicall directly around it, if its height is
within the limit; a higher one is refused.  This holds in both versions.

The calldata is held in memory, so its length is a number of 64 bits. -/
theorem decode_encode (version : Version) (first? : Option Word) (calls : List (CallTree d tx))
    (hfit : (node first? calls).encode.length < Offset.limit) :
    d.decode version tx (node first? calls).encode =
      if (node first? calls).height ≤ d.maxMulticallDepth then
        .ok ((node first? calls).records none)
      else .error d.depthError := by
  have hcalls : 0 < d.maxMulticallDepth → ∀ t ∈ calls,
      d.decodeAtDepth tx (0 + 1) .v3 t.encode = t.outcome (0 + 1) := by
    intro hlt t ht
    have hshort := length_encode_lt first? ht
    exact decodeAtDepth_encode t hlt (by omega)
  have hroot : d.decodeAtDepth tx 0 version (node first? calls).encode =
      (node first? calls).outcome 0 :=
    decodeAtDepth_node version (Nat.zero_le _) (by omega) hcalls
  rw [outcome, Nat.zero_add] at hroot
  exact hroot

/-- The call that takes no arguments. -/
def refund (d : Decoder) (tx : TxMetadata) : PlainCall d tx where
  calldata := V3Method.refundETH.selector.toBytes
  record := SwapRecord.ofMethod tx d.exchange (.v3 .refundETH) .empty
  not_isMulticall := by decide
  decode_eq := by
    have hread : Call.read .v3 V3Method.refundETH.selector.toBytes =
        .ok (.plain (.v3 .refundETH) []) := rfl
    rw [Decoder.decode, Decoder.decodeAtDepth_plain hread]
    rfl

/-- A plain call, a multicall of no calls, and a multicall of two. -/
def mixedCalls (d : Decoder) (tx : TxMetadata) : List (CallTree d tx) :=
  [leaf (refund d tx), node none [],
    node (some (.ofNat 7)) [leaf (refund d tx), leaf (refund d tx)]]

theorem decode_encode_mixedCalls :
    let tx := TxMetadata.ofCall "hash" "router"
    let shallow := { Decoder.default with maxMulticallDepth := 1 }
    let call := (refund .default tx).record
    (node none (mixedCalls .default tx)).encode.length < Offset.limit ∧
      Decoder.default.decode .v2 tx (node none (mixedCalls .default tx)).encode =
        .ok [{ call with numberOfCalls := some 3 }, { call with numberOfCalls := some 2 },
          { call with numberOfCalls := some 2 }] ∧
      shallow.decode .v3 tx (node none (mixedCalls shallow tx)).encode =
        .error (.malformed (.nestingDepth 2 1)) := by
  intro tx shallow call
  have hfit : (node none (mixedCalls .default tx)).encode.length < Offset.limit := by
    decide +kernel
  have hfit' : (node none (mixedCalls shallow tx)).encode.length < Offset.limit := hfit
  refine ⟨hfit, ?_, ?_⟩
  · rw [decode_encode .v2 none (mixedCalls .default tx) hfit]
    rfl
  · rw [decode_encode .v3 none (mixedCalls shallow tx) hfit']
    rfl

end CallTree

end RouterCalldata
