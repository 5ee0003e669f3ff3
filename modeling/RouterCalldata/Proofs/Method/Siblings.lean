import RouterCalldata.Proofs.Method.Tables
import RouterCalldata.Proofs.Record.Shortage

/-!
# Methods with one layout under two names

A swap may fix what is sold or what is bought, and the routers have methods for both.  Two methods
of such a pair have their arguments at the same places of the block and differ in what they call
them: what one sells is what the other buys, and the least that one takes is the most that the
other gives.  A packed path is listed from the sold token by one of them and from the bought token
by the other.

The slots of the two are not read in one order, so on a short block they may fail at different
places.  They still fail together, and in one kind of way: whatever the order, a block that is too
short for the last slot is told to end too early.

## Main definitions

* `Corresponds`: fields of two methods with the same texts under different names;
* `PairedSlots`: slots of two methods that are read at the same places;
* `V2Method.tokenSales`, `V2Method.tokenPurchases`, `V2Method.etherSales`: the methods that fix what
  is sold or what is bought.

## Main results

* `PairedSlots.together`: slots that are read at the same places are read together;
* `Layout.together_fixed`, `Layout.together_tokenPath`, `Layout.together_packedPath`: so are the
  layouts of a pair;
* `siblings_together`: two methods of a pair accept the same blocks and tell the same of them.
-/

namespace RouterCalldata

open Decoded

/-! ## Fields -/

/-- **Fields of two methods that tell the same.**  In each pair, the first field of one method has
the text that the second field of the other has, and no field outside of the pairs is set. -/
structure Corresponds (pairs : List (Field × Field)) (a b : SwapFields) : Prop where
  same : ∀ pair ∈ pairs, ∃ text, a.value pair.1 = some text ∧ b.value pair.2 = some text
  left : ∀ f, f ∉ pairs.map Prod.fst → a.value f = none
  right : ∀ f, f ∉ pairs.map Prod.snd → b.value f = none

theorem corresponds_empty : Corresponds [] .empty .empty :=
  ⟨nofun, fun _ _ => rfl, fun _ _ => rfl⟩

/-- An array of tokens is listed from the sold one, whatever is fixed. -/
theorem corresponds_ofPath (start stop : String) :
    Corresponds [(.tokenPathFrom, .tokenPathFrom), (.tokenPathTo, .tokenPathTo)]
      (.ofPath start stop) (.ofPath start stop) := by
  have hothers (f : Field) (hf : f ≠ .tokenPathFrom ∧ f ≠ .tokenPathTo) :
      (SwapFields.ofPath start stop).value f = none := by
    simp [SwapFields.ofPath, hf]
  refine ⟨?_, fun f hf => hothers f (by simpa using hf), fun f hf => hothers f (by simpa using hf)⟩
  rintro pair (_ | ⟨_, _ | ⟨_, ⟨⟩⟩⟩)
  · exact ⟨start, rfl, rfl⟩
  · exact ⟨stop, rfl, rfl⟩

/-- A packed path is listed from the sold token by one method and from the bought one by
the other, and its first fee is the first in the list for both. -/
theorem PackedPath.corresponds_fields (path : PackedPath) :
    Corresponds [(.tokenPathFrom, .tokenPathTo), (.tokenPathTo, .tokenPathFrom), (.fee, .fee)]
      (path.fields .inputFirst) (path.fields .outputFirst) := by
  have hothers (order : PathOrder) (f : Field)
      (hf : f ≠ .tokenPathFrom ∧ f ≠ .tokenPathTo ∧ f ≠ .fee) :
      (path.fields order).value f = none := by
    cases order with
    | inputFirst => simp [fields, SwapFields.ofPath, hf]
    | outputFirst => simp [fields, SwapFields.ofPath, hf]
  refine ⟨?_, fun f hf => hothers _ f (by simpa using hf), fun f hf => hothers _ f ?_⟩
  · rintro pair (_ | ⟨_, _ | ⟨_, _ | ⟨_, ⟨⟩⟩⟩⟩)
    · exact ⟨path.first, rfl, rfl⟩
    · exact ⟨path.last, rfl, rfl⟩
    · exact ⟨path.fee, rfl, rfl⟩
  · simp at hf
    exact ⟨hf.2.1, hf.1, hf.2.2⟩

/-! ## Slots -/

/-- **Slots of two methods that are read at the same places**, given what they have in common: the
fields of their paths, and the fields of the words.  Two slots of a pair have one place, and no
slot of either method is without a partner. -/
@[mk_iff] structure PairedSlots (paths words : List (Field × Field)) (slots slots' : List Slot) :
    Prop where
  placed : ∀ slot ∈ slots, slot.2.IsPlaced
  placed' : ∀ slot ∈ slots', slot.2.IsPlaced
  stop_eq : slotsStop slots = slotsStop slots'
  paired : ∀ pair ∈ words, ∃ slot ∈ slots, slot.1 = pair.1 ∧ (pair.2, slot.2) ∈ slots'
  subset : slots.map Prod.fst ⊆ words.map Prod.fst
  subset' : slots'.map Prod.fst ⊆ words.map Prod.snd
  nodup : (paths.map Prod.fst ++ slots.map Prod.fst).Nodup
  nodup' : (paths.map Prod.snd ++ slots'.map Prod.fst).Nodup

instance (paths words : List (Field × Field)) (slots slots' : List Slot) :
    Decidable (PairedSlots paths words slots slots') :=
  decidable_of_iff' _ (pairedSlots_iff paths words slots slots')

variable {buf : Bytes} {paths words : List (Field × Field)} {slots slots' : List Slot}
  {fields fields' a b : SwapFields}

/-- A field that is set before the slots are read, and that no slot is of, keeps its text. -/
theorem value_of_readSlots {before : List Field} (hnodup : (before ++ slots.map Prod.fst).Nodup)
    (h : readSlots buf fields slots = .ok a) {f : Field} (hf : f ∈ before) :
    a.value f = fields.value f := by
  obtain ⟨-, hslots, hdisjoint⟩ := List.nodup_append.mp hnodup
  exact ((readSlots_eq_ok_iff hslots).mp h).2 f fun hmem => hdisjoint f hf f hmem rfl

/-- A field that neither was set before nor has a slot is not set. -/
theorem value_eq_none_of_readSlots (hnodup : (slots.map Prod.fst).Nodup)
    (h : readSlots buf fields slots = .ok a) {f : Field} (hf : f ∉ slots.map Prod.fst)
    (hfields : fields.value f = none) : a.value f = none := by
  rw [((readSlots_eq_ok_iff hnodup).mp h).2 f hf, hfields]

namespace PairedSlots

/-- Slots that are read at the same places tell the same. -/
theorem corresponds (h : PairedSlots paths words slots slots')
    (hpaths : Corresponds paths fields fields') (ha : readSlots buf fields slots = .ok a)
    (hb : readSlots buf fields' slots' = .ok b) : Corresponds (paths ++ words) a b := by
  have hnodup := (List.nodup_append.mp h.nodup).2.1
  have hnodup' := (List.nodup_append.mp h.nodup').2.1
  obtain ⟨htold, -⟩ := (readSlots_eq_ok_iff hnodup).mp ha
  obtain ⟨htold', -⟩ := (readSlots_eq_ok_iff hnodup').mp hb
  refine ⟨?_, ?_, ?_⟩
  · intro pair hpair
    rcases List.mem_append.mp hpair with hpath | hword
    · rw [value_of_readSlots h.nodup ha (List.mem_map_of_mem hpath),
        value_of_readSlots h.nodup' hb (List.mem_map_of_mem hpath)]
      exact hpaths.same pair hpath
    · obtain ⟨slot, hslot, hfirst, hsecond⟩ := h.paired pair hword
      obtain ⟨text, hread, hvalue⟩ := htold slot hslot
      obtain ⟨text', hread', hvalue'⟩ := htold' _ hsecond
      obtain rfl : text = text' := Except.ok.inj (hread.symm.trans hread')
      exact ⟨text, hfirst ▸ hvalue, hvalue'⟩
  · intro f hf
    rw [List.map_append, List.mem_append, not_or] at hf
    exact value_eq_none_of_readSlots hnodup ha (fun hmem => hf.2 (h.subset hmem))
      (hpaths.left f hf.1)
  · intro f hf
    rw [List.map_append, List.mem_append, not_or] at hf
    exact value_eq_none_of_readSlots hnodup' hb (fun hmem => hf.2 (h.subset' hmem))
      (hpaths.right f hf.1)

/-- **Slots that are read at the same places are read together**, in whatever order. -/
theorem together (h : PairedSlots paths words slots slots')
    (hpaths : Corresponds paths fields fields') :
    Together (Corresponds (paths ++ words)) (readSlots buf fields slots)
      (readSlots buf fields' slots') := by
  rcases Nat.lt_or_ge buf.length (slotsStop slots) with hshort | hlong
  · obtain ⟨e, he, htells⟩ := readSlots_of_lt h.placed hshort fields
    obtain ⟨e', he', htells'⟩ := readSlots_of_lt h.placed' (h.stop_eq ▸ hshort) fields'
    rw [he, he']
    exact .error (htells.kind_eq htells')
  · obtain ⟨a, ha⟩ := readSlots_of_le h.placed hlong fields
    obtain ⟨b, hb⟩ := readSlots_of_le h.placed' (h.stop_eq ▸ hlong) fields'
    rw [ha, hb]
    exact .ok (h.corresponds hpaths ha hb)

end PairedSlots

/-! ## Layouts -/

namespace Layout

variable (method method' : String) (params : Bytes)

theorem together_fixed (h : PairedSlots [] words slots slots') :
    Together (Corresponds words) ((fixed slots).decode method params)
      ((fixed slots').decode method' params) :=
  h.together corresponds_empty

theorem together_tokenPath {slot : Nat}
    (h : PairedSlots [(.tokenPathFrom, .tokenPathFrom), (.tokenPathTo, .tokenPathTo)] words slots
      slots') :
    Together
      (Corresponds ((.tokenPathFrom, .tokenPathFrom) :: (.tokenPathTo, .tokenPathTo) :: words))
      ((tokenPath slot slots).decode method params)
      ((tokenPath slot slots').decode method' params) :=
  Together.bind fun ends _ => h.together (corresponds_ofPath ends.1 ends.2)

theorem together_packedPath
    (h : PairedSlots
      [(.tokenPathFrom, .tokenPathTo), (.tokenPathTo, .tokenPathFrom), (.fee, .fee)] words slots
      slots') :
    Together
      (Corresponds ((.tokenPathFrom, .tokenPathTo) :: (.tokenPathTo, .tokenPathFrom) ::
        (.fee, .fee) :: words))
      ((packedPath .inputFirst slots).decode method params)
      ((packedPath .outputFirst slots').decode method' params) :=
  Together.bind fun found _ => h.together found.2.corresponds_fields

end Layout

/-! ## Methods -/

namespace V2Method

/-- The methods that fix how many tokens are sold. -/
def tokenSales : List V2Method :=
  [swapExactTokensForTokens, swapExactTokensForETH, swapExactTokensForTokensSupportingFee,
    swapExactTokensForETHSupportingFee]

/-- The methods that fix what is bought with tokens. -/
def tokenPurchases : List V2Method := [swapTokensForExactTokens, swapTokensForExactETH]

/-- The methods that sell the value of the transaction. -/
def etherSales : List V2Method := [swapExactETHForTokens, swapExactETHForTokensSupportingFee]

theorem layout_of_mem_tokenSales {m : V2Method} (hm : m ∈ tokenSales) :
    m.layout = exactTokensIn := by
  revert m
  decide

theorem layout_of_mem_tokenPurchases {m : V2Method} (hm : m ∈ tokenPurchases) :
    m.layout = exactTokensOut := by
  revert m
  decide

theorem layout_of_mem_etherSales {m : V2Method} (hm : m ∈ etherSales) :
    m.layout = exactEthIn := by
  revert m
  decide

end V2Method

/-- **Two methods that differ in what they fix accept the same blocks**, whatever these hold, and
tell the same of a block under the names of a sale and of a purchase.  Where they fail, they fail
in one kind of way.

A single-hop or multi-hop purchase of the newer router tells the most that may be sold as the sold
amount too. -/
theorem siblings_together (params : Bytes) :
    Together
      (Corresponds [(.tokenPathFrom, .tokenPathTo), (.tokenPathTo, .tokenPathFrom), (.fee, .fee),
        (.recipient, .recipient), (.amountIn, .amountOut), (.amountOutMin, .amountInMax),
        (.amountOutMin, .amountIn)])
      (V3Method.exactInput.decode params) (V3Method.exactOutput.decode params) ∧
    Together
      (Corresponds [(.tokenPathFrom, .tokenPathFrom), (.tokenPathTo, .tokenPathTo),
        (.recipient, .recipient), (.amountIn, .amountOut), (.amountOutMin, .amountInMax),
        (.amountOutMin, .amountIn)])
      (V3Method.exactInputSingle.decode params) (V3Method.exactOutputSingle.decode params) ∧
    (∀ m ∈ V2Method.tokenSales, ∀ m' ∈ V2Method.tokenPurchases,
      Together
        (Corresponds [(.tokenPathFrom, .tokenPathFrom), (.tokenPathTo, .tokenPathTo),
          (.recipient, .recipient), (.amountIn, .amountOut), (.amountOutMin, .amountInMax)])
        (m.decode params) (m'.decode params)) ∧
    ∀ m ∈ V2Method.etherSales,
      Together
        (Corresponds [(.tokenPathFrom, .tokenPathFrom), (.tokenPathTo, .tokenPathTo),
          (.recipient, .recipient), (.amountOutMin, .amountOut)])
        (m.decode params) (V2Method.swapETHForExactTokens.decode params) := by
  refine ⟨?_, ?_, ?_, ?_⟩
  · exact Layout.together_packedPath _ _ params (by decide)
  · exact Layout.together_fixed _ _ params (by decide)
  · intro m hm m' hm'
    rw [V2Method.decode, V2Method.decode, V2Method.layout_of_mem_tokenSales hm,
      V2Method.layout_of_mem_tokenPurchases hm']
    exact Layout.together_tokenPath _ _ params (by decide)
  · intro m hm
    rw [V2Method.decode, V2Method.layout_of_mem_etherSales hm]
    exact Layout.together_tokenPath _ _ params (by decide)

/-- A block of the given words. -/
def wordBlock (words : List Nat) : Bytes := words.flatMap fun n => (Word.ofNat n).bytes

/-- A path may stand over the head of its block: here the amount that is fixed is the length of the
path, and the limit of the other amount is the sold token.  On an empty block two methods of a pair
fail at different words. -/
theorem siblings_together_foldedHead :
    V2Method.swapExactTokensForETH ∈ V2Method.tokenSales ∧
      V2Method.swapTokensForExactTokens ∈ V2Method.tokenPurchases ∧
      (∃ sold bought,
        V2Method.swapExactTokensForETH.decode (wordBlock [2, 7, 0, 42]) = .ok sold ∧
          V2Method.swapTokensForExactTokens.decode (wordBlock [2, 7, 0, 42]) = .ok bought ∧
          sold.value .amountIn = some "2" ∧ bought.value .amountOut = some "2" ∧
          bought.value .amountIn = none) ∧
      V3Method.exactInputSingle.decode [] = .error (.truncated 0 32 0) ∧
      V3Method.exactOutputSingle.decode [] = .error (.truncated 192 32 0) := by
  have hsale : V2Method.swapExactTokensForETH ∈ V2Method.tokenSales := by decide
  have hpurchase : V2Method.swapTokensForExactTokens ∈ V2Method.tokenPurchases := by decide
  have htogether := (siblings_together (wordBlock [2, 7, 0, 42])).2.2.1 _ hsale _ hpurchase
  have htwo : (V2Method.swapExactTokensForETH.decode (wordBlock [2, 7, 0, 42])).toOption.bind
      (·.value .amountIn) = some "2" := by
    decide +kernel
  refine ⟨hsale, hpurchase, ?_, rfl, rfl⟩
  generalize V2Method.swapExactTokensForETH.decode _ = sale at htogether htwo
  generalize V2Method.swapTokensForExactTokens.decode _ = purchase at htogether
  cases htogether with
  | error hkind => exact absurd htwo nofun
  | @ok sold bought htold =>
    obtain ⟨text, hin, hout⟩ := htold.same (.amountIn, .amountOut) (by decide)
    obtain rfl : text = "2" := Option.some.inj (hin.symm.trans htwo)
    exact ⟨sold, bought, rfl, rfl, hin, hout, htold.right .amountIn (by decide)⟩

end RouterCalldata
