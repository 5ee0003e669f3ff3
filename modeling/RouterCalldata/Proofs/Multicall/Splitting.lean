import RouterCalldata.Proofs.Abi.Encoding
import RouterCalldata.Proofs.Multicall.Table

/-!
# Splitting an encoded array of calls

A multicall takes an array of byte strings, one of its two methods behind a word of its own.  In
the canonical encoding the array is held directly behind the head words, and call `i` of it at
`callOffset calls i` behind the number of calls.  Splitting reads the table of these offsets and
then cuts the calls out.

The region of a call ends where the next one starts, and the last one ends with the block.  In
both cases the call itself is held inside, which is all that cutting it out depends on.

## Main definitions

* `encodeParams`: the canonical parameter block of a multicall;
* `callOffset`: the offset of a call in the array;
* `encode`: the canonical calldata of a multicall.

## Main results

* `element_of_holdsAt`: a call that is held inside its region is cut out;
* `elements_range'`: so are all calls from any one on;
* `split_encodeParams`: splitting gives back the calls.
-/

namespace RouterCalldata.Multicall

open Abi

/-- The canonical parameter block of a multicall, with the word in front of the
array if the method has one. -/
def encodeParams (first? : Option Word) (calls : List Bytes) : Bytes :=
  components (first?.toList.map Abi.word ++ [array (calls.map Abi.bytes)])

/-- The offset of the call number `i`, from the end of the number of calls. -/
def callOffset (calls : List Bytes) (i : Nat) : Nat :=
  wordSize * calls.length + (tails ((calls.take i).map Abi.bytes)).length

/-! ## Where calls are held -/

theorem headsSize_map_bytes (calls : List Bytes) :
    headsSize (calls.map Abi.bytes) = wordSize * calls.length := by
  rw [headsSize_eq_mul, List.length_map]
  intro v hv
  obtain ⟨call, -, rfl⟩ := List.mem_map.mp hv
  rfl

theorem length_tail_bytes (call : Bytes) :
    wordSize + call.length ≤ (Abi.bytes call).tail.length := by
  have htail : (Abi.bytes call).tail =
      (Word.ofNat call.length).bytes ++ (call ++ padding call.length) := rfl
  rw [htail, List.length_append, List.length_append, (Word.ofNat _).length_bytes]
  omega

variable {calls : List Bytes}

theorem callOffset_succ {i : Nat} (hi : i < calls.length) :
    callOffset calls (i + 1) = callOffset calls i + (Abi.bytes calls[i]).tail.length := by
  rw [callOffset, List.take_succ_eq_append_getElem hi, List.map_append, tails_append,
    List.length_append, ← Nat.add_assoc, ← callOffset]
  simp [tails]

/-- The offset of a call is held in the table, and the call is held there. -/
theorem holdsAt_call {i : Nat} (hi : i < calls.length) :
    (components (calls.map Abi.bytes)).HoldsAt (wordSize * i)
        (Word.ofNat (callOffset calls i)).bytes ∧
      (components (calls.map Abi.bytes)).HoldsAt (callOffset calls i)
        ((Word.ofNat calls[i].length).bytes ++ calls[i]) := by
  have hcalls : calls.map Abi.bytes =
      (calls.take i).map Abi.bytes ++ Abi.bytes calls[i] :: (calls.drop (i + 1)).map Abi.bytes := by
    rw [← List.map_cons, ← List.map_append, ← List.drop_eq_getElem_cons hi, List.take_append_drop]
  have hoffset : tailOffset ((calls.take i).map Abi.bytes) (Abi.bytes calls[i])
      ((calls.drop (i + 1)).map Abi.bytes) = callOffset calls i := by
    rw [tailOffset, ← hcalls, headsSize_map_bytes, callOffset]
  have htable := holdsAt_offset ((calls.take i).map Abi.bytes)
    ((calls.drop (i + 1)).map Abi.bytes) (v := Abi.bytes calls[i]) rfl
  have hcall := holdsAt_tail ((calls.take i).map Abi.bytes)
    ((calls.drop (i + 1)).map Abi.bytes) (v := Abi.bytes calls[i]) rfl
  rw [← hcalls, hoffset] at htable hcall
  rw [headsSize_map_bytes, List.length_take, Nat.min_eq_left (Nat.le_of_lt hi)] at htable
  refine ⟨htable, ?_⟩
  rw [Abi.bytes, ← List.append_assoc] at hcall
  exact hcall.left

/-! ## Cutting calls out -/

variable {params : Bytes}

/-- A call is read from a region that starts with it, behind its length. -/
theorem readCall_of_holdsAt {region call : Bytes} (hfit : region.length < Offset.limit)
    (h : region.HoldsAt 0 ((Word.ofNat call.length).bytes ++ call)) (index : Nat) :
    readCall index region = .ok call := by
  have hcall := h.right
  rw [(Word.ofNat call.length).length_bytes, Nat.zero_add] at hcall
  have hle := hcall.length_le
  rw [readCall, h.left.readOffset (by omega) hfit, Decoded.ok_bind, if_neg (Nat.not_lt.mpr hle),
    hcall.eq_take_drop]
  rfl

/-- A call that is held inside its region, behind its length, is cut out. -/
theorem element_of_holdsAt {start stop : Nat} {call : Bytes}
    (hfit : params.length < Offset.limit)
    (h : params.HoldsAt start ((Word.ofNat call.length).bytes ++ call)) (index : Nat)
    (hheld : start + (wordSize + call.length) ≤ stop) (hstop : stop ≤ params.length) :
    element params index (some start) (some stop) = .ok call := by
  have hwords : ((Word.ofNat call.length).bytes ++ call).length = wordSize + call.length := by
    rw [List.length_append, (Word.ofNat call.length).length_bytes]
  have hregion : ((params.drop start).take (stop - start)).length < Offset.limit := by
    rw [List.length_take, List.length_drop]
    omega
  rw [element_eq, if_pos ⟨by omega, hstop⟩]
  exact readCall_of_holdsAt hregion (h.take_drop (by omega)) index

/-- The table of offsets is read entry by entry. -/
theorem readTable_of_holdsAt {base : Nat} (hfit : params.length < Offset.limit)
    (h : params.HoldsAt base (components (calls.map Abi.bytes))) :
    readTable params base calls.length =
      .ok ((List.range calls.length).map (callOffset calls)) := by
  have hroom : base + wordSize * calls.length ≤ params.length := by
    have hle := h.length_le
    rw [length_components, headsSize_map_bytes] at hle
    omega
  rw [readTable_eq hfit hroom]
  apply Decoded.mapM_eq_ok
  intro i hi
  obtain ⟨hentry, hcall⟩ := holdsAt_call (List.mem_range.mp hi)
  have hend := (h.trans hcall).length_le
  exact (h.trans hentry).readOffset (by omega) hfit

/-- **All calls from the one numbered `k` on are cut out.**  The induction is on
how many they are; the region of each but the last ends where the next call
starts. -/
theorem elements_range' {base : Nat} (hfit : params.length < Offset.limit)
    (h : params.HoldsAt base (components (calls.map Abi.bytes))) (n k : Nat)
    (hk : k + n = calls.length) :
    elements params base k ((List.range' k n).map (callOffset calls)) = .ok (calls.drop k) := by
  induction n generalizing k with
  | zero =>
    rw [List.drop_eq_nil_of_le (by omega)]
    rfl
  | succ n ih =>
    have hlt : k < calls.length := by omega
    have hcall := h.trans (holdsAt_call hlt).2
    have hend := hcall.length_le
    rw [List.length_append, (Word.ofNat _).length_bytes] at hend
    have hstart : Offset.checkedAdd base (callOffset calls k) = some (base + callOffset calls k) :=
      if_pos (by omega)
    rw [List.drop_eq_getElem_cons hlt, List.range'_succ, List.map_cons]
    cases n with
    | zero =>
      have hcut := element_of_holdsAt hfit hcall k hend (Nat.le_refl _)
      show elements params base k [callOffset calls k] = _
      rw [elements_singleton, hstart, hcut, Decoded.ok_bind, List.drop_eq_nil_of_le (by omega)]
    | succ n =>
      have hrest := ih (k + 1) (by omega)
      have hnext := (h.trans (holdsAt_call (show k + 1 < calls.length by omega)).2).length_le
      rw [List.length_append, (Word.ofNat _).length_bytes] at hnext
      have hstop : Offset.checkedAdd base (callOffset calls (k + 1)) =
          some (base + callOffset calls (k + 1)) := if_pos (by omega)
      have hregion := length_tail_bytes calls[k]
      rw [callOffset_succ hlt] at hnext hstop
      have hheld : base + callOffset calls k + (wordSize + calls[k].length) ≤
          base + (callOffset calls k + (Abi.bytes calls[k]).tail.length) := by omega
      have hcut := element_of_holdsAt hfit hcall k hheld (by omega)
      rw [List.range'_succ, List.map_cons] at hrest ⊢
      rw [elements_cons_cons, hrest, callOffset_succ hlt, hstart, hstop, hcut]
      rfl

/-! ## Splitting -/

/-- The number of words in front of the word that holds the offset of the
array. -/
def headWord (first? : Option Word) : Nat := first?.toList.length

variable (first? : Option Word)

/-- The array is held directly behind the head words, which hold its
offset. -/
theorem holdsAt_array (calls : List Bytes) :
    (encodeParams first? calls).HoldsAt (wordSize * headWord first?)
        (Word.ofNat (wordSize * (headWord first? + 1))).bytes ∧
      (encodeParams first? calls).HoldsAt (wordSize * (headWord first? + 1))
        (array (calls.map Abi.bytes)).bytes := by
  have hsize : headsSize (first?.toList.map Abi.word) = wordSize * headWord first? := by
    rw [headsSize_eq_mul, List.length_map, headWord]
    intro v hv
    obtain ⟨w, -, rfl⟩ := List.mem_map.mp hv
    exact headSize_word w
  have htails : tails (first?.toList.map Abi.word) = [] := by
    cases first? with
    | none => rfl
    | some w => rfl
  have hoffset : tailOffset (first?.toList.map Abi.word) (array (calls.map Abi.bytes)) [] =
      wordSize * (headWord first? + 1) := by
    rw [tailOffset, htails, headsSize_append, hsize]
    rfl
  have hhead := holdsAt_offset (first?.toList.map Abi.word) []
    (array_dynamic (calls.map Abi.bytes))
  have harray := holdsAt_tail (first?.toList.map Abi.word) [] (array_dynamic (calls.map Abi.bytes))
  rw [hoffset] at hhead harray
  rw [hsize] at hhead
  exact ⟨hhead, harray⟩

/-- **Splitting gives back the calls** of a canonical parameter block. -/
theorem split_encodeParams (calls : List Bytes)
    (hfit : (encodeParams first? calls).length < Offset.limit) :
    split (encodeParams first? calls) (headWord first?) = .ok calls := by
  obtain ⟨hhead, harray⟩ := holdsAt_array first? calls
  have hcount := harray.left
  have hcalls := harray.right
  rw [List.length_map] at hcount hcalls
  rw [(Word.ofNat calls.length).length_bytes] at hcalls
  have hroom : wordSize * (headWord first? + 1) + wordSize + wordSize * calls.length ≤
      (encodeParams first? calls).length := by
    have hle := hcalls.length_le
    rw [length_components, headsSize_map_bytes] at hle
    omega
  have helements := elements_range' hfit hcalls calls.length 0 (Nat.zero_add _)
  rw [← List.range_eq_range', List.drop_zero] at helements
  rw [split_eq, readCount_of_holdsAt hfit hhead hcount hroom, Decoded.ok_bind]
  dsimp only
  rw [readTable_of_holdsAt hfit hcalls, Decoded.ok_bind, helements]

/-! ## Calldata -/

/-- The method that takes an array of calls, with or without a word in front
of it. -/
def method : Option Word → V3Method
  | none => .multicall
  | some _ => .multicallWithValue

/-- The canonical calldata of a multicall. -/
def encode (calls : List Bytes) : Bytes :=
  (method first?).selector.toBytes ++ encodeParams first? calls

theorem ofSelector?_method :
    ofSelector? (method first?).selector = some (method first?, headWord first?) := by
  cases first? with
  | none => decide
  | some w => rfl

/-- A call is shorter than the multicall that it stands in. -/
theorem length_lt_of_mem {call : Bytes} (h : call ∈ calls) :
    call.length < (encode first? calls).length := by
  obtain ⟨i, hi, rfl⟩ := List.mem_iff_getElem.mp h
  have hheld := ((holdsAt_array first? calls).2.right.trans (holdsAt_call hi).2).right.length_le
  have hselector : (method first?).selector.toBytes.length = 4 := rfl
  rw [encode, List.length_append, hselector]
  omega

end RouterCalldata.Multicall
