import RouterCalldata.Multicall
import RouterCalldata.Proofs.Bytes.Holding

/-!
# The three steps of splitting

A block of calls is split in three steps: the number of calls is read behind the head words, then
the table of offsets, then the calls at these offsets.  What is known after the first step, that
the whole table lies in the block, is what the second relies on.

## Main definitions

* `readCount`: the end of the number of calls, and the number;
* `readTable`: the table of offsets;
* `readCall`: the call in a region.

## Main results

* `split_eq`, `element_eq`: splitting is the three steps, and a call is read from its region;
* `readCount_of_holdsAt`: the number of calls is read where it is held;
* `of_readCount`, `of_readTable`: what is known when the number and the table have been read.
-/

namespace RouterCalldata.Multicall

open Decoded

variable {params : Bytes}

/-- The position behind the number of calls, and the number.  A number that
leaves no room for the table of offsets is refused. -/
def readCount (params : Bytes) (headWord : Nat) : Decoded (Nat × Nat) := do
  let arrayOffset ← Bytes.readOffset params (wordOffset headWord)
  if arrayOffset ≠ wordOffset (headWord + 1) then
    throw (.malformed (.arrayOffset arrayOffset (wordOffset (headWord + 1))))
  let count ← Bytes.readOffset params arrayOffset
  let base ← Offset.add arrayOffset wordSize
  if (params.length - base) / wordSize < count then
    throw (.truncated base (min (count * wordSize) (Offset.limit - 1)) (params.length - base))
  return (base, count)

/-- The table of offsets. -/
def readTable (params : Bytes) (base count : Nat) : Decoded (List Nat) :=
  (List.range count).mapM fun i => do
    Bytes.readOffset params (← Offset.add base (← Offset.mul i wordSize))

/-- **Splitting is three steps**: the number of calls, the table of offsets, the
calls. -/
theorem split_eq (params : Bytes) (headWord : Nat) :
    split params headWord =
      readCount params headWord >>= fun (base, count) =>
        readTable params base count >>= elements params base 0 := by
  rw [split, readCount, bind_assoc]
  congr 1
  funext arrayOffset
  dsimp only
  split
  · rfl
  · rw [bind_assoc]
    congr 1
    funext count
    rw [bind_assoc]
    congr 1
    funext base
    split
    · rfl
    · rfl

/-- What is known when the number of calls has been read: the array follows the
head words, and its table of offsets lies in the block. -/
theorem of_readCount {headWord base count : Nat}
    (h : readCount params headWord = .ok (base, count)) :
    base = wordOffset (headWord + 1) + wordSize ∧
      Bytes.readOffset params (wordOffset headWord) = .ok (wordOffset (headWord + 1)) ∧
      Bytes.readOffset params (wordOffset (headWord + 1)) = .ok count ∧
      base + wordSize * count ≤ params.length := by
  rw [readCount] at h
  obtain ⟨arrayOffset, harray, h⟩ := bind_eq_ok_iff.mp h
  split at h
  · exact absurd h nofun
  · next hexpected =>
    obtain rfl := not_not.mp hexpected
    obtain ⟨n, hcount, h⟩ := bind_eq_ok_iff.mp h
    obtain ⟨start, hbase, h⟩ := bind_eq_ok_iff.mp h
    split at h
    · exact absurd h nofun
    · next hroom =>
      obtain ⟨rfl, rfl⟩ := Prod.mk.inj (Except.ok.inj h)
      obtain rfl := Offset.eq_of_add hbase
      refine ⟨rfl, harray, hcount, ?_⟩
      have hend : wordOffset (headWord + 1) + 32 ≤ params.length := by
        have hle := (Bytes.holdsAt_of_readOffset hcount).length_le
        rwa [(Word.ofNat n).length_bytes] at hle
      have hroom : ¬ (params.length - (wordOffset (headWord + 1) + 32)) / 32 < n := hroom
      show wordOffset (headWord + 1) + 32 + 32 * n ≤ params.length
      omega

/-- The number of calls is read where it is held, if the table of offsets lies in
the block. -/
theorem readCount_of_holdsAt {headWord count : Nat} (hfit : params.length < Offset.limit)
    (harray : params.HoldsAt (wordSize * headWord) (Word.ofNat (wordSize * (headWord + 1))).bytes)
    (hcount : params.HoldsAt (wordSize * (headWord + 1)) (Word.ofNat count).bytes)
    (hroom : wordSize * (headWord + 1) + wordSize + wordSize * count ≤ params.length) :
    readCount params headWord = .ok (wordSize * (headWord + 1) + wordSize, count) := by
  have hroom : 32 * (headWord + 1) + 32 + 32 * count ≤ params.length := hroom
  have hhead : wordOffset headWord = wordSize * headWord :=
    Bytes.wordOffset_eq (show 32 * headWord ≤ _ by omega) hfit
  have hnext : wordOffset (headWord + 1) = wordSize * (headWord + 1) :=
    Bytes.wordOffset_eq (show 32 * (headWord + 1) ≤ _ by omega) hfit
  have hbase : Offset.add (wordSize * (headWord + 1)) wordSize =
      .ok (wordSize * (headWord + 1) + wordSize) :=
    if_pos (show 32 * (headWord + 1) + 32 < _ by omega)
  have hfits : ¬ (params.length - (32 * (headWord + 1) + 32)) / 32 < count := by omega
  rw [readCount, hhead, hnext, harray.readOffset (show 32 * (headWord + 1) < _ by omega) hfit,
    ok_bind, if_neg (not_not.mpr rfl), hcount.readOffset (by omega) hfit, ok_bind, hbase, ok_bind,
    if_neg hfits]
  rfl

/-- Inside the block the positions of the table are not reduced. -/
theorem readTable_eq {base count : Nat} (hfit : params.length < Offset.limit)
    (h : base + wordSize * count ≤ params.length) :
    readTable params base count =
      (List.range count).mapM fun i => Bytes.readOffset params (base + wordSize * i) := by
  apply mapM_congr
  intro i hi
  have hlt := List.mem_range.mp hi
  have hroom : base + 32 * i < Offset.limit := by
    have h : base + 32 * count ≤ params.length := h
    omega
  have hmul : Offset.mul i wordSize = .ok (wordSize * i) := by
    rw [Nat.mul_comm]
    exact if_pos (show i * 32 < _ by omega)
  have hadd : Offset.add base (wordSize * i) = .ok (base + wordSize * i) := if_pos hroom
  rw [hmul, ok_bind, hadd, ok_bind]

/-- The table of offsets is read word by word. -/
theorem of_readTable {base count : Nat} {offsets : List Nat}
    (h : readTable params base count = .ok offsets) :
    offsets.length = count ∧ ∀ i (hi : i < offsets.length),
      Bytes.readOffset params (base + wordSize * i) = .ok offsets[i] := by
  have hall := mapM_eq_ok_iff.mp h
  have hlen := hall.length_eq
  rw [List.length_range] at hlen
  refine ⟨hlen.symm, ?_⟩
  intro i hi
  have hread := hall.get (by rwa [List.length_range, hlen]) hi
  rw [List.get_eq_getElem, List.getElem_range] at hread
  obtain ⟨product, hproduct, hread⟩ := bind_eq_ok_iff.mp hread
  obtain ⟨position, hposition, hread⟩ := bind_eq_ok_iff.mp hread
  obtain rfl := Offset.eq_of_mul hproduct
  obtain rfl := Offset.eq_of_add hposition
  rwa [Nat.mul_comm i wordSize] at hread

/-! ## Single calls -/

/-- The call in a region, behind its length. -/
def readCall (index : Nat) (region : Bytes) : Decoded Bytes := do
  let len ← Bytes.readOffset region 0
  if region.length < wordSize + len then
    throw (.malformed (.elementLength index len (region.length - wordSize)))
  return (region.drop wordSize).take len

/-- **A call is read from its region**, if the region lies in the block.  Once the
length word has been read, there is room for it, and the call is cut out of what
is left. -/
theorem element_eq (index start stop : Nat) :
    element params index (some start) (some stop) =
      if start ≤ stop ∧ stop ≤ params.length then
        readCall index ((params.drop start).take (stop - start))
      else .error (.malformed (.elementRegion index)) := by
  rw [element]
  by_cases hrange : start ≤ stop ∧ stop ≤ params.length
  · rw [if_pos hrange, if_pos hrange, Bytes.window, if_pos hrange, ok_bind]
    generalize (params.drop start).take (stop - start) = region
    rw [readCall]
    cases hlen : Bytes.readOffset region 0 with
    | error e => rfl
    | ok len =>
      have hword : 32 ≤ region.length := by
        have hle := (Bytes.holdsAt_of_readOffset hlen).length_le
        rwa [(Word.ofNat len).length_bytes, Nat.zero_add] at hle
      have hsub : Offset.sub region.length wordSize = .ok (region.length - wordSize) :=
        if_pos hword
      rw [ok_bind, ok_bind, hsub, ok_bind]
      by_cases hroom : region.length < 32 + len
      · rw [if_pos hroom, if_pos (show region.length - 32 < len by omega)]
        rfl
      · have hcut : Bytes.window region wordSize (wordSize + len) =
            .ok ((region.drop wordSize).take (wordSize + len - wordSize)) :=
          if_pos ⟨Nat.le_add_right .., Nat.not_lt.mp hroom⟩
        rw [if_neg hroom, if_neg (show ¬ region.length - 32 < len by omega), hcut,
          Nat.add_sub_cancel_left]
        rfl
  · rw [if_neg hrange, if_neg hrange]

/-! ## The calls at a table -/

theorem elements_singleton (base index offset : Nat) :
    elements params base index [offset] =
      element params index (Offset.checkedAdd base offset) (some params.length) >>= fun call =>
        .ok [call] := by
  simp only [elements, Decoded.pure_eq_ok, Decoded.ok_bind]

theorem elements_cons_cons (base index offset next : Nat) (rest : List Nat) :
    elements params base index (offset :: next :: rest) =
      element params index (Offset.checkedAdd base offset) (Offset.checkedAdd base next) >>=
        fun call => elements params base (index + 1) (next :: rest) >>= fun calls =>
          .ok (call :: calls) := by
  rw [elements]
  rfl

end RouterCalldata.Multicall
