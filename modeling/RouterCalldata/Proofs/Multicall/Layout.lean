import Mathlib.Tactic.MkIffOfInductiveProp
import RouterCalldata.Proofs.Bytes.NumberAt
import RouterCalldata.Proofs.Multicall.Faultless

/-!
# The layout of a block of calls

Splitting goes through a block step by step and leaves it at the first thing that is wrong.  What it
accepts can be said in one piece: the head word leads to the number of calls, a table of offsets of
that length follows, and each call stands behind its length in a region of its own.  A region ends
where the next one starts, and the last one with the block, so what counts as a call depends on the
entry behind its own.

All positions are exact sums of numbers in the block.  Splitting adds with 64 bits and refuses a sum
that leaves them, but such a position is behind the end of every block, and is refused by the layout
for that.

## Main definitions

* `Entry`: the offset and the length of a call;
* `regionStop`: where the region of a call ends;
* `IsLaidOut`: the block has calls with the given entries.

## Main results

* `readCall_eq_ok_iff`, `element_eq_ok_iff`, `elements_eq_ok_iff`: single calls, and those of a
  table;
* `readCount_eq_ok_iff`, `readTable_eq_ok_iff`: the number of calls and the table;
* `split_eq_ok_iff`: a block is split exactly if it is laid out.
-/

namespace RouterCalldata.Multicall

open Decoded

/-! ## Layouts -/

/-- The offset of a call, from the end of the number of calls, and its length. -/
structure Entry where
  offset : Nat
  len : Nat
  deriving DecidableEq, Repr

/-- The end of the number of calls, from where offsets count. -/
def tableStart (headWord : Nat) : Nat := wordSize * (headWord + 2)

/-- Where the region of a call ends, given the offsets of the calls behind it: where the
next one starts, or with the block. -/
def regionStop (params : Bytes) (base : Nat) : List Nat → Nat
  | [] => params.length
  | next :: _ => base + next

/-- The call of an entry. -/
def Entry.call (params : Bytes) (base : Nat) (e : Entry) : Bytes :=
  Span.cut ⟨base + e.offset + wordSize, e.len⟩ params

/-- The call of an entry stands behind its length in a region that ends at `stop`. -/
@[mk_iff] structure Entry.IsIn (params : Bytes) (base stop : Nat) (e : Entry) : Prop where
  room : base + e.offset + wordSize ≤ stop
  stop_le : stop ≤ params.length
  len_eq : params.numberAt? (base + e.offset) = some e.len
  len_le : base + e.offset + wordSize + e.len ≤ stop

/-- **The layout of a block of calls**: what the block holds behind the word `headWord`. -/
@[mk_iff] structure IsLaidOut (params : Bytes) (headWord : Nat) (entries : List Entry) : Prop where
  /-- The array of calls follows the head words. -/
  array_eq : params.numberAt? (wordSize * headWord) = some (wordSize * (headWord + 1))
  count_eq : params.numberAt? (wordSize * (headWord + 1)) = some entries.length
  /-- The table of offsets lies in the block. -/
  table_le : tableStart headWord + wordSize * entries.length ≤ params.length
  offset_eq : ∀ i (hi : i < entries.length),
    params.numberAt? (tableStart headWord + wordSize * i) = some entries[i].offset ∧
      entries[i].offset < Offset.limit
  isIn : ∀ i (hi : i < entries.length),
    entries[i].IsIn params (tableStart headWord)
      (regionStop params (tableStart headWord) ((entries.drop (i + 1)).map Entry.offset))

instance (params : Bytes) (base stop : Nat) (e : Entry) : Decidable (e.IsIn params base stop) :=
  decidable_of_iff' _ (Entry.isIn_iff params base stop e)

instance (params : Bytes) (headWord : Nat) (entries : List Entry) :
    Decidable (IsLaidOut params headWord entries) :=
  decidable_of_iff' _ (isLaidOut_iff params headWord entries)

variable {params : Bytes} {base : Nat}

/-! ## Single calls -/

theorem readCall_eq_ok_iff {region call : Bytes} (hfit : region.length < Offset.limit)
    (index : Nat) :
    readCall index region = .ok call ↔
      ∃ len, region.numberAt? 0 = some len ∧ wordSize + len ≤ region.length ∧
        call = Span.cut ⟨wordSize, len⟩ region := by
  constructor
  · intro h
    obtain ⟨len, hread, h⟩ := bind_eq_ok_iff.mp h
    split at h
    · cases h
    · next hroom =>
      obtain rfl := Except.ok.inj h
      exact ⟨len, ((Bytes.readOffset_eq_ok_iff hfit).mp hread).1, Nat.not_lt.mp hroom, rfl⟩
  · rintro ⟨len, hlen, hroom, rfl⟩
    have hread : Bytes.readOffset region 0 = .ok len :=
      (Bytes.readOffset_eq_ok_iff hfit).mpr ⟨hlen, by omega⟩
    rw [readCall, hread, ok_bind, if_neg (Nat.not_lt.mpr hroom)]
    rfl

/-- A word at the start of a cut is the word at the start of what was cut. -/
theorem numberAt?_cut {start len : Nat} (hlen : wordSize ≤ len)
    (hle : start + len ≤ params.length) :
    (Span.cut ⟨start, len⟩ params).numberAt? 0 = params.numberAt? start := by
  have hword : Span.cut ⟨0, wordSize⟩ (Span.cut ⟨start, len⟩ params) =
      Span.cut ⟨start + 0, wordSize⟩ params := Span.cut_cut (by omega) params
  rw [Bytes.numberAt?, Bytes.numberAt?, Span.length_cut hle, hword, if_pos (by omega),
    if_pos (by omega), Nat.add_zero]

/-- **A call is cut out exactly if it stands in its region**, behind its length. -/
theorem element_eq_ok_iff (hfit : params.length < Offset.limit) {index offset stop : Nat}
    {call : Bytes} :
    element params index (some (base + offset)) (some stop) = .ok call ↔
      ∃ len, (Entry.mk offset len).IsIn params base stop ∧
        call = (Entry.mk offset len).call params base := by
  rw [element_eq]
  by_cases hrange : base + offset ≤ stop ∧ stop ≤ params.length
  · obtain ⟨hstart, hstop⟩ := hrange
    have hregion : (Span.cut ⟨base + offset, stop - (base + offset)⟩ params).length =
        stop - (base + offset) := Span.length_cut (by omega)
    rw [if_pos ⟨hstart, hstop⟩]
    show readCall index (Span.cut ⟨base + offset, stop - (base + offset)⟩ params) = .ok call ↔ _
    rw [readCall_eq_ok_iff (by omega), hregion]
    have hcall {len : Nat} (hroom : wordSize + len ≤ stop - (base + offset)) :
        Span.cut ⟨wordSize, len⟩ (Span.cut ⟨base + offset, stop - (base + offset)⟩ params) =
          (Entry.mk offset len).call params base := Span.cut_cut hroom params
    constructor
    · rintro ⟨len, hlen, hroom, rfl⟩
      rw [numberAt?_cut (by omega) (by omega)] at hlen
      refine ⟨len, ⟨?_, hstop, hlen, ?_⟩, hcall hroom⟩
      · show base + offset + wordSize ≤ stop
        omega
      · show base + offset + wordSize + len ≤ stop
        omega
    · rintro ⟨len, ⟨hroom, -, hlen, hle⟩, rfl⟩
      have hroom : base + offset + wordSize ≤ stop := hroom
      have hle : base + offset + wordSize + len ≤ stop := hle
      have hheld : wordSize + len ≤ stop - (base + offset) := by omega
      refine ⟨len, ?_, hheld, (hcall hheld).symm⟩
      rwa [numberAt?_cut (by omega) (by omega)]
  · rw [if_neg hrange]
    constructor
    · intro h
      cases h
    · rintro ⟨len, ⟨hroom, hstop, -, -⟩, -⟩
      have hroom : base + offset + wordSize ≤ stop := hroom
      exact absurd ⟨by omega, hstop⟩ hrange

/-! ## The calls at a table -/

/-- A position, unless it leaves 64 bits. -/
def position? (position : Nat) : Option Nat :=
  if position < Offset.limit then some position else none

/-- A call stands in no region with an end that leaves 64 bits, since it would end
behind the block. -/
theorem element_position?_eq_ok_iff (hfit : params.length < Offset.limit) {index offset stop : Nat}
    {call : Bytes} :
    element params index (position? (base + offset)) (position? stop) = .ok call ↔
      ∃ len, (Entry.mk offset len).IsIn params base stop ∧
        call = (Entry.mk offset len).call params base := by
  by_cases hrange : base + offset < Offset.limit ∧ stop < Offset.limit
  · rw [position?, position?, if_pos hrange.1, if_pos hrange.2]
    exact element_eq_ok_iff hfit
  · have hfail : element params index (position? (base + offset)) (position? stop) =
        .error (.malformed (.elementRegion index)) := by
      rw [position?, position?]
      split
      · rw [if_neg fun hstop => hrange ⟨‹_›, hstop⟩]
        rfl
      · rfl
    rw [hfail]
    constructor
    · intro h
      cases h
    · rintro ⟨len, ⟨hroom, hstop, -, -⟩, -⟩
      have hroom : base + offset + wordSize ≤ stop := hroom
      exact absurd ⟨by omega, by omega⟩ hrange

/-- The first call at a table, and the calls behind it. -/
theorem elements_cons (hfit : params.length < Offset.limit) (index offset : Nat)
    (rest : List Nat) :
    elements params base index (offset :: rest) =
      element params index (position? (base + offset)) (position? (regionStop params base rest)) >>=
        fun call => elements params base (index + 1) rest >>= fun calls =>
          .ok (call :: calls) := by
  cases rest with
  | nil =>
    have hstop : position? (regionStop params base []) = some params.length := if_pos hfit
    rw [hstop]
    exact elements_singleton base index offset
  | cons next rest => exact elements_cons_cons base index offset next rest

/-- **Calls at a table of offsets are cut out exactly if each stands in its region.**  The
induction is on the offsets that are left; the region of the first call ends where
the first one of the others starts. -/
theorem elements_eq_ok_iff (hfit : params.length < Offset.limit) {index : Nat}
    {offsets : List Nat} {calls : List Bytes} :
    elements params base index offsets = .ok calls ↔
      ∃ entries : List Entry, entries.map Entry.offset = offsets ∧
        (∀ i (hi : i < entries.length), entries[i].IsIn params base
          (regionStop params base ((entries.drop (i + 1)).map Entry.offset))) ∧
        calls = entries.map (Entry.call params base) := by
  induction offsets generalizing index calls with
  | nil =>
    constructor
    · intro h
      obtain rfl := Except.ok.inj h
      exact ⟨[], rfl, fun i hi => absurd hi (Nat.not_lt_zero i), rfl⟩
    · rintro ⟨entries, hoffsets, -, rfl⟩
      obtain rfl := List.map_eq_nil_iff.mp hoffsets
      rfl
  | cons offset rest ih =>
    rw [elements_cons hfit, bind_eq_ok_iff]
    constructor
    · rintro ⟨call, hcall, h⟩
      obtain ⟨others, hothers, h⟩ := bind_eq_ok_iff.mp h
      obtain rfl := Except.ok.inj h
      obtain ⟨len, hfirst, rfl⟩ := (element_position?_eq_ok_iff hfit).mp hcall
      obtain ⟨entries, rfl, hin, rfl⟩ := ih.mp hothers
      refine ⟨⟨offset, len⟩ :: entries, rfl, ?_, rfl⟩
      intro i hi
      cases i with
      | zero => exact hfirst
      | succ i => exact hin i (Nat.lt_of_succ_lt_succ hi)
    · rintro ⟨entries, hoffsets, hin, rfl⟩
      cases entries with
      | nil => cases hoffsets
      | cons e entries =>
        obtain ⟨rfl, rfl⟩ := List.cons.inj hoffsets
        have hfirst := hin 0 (Nat.zero_lt_succ _)
        have hothers : elements params base (index + 1) (entries.map Entry.offset) =
            .ok (entries.map (Entry.call params base)) :=
          ih.mpr ⟨entries, rfl, fun i hi => hin (i + 1) (Nat.succ_lt_succ hi), rfl⟩
        refine ⟨e.call params base, (element_position?_eq_ok_iff hfit).mpr ⟨e.len, hfirst, rfl⟩, ?_⟩
        rw [hothers]
        rfl

/-! ## The number of calls and the table -/

variable {headWord count : Nat}

/-- The positions of the head word and of the number of calls are not reduced. -/
theorem wordOffset_headWords (hhead : wordSize * (headWord + 1) < Offset.limit) :
    wordOffset headWord = wordSize * headWord ∧
      wordOffset (headWord + 1) = wordSize * (headWord + 1) :=
  ⟨Bytes.wordOffset_eq_mul (Nat.lt_of_le_of_lt (Nat.mul_le_mul_left _ (Nat.le_succ _)) hhead),
    Bytes.wordOffset_eq_mul hhead⟩

/-- **The number of calls is read** exactly if the array follows the head words and has
room for its table. -/
theorem readCount_eq_ok_iff (hfit : params.length < Offset.limit)
    (hhead : wordSize * (headWord + 1) < Offset.limit) :
    readCount params headWord = .ok (base, count) ↔
      base = tableStart headWord ∧
        params.numberAt? (wordSize * headWord) = some (wordSize * (headWord + 1)) ∧
        params.numberAt? (wordSize * (headWord + 1)) = some count ∧
        tableStart headWord + wordSize * count ≤ params.length := by
  obtain ⟨hword, hnext⟩ := wordOffset_headWords hhead
  have hwide {n : Nat} (hn : n < Offset.limit) : n < 2 ^ 256 := Nat.lt_trans hn (by decide)
  constructor
  · intro h
    obtain ⟨rfl, harray, hcount, hroom⟩ := of_readCount h
    rw [hword, hnext] at harray
    rw [hnext] at hcount hroom
    refine ⟨?_, ((Bytes.readOffset_eq_ok_iff hfit).mp harray).1,
      ((Bytes.readOffset_eq_ok_iff hfit).mp hcount).1, hroom⟩
    rw [hnext]
    rfl
  · rintro ⟨rfl, harray, hcount, hroom⟩
    have hroom' : 32 * (headWord + 2) + 32 * count ≤ params.length := hroom
    exact readCount_of_holdsAt hfit ((Bytes.holdsAt_ofNat_iff (hwide hhead)).mpr harray)
      ((Bytes.holdsAt_ofNat_iff (hwide (by omega))).mpr hcount) hroom

/-- A table in the block is read exactly if each of its entries is a position. -/
theorem readTable_eq_ok_iff (hfit : params.length < Offset.limit)
    (hroom : base + wordSize * count ≤ params.length) {offsets : List Nat} :
    readTable params base count = .ok offsets ↔
      offsets.length = count ∧ ∀ i (hi : i < offsets.length),
        params.numberAt? (base + wordSize * i) = some offsets[i] ∧ offsets[i] < Offset.limit := by
  constructor
  · intro h
    obtain ⟨hlen, hentries⟩ := of_readTable h
    exact ⟨hlen, fun i hi => (Bytes.readOffset_eq_ok_iff hfit).mp (hentries i hi)⟩
  · rintro ⟨rfl, hentries⟩
    rw [readTable_eq hfit hroom, mapM_eq_ok_iff, List.forall₂_iff_get]
    refine ⟨List.length_range, fun i hi hi' => ?_⟩
    rw [List.get_eq_getElem, List.getElem_range]
    exact (Bytes.readOffset_eq_ok_iff hfit).mpr (hentries i hi')

/-! ## Blocks -/

/-- **A block is split exactly if it is laid out**, into the calls of its layout. -/
theorem split_eq_ok_iff (hfit : params.length < Offset.limit)
    (hhead : wordSize * (headWord + 1) < Offset.limit) {calls : List Bytes} :
    split params headWord = .ok calls ↔
      ∃ entries, IsLaidOut params headWord entries ∧
        calls = entries.map (Entry.call params (tableStart headWord)) := by
  rw [split_eq]
  constructor
  · intro h
    obtain ⟨⟨base, count⟩, hcount, h⟩ := bind_eq_ok_iff.mp h
    obtain ⟨offsets, htable, helements⟩ := bind_eq_ok_iff.mp h
    obtain ⟨rfl, harray, hcount, hroom⟩ := (readCount_eq_ok_iff hfit hhead).mp hcount
    obtain ⟨rfl, hoffsets⟩ := (readTable_eq_ok_iff hfit hroom).mp htable
    obtain ⟨entries, rfl, hin, rfl⟩ := (elements_eq_ok_iff hfit).mp helements
    rw [List.length_map] at hcount hroom
    refine ⟨entries, ⟨harray, hcount, hroom, fun i hi => ?_, hin⟩, rfl⟩
    have hoffset := hoffsets i (by rwa [List.length_map])
    rwa [List.getElem_map] at hoffset
  · rintro ⟨entries, ⟨harray, hcount, hroom, hoffsets, hin⟩, rfl⟩
    have htable : readTable params (tableStart headWord) entries.length =
        .ok (entries.map Entry.offset) := by
      refine (readTable_eq_ok_iff hfit hroom).mpr ⟨List.length_map .., fun i hi => ?_⟩
      rw [List.getElem_map]
      exact hoffsets i (by rwa [List.length_map] at hi)
    have helements : elements params (tableStart headWord) 0 (entries.map Entry.offset) =
        .ok (entries.map (Entry.call params (tableStart headWord))) :=
      (elements_eq_ok_iff hfit).mpr ⟨entries, rfl, hin, rfl⟩
    rw [(readCount_eq_ok_iff hfit hhead).mpr ⟨rfl, harray, hcount, hroom⟩, ok_bind]
    dsimp only
    rw [htable, ok_bind, helements]

/-! ## Refusals -/

/-- An array that does not follow the head words is refused. -/
theorem split_of_array_ne (hfit : params.length < Offset.limit)
    (hhead : wordSize * (headWord + 1) < Offset.limit) {offset : Nat}
    (harray : params.numberAt? (wordSize * headWord) = some offset) (hlt : offset < Offset.limit)
    (hne : offset ≠ wordSize * (headWord + 1)) :
    split params headWord =
      .error (.malformed (.arrayOffset offset (wordSize * (headWord + 1)))) := by
  obtain ⟨hword, hnext⟩ := wordOffset_headWords hhead
  have hread : Bytes.readOffset params (wordSize * headWord) = .ok offset :=
    (Bytes.readOffset_eq_ok_iff hfit).mpr ⟨harray, hlt⟩
  rw [split_eq, readCount, hword, hnext, hread, ok_bind, if_pos hne]
  rfl

/-- A number of calls that leaves no room for the table is refused, before any offset is
read. -/
theorem split_of_count_gt (hfit : params.length < Offset.limit)
    (hhead : wordSize * (headWord + 1) < Offset.limit)
    (harray : params.numberAt? (wordSize * headWord) = some (wordSize * (headWord + 1)))
    (hcount : params.numberAt? (wordSize * (headWord + 1)) = some count)
    (hlt : count < Offset.limit)
    (hroom : (params.length - tableStart headWord) / wordSize < count) :
    split params headWord = .error (.truncated (tableStart headWord)
      (min (count * wordSize) (Offset.limit - 1)) (params.length - tableStart headWord)) := by
  obtain ⟨hword, hnext⟩ := wordOffset_headWords hhead
  have hread : Bytes.readOffset params (wordSize * headWord) = .ok (wordSize * (headWord + 1)) :=
    (Bytes.readOffset_eq_ok_iff hfit).mpr ⟨harray, hhead⟩
  have hread' : Bytes.readOffset params (wordSize * (headWord + 1)) = .ok count :=
    (Bytes.readOffset_eq_ok_iff hfit).mpr ⟨hcount, hlt⟩
  have hbase : Offset.add (wordSize * (headWord + 1)) wordSize = .ok (tableStart headWord) :=
    if_pos (Nat.lt_of_le_of_lt (Bytes.length_le_of_numberAt? hcount) hfit)
  rw [split_eq, readCount, hword, hnext, hread, ok_bind, if_neg (not_not.mpr rfl), hread', ok_bind,
    hbase, ok_bind, if_pos hroom]
  rfl

/-- **A block is split exactly if it is laid out as an array of calls**, and then into the calls
of its layout.  Every other block is refused for what it holds: for the offset of
the array if this is a position and not the one behind the head words, and as cut short if
the number of calls leaves no room for their offsets.

The block is held in memory, so its length is a number of 64 bits.  For the two methods
that take an array of calls the head word is 0 or 1. -/
theorem split_iff_isLaidOut (hfit : params.length < Offset.limit)
    (hhead : wordSize * (headWord + 1) < Offset.limit) :
    (∀ calls, split params headWord = .ok calls ↔
      ∃ entries, IsLaidOut params headWord entries ∧
        calls = entries.map (Entry.call params (tableStart headWord))) ∧
    ((¬ ∃ entries, IsLaidOut params headWord entries) →
      ∃ e, split params headWord = .error e ∧ e.IsUnreadable) ∧
    (∀ offset, params.numberAt? (wordSize * headWord) = some offset → offset < Offset.limit →
      offset ≠ wordSize * (headWord + 1) →
        split params headWord =
          .error (.malformed (.arrayOffset offset (wordSize * (headWord + 1))))) ∧
    ∀ count, params.numberAt? (wordSize * headWord) = some (wordSize * (headWord + 1)) →
      params.numberAt? (wordSize * (headWord + 1)) = some count → count < Offset.limit →
      (params.length - tableStart headWord) / wordSize < count →
        split params headWord = .error (.truncated (tableStart headWord)
          (min (count * wordSize) (Offset.limit - 1))
          (params.length - tableStart headWord)) := by
  refine ⟨fun calls => split_eq_ok_iff hfit hhead, fun hnot => ?_,
    fun offset => split_of_array_ne hfit hhead, fun count => split_of_count_gt hfit hhead⟩
  cases hsplit : split params headWord with
  | ok calls =>
    obtain ⟨entries, hentries, -⟩ := (split_eq_ok_iff hfit hhead).mp hsplit
    exact absurd ⟨entries, hentries⟩ hnot
  | error e =>
    refine ⟨e, rfl, ?_⟩
    rcases checkedIn_split params headWord e hsplit with he | ⟨-, hbig⟩
    · exact he
    · exact absurd hfit (Nat.not_lt.mpr hbig)

/-- The block of a multicall with a word in front, whose calls have their length words in
the table of offsets. -/
def tightBlock (array count : Nat) : Bytes :=
  [9, array, count, 0, 32, 7].flatMap fun n => (Word.ofNat n).bytes

theorem length_tightBlock (array count : Nat) : (tightBlock array count).length = 192 := by
  simp [tightBlock, (Word.ofNat _).length_bytes, wordSize]

/-- The first call is empty and the second one ends with the block.  The same block is refused with
another offset of the array, and with a number of calls that it has no room for. -/
theorem split_iff_isLaidOut_tightBlock :
    (tightBlock 64 2).length < Offset.limit ∧ wordSize * (1 + 1) < Offset.limit ∧
      IsLaidOut (tightBlock 64 2) 1 [⟨0, 0⟩, ⟨32, 32⟩] ∧
      split (tightBlock 64 2) 1 = .ok [[], (Word.ofNat 7).bytes] ∧
      split (tightBlock 32 2) 1 = .error (.malformed (.arrayOffset 32 64)) ∧
      split (tightBlock 64 4) 1 = .error (.truncated 96 128 96) := by
  have hfit (array count : Nat) : (tightBlock array count).length < Offset.limit := by
    rw [length_tightBlock]
    decide
  have hhead : wordSize * (1 + 1) < Offset.limit := by decide
  have hlaid : IsLaidOut (tightBlock 64 2) 1 [⟨0, 0⟩, ⟨32, 32⟩] := by decide +kernel
  have hcalls : [[], (Word.ofNat 7).bytes] =
      [⟨0, 0⟩, ⟨32, 32⟩].map (Entry.call (tightBlock 64 2) (tableStart 1)) := by
    decide +kernel
  have hoffset := (split_iff_isLaidOut (hfit 32 2) hhead).2.2.1 32 (by decide +kernel)
    (by decide) (by decide)
  have hcount := (split_iff_isLaidOut (hfit 64 4) hhead).2.2.2 4 (by decide +kernel)
    (by decide +kernel) (by decide) (by decide +kernel)
  rw [length_tightBlock] at hcount
  exact ⟨hfit 64 2, hhead, hlaid,
    ((split_iff_isLaidOut (hfit 64 2) hhead).1 _).mpr ⟨_, hlaid, hcalls⟩, hoffset, hcount⟩

end RouterCalldata.Multicall
