import Mathlib.Algebra.GroupWithZero.Nat
import RouterCalldata.Proofs.Multicall.Table

/-!
# Where the calls of a block stand

Whatever offsets a block gives, the calls that are split off stand in it one behind the other.
Each of them is held behind its length, and ends before the next one starts, since its region does.
So the calls share no byte, and together they are no longer than the part of the block behind the
number of calls.

Offsets may still point back into their own table: only the order of the calls is checked, and not
that they stand behind the table.

## Main definitions

* `Region`: a call, and where its length word stands.

## Main results

* `of_element`: a call that is cut out is held inside its region;
* `exists_regions_of_elements`: calls at a table of offsets stand one behind the other;
* `exists_regions_of_split`: so do the calls of a block, behind the number of calls;
* `add_sum_length_le`: with their lengths they fit into what is behind that number;
* `add_length_le_of_mem_split`: so does each of them.
-/

namespace RouterCalldata.Multicall

open Decoded

/-- A call, and where its length word stands. -/
structure Region where
  start : Nat
  call : Bytes

namespace Region

/-- The bytes of a call and of its length word. -/
def size (r : Region) : Nat := wordSize + r.call.length

/-- The end of the call. -/
def stop (r : Region) : Nat := r.start + r.size

/-- The block holds the call behind its length. -/
def IsIn (r : Region) (params : Bytes) : Prop :=
  params.HoldsAt r.start ((Word.ofNat r.call.length).bytes ++ r.call)

variable {r : Region} {params : Bytes}

theorem IsIn.stop_le (h : r.IsIn params) : r.stop ≤ params.length := by
  have hle := h.length_le
  rwa [List.length_append, (Word.ofNat r.call.length).length_bytes] at hle

end Region

variable {params : Bytes} {calls : List Bytes}

/-! ## Single calls -/

/-- A call that is read from its region is held at the start of it, behind its
length. -/
theorem holdsAt_of_readCall {index : Nat} {region call : Bytes}
    (h : readCall index region = .ok call) :
    region.HoldsAt 0 ((Word.ofNat call.length).bytes ++ call) ∧ call.length < Offset.limit := by
  obtain ⟨len, hread, h⟩ := bind_eq_ok_iff.mp h
  split at h
  · exact absurd h nofun
  · next hroom =>
    obtain rfl := Except.ok.inj h
    have hcall := Bytes.HoldsAt.of_take_drop (Nat.not_lt.mp hroom)
    have hlen : ((region.drop wordSize).take len).length = len := by
      rw [List.length_take, List.length_drop]
      omega
    rw [hlen]
    refine ⟨(Bytes.holdsAt_of_readOffset hread).append ?_, Bytes.readOffset_lt hread⟩
    rwa [(Word.ofNat len).length_bytes, Nat.zero_add]

/-- A call that is cut out is held inside its region, behind its length. -/
theorem of_element {index : Nat} {start? stop? : Option Nat} {call : Bytes}
    (h : element params index start? stop? = .ok call) :
    ∃ start stop, start? = some start ∧ stop? = some stop ∧
      (Region.mk start call).IsIn params ∧ (Region.mk start call).stop ≤ stop ∧
      call.length < Offset.limit := by
  rcases start? with _ | start
  · exact absurd h nofun
  · rcases stop? with _ | stop
    · exact absurd h nofun
    · rw [element_eq] at h
      split at h
      · next hrange =>
        obtain ⟨hin, hlt⟩ := holdsAt_of_readCall h
        have hregion : params.HoldsAt start ((params.drop start).take (stop - start)) :=
          .of_take_drop (by omega)
        refine ⟨start, stop, rfl, rfl, hregion.trans hin, ?_, hlt⟩
        have hle : 0 + (32 + call.length) ≤ min (stop - start) (params.length - start) := by
          have hle := hin.length_le
          rwa [List.length_append, (Word.ofNat call.length).length_bytes, List.length_take,
            List.length_drop] at hle
        show start + (32 + call.length) ≤ stop
        omega
      · exact absurd h nofun

/-! ## Calls at a table of offsets -/

/-- **Calls at a table of offsets stand one behind the other**, each at its own
offset.  The induction is on the offsets that are left: the first call ends
where the second one starts, and so before all others. -/
theorem exists_regions_of_elements {base index : Nat} {offsets : List Nat}
    (h : elements params base index offsets = .ok calls) :
    ∃ regions : List Region, regions.map Region.call = calls ∧
      regions.map Region.start = offsets.map (base + ·) ∧
      (∀ r ∈ regions, r.IsIn params ∧ r.call.length < Offset.limit) ∧
      regions.Pairwise fun r r' => r.stop ≤ r'.start := by
  induction offsets generalizing index calls with
  | nil =>
    obtain rfl := Except.ok.inj h
    exact ⟨[], rfl, rfl, nofun, .nil⟩
  | cons offset rest ih =>
    cases rest with
    | nil =>
      rw [elements_singleton] at h
      obtain ⟨call, hcall, h⟩ := bind_eq_ok_iff.mp h
      obtain rfl := Except.ok.inj h
      obtain ⟨start, stop, hstart, -, hin, -, hlt⟩ := of_element hcall
      obtain rfl := Offset.eq_of_checkedAdd hstart
      refine ⟨[⟨base + offset, call⟩], rfl, rfl, ?_, List.pairwise_singleton ..⟩
      rintro r hr
      obtain rfl := List.mem_singleton.mp hr
      exact ⟨hin, hlt⟩
    | cons next rest =>
      rw [elements_cons_cons] at h
      obtain ⟨call, hcall, h⟩ := bind_eq_ok_iff.mp h
      obtain ⟨others, hothers, h⟩ := bind_eq_ok_iff.mp h
      obtain rfl := Except.ok.inj h
      obtain ⟨start, stop, hstart, hstop, hin, hle, hlt⟩ := of_element hcall
      obtain rfl := Offset.eq_of_checkedAdd hstart
      obtain rfl := Offset.eq_of_checkedAdd hstop
      obtain ⟨regions, hregions, hstarts, hall, hpairwise⟩ := ih hothers
      refine ⟨⟨base + offset, call⟩ :: regions, ?_, ?_, ?_, ?_⟩
      · rw [List.map_cons, hregions]
      · rw [List.map_cons, hstarts]
        rfl
      · exact List.forall_mem_cons.mpr ⟨⟨hin, hlt⟩, hall⟩
      · refine List.pairwise_cons.mpr ⟨?_, hpairwise⟩
        obtain _ | ⟨second, regions⟩ := regions
        · exact nofun
        · have hsecond : second.start = base + next := (List.cons.inj hstarts).1
          have hlater := (List.pairwise_cons.mp hpairwise).1
          intro r hr
          rcases List.mem_cons.mp hr with rfl | hr
          · rw [hsecond]
            exact hle
          · have hnext := hlater r hr
            rw [Region.stop, hsecond] at hnext
            omega

/-- **The calls of a block stand one behind the other**, each at its own entry
of the table and all of them behind the number of calls. -/
theorem exists_regions_of_split {headWord : Nat} (h : split params headWord = .ok calls) :
    ∃ regions : List Region, regions.map Region.call = calls ∧
      (∀ i (hi : i < regions.length),
        Bytes.readOffset params (wordOffset (headWord + 1) + wordSize + wordSize * i) =
          .ok (regions[i].start - (wordOffset (headWord + 1) + wordSize))) ∧
      (∀ r ∈ regions, r.IsIn params ∧ r.call.length < Offset.limit ∧
        wordOffset (headWord + 1) + wordSize ≤ r.start) ∧
      (regions.Pairwise fun r r' => r.stop ≤ r'.start) ∧
      wordOffset (headWord + 1) + wordSize ≤ params.length := by
  rw [split_eq] at h
  obtain ⟨⟨base, count⟩, hcount, h⟩ := bind_eq_ok_iff.mp h
  obtain ⟨offsets, htable, h⟩ := bind_eq_ok_iff.mp h
  obtain ⟨rfl, -, -, hroom⟩ := of_readCount hcount
  obtain ⟨-, hentries⟩ := of_readTable htable
  obtain ⟨regions, hregions, hstarts, hall, hpairwise⟩ := exists_regions_of_elements h
  have hlen : regions.length = offsets.length := by
    have hlen := congrArg List.length hstarts
    rwa [List.length_map, List.length_map] at hlen
  have hstart : ∀ i (hi : i < regions.length),
      regions[i].start = wordOffset (headWord + 1) + wordSize + offsets[i] := by
    intro i hi
    have hget := List.getElem_of_eq hstarts (show i < (regions.map Region.start).length by
      rwa [List.length_map])
    rwa [List.getElem_map, List.getElem_map] at hget
  refine ⟨regions, hregions, ?_, ?_, hpairwise, Nat.le_trans (Nat.le_add_right ..) hroom⟩
  · intro i hi
    rw [hstart i hi, Nat.add_sub_cancel_left]
    exact hentries i (hlen ▸ hi)
  · intro r hr
    obtain ⟨i, hi, rfl⟩ := List.mem_iff_getElem.mp hr
    refine ⟨(hall _ hr).1, (hall _ hr).2, ?_⟩
    rw [hstart i hi]
    exact Nat.le_add_right ..

/-! ## Sizes -/

/-- Calls one behind the other fit into what they stand in.  The induction is on
the calls that are left, which stand behind the end of those before. -/
theorem add_sum_size_le {regions : List Region} {low high : Nat} (hle : low ≤ high)
    (hlow : ∀ r ∈ regions, low ≤ r.start) (hhigh : ∀ r ∈ regions, r.stop ≤ high)
    (hpairwise : regions.Pairwise fun r r' => r.stop ≤ r'.start) :
    low + (regions.map Region.size).sum ≤ high := by
  induction regions generalizing low with
  | nil => exact hle
  | cons r rest ih =>
    obtain ⟨hbehind, hrest⟩ := List.pairwise_cons.mp hpairwise
    have hfirst := hlow r List.mem_cons_self
    have hothers := ih (hhigh r List.mem_cons_self) hbehind
      (fun r' hr' => hhigh r' (List.mem_cons_of_mem r hr')) hrest
    rw [Region.stop] at hothers
    rw [List.map_cons, List.sum_cons]
    omega

/-- The calls of a block, with their lengths, fit into what is behind the number
of calls. -/
theorem add_sum_length_le {headWord : Nat} (h : split params headWord = .ok calls) :
    wordOffset (headWord + 1) + wordSize + (calls.map fun call => wordSize + call.length).sum ≤
      params.length := by
  obtain ⟨regions, rfl, -, hall, hpairwise, hroom⟩ := exists_regions_of_split h
  have hsum := add_sum_size_le hroom (fun r hr => (hall r hr).2.2)
    (fun r hr => (hall r hr).1.stop_le) hpairwise
  rwa [List.map_map]

/-- Whatever the block holds, a call that is split off stands behind the number of
calls and behind its own length. -/
theorem add_length_le_of_mem_split {headWord : Nat} (h : split params headWord = .ok calls)
    {call : Bytes} (hcall : call ∈ calls) :
    call.length < Offset.limit ∧
      wordOffset (headWord + 1) + wordSize + (wordSize + call.length) ≤ params.length := by
  obtain ⟨regions, rfl, -, hall, -⟩ := exists_regions_of_split h
  obtain ⟨r, hr, rfl⟩ := List.mem_map.mp hcall
  obtain ⟨hin, hlimit, hstart⟩ := hall r hr
  have hstop : r.start + (wordSize + r.call.length) ≤ params.length := hin.stop_le
  exact ⟨hlimit, by omega⟩

/-- So it is shorter than the block. -/
theorem length_of_mem_split {headWord : Nat} (h : split params headWord = .ok calls) {call : Bytes}
    (hcall : call ∈ calls) : call.length < Offset.limit ∧ call.length < params.length := by
  obtain ⟨hlimit, hroom⟩ := add_length_le_of_mem_split h hcall
  have hroom : _ + 32 + (32 + call.length) ≤ params.length := hroom
  exact ⟨hlimit, by omega⟩

end RouterCalldata.Multicall
