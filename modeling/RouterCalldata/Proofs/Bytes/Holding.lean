import RouterCalldata.Proofs.Bytes.Values
import RouterCalldata.Proofs.Decoded

/-!
# What a buffer holds

An encoder says which bytes stand where in a buffer, a reader asks for the bytes at a place.
`HoldsAt` is what they share: the buffer holds these bytes at this offset.  A held string of
bytes falls apart into its pieces, each at its own offset, until a piece is a word that one of
the readers takes.

A buffer is held in memory, so its length is a number of 64 bits; no reader fails on a position
inside such a buffer.

## Main definitions

* `Bytes.HoldsAt`: a buffer holds given bytes at an offset.

## Main results

* `HoldsAt.slice`, `HoldsAt.take_drop`: a cut finds what is held there;
* `HoldsAt.readUint`, `HoldsAt.readAddress`, `HoldsAt.readOffset`, `HoldsAt.readUintRange`: each
  reader gives back what the word was made of;
* `holdsAt_of_slice`, `holdsAt_of_readOffset`: what is read is held.
-/

namespace RouterCalldata

namespace Offset

/-- Where a checked sum is given, it is the sum. -/
theorem eq_of_checkedAdd {a b sum : Nat} (h : checkedAdd a b = some sum) : sum = a + b := by
  rw [checkedAdd] at h
  split at h
  · exact (Option.some.inj h).symm
  · exact absurd h nofun

theorem eq_of_checkedMul {a b product : Nat} (h : checkedMul a b = some product) :
    product = a * b := by
  rw [checkedMul] at h
  split at h
  · exact (Option.some.inj h).symm
  · exact absurd h nofun

theorem eq_of_add {a b sum : Nat} (h : add a b = .ok sum) : sum = a + b := by
  rw [add] at h
  split at h
  · exact (Except.ok.inj h).symm
  · exact absurd h nofun

theorem eq_of_mul {a b product : Nat} (h : mul a b = .ok product) : product = a * b := by
  rw [mul] at h
  split at h
  · exact (Except.ok.inj h).symm
  · exact absurd h nofun

end Offset

namespace Bytes

/-- The position of a word is not reduced where it lies in a buffer. -/
theorem wordOffset_eq {buf : Bytes} {index : Nat} (h : wordSize * index ≤ buf.length)
    (hfit : buf.length < Offset.limit) : wordOffset index = wordSize * index := by
  rw [wordOffset, Nat.mul_comm]
  exact Nat.mod_eq_of_lt (Nat.lt_of_le_of_lt h hfit)

@[simp] theorem wordOffset_zero : wordOffset 0 = 0 := rfl

/-! ## What a reader gives -/

theorem length_of_window {buf region : Bytes} {start stop : Nat}
    (h : window buf start stop = .ok region) :
    start ≤ stop ∧ stop ≤ buf.length ∧ region.length = stop - start := by
  unfold window at h
  split at h
  · next hrange =>
    obtain rfl := Except.ok.inj h
    refine ⟨hrange.1, hrange.2, ?_⟩
    rw [List.length_take, List.length_drop]
    omega
  · exact absurd h nofun

theorem length_of_slice {buf bs : Bytes} {start len : Nat} (h : slice buf start len = .ok bs) :
    start + len ≤ buf.length ∧ bs.length = len := by
  unfold slice at h
  split at h
  · exact absurd h nofun
  · next stop hstop =>
    obtain rfl := Offset.eq_of_checkedAdd hstop
    split at h
    · next hle =>
      obtain rfl := Except.ok.inj h
      refine ⟨hle, ?_⟩
      rw [List.length_take, List.length_drop]
      omega
    · exact absurd h nofun

/-- A cut inside a buffer that is held in memory succeeds. -/
theorem slice_eq_ok {buf : Bytes} {start len : Nat} (hfit : buf.length < Offset.limit)
    (h : start + len ≤ buf.length) : slice buf start len = .ok ((buf.drop start).take len) := by
  have hadd : Offset.checkedAdd start len = some (start + len) :=
    if_pos (Nat.lt_of_le_of_lt h hfit)
  simp only [slice, hadd, if_pos h]

/-- A word that is read as a position is a number of 64 bits. -/
theorem readOffset_lt {buf : Bytes} {offset n : Nat} (h : readOffset buf offset = .ok n) :
    n < Offset.limit := by
  rw [readOffset] at h
  obtain ⟨w, hw, hn⟩ := Decoded.bind_eq_ok_iff.mp h
  have hlen : (w.drop 24).length = 8 := by
    rw [List.length_drop, (length_of_slice hw).2]
    rfl
  have hlt := toNat_lt (w.drop 24)
  rw [hlen] at hlt
  split at hn
  · exact absurd hn nofun
  · obtain rfl := Except.ok.inj hn
    exact hlt

/-- Bytes that are no more than a word are filled up to one. -/
theorem padWord_eq_ok {bs : Bytes} (h : bs.length ≤ wordSize) :
    padWord bs = .ok (List.replicate (wordSize - bs.length) 0 ++ bs) := by
  rw [padWord, Offset.sub, if_pos h]
  rfl

/-! ## Held bytes -/

/-- The buffer holds the bytes `bs` at `offset`. -/
def HoldsAt (buf : Bytes) (offset : Nat) (bs : Bytes) : Prop :=
  ∃ before behind, before.length = offset ∧ buf = before ++ (bs ++ behind)

namespace HoldsAt

variable {buf : Bytes} {offset : Nat} {bs : Bytes}

theorem start (bs behind : Bytes) : HoldsAt (bs ++ behind) 0 bs := ⟨[], behind, rfl, rfl⟩

/-- The first piece of what is held is held at the same offset. -/
theorem left {first second : Bytes} (h : HoldsAt buf offset (first ++ second)) :
    HoldsAt buf offset first := by
  obtain ⟨before, behind, rfl, rfl⟩ := h
  exact ⟨before, second ++ behind, rfl, by simp⟩

/-- The second piece of what is held is held behind the first. -/
theorem right {first second : Bytes} (h : HoldsAt buf offset (first ++ second)) :
    HoldsAt buf (offset + first.length) second := by
  obtain ⟨before, behind, rfl, rfl⟩ := h
  exact ⟨before ++ first, behind, List.length_append, by simp⟩

theorem length_le (h : HoldsAt buf offset bs) : offset + bs.length ≤ buf.length := by
  obtain ⟨before, behind, rfl, rfl⟩ := h
  simp only [List.length_append]
  omega

/-- What stands between two positions of a buffer is held. -/
theorem of_take_drop {start len : Nat} (h : start + len ≤ buf.length) :
    HoldsAt buf start ((buf.drop start).take len) := by
  refine ⟨buf.take start, buf.drop (start + len), ?_, ?_⟩
  · exact List.length_take_of_le (by omega)
  · rw [← List.drop_drop, List.take_append_drop, List.take_append_drop]

/-- Only one string of bytes of a given length is held at an offset. -/
theorem eq_take_drop (h : HoldsAt buf offset bs) : (buf.drop offset).take bs.length = bs := by
  obtain ⟨before, behind, rfl, rfl⟩ := h
  rw [List.drop_left' rfl, List.take_left' rfl]

/-- Two pieces that are held one behind the other are held as one. -/
theorem append {first second : Bytes} (h : HoldsAt buf offset first)
    (h' : HoldsAt buf (offset + first.length) second) : HoldsAt buf offset (first ++ second) := by
  have hle := h'.length_le
  have hboth : HoldsAt buf offset ((buf.drop offset).take (first.length + second.length)) :=
    of_take_drop (by omega)
  rwa [List.take_add, List.drop_drop, h.eq_take_drop, h'.eq_take_drop] at hboth

/-- What is held inside something that is held is held by the whole buffer. -/
theorem trans {inner : Bytes} {position : Nat} (h : HoldsAt buf offset bs)
    (hinner : HoldsAt bs position inner) : HoldsAt buf (offset + position) inner := by
  obtain ⟨before, behind, rfl, rfl⟩ := h
  obtain ⟨before', behind', rfl, rfl⟩ := hinner
  exact ⟨before ++ before', behind' ++ behind, List.length_append, by simp⟩

/-- What is held behind a position is held by the rest of the buffer from there
on. -/
theorem drop {start position : Nat} (h : HoldsAt buf (start + position) bs) :
    HoldsAt (buf.drop start) position bs := by
  obtain ⟨before, behind, hlen, rfl⟩ := h
  refine ⟨before.drop start, behind, ?_, ?_⟩
  · rw [List.length_drop, hlen, Nat.add_sub_cancel_left]
  · exact List.drop_append_of_le_length (by omega)

/-- A cut finds what is held there. -/
theorem slice (h : HoldsAt buf offset bs) (hfit : buf.length < Offset.limit) :
    Bytes.slice buf offset bs.length = .ok bs := by
  rw [slice_eq_ok hfit h.length_le, h.eq_take_drop]

/-- A cut that starts with what is held holds it at its own start. -/
theorem take_drop (h : HoldsAt buf offset bs) {len : Nat} (hlen : bs.length ≤ len) :
    HoldsAt ((buf.drop offset).take len) 0 bs := by
  obtain ⟨before, behind, rfl, rfl⟩ := h
  refine ⟨[], behind.take (len - bs.length), rfl, ?_⟩
  rw [List.drop_left' rfl, List.take_append, List.take_of_length_le hlen]
  rfl

/-! ## Words -/

variable {w : Word}

theorem word (h : HoldsAt buf offset w.bytes) (hfit : buf.length < Offset.limit) :
    Bytes.word buf offset = .ok w.bytes := by
  have hcut := h.slice hfit
  rwa [w.length_bytes] at hcut

theorem readUint {n : Uint256} (h : HoldsAt buf offset (Word.ofNat n).bytes)
    (hfit : buf.length < Offset.limit) : Bytes.readUint buf offset = .ok (Nat.repr n) := by
  rw [Bytes.readUint, h.word hfit, Decoded.ok_bind, Word.decimal_ofNat]
  rfl

theorem readAddress {a : Address} (h : HoldsAt buf offset (Word.ofAddress a).bytes)
    (hfit : buf.length < Offset.limit) : Bytes.readAddress buf offset = .ok a.text := by
  rw [Bytes.readAddress, h.word hfit, Decoded.ok_bind, Word.encode0x_ofAddress]
  rfl

/-- A number of 64 bits is read back as a position. -/
theorem readOffset {n : Nat} (h : HoldsAt buf offset (Word.ofNat n).bytes) (hn : n < Offset.limit)
    (hfit : buf.length < Offset.limit) : Bytes.readOffset buf offset = .ok n := by
  have hlimit : 256 ^ 8 = Offset.limit := by decide
  have hhigh : (Word.ofNat n).bytes.take 24 = List.replicate 24 0 := by
    have hcut := take_bigEndian 24 8 n
    rwa [hlimit, Nat.div_eq_of_lt hn, bigEndian_zero] at hcut
  have hlow : toNat ((Word.ofNat n).bytes.drop 24) = n := by
    have hcut := congrArg toNat (drop_bigEndian 24 8 n)
    rwa [toNat_bigEndian, hlimit, Nat.mod_eq_of_lt hn] at hcut
  rw [Bytes.readOffset, h.word hfit, Decoded.ok_bind, hhigh, hlow]
  rfl

/-- The low `len` bytes of the word of a number hold the number modulo what
fits in them. -/
theorem readUintRange {hi len n : Nat} (hlen : hi + len = wordSize)
    (h : HoldsAt buf offset (Word.ofNat n).bytes) (hfit : buf.length < Offset.limit) :
    Bytes.readUintRange buf (offset + hi) len = .ok (Nat.repr (n % 256 ^ len)) := by
  have hheld : HoldsAt buf (offset + hi) (bigEndian len n) := by
    have hwhole : (Word.ofNat n).bytes = bigEndian hi (n / 256 ^ len) ++ bigEndian len n := by
      rw [← bigEndian_add, hlen]
      rfl
    rw [hwhole] at h
    simpa using h.right
  have hcut := hheld.slice hfit
  rw [length_bigEndian] at hcut
  have hpad : padWord (bigEndian len n) = .ok (List.replicate hi 0 ++ bigEndian len n) := by
    have hzeros : wordSize - len = hi := by omega
    rw [padWord_eq_ok (by rw [length_bigEndian]; omega), length_bigEndian, hzeros]
  have hvalue : decimal (List.replicate hi 0 ++ bigEndian len n) = Nat.repr (n % 256 ^ len) := by
    rw [decimal, toNat_replicate_append, toNat_bigEndian]
  have hnarrow : ¬ wordSize < len := by omega
  simp only [Bytes.readUintRange, if_neg hnarrow, hcut, hpad, hvalue, Decoded.pure_eq_ok,
    Decoded.ok_bind]

end HoldsAt

/-! ## What a reader has found -/

theorem holdsAt_of_slice {buf bs : Bytes} {start len : Nat} (h : slice buf start len = .ok bs) :
    HoldsAt buf start bs := by
  have hle := (length_of_slice h).1
  rw [slice] at h
  split at h
  · exact absurd h nofun
  · split at h
    · obtain rfl := Except.ok.inj h
      exact .of_take_drop hle
    · exact absurd h nofun

/-- A word that is read as a position is the word of that number. -/
theorem holdsAt_of_readOffset {buf : Bytes} {offset n : Nat} (h : readOffset buf offset = .ok n) :
    HoldsAt buf offset (Word.ofNat n).bytes := by
  rw [readOffset] at h
  obtain ⟨w, hw, h⟩ := Decoded.bind_eq_ok_iff.mp h
  split at h
  · exact absurd h nofun
  · next hhigh =>
    obtain rfl := Except.ok.inj h
    have hlen : w.length = wordSize := (length_of_slice hw).2
    have hzero : w.take 24 = List.replicate 24 0 := by
      refine List.eq_replicate_iff.mpr ⟨List.length_take_of_le (by rw [hlen]; decide), ?_⟩
      intro b hb
      by_contra hne
      exact hhigh (List.any_eq_true.mpr ⟨b, hb, bne_iff_ne.mpr hne⟩)
    have hvalue : toNat (w.drop 24) = toNat w := by
      rw [← toNat_replicate_append 24, ← hzero, List.take_append_drop]
    have hword : (Word.ofNat (toNat w)).bytes = w := by
      have hwritten := bigEndian_toNat w
      rwa [hlen] at hwritten
    rw [hvalue, hword]
    exact holdsAt_of_slice hw

end Bytes

end RouterCalldata
