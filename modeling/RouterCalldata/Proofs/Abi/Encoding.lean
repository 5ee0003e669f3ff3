import RouterCalldata.Proofs.Bytes.Holding

/-!
# The canonical encoding of arguments

A list of values is written as its heads followed by its tails.  A value of fixed width stands in
the heads; a value of any other width stands in the tails, and its head is the word of its offset,
counted from the first head.  Tails follow one another without gaps, in the order of the values.

An array of values is its length followed by such a list, a string of bytes its length followed
by the bytes, padded to whole words.  A tuple is such a list by itself, and stands in the heads if
all its values do.

## Main definitions

* `Encoded`: an encoded value, which knows whether it stands in the tails;
* `components`: heads and tails of a list of values;
* `uint`, `address`, `bytes`, `array`, `tuple`: the values that calls are made of.

## Main results

* `holdsAt_head`: a value of fixed width is held at its place in the heads;
* `holdsAt_offset`, `holdsAt_tail`: the head of any other value holds the offset at which the
  value itself is held;
* `components_singleton`: a single value of fixed width is written as it is.
-/

namespace RouterCalldata.Abi

/-- The bytes of a value, and whether they stand in the tails. -/
structure Encoded where
  dynamic : Bool
  bytes : Bytes

namespace Encoded

/-- The bytes that a value takes up in the heads. -/
def headSize (v : Encoded) : Nat :=
  if v.dynamic then wordSize else v.bytes.length

/-- The bytes that a value adds to the tails. -/
def tail (v : Encoded) : Bytes :=
  if v.dynamic then v.bytes else []

/-- The head of a value whose tail stands at `offset`. -/
def head (v : Encoded) (offset : Nat) : Bytes :=
  if v.dynamic then (Word.ofNat offset).bytes else v.bytes

@[simp] theorem length_head (v : Encoded) (offset : Nat) : (v.head offset).length = v.headSize := by
  unfold head headSize
  split
  · exact (Word.ofNat offset).length_bytes
  · rfl

end Encoded

/-! ## Heads and tails -/

/-- The bytes that a list of values takes up in the heads. -/
def headsSize : List Encoded → Nat
  | [] => 0
  | v :: vs => v.headSize + headsSize vs

/-- The tails of a list of values. -/
def tails (vs : List Encoded) : Bytes :=
  vs.flatMap Encoded.tail

/-- The heads of a list of values whose tails start at `offset`. -/
def heads : Nat → List Encoded → Bytes
  | _, [] => []
  | offset, v :: vs => v.head offset ++ heads (offset + v.tail.length) vs

/-- The canonical encoding of a list of values: their heads and then their
tails. -/
def components (vs : List Encoded) : Bytes :=
  heads (headsSize vs) vs ++ tails vs

@[simp] theorem headsSize_append (xs ys : List Encoded) :
    headsSize (xs ++ ys) = headsSize xs + headsSize ys := by
  induction xs with
  | nil => exact (Nat.zero_add _).symm
  | cons x xs ih => rw [List.cons_append, headsSize, headsSize, ih, Nat.add_assoc]

theorem headsSize_eq_mul {vs : List Encoded} (h : ∀ v ∈ vs, v.headSize = wordSize) :
    headsSize vs = wordSize * vs.length := by
  induction vs with
  | nil => rfl
  | cons v vs ih =>
    have hvs := ih fun v' hv' => h v' (List.mem_cons_of_mem v hv')
    rw [headsSize, h v List.mem_cons_self, hvs, List.length_cons, Nat.mul_succ, Nat.add_comm]

@[simp] theorem tails_append (xs ys : List Encoded) : tails (xs ++ ys) = tails xs ++ tails ys :=
  List.flatMap_append

theorem heads_append (offset : Nat) (xs ys : List Encoded) :
    heads offset (xs ++ ys) = heads offset xs ++ heads (offset + (tails xs).length) ys := by
  induction xs generalizing offset with
  | nil => rfl
  | cons x xs ih =>
    have htails : (tails (x :: xs)).length = x.tail.length + (tails xs).length := by
      rw [tails, List.flatMap_cons, List.length_append, tails]
    rw [List.cons_append, heads, heads, ih, htails, List.append_assoc, Nat.add_assoc]

@[simp] theorem length_heads (offset : Nat) (vs : List Encoded) :
    (heads offset vs).length = headsSize vs := by
  induction vs generalizing offset with
  | nil => rfl
  | cons v vs ih => simp [heads, headsSize, ih]

theorem length_components (vs : List Encoded) :
    (components vs).length = headsSize vs + (tails vs).length := by
  rw [components, List.length_append, length_heads]

/-! ## Where a value is found -/

section Found

variable (xs : List Encoded) (v : Encoded) (ys : List Encoded)

/-- The offset of the tail of the value between `xs` and `ys`. -/
def tailOffset : Nat :=
  headsSize (xs ++ v :: ys) + (tails xs).length

theorem holdsAt_headBytes :
    (components (xs ++ v :: ys)).HoldsAt (headsSize xs) (v.head (tailOffset xs v ys)) := by
  have hheads : (components (xs ++ v :: ys)).HoldsAt 0
      (heads (headsSize (xs ++ v :: ys)) xs ++
        heads (tailOffset xs v ys) (v :: ys)) := by
    rw [tailOffset, ← heads_append]
    exact .start _ _
  have hrest := hheads.right
  rw [length_heads, Nat.zero_add, heads] at hrest
  exact hrest.left

variable {v}

/-- A value of fixed width is held at its place in the heads. -/
theorem holdsAt_head (hv : v.dynamic = false) :
    (components (xs ++ v :: ys)).HoldsAt (headsSize xs) v.bytes := by
  have h := holdsAt_headBytes xs v ys
  rwa [Encoded.head, hv] at h

/-- The head of any other value holds the offset of the value. -/
theorem holdsAt_offset (hv : v.dynamic = true) :
    (components (xs ++ v :: ys)).HoldsAt (headsSize xs)
      (Word.ofNat (tailOffset xs v ys)).bytes := by
  have h := holdsAt_headBytes xs v ys
  rwa [Encoded.head, hv] at h

/-- A value that is not of fixed width is held at its offset. -/
theorem holdsAt_tail (hv : v.dynamic = true) :
    (components (xs ++ v :: ys)).HoldsAt (tailOffset xs v ys) v.bytes := by
  have htail : v.tail = v.bytes := by rw [Encoded.tail, hv]; rfl
  have hwhole : (components (xs ++ v :: ys)).HoldsAt 0
      (heads (headsSize (xs ++ v :: ys)) (xs ++ v :: ys) ++
        (tails xs ++ (v.bytes ++ tails ys))) := by
    have hsplit : tails (xs ++ v :: ys) = tails xs ++ (v.bytes ++ tails ys) := by
      rw [tails_append, ← htail]
      rfl
    rw [← hsplit]
    exact ⟨[], [], rfl, (List.append_nil _).symm⟩
  have h := hwhole.right.right.left
  rwa [length_heads, Nat.zero_add] at h

end Found

/-! ## The values that calls are made of -/

/-- A value of one word. -/
def word (w : Word) : Encoded := ⟨false, w.bytes⟩

/-- A number. -/
def uint (n : Nat) : Encoded := word (.ofNat n)

/-- An address. -/
def address (a : Address) : Encoded := word (.ofAddress a)

/-- The zero bytes that fill the last word of `len` bytes up. -/
def padding (len : Nat) : Bytes :=
  List.replicate ((wordSize - len % wordSize) % wordSize) 0

/-- A string of bytes of any length. -/
def bytes (bs : Bytes) : Encoded :=
  ⟨true, (Word.ofNat bs.length).bytes ++ (bs ++ padding bs.length)⟩

/-- An array of values. -/
def array (vs : List Encoded) : Encoded :=
  ⟨true, (Word.ofNat vs.length).bytes ++ components vs⟩

/-- A tuple of values, which has a fixed width if all of them have. -/
def tuple (vs : List Encoded) : Encoded := ⟨vs.any Encoded.dynamic, components vs⟩

@[simp] theorem headSize_word (w : Word) : (word w).headSize = wordSize := w.length_bytes

@[simp] theorem address_dynamic (a : Address) : (address a).dynamic = false := rfl

@[simp] theorem array_dynamic (vs : List Encoded) : (array vs).dynamic = true := rfl

@[simp] theorem bytes_dynamic (bs : Bytes) : (bytes bs).dynamic = true := rfl

/-- A single value of fixed width is written as it is. -/
theorem components_singleton {v : Encoded} (hv : v.dynamic = false) : components [v] = v.bytes := by
  have hhead : v.head (headsSize [v]) = v.bytes := by
    rw [Encoded.head, hv]
    rfl
  have htail : v.tail = [] := by
    rw [Encoded.tail, hv]
    rfl
  simp only [components, heads, hhead, tails, List.flatMap_cons, htail, List.flatMap_nil,
    List.append_nil]

end RouterCalldata.Abi
