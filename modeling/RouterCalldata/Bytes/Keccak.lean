import RouterCalldata.Selector

/-!
# Keccak-256

The hash whose first four bytes, taken of a method's signature, are its
selector.  Input is absorbed in blocks of 136 bytes; the last block is filled
up with a byte 1, zeros and a top bit.

## Main definitions

* `permute`: the permutation of 25 lanes of 64 bits;
* `absorb`: the state after a list of blocks;
* `keccak256`: the hash of a byte string;
* `Selector.ofSignature`: the selector of a signature.
-/

namespace RouterCalldata.Keccak

/-- The 25 lanes; the lane of column `x` and row `y` is number `x + 5 * y`. -/
abbrev State := Array UInt64

/-- The constant added in each round. -/
def roundConstants : List UInt64 :=
  [0x0000000000000001, 0x0000000000008082, 0x800000000000808a, 0x8000000080008000,
    0x000000000000808b, 0x0000000080000001, 0x8000000080008081, 0x8000000000008009,
    0x000000000000008a, 0x0000000000000088, 0x0000000080008009, 0x000000008000000a,
    0x000000008000808b, 0x800000000000008b, 0x8000000000008089, 0x8000000000008003,
    0x8000000000008002, 0x8000000000000080, 0x000000000000800a, 0x800000008000000a,
    0x8000000080008081, 0x8000000000008080, 0x0000000080000001, 0x8000000080008008]

/-- How far each lane is turned. -/
def rotations : Array UInt64 :=
  #[0, 1, 62, 28, 27, 36, 44, 6, 55, 20, 3, 10, 43, 25, 39, 41, 45, 15, 21, 8, 18, 2, 61, 56, 14]

/-- A lane turned left. -/
def rotate (w n : UInt64) : UInt64 :=
  if n = 0 then w else (w <<< n) ||| (w >>> (64 - n))

/-- A state given lane by lane. -/
def tabulate (f : Nat → UInt64) : State :=
  ((List.range 25).map f).toArray

/-- A lane of a state. -/
def lane (s : State) (i : Nat) : UInt64 := s.getD i 0

/-- Adds to each lane the parities of two columns. -/
def theta (s : State) : State :=
  let parity := (List.range 5).map (fun x =>
    lane s x ^^^ lane s (x + 5) ^^^ lane s (x + 10) ^^^ lane s (x + 15) ^^^ lane s (x + 20))
    |>.toArray
  tabulate fun i =>
    lane s i ^^^ parity.getD ((i + 4) % 5) 0 ^^^ rotate (parity.getD ((i + 1) % 5) 0) 1

/-- Turns the lanes and moves each one to its place: the lane of column `x` and
row `y` comes from column `x + 3 * y` and row `x`. -/
def rhoPi (s : State) : State :=
  tabulate fun i =>
    let x := i % 5
    let y := i / 5
    let source := (x + 3 * y) % 5 + 5 * x
    rotate (lane s source) (rotations.getD source 0)

/-- Mixes each lane with the two next to it in its row. -/
def chi (s : State) : State :=
  tabulate fun i =>
    let row := i / 5 * 5
    lane s i ^^^ (~~~ lane s (row + (i + 1) % 5) &&& lane s (row + (i + 2) % 5))

/-- One round. -/
def round (s : State) (constant : UInt64) : State :=
  let s := chi (rhoPi (theta s))
  tabulate fun i => if i = 0 then lane s 0 ^^^ constant else lane s i

/-- All rounds. -/
def permute (s : State) : State :=
  roundConstants.foldl round s

/-- Bytes absorbed at a time. -/
def rate : Nat := 136

/-- The number that eight bytes denote in little-endian order. -/
def laneOf (bs : Bytes) : UInt64 :=
  bs.foldr (fun b n => n <<< 8 ||| b.toUInt64) 0

/-- Adds a block to the state and permutes it. -/
def absorbBlock (s : State) (block : Bytes) : State :=
  permute (tabulate fun i =>
    if i < 17 then lane s i ^^^ laneOf ((block.drop (8 * i)).take 8) else lane s i)

/-- The last bytes of the input, fewer than a block, filled up to one. -/
def pad (bs : Bytes) : Bytes :=
  if bs.length + 1 = rate then bs ++ [0x81]
  else bs ++ 0x01 :: List.replicate (rate - 2 - bs.length) 0 ++ [0x80]

/-- The state after absorbing a byte string. -/
def absorb (s : State) (bs : Bytes) : State :=
  if rate ≤ bs.length then absorb (absorbBlock s (bs.take rate)) (bs.drop rate)
  else absorbBlock s (pad bs)
termination_by bs.length
decreasing_by simp [rate] at *; omega

/-- The bytes of a lane in little-endian order. -/
def laneBytes (w : UInt64) : Bytes :=
  (List.range 8).map fun i => (w >>> (8 * UInt64.ofNat i)).toUInt8

/-- The hash of a byte string. -/
def keccak256 (bs : Bytes) : Bytes :=
  let s := absorb (tabulate fun _ => 0) bs
  (List.range 4).flatMap fun i => laneBytes (lane s i)

end RouterCalldata.Keccak

namespace RouterCalldata

/-- The hash of a signature. -/
def signatureHash (signature : String) : Bytes :=
  Keccak.keccak256 (Hex.utf8 signature.toList)

/-- The first four bytes of the hash of a signature. -/
def Selector.ofSignature (signature : String) : Selector :=
  let hash := signatureHash signature
  ⟨hash.getD 0 0, hash.getD 1 0, hash.getD 2 0, hash.getD 3 0⟩

end RouterCalldata
