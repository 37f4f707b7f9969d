import Calldata.Identifier

/-!
# SHA3-256

The hash of FIPS 202 with a digest of 256 bits. A state is 25 lanes of 64 bits, the lane of
column `x` and row `y` at index `x + 5 * y`. The message is absorbed in blocks of 136 bytes.
-/

namespace Calldata.Sha3

abbrev Lanes := Array UInt64

/-- The lane of a column and a row, both modulo five. -/
def lane (a : Lanes) (x y : Nat) : UInt64 := a.getD (x % 5 + 5 * (y % 5)) 0

/-- The state with this lane in each column and row. -/
def ofLanes (f : (x y : Nat) → UInt64) : Lanes :=
  (Array.range 25).map fun i => f (i % 5) (i / 5)

def rotateLeft (w : UInt64) (n : Nat) : UInt64 :=
  (w <<< UInt64.ofNat n) ||| (w >>> UInt64.ofNat (64 - n))

/-! ## The permutation -/

/-- Adds to each lane the parities of two neighbour columns. -/
def theta (a : Lanes) : Lanes :=
  let parity := (Array.range 5).map fun x =>
    lane a x 0 ^^^ lane a x 1 ^^^ lane a x 2 ^^^ lane a x 3 ^^^ lane a x 4
  let column (x : Nat) := parity.getD (x % 5) 0
  ofLanes fun x y => lane a x y ^^^ column (x + 4) ^^^ rotateLeft (column (x + 1)) 1

/-- How far each lane is rotated. -/
def offsets : Array Nat :=
  #[0, 1, 62, 28, 27, 36, 44, 6, 55, 20, 3, 10, 43, 25, 39, 41, 45, 15, 21, 8, 18, 2, 61, 56, 14]

def rho (a : Lanes) : Lanes :=
  ofLanes fun x y => rotateLeft (lane a x y) (offsets.getD (x + 5 * y) 0)

def pi (a : Lanes) : Lanes := ofLanes fun x y => lane a (x + 3 * y) x

/-- Mixes each lane with the next two of its row. -/
def chi (a : Lanes) : Lanes :=
  ofLanes fun x y => lane a x y ^^^ (~~~ lane a (x + 1) y &&& lane a (x + 2) y)

def iota (c : UInt64) (a : Lanes) : Lanes := a.modify 0 (· ^^^ c)

def roundConstants : List UInt64 := [
  0x0000000000000001, 0x0000000000008082, 0x800000000000808A, 0x8000000080008000,
  0x000000000000808B, 0x0000000080000001, 0x8000000080008081, 0x8000000000008009,
  0x000000000000008A, 0x0000000000000088, 0x0000000080008009, 0x000000008000000A,
  0x000000008000808B, 0x800000000000008B, 0x8000000000008089, 0x8000000000008003,
  0x8000000000008002, 0x8000000000000080, 0x000000000000800A, 0x800000008000000A,
  0x8000000080008081, 0x8000000000008080, 0x0000000080000001, 0x8000000080008008]

def permute (a : Lanes) : Lanes :=
  roundConstants.foldl (fun a c => iota c (chi (pi (rho (theta a))))) a

/-! ## The sponge -/

/-- The bytes of a block. -/
def rate : Nat := 136

/-- What stands behind a message so that it fills whole blocks. -/
def padding (length : Nat) : Bytes :=
  match rate - length % rate with
  | 0 | 1 => [0x86]
  | room + 2 => 0x06 :: zeros room ++ [0x80]

/-- The lane of up to eight bytes, least significant first. -/
def laneOfBytes (bs : Bytes) : UInt64 := bs.foldr (fun b w => (w <<< 8) ||| b.toUInt64) 0

/-- The eight bytes of a lane, least significant first. -/
def laneBytes (w : UInt64) : Bytes :=
  (List.range 8).map fun i => (w >>> UInt64.ofNat (8 * i)).toUInt8

/-- Adds a block to a state and permutes it. -/
def absorbBlock (a : Lanes) (block : Bytes) : Lanes :=
  permute <| ofLanes fun x y =>
    lane a x y ^^^ laneOfBytes ((block.drop (8 * (x + 5 * y))).take 8)

/-- Absorbs `count` blocks. -/
def absorb : (count : Nat) → Lanes → Bytes → Lanes
  | 0, a, _ => a
  | count + 1, a, message => absorb count (absorbBlock a (message.take rate)) (message.drop rate)

def squeeze (a : Lanes) : Bytes := (List.range 4).flatMap fun x => laneBytes (lane a x 0)

theorem length_squeeze (a : Lanes) : (squeeze a).length = IdKind.hash.size := rfl

def digest (message : Bytes) : Identifier .hash :=
  let padded := message ++ padding message.length
  let start := Array.replicate 25 0
  ⟨squeeze (absorb (padded.length / rate) start padded), length_squeeze _⟩

end Calldata.Sha3
