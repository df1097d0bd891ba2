import StableSupply.Digest

/-! # Keccak-256

The permutation acts on twenty-five 64-bit lanes, the lane in column `x` and row `y` at place
`x + 5 * y`. Its five steps are functions on whole states. -/

namespace StableSupply.Keccak

/-- The 1600 bits that are permuted, in 25 lanes. -/
abbrev State := Vector UInt64 25

namespace State

/-- The lane in column `x` and row `y`, both of which wrap around. -/
def lane (s : State) (x y : Nat) : UInt64 := s.get ⟨x % 5 + 5 * (y % 5), by omega⟩

def ofLanes (f : Nat → Nat → UInt64) : State := Vector.ofFn fun i => f (i.val % 5) (i.val / 5)

end State

/-- Rotates a lane. The amount is below 64. -/
def rotateLeft (a : UInt64) (n : UInt64) : UInt64 :=
  if n = 0 then a else a <<< n ||| a >>> (64 - n)

/-! ## Steps of a round -/

/-- Adds to every lane the parities of two columns beside it. -/
def theta (s : State) : State :=
  let parity : Vector UInt64 5 :=
    Vector.ofFn fun x => s.lane x 0 ^^^ s.lane x 1 ^^^ s.lane x 2 ^^^ s.lane x 3 ^^^ s.lane x 4
  let column (x : Nat) : UInt64 := parity.get ⟨x % 5, Nat.mod_lt _ (by decide)⟩
  let effect : Vector UInt64 5 :=
    Vector.ofFn fun x => column (x.val + 4) ^^^ rotateLeft (column (x.val + 1)) 1
  .ofLanes fun x y => s.lane x y ^^^ effect.get ⟨x % 5, Nat.mod_lt _ (by decide)⟩

/-- By how much the lane at each place is rotated. -/
def rotations : Vector UInt64 25 :=
  #v[0, 1, 62, 28, 27,
     36, 44, 6, 55, 20,
     3, 10, 43, 25, 39,
     41, 45, 15, 21, 8,
     18, 2, 61, 56, 14]

/-- Rotates every lane and moves the one at `(x, y)` to `(y, 2 * x + 3 * y)`. -/
def rhoPi (s : State) : State :=
  .ofLanes fun x y => rotateLeft (s.lane (x + 3 * y) x) (State.lane rotations (x + 3 * y) x)

/-- Combines each lane with the two that follow it in its row. The only step that is not linear. -/
def chi (s : State) : State :=
  .ofLanes fun x y => s.lane x y ^^^ (~~~(s.lane (x + 1) y) &&& s.lane (x + 2) y)

/-- Adds the constant of the round, by which the rounds differ. -/
def iota (constant : UInt64) (s : State) : State :=
  s.set 0 (s.lane 0 0 ^^^ constant)

def roundConstants : List UInt64 :=
  [0x0000000000000001, 0x0000000000008082, 0x800000000000808a, 0x8000000080008000,
   0x000000000000808b, 0x0000000080000001, 0x8000000080008081, 0x8000000000008009,
   0x000000000000008a, 0x0000000000000088, 0x0000000080008009, 0x000000008000000a,
   0x000000008000808b, 0x800000000000008b, 0x8000000000008089, 0x8000000000008003,
   0x8000000000008002, 0x8000000000000080, 0x000000000000800a, 0x800000008000000a,
   0x8000000080008081, 0x8000000000008080, 0x0000000080000001, 0x8000000080008008]

/-- The 24 rounds. -/
def permute (s : State) : State :=
  roundConstants.foldl (fun s constant => iota constant (chi (rhoPi (theta s)))) s

/-! ## Sponge -/

/-- Bytes taken in between two permutations. -/
def rate : Nat := 136

/-- Fills the last block up with a one bit, zeros and a final one bit. -/
def pad (message : Bytes) : Bytes :=
  let room := rate - message.length % rate
  if room = 1 then message ++ [0x81]
  else message ++ 0x01 :: List.replicate (room - 2) 0x00 ++ [0x80]

/-- The lane that bytes `8 * i` to `8 * i + 7` of a block make, least significant byte first. -/
def blockLane (block : Bytes) (i : Nat) : UInt64 :=
  UInt64.ofNat (Bytes.toNat ((block.drop (8 * i)).take 8).reverse)

/-- Adds a block to the lanes that take input, and permutes. -/
def absorbBlock (s : State) (block : Bytes) : State :=
  permute (.ofLanes fun x y => s.lane x y ^^^ blockLane block (x + 5 * y))

/-- Absorbs a number of blocks. -/
def absorb : (blocks : Nat) → State → Bytes → State
  | 0, s, _ => s
  | blocks + 1, s, bytes => absorb blocks (absorbBlock s (bytes.take rate)) (bytes.drop rate)

/-- The first 32 bytes of a state. -/
def squeeze (s : State) : Bytes :=
  [s.lane 0 0, s.lane 1 0, s.lane 2 0, s.lane 3 0].flatMap fun lane =>
    (Bytes.ofNat 8 lane.toNat).reverse

/-- The 32 bytes of the Keccak-256 digest. -/
def hashBytes (message : Bytes) : Bytes :=
  squeeze (absorb (message.length / rate + 1) (Vector.replicate 25 0) (pad message))

theorem length_hashBytes (message : Bytes) : (hashBytes message).length = 32 := by
  simp [hashBytes, squeeze, Bytes.length_ofNat]

/-- The digest of a byte string. -/
def hash (message : Bytes) : Hash :=
  ⟨(hashBytes message).toNat, Bytes.toNat_lt_of_length (length_hashBytes message)⟩

/-- Keccak-256 as the function that names slots and states. -/
abbrev digest : Digest := ⟨hash⟩

end StableSupply.Keccak
