import TypedMessage.Word

/- Keccak-256 with the plain padding: one bit after the message, one at the
   end of the last block. The state is a 5 by 5 square of 64-bit lanes, lane
   (x, y) at index x + 5 y; a block is 136 bytes, read into the first 17 lanes
   with the low byte first. -/
namespace TypedMessage.Keccak

/-- A state of 25 lanes. -/
abbrev State := Vector UInt64 25

/-- The lane in column `x` and row `y`, both modulo five. -/
def lane (s : State) (x y : Nat) : UInt64 :=
  s.get ⟨x % 5 + 5 * (y % 5), by omega⟩

/-- The state with the lane of column `x` and row `y` given by `f x y`. -/
def tabulate (f : Nat → Nat → UInt64) : State :=
  Vector.ofFn fun i : Fin 25 => f (i.val % 5) (i.val / 5)

/-- Rotation toward the high end by `n` modulo 64 places. -/
def rotate (w : UInt64) (n : Nat) : UInt64 :=
  if n % 64 = 0 then w
  else (w <<< UInt64.ofNat (n % 64)) ||| (w >>> UInt64.ofNat (64 - n % 64))

/-- The parity of column `x`. -/
def columnParity (s : State) (x : Nat) : UInt64 :=
  lane s x 0 ^^^ lane s x 1 ^^^ lane s x 2 ^^^ lane s x 3 ^^^ lane s x 4

/-- Each lane takes up the parities of two neighbouring columns. -/
def theta (s : State) : State :=
  let parity : Vector UInt64 5 := Vector.ofFn fun x : Fin 5 => columnParity s x.val
  let column (x : Nat) : UInt64 := parity.get ⟨x % 5, by omega⟩
  tabulate fun x y => lane s x y ^^^ column (x + 4) ^^^ rotate (column (x + 1)) 1

/-- Rotation amounts, in the order of the lanes. -/
def rotations : Vector Nat 25 :=
  #v[0, 1, 62, 28, 27, 36, 44, 6, 55, 20, 3, 10, 43, 25, 39, 41, 45, 15, 21, 8, 18, 2, 61, 56, 14]

/-- Each lane is rotated and moved: position (x, y) receives lane (x + 3 y, x). -/
def rhoPi (s : State) : State :=
  tabulate fun x y =>
    rotate (lane s (x + 3 * y) x) (rotations.get ⟨(x + 3 * y) % 5 + 5 * (x % 5), by omega⟩)

/-- The one step that is not linear, along each row. -/
def chi (s : State) : State :=
  tabulate fun x y => lane s x y ^^^ (~~~ lane s (x + 1) y &&& lane s (x + 2) y)

/-- The constants that tell the rounds apart. -/
def roundConstants : List UInt64 :=
  [0x0000000000000001, 0x0000000000008082, 0x800000000000808a, 0x8000000080008000,
   0x000000000000808b, 0x0000000080000001, 0x8000000080008081, 0x8000000000008009,
   0x000000000000008a, 0x0000000000000088, 0x0000000080008009, 0x000000008000000a,
   0x000000008000808b, 0x800000000000008b, 0x8000000000008089, 0x8000000000008003,
   0x8000000000008002, 0x8000000000000080, 0x000000000000800a, 0x800000008000000a,
   0x8000000080008081, 0x8000000000008080, 0x0000000080000001, 0x8000000080008008]

/-- One round. -/
def round (s : State) (constant : UInt64) : State :=
  let t := chi (rhoPi (theta s))
  t.set 0 (t[0] ^^^ constant)

/-- The permutation of states: twenty-four rounds. -/
def permute (s : State) : State := roundConstants.foldl round s

/-- Bytes to a block. -/
def rate : Nat := 136

/-- The message followed by its padding, a whole number of blocks long. -/
def pad (m : Bytes) : Bytes :=
  let free := rate - m.length % rate
  if free = 1 then m ++ [0x81]
  else m ++ 0x01 :: List.replicate (free - 2) 0 ++ [0x80]

/-- The number spelled by bytes, low byte first. -/
def littleEndian (bs : Bytes) : Nat := bs.foldr (fun b n => b.toNat + 256 * n) 0

/-- The state with a block added to its first lanes. -/
def absorb (s : State) (block : Bytes) : State :=
  permute (tabulate fun x y =>
    lane s x y ^^^ UInt64.ofNat (littleEndian ((block.drop (8 * (x + 5 * y))).take 8)))

/-- The blocks of a padded message, absorbed one after the other. -/
def absorbAll (s : State) : (blocks : Nat) → Bytes → State
  | 0, _ => s
  | n + 1, m => absorbAll (absorb s (m.take rate)) n (m.drop rate)

/-- The eight bytes of a lane, low byte first. -/
def laneBytes (w : UInt64) : Bytes := (bigEndian 8 w.toNat).reverse

end TypedMessage.Keccak

namespace TypedMessage

open Keccak in
/-- Keccak-256. -/
def keccak256 (m : Bytes) : Word :=
  let padded := pad m
  let s := absorbAll (Vector.replicate 25 0) (padded.length / rate) padded
  ⟨laneBytes (lane s 0 0) ++ laneBytes (lane s 1 0) ++ laneBytes (lane s 2 0) ++
    laneBytes (lane s 3 0), by simp [laneBytes]⟩

end TypedMessage
