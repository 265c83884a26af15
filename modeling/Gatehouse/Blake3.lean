import Gatehouse.Text.Numeral

/-! # The BLAKE3 hash

Thirty-two bytes for any byte string. The input is cut into chunks of 1024 bytes, each hashed
block by block; the chaining values of the chunks are joined pairwise in a tree whose left half
holds the greatest power of two of chunks that leaves some over. -/

namespace Gatehouse

namespace Blake3

/-- The initial chaining value. -/
def initial : Vector UInt32 8 :=
  #v[0x6A09E667, 0xBB67AE85, 0x3C6EF372, 0xA54FF53A, 0x510E527F, 0x9B05688C, 0x1F83D9AB, 0x5BE0CD19]

/-- The state of sixteen words. -/
abbrev State := Vector UInt32 16

/-- Turn a word right by `n` bits. -/
def rotateRight (x : UInt32) (n : UInt32) : UInt32 := (x >>> n) ||| (x <<< (32 - n))

/-- Mix two message words into a column or a diagonal. -/
def mix (v : State) (a b c d : Fin 16) (x y : UInt32) : State :=
  let v := v.set a (v[a] + v[b] + x)
  let v := v.set d (rotateRight (v[d] ^^^ v[a]) 16)
  let v := v.set c (v[c] + v[d])
  let v := v.set b (rotateRight (v[b] ^^^ v[c]) 12)
  let v := v.set a (v[a] + v[b] + y)
  let v := v.set d (rotateRight (v[d] ^^^ v[a]) 8)
  let v := v.set c (v[c] + v[d])
  v.set b (rotateRight (v[b] ^^^ v[c]) 7)

/-- Mix a block into the columns and then into the diagonals. -/
def round (v : State) (m : State) : State :=
  let v := mix v 0 4 8 12 m[0] m[1]
  let v := mix v 1 5 9 13 m[2] m[3]
  let v := mix v 2 6 10 14 m[4] m[5]
  let v := mix v 3 7 11 15 m[6] m[7]
  let v := mix v 0 5 10 15 m[8] m[9]
  let v := mix v 1 6 11 12 m[10] m[11]
  let v := mix v 2 7 8 13 m[12] m[13]
  mix v 3 4 9 14 m[14] m[15]

/-- The order in which a round's words are taken for the next round. -/
def permutation : Vector (Fin 16) 16 :=
  #v[2, 6, 3, 10, 7, 0, 4, 13, 1, 11, 12, 5, 9, 14, 15, 8]

/-- The words of a block in the order of the next round. -/
def permute (m : State) : State := permutation.map (fun i => m[i])

/-- Run `n` rounds. -/
def rounds : Nat → State → State → State
  | 0, v, _ => v
  | n + 1, v, m => rounds n (round v m) (permute m)

/-- What a block is: the marks that tell first, last, inner and outermost blocks apart. -/
structure Marks where
  chunkStart : Bool := false
  chunkEnd : Bool := false
  parent : Bool := false
  root : Bool := false
  deriving DecidableEq, Repr

/-- The marks as a word. -/
def Marks.word (k : Marks) : UInt32 :=
  (if k.chunkStart then 1 else 0) + (if k.chunkEnd then 2 else 0) + (if k.parent then 4 else 0) +
    (if k.root then 8 else 0)

/-- Fold one block of at most 64 bytes into a chaining value. -/
def compress (cv : Vector UInt32 8) (block : State) (counter : Nat) (length : Nat) (k : Marks) :
    Vector UInt32 8 :=
  let start : State :=
    #v[cv[0], cv[1], cv[2], cv[3], cv[4], cv[5], cv[6], cv[7],
      initial[0], initial[1], initial[2], initial[3],
      UInt32.ofNat (counter % UInt32.size), UInt32.ofNat (counter / UInt32.size),
      UInt32.ofNat length, k.word]
  let v := rounds 7 start block
  #v[v[0] ^^^ v[8], v[1] ^^^ v[9], v[2] ^^^ v[10], v[3] ^^^ v[11],
    v[4] ^^^ v[12], v[5] ^^^ v[13], v[6] ^^^ v[14], v[7] ^^^ v[15]]

/-- The sixteen little-endian words of a block, with zeros after its end. -/
def words (bytes : Array UInt8) (start : Nat) (stop : Nat) : State :=
  Vector.ofFn fun i =>
    let byte (j : Nat) : UInt32 :=
      if start + 4 * i.val + j < stop then (bytes.getD (start + 4 * i.val + j) 0).toUInt32 else 0
    byte 0 ||| (byte 1 <<< 8) ||| (byte 2 <<< 16) ||| (byte 3 <<< 24)

/-- Hash the blocks of a chunk; `n` counts those that are left. -/
def chunkBlocks (bytes : Array UInt8) (stop : Nat) (counter : Nat) (isRoot : Bool) :
    (n : Nat) → (start : Nat) → (first : Bool) → Vector UInt32 8 → Vector UInt32 8
  | 0, _, _, cv => cv
  | n + 1, start, first, cv =>
      let blockStop := min stop (start + 64)
      let isLast := n = 0
      chunkBlocks bytes stop counter isRoot n (start + 64) false
        (compress cv (words bytes start blockStop) counter (blockStop - start)
          { chunkStart := first, chunkEnd := isLast, root := isLast && isRoot })

/-- The chaining value of a chunk of at most 1024 bytes. -/
def chunk (bytes : Array UInt8) (start stop : Nat) (counter : Nat) (isRoot : Bool) :
    Vector UInt32 8 :=
  chunkBlocks bytes stop counter isRoot (max 1 ((stop - start + 63) / 64)) start true initial

/-- Join the chaining values of two neighbours. -/
def join (left right : Vector UInt32 8) (isRoot : Bool) : Vector UInt32 8 :=
  compress initial (left ++ right) 0 64 { parent := true, root := isRoot }

/-- The greatest power of two below `n`, for `n` at least two. -/
def leftSize (n : Nat) : Nat := Nat.pow 2 (Nat.log2 (n - 1))

theorem leftSize_lt {n : Nat} (h : 2 ≤ n) : leftSize n < n := by
  have : leftSize n ≤ n - 1 := Nat.log2_self_le (by omega)
  omega

theorem leftSize_pos (n : Nat) : 0 < leftSize n := Nat.pow_pos Nat.two_pos

/-- The chaining value of `n` chunks, of which the first has index `index`. -/
def tree (bytes : Array UInt8) (n : Nat) (index : Nat) (isRoot : Bool) : Vector UInt32 8 :=
  if h : 2 ≤ n then
    join (tree bytes (leftSize n) index false)
      (tree bytes (n - leftSize n) (index + leftSize n) false) isRoot
  else chunk bytes (1024 * index) (min bytes.size (1024 * (index + 1))) index isRoot
  termination_by n
  decreasing_by
    · exact leftSize_lt h
    · exact Nat.sub_lt (Nat.lt_of_lt_of_le Nat.two_pos h) (leftSize_pos n)

/-- The four bytes of a word, the lowest first. -/
def littleEndian (x : UInt32) : Bytes :=
  [x.toUInt8, (x >>> 8).toUInt8, (x >>> 16).toUInt8, (x >>> 24).toUInt8]

/-- The hash of a byte string. -/
def hash (bytes : Bytes) : Bytes :=
  let all := bytes.toArray
  (tree all (max 1 ((all.size + 1023) / 1024)) 0 true).toList.flatMap littleEndian

/-- The hash of a text, in hexadecimal. -/
def digest (s : String) : String := Hex.encode (hash (Utf8.encode s))

/-- A short tag for a secret, fit for a log: the first four bytes of its hash. -/
def fingerprint (bytes : Bytes) : String := Hex.encode ((hash bytes).take 4)

end Blake3

end Gatehouse
