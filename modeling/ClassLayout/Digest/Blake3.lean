/-!
# The BLAKE3 hash

Input is cut into chunks of 1024 bytes and each chunk into blocks of 64. The blocks of a chunk are
compressed one after the other; the chunks are the leaves of a binary tree in which every left
subtree is complete and as large as it can be. Numbers are little-endian throughout.
-/

namespace ClassLayout.Digest

/-- A message block or a compression state. -/
abbrev Words := Vector UInt32 16

/-- What one compression hands to the next. -/
abbrev Chaining := Vector UInt32 8

/-- The `count` lowest bytes of a number, the lowest first. -/
def littleEndian : Nat → Nat → List UInt8
  | 0, _ => []
  | count + 1, value => value.toUInt8 :: littleEndian count (value / 256)

namespace Blake3

def initial : Chaining :=
  #v[0x6A09E667, 0xBB67AE85, 0x3C6EF372, 0xA54FF53A, 0x510E527F, 0x9B05688C, 0x1F83D9AB, 0x5BE0CD19]

/-- The order in which a round takes the message words of the round before. -/
def permutation : Vector (Fin 16) 16 := #v[2, 6, 3, 10, 7, 0, 4, 13, 1, 11, 12, 5, 9, 14, 15, 8]

def permute (message : Words) : Words := permutation.map fun i => message[i]

def rotateRight (word count : UInt32) : UInt32 := (word >>> count) ||| (word <<< (32 - count))

def mix (s : Words) (a b c d : Fin 16) (x y : UInt32) : Words :=
  let s := s.set a (s[a] + s[b] + x)
  let s := s.set d (rotateRight (s[d] ^^^ s[a]) 16)
  let s := s.set c (s[c] + s[d])
  let s := s.set b (rotateRight (s[b] ^^^ s[c]) 12)
  let s := s.set a (s[a] + s[b] + y)
  let s := s.set d (rotateRight (s[d] ^^^ s[a]) 8)
  let s := s.set c (s[c] + s[d])
  s.set b (rotateRight (s[b] ^^^ s[c]) 7)

def round (s m : Words) : Words :=
  let s := mix s 0 4 8 12 m[0] m[1]
  let s := mix s 1 5 9 13 m[2] m[3]
  let s := mix s 2 6 10 14 m[4] m[5]
  let s := mix s 3 7 11 15 m[6] m[7]
  let s := mix s 0 5 10 15 m[8] m[9]
  let s := mix s 1 6 11 12 m[10] m[11]
  let s := mix s 2 7 8 13 m[12] m[13]
  mix s 3 4 9 14 m[14] m[15]

def rounds : Nat → Words → Words → Words
  | 0, state, _ => state
  | n + 1, state, message => rounds n (round state message) (permute message)

/-- What a block is: the first or last of its chunk, a parent in the tree, the root of all. -/
structure Role where
  first : Bool := false
  last : Bool := false
  parent : Bool := false
  root : Bool := false

def Role.flags (role : Role) : UInt32 :=
  (if role.first then 1 else 0) + (if role.last then 2 else 0) + (if role.parent then 4 else 0) +
    (if role.root then 8 else 0)

def compress (chaining : Chaining) (message : Words) (counter length : Nat) (role : Role) : Chaining :=
  let state : Words := #v[chaining[0], chaining[1], chaining[2], chaining[3],
    chaining[4], chaining[5], chaining[6], chaining[7], initial[0], initial[1], initial[2], initial[3],
    counter.toUInt32, (counter >>> 32).toUInt32, length.toUInt32, role.flags]
  let result := rounds 7 state message
  Vector.ofFn fun i : Fin 8 => result[i.val] ^^^ result[i.val + 8]

/-- The words of a block of at most 64 bytes, filled up with zeros. -/
def blockWords (block : List UInt8) : Words :=
  let bytes := block.toArray
  Vector.ofFn fun i : Fin 16 =>
    (bytes.getD (4 * i) 0).toUInt32 + ((bytes.getD (4 * i + 1) 0).toUInt32 <<< 8) +
      ((bytes.getD (4 * i + 2) 0).toUInt32 <<< 16) + ((bytes.getD (4 * i + 3) 0).toUInt32 <<< 24)

def blockLength : Nat := 64

def chunkLength : Nat := 1024

/-- The blocks of one chunk. -/
def chunk (counter : Nat) (root first : Bool) (chaining : Chaining) (bytes : List UInt8) : Chaining :=
  let block := bytes.take blockLength
  let words := blockWords block
  if bytes.length ≤ blockLength then
    compress chaining words counter block.length { first, last := true, root }
  else
    chunk counter root false (compress chaining words counter block.length { first })
      (bytes.drop blockLength)
termination_by bytes.length
decreasing_by simp only [List.length_drop, blockLength] at *; omega

/-- The length of the left subtree: the greatest power of two of chunks that leaves the right one
not empty. -/
def leftLength (length : Nat) : Nat := chunkLength * Nat.pow 2 ((length - 1) / chunkLength).log2

theorem leftLength_pos (length : Nat) : 0 < leftLength length :=
  Nat.mul_pos (by decide) (Nat.two_pow_pos _)

theorem leftLength_lt {length : Nat} (h : chunkLength < length) : leftLength length < length := by
  have hchunks : (length - 1) / chunkLength ≠ 0 := by
    simp only [chunkLength] at h ⊢
    omega
  have hpow := Nat.log2_self_le hchunks
  have hle : leftLength length ≤ length - 1 :=
    Nat.le_trans (Nat.mul_le_mul_left _ hpow) (Nat.mul_div_le _ _)
  omega

/-- The subtree over `bytes`, of which the first chunk has the given number. -/
def subtree (counter : Nat) (root : Bool) (bytes : List UInt8) : Chaining :=
  if bytes.length ≤ chunkLength then chunk counter root true initial bytes
  else
    let split := leftLength bytes.length
    let left := subtree counter false (bytes.take split)
    let right := subtree (counter + split / chunkLength) false (bytes.drop split)
    compress initial (left ++ right) 0 blockLength { parent := true, root }
termination_by bytes.length
decreasing_by
  · simp only [List.length_take]
    have := leftLength_lt (Nat.lt_of_not_le ‹¬bytes.length ≤ chunkLength›)
    omega
  · simp only [List.length_drop]
    have := leftLength_pos bytes.length
    omega

/-- The first eight words of the hash. -/
def hash (bytes : List UInt8) : Chaining := subtree 0 true bytes

/-- The first eight bytes of the hash as one number. -/
def hash64 (bytes : List UInt8) : Nat :=
  let words := hash bytes
  words[0].toNat + words[1].toNat <<< 32

end Blake3

end ClassLayout.Digest
