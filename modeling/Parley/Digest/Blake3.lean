/-!
# BLAKE3

The 256-bit hash of a byte string. The input is cut into chunks of 1024 bytes
and chunks into blocks of 64; a chunk chains its blocks, and chunks are joined
by a binary tree whose left subtrees are as large a power of two as leaves
something on the right.
-/

namespace Parley
namespace Digest
namespace Blake3

abbrev Words (n : Nat) := Vector UInt32 n

def iv : Words 8 :=
  #v[0x6A09E667, 0xBB67AE85, 0x3C6EF372, 0xA54FF53A,
     0x510E527F, 0x9B05688C, 0x1F83D9AB, 0x5BE0CD19]

def permutation : Vector (Fin 16) 16 :=
  #v[2, 6, 3, 10, 7, 0, 4, 13, 1, 11, 12, 5, 9, 14, 15, 8]

def chunkStart : UInt32 := 1
def chunkEnd : UInt32 := 2
def parent : UInt32 := 4
def root : UInt32 := 8

def rotateRight (x : UInt32) (n : UInt32) : UInt32 :=
  (x >>> n) ||| (x <<< (32 - n))

/-!
# Compression
-/

def mix (v : Words 16) (a b c d : Fin 16) (x y : UInt32) : Words 16 :=
  let v := v.set a (v[a] + v[b] + x)
  let v := v.set d (rotateRight (v[d] ^^^ v[a]) 16)
  let v := v.set c (v[c] + v[d])
  let v := v.set b (rotateRight (v[b] ^^^ v[c]) 12)
  let v := v.set a (v[a] + v[b] + y)
  let v := v.set d (rotateRight (v[d] ^^^ v[a]) 8)
  let v := v.set c (v[c] + v[d])
  v.set b (rotateRight (v[b] ^^^ v[c]) 7)

def mixRound (v m : Words 16) : Words 16 :=
  let v := mix v 0 4 8 12 m[0] m[1]
  let v := mix v 1 5 9 13 m[2] m[3]
  let v := mix v 2 6 10 14 m[4] m[5]
  let v := mix v 3 7 11 15 m[6] m[7]
  let v := mix v 0 5 10 15 m[8] m[9]
  let v := mix v 1 6 11 12 m[10] m[11]
  let v := mix v 2 7 8 13 m[12] m[13]
  mix v 3 4 9 14 m[14] m[15]

def permute (m : Words 16) : Words 16 :=
  permutation.map fun i => m[i]

def rounds : Nat → Words 16 → Words 16 → Words 16
  | 0, v, _ => v
  | n + 1, v, m => rounds n (mixRound v m) (permute m)

/-- A compression that has not been run yet: as a root it also sets the root flag. -/
structure Node where
  chaining : Words 8
  block : Words 16
  counter : UInt64
  length : UInt32
  flags : UInt32

def Node.compress (n : Node) (flags : UInt32) : Words 8 :=
  let h := n.chaining
  let v : Words 16 :=
    #v[h[0], h[1], h[2], h[3], h[4], h[5], h[6], h[7],
       iv[0], iv[1], iv[2], iv[3],
       n.counter.toUInt32, (n.counter >>> 32).toUInt32, n.length, n.flags ||| flags]
  let v := rounds 7 v n.block
  #v[v[0] ^^^ v[8], v[1] ^^^ v[9], v[2] ^^^ v[10], v[3] ^^^ v[11],
     v[4] ^^^ v[12], v[5] ^^^ v[13], v[6] ^^^ v[14], v[7] ^^^ v[15]]

def Node.value (n : Node) : Words 8 :=
  n.compress 0

/-!
# Chunks
-/

def word (bytes : List UInt8) : UInt32 :=
  (bytes.take 4).foldr (fun b w => (w <<< 8) ||| b.toUInt32) 0

def blockWords (bytes : List UInt8) : Words 16 :=
  Vector.ofFn fun i => word (bytes.drop (4 * i.val))

/-- Chains the blocks of a chunk up to the last one, which is left to be compressed. -/
def chunk (counter : UInt64) (h : Words 8) (flags : UInt32) (bytes : List UInt8) : Node :=
  if bytes.length ≤ 64 then
    ⟨h, blockWords bytes, counter, bytes.length.toUInt32, flags ||| chunkEnd⟩
  else
    chunk counter (Node.mk h (blockWords (bytes.take 64)) counter 64 flags).value 0
      (bytes.drop 64)
termination_by bytes.length
decreasing_by
  simp only [List.length_drop]
  omega

/-!
# The tree
-/

/-- Bytes in the left subtree: the greatest power of two of chunks that leaves a rest. -/
def leftSize (length : Nat) : Nat :=
  1024 * Nat.pow 2 (Nat.log2 ((length - 1) / 1024))

theorem leftSize_lt {length : Nat} (h : 1024 < length) : leftSize length < length := by
  have hne : (length - 1) / 1024 ≠ 0 := by omega
  have hle : Nat.pow 2 (Nat.log2 ((length - 1) / 1024)) ≤ (length - 1) / 1024 :=
    Nat.log2_self_le hne
  unfold leftSize
  omega

theorem leftSize_pos (length : Nat) : 0 < leftSize length := by
  unfold leftSize
  exact Nat.mul_pos (by decide) (Nat.two_pow_pos (Nat.log2 ((length - 1) / 1024)))

def join (left right : Words 8) : Node :=
  ⟨iv, left ++ right, 0, 64, parent⟩

def tree (counter : Nat) (bytes : List UInt8) : Node :=
  if h : bytes.length ≤ 1024 then chunk counter.toUInt64 iv chunkStart bytes
  else
    let n := leftSize bytes.length
    join (tree counter (bytes.take n)).value (tree (counter + n / 1024) (bytes.drop n)).value
termination_by bytes.length
decreasing_by
  · simp only [List.length_take]
    have := leftSize_lt (Nat.lt_of_not_le h)
    omega
  · simp only [List.length_drop]
    have := leftSize_pos bytes.length
    omega

def wordBytes (w : UInt32) : Vector UInt8 4 :=
  #v[w.toUInt8, (w >>> 8).toUInt8, (w >>> 16).toUInt8, (w >>> 24).toUInt8]

def hash (bytes : List UInt8) : Vector UInt8 32 :=
  ((tree 0 bytes).compress root).flatMap wordBytes

end Blake3
end Digest
end Parley
