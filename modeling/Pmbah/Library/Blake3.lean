import Mathlib.Algebra.Group.Nat.Defs
import Mathlib.Data.List.Basic

/-!
# BLAKE3

The unkeyed hash with its 32-byte output: chunks of 1024 bytes, compressed in
blocks of 64, are the leaves of a binary tree whose left subtrees are full.
-/

namespace Pmbah.Library.Blake3

def initial : List UInt32 :=
  [0x6A09E667, 0xBB67AE85, 0x3C6EF372, 0xA54FF53A,
    0x510E527F, 0x9B05688C, 0x1F83D9AB, 0x5BE0CD19]

def permutation : List Nat := [2, 6, 3, 10, 7, 0, 4, 13, 1, 11, 12, 5, 9, 14, 15, 8]

def chunkStart : UInt32 := 1
def chunkEnd : UInt32 := 2
def parent : UInt32 := 4
def root : UInt32 := 8

def word (words : List UInt32) (i : Nat) : UInt32 := words.getD i 0

def rotateRight (x n : UInt32) : UInt32 := (x >>> n) ||| (x <<< (32 - n))

/-- The quarter round on four places of the state. -/
def mix (state : List UInt32) (a b c d : Nat) (x y : UInt32) : List UInt32 :=
  let a₁ := word state a + word state b + x
  let d₁ := rotateRight (word state d ^^^ a₁) 16
  let c₁ := word state c + d₁
  let b₁ := rotateRight (word state b ^^^ c₁) 12
  let a₂ := a₁ + b₁ + y
  let d₂ := rotateRight (d₁ ^^^ a₂) 8
  let c₂ := c₁ + d₂
  let b₂ := rotateRight (b₁ ^^^ c₂) 7
  (((state.set a a₂).set b b₂).set c c₂).set d d₂

/-- The columns and then the diagonals of the state. -/
def lanes : List (Nat × Nat × Nat × Nat) :=
  [(0, 4, 8, 12), (1, 5, 9, 13), (2, 6, 10, 14), (3, 7, 11, 15),
    (0, 5, 10, 15), (1, 6, 11, 12), (2, 7, 8, 13), (3, 4, 9, 14)]

def round (state block : List UInt32) : List UInt32 :=
  lanes.zipIdx.foldl (fun state lane =>
    mix state lane.1.1 lane.1.2.1 lane.1.2.2.1 lane.1.2.2.2
      (word block (2 * lane.2)) (word block (2 * lane.2 + 1))) state

def rounds : Nat → List UInt32 → List UInt32 → List UInt32
  | 0, state, _ => state
  | n + 1, state, block => rounds n (round state block) (permutation.map (word block))

/-- A node of the tree before it is compressed. -/
structure Node where
  chaining : List UInt32
  block : List UInt32
  counter : Nat
  length : Nat
  flags : UInt32

def Node.compress (node : Node) (counter : Nat) (flags : UInt32) : List UInt32 :=
  let state := rounds 7 (node.chaining ++ initial.take 4 ++
    [UInt32.ofNat counter, UInt32.ofNat (counter / 2 ^ 32), UInt32.ofNat node.length, flags])
    node.block
  (List.range 8).map fun i => word state i ^^^ word state (i + 8)

def Node.chainingValue (node : Node) : List UInt32 := node.compress node.counter node.flags

/-- Sixteen little-endian words; bytes that are missing are zero. -/
def blockWords (bytes : List UInt8) : List UInt32 :=
  (List.range 16).map fun i =>
    let byte := fun j => UInt32.ofNat (bytes.getD (4 * i + j) 0).toNat
    byte 0 ||| (byte 1 <<< 8) ||| (byte 2 <<< 16) ||| (byte 3 <<< 24)

/-- The last block of a chunk, the others compressed into its chaining value. -/
def chunkFrom (counter : Nat) : Nat → List UInt32 → UInt32 → List UInt8 → Node
  | 0, chaining, flags, bytes =>
      { chaining, block := blockWords bytes, counter, length := bytes.length,
        flags := flags ||| chunkEnd }
  | fuel + 1, chaining, flags, bytes =>
      if bytes.length ≤ 64 then
        { chaining, block := blockWords bytes, counter, length := bytes.length,
          flags := flags ||| chunkEnd }
      else
        let node : Node :=
          { chaining, block := blockWords (bytes.take 64), counter, length := 64, flags }
        chunkFrom counter fuel node.chainingValue 0 (bytes.drop 64)

def chunk (counter : Nat) (bytes : List UInt8) : Node :=
  chunkFrom counter 16 initial chunkStart bytes

/-- The tree over the chunks from an index on. -/
def tree : Nat → Nat → List UInt8 → Node
  | 0, counter, bytes => chunk counter bytes
  | fuel + 1, counter, bytes =>
      if bytes.length ≤ 1024 then chunk counter bytes
      else
        let chunks := 2 ^ Nat.log2 ((bytes.length - 1) / 1024)
        let left := tree fuel counter (bytes.take (1024 * chunks))
        let right := tree fuel (counter + chunks) (bytes.drop (1024 * chunks))
        { chaining := initial, block := left.chainingValue ++ right.chainingValue, counter := 0,
          length := 64, flags := parent }

def wordBytes (w : UInt32) : List UInt8 :=
  [w.toUInt8, (w >>> 8).toUInt8, (w >>> 16).toUInt8, (w >>> 24).toUInt8]

def digest (bytes : List UInt8) : List UInt8 :=
  let node := tree bytes.length 0 bytes
  (node.compress 0 (node.flags ||| root)).flatMap wordBytes

theorem length_digest (bytes : List UInt8) : (digest bytes).length = 32 := by
  simp [digest, Node.compress, wordBytes, List.length_flatMap, Function.comp_def]

end Pmbah.Library.Blake3
