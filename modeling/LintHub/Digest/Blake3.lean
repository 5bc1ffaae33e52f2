import LintHub.Text.Numeral

/-!
# BLAKE3

* `Blake3.digest` is the 32 byte digest of a list of bytes, as eight words.
* `contentHash` is the digest of a text in base sixteen, which names contents and settings.

A text is cut into chunks of 1024 bytes, a chunk into blocks of 64. A tree over the chunks, whose left part holds
the largest power of two of them that leaves some for the right part, is folded by one compression a node.
-/

namespace LintHub

namespace Blake3

def initial : Array UInt32 := #[0x6A09E667, 0xBB67AE85, 0x3C6EF372, 0xA54FF53A, 0x510E527F, 0x9B05688C, 0x1F83D9AB,
  0x5BE0CD19]

/-- Where each word of the next round's message comes from. -/
def permutation : Array Nat := #[2, 6, 3, 10, 7, 0, 4, 13, 1, 11, 12, 5, 9, 14, 15, 8]

/-- The first block of a chunk, the last one, a node above chunks, and the node on top. -/
def chunkStart : UInt32 := 1

@[inherit_doc chunkStart]
def chunkEnd : UInt32 := 2

@[inherit_doc chunkStart]
def parentFlag : UInt32 := 4

@[inherit_doc chunkStart]
def rootFlag : UInt32 := 8

def rotate (x : UInt32) (n : UInt32) : UInt32 := (x >>> n) ||| (x <<< (32 - n))

def word (v : Array UInt32) (i : Nat) : UInt32 := v.getD i 0

/-- Mixes two message words into a column or a diagonal of the state. -/
def mix (v : Array UInt32) (a b c d : Nat) (x y : UInt32) : Array UInt32 :=
  let va := word v a + word v b + x
  let vd := rotate (word v d ^^^ va) 16
  let vc := word v c + vd
  let vb := rotate (word v b ^^^ vc) 12
  let va := va + vb + y
  let vd := rotate (vd ^^^ va) 8
  let vc := vc + vd
  let vb := rotate (vb ^^^ vc) 7
  (((v.setIfInBounds a va).setIfInBounds b vb).setIfInBounds c vc).setIfInBounds d vd

/-- One round: the columns, then the diagonals. -/
def round (v m : Array UInt32) : Array UInt32 :=
  let v := mix v 0 4 8 12 (word m 0) (word m 1)
  let v := mix v 1 5 9 13 (word m 2) (word m 3)
  let v := mix v 2 6 10 14 (word m 4) (word m 5)
  let v := mix v 3 7 11 15 (word m 6) (word m 7)
  let v := mix v 0 5 10 15 (word m 8) (word m 9)
  let v := mix v 1 6 11 12 (word m 10) (word m 11)
  let v := mix v 2 7 8 13 (word m 12) (word m 13)
  mix v 3 4 9 14 (word m 14) (word m 15)

def rounds : Nat → Array UInt32 → Array UInt32 → Array UInt32
  | 0, v, _ => v
  | n + 1, v, m => rounds n (round v m) (permutation.map (word m))

/-- What a node compresses: a chaining value, sixteen words of message, a counter, the bytes in the block, flags. -/
structure Node where
  chain : Array UInt32
  block : Array UInt32
  counter : Nat
  length : Nat
  flags : UInt32

/-- The eight words that a node's compression yields, with more flags. -/
def Node.output (n : Node) (flags : UInt32) : Array UInt32 :=
  let state := n.chain ++ initial.take 4 ++
    #[UInt32.ofNat (n.counter % 0x100000000), UInt32.ofNat (n.counter / 0x100000000), UInt32.ofNat n.length, n.flags ||| flags]
  let v := rounds 7 state n.block
  (Array.range 8).map fun i => word v i ^^^ word v (i + 8)

/-- The words of bytes, least byte first. -/
def wordsOf : List UInt8 → List UInt32
  | a :: b :: c :: d :: rest =>
    (a.toUInt32 ||| (b.toUInt32 <<< 8) ||| (c.toUInt32 <<< 16) ||| (d.toUInt32 <<< 24)) :: wordsOf rest
  | _ => []

/-- A block of 64 bytes, filled up with zeros. -/
def blockOf (bytes : List UInt8) : Array UInt32 :=
  (wordsOf (bytes ++ List.replicate (64 - bytes.length) 0)).toArray

/-- Pieces of `size` bytes, the last one possibly shorter; no bytes are one empty piece. `fuel` is at least the
number of pieces. -/
def cut (size : Nat) : Nat → List UInt8 → List (List UInt8)
  | 0, bytes => [bytes]
  | fuel + 1, bytes =>
    match bytes.drop size with
    | [] => [bytes]
    | rest => bytes.take size :: cut size fuel rest

/-- The node of a chunk's last block, after the blocks before it. -/
def chunkNode (counter : Nat) : Array UInt32 → UInt32 → List (List UInt8) → Node
  | chain, start, [] => ⟨chain, blockOf [], counter, 0, start ||| chunkEnd⟩
  | chain, start, [last] => ⟨chain, blockOf last, counter, last.length, start ||| chunkEnd⟩
  | chain, start, block :: rest =>
    chunkNode counter ((Node.mk chain (blockOf block) counter 64 start).output 0) 0 rest

/-- The largest power of two below `n`, from `p` on. -/
def leftCount : Nat → Nat → Nat → Nat
  | 0, p, _ => p
  | fuel + 1, p, n => if 2 * p < n then leftCount fuel (2 * p) n else p

/-- The node over chunks, the first of which has number `counter`. -/
def treeNode : Nat → Nat → List (List UInt8) → Node
  | 0, counter, chunks => chunkNode counter initial chunkStart (cut 64 16 (chunks.headD []))
  | fuel + 1, counter, chunks =>
    match chunks with
    | _ :: _ :: _ =>
      let n := leftCount chunks.length 1 chunks.length
      let left := (treeNode fuel counter (chunks.take n)).output 0
      let right := (treeNode fuel (counter + n) (chunks.drop n)).output 0
      ⟨initial, left ++ right, 0, 64, parentFlag⟩
    | _ => chunkNode counter initial chunkStart (cut 64 16 (chunks.headD []))

def digest (bytes : List UInt8) : Array UInt32 :=
  let chunks := cut 1024 bytes.length bytes
  (treeNode chunks.length 0 chunks).output rootFlag

/-- A word's bytes in base sixteen, least byte first. -/
def wordHex (w : UInt32) : List Char :=
  (List.range 4).flatMap fun i =>
    let b := w.toNat / Nat.pow 256 i % 256
    [Text.hexDigit (b / 16), Text.hexDigit (b % 16)]

def hex (bytes : List UInt8) : String := String.ofList ((digest bytes).toList.flatMap wordHex)

end Blake3

/-- The name of a text's contents. -/
def contentHash (s : String) : String := Blake3.hex s.toUTF8.toList

end LintHub
