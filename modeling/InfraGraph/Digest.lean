/-!
# Digest — the BLAKE3 hash, and names for contents

The state of a compression is four rows of four words.  A round mixes the columns, turns the rows
so that diagonals become columns, mixes again and turns back.  Inputs longer than a chunk form a
binary tree whose left subtree is the largest power of two of chunks that leaves something over.

* `Blake3.compress` — one compression;
* `Blake3.chunk` — the chaining value of at most 1024 bytes;
* `Blake3.node` — the chaining value of a subtree;
* `Blake3.digest` — the 32 bytes of the hash, and `Blake3.hex`, their text;
* `Digest.ofText` — the tagged hash of a text;
* `Digest.short` — its first twelve hexadecimal digits, for use in names;
* `Digest.composite` — the tagged hash of a list of texts, each ended by a zero character.
-/

namespace InfraGraph
namespace Blake3

/-! ## Rows of four words -/

/-- Four words of the state. -/
structure Row where
  a : UInt32
  b : UInt32
  c : UInt32
  d : UInt32
deriving DecidableEq, Inhabited

namespace Row

def zip (f : UInt32 → UInt32 → UInt32) (r s : Row) : Row :=
  ⟨f r.a s.a, f r.b s.b, f r.c s.c, f r.d s.d⟩

/-- Sum modulo `2 ^ 32`, word by word. -/
def add (r s : Row) : Row := zip (· + ·) r s

/-- Exclusive or, then a rotation of each word to the right. -/
def xorRotate (n : UInt32) (r s : Row) : Row :=
  zip (fun x y => ((x ^^^ y) >>> n) ||| ((x ^^^ y) <<< (32 - n))) r s

/-- Move every word one place to the left. -/
def turn (r : Row) : Row := ⟨r.b, r.c, r.d, r.a⟩

def toList (r : Row) : List UInt32 := [r.a, r.b, r.c, r.d]

end Row

/-- A chaining value is two rows. -/
structure Chaining where
  low : Row
  high : Row
deriving DecidableEq, Inhabited

structure State where
  first : Row
  second : Row
  third : Row
  fourth : Row

/-! ## Rounds -/

/-- Mix the four columns with two rows of message words. -/
def mixColumns (s : State) (x y : Row) : State :=
  let first := (s.first.add s.second).add x
  let fourth := s.fourth.xorRotate 16 first
  let third := s.third.add fourth
  let second := s.second.xorRotate 12 third
  let first := (first.add second).add y
  let fourth := fourth.xorRotate 8 first
  let third := third.add fourth
  let second := second.xorRotate 7 third
  ⟨first, second, third, fourth⟩

/-- Turn the lower rows so that diagonals become columns. -/
def diagonals (s : State) : State :=
  ⟨s.first, s.second.turn, s.third.turn.turn, s.fourth.turn.turn.turn⟩

/-- Turn the lower rows back. -/
def columns (s : State) : State :=
  ⟨s.first, s.second.turn.turn.turn, s.third.turn.turn, s.fourth.turn⟩

/-- Message words at four places. -/
def pick (m : Array UInt32) (i j k l : Nat) : Row :=
  ⟨m.getD i 0, m.getD j 0, m.getD k 0, m.getD l 0⟩

def round (s : State) (m : Array UInt32) : State :=
  let s := mixColumns s (pick m 0 2 4 6) (pick m 1 3 5 7)
  columns (mixColumns (diagonals s) (pick m 8 10 12 14) (pick m 9 11 13 15))

/-- Order of the message words in the next round. -/
def schedule : List Nat := [2, 6, 3, 10, 7, 0, 4, 13, 1, 11, 12, 5, 9, 14, 15, 8]

def permute (m : Array UInt32) : Array UInt32 := (schedule.map fun i => m.getD i 0).toArray

def rounds : Nat → State → Array UInt32 → State
  | 0, s, _ => s
  | n + 1, s, m => rounds n (round s m) (permute m)

/-- Initial chaining value, low half. -/
def ivLow : Row := ⟨0x6A09E667, 0xBB67AE85, 0x3C6EF372, 0xA54FF53A⟩

/-- Initial chaining value, high half. -/
def ivHigh : Row := ⟨0x510E527F, 0x9B05688C, 0x1F83D9AB, 0x5BE0CD19⟩

/-- One compression: chaining value, sixteen message words, counter, block length and flags. -/
def compress (cv : Chaining) (m : Array UInt32) (counter length : Nat) (flags : UInt32) :
    Chaining :=
  let last : Row :=
    ⟨UInt32.ofNat (counter % UInt32.size), UInt32.ofNat (counter / UInt32.size),
      UInt32.ofNat length, flags⟩
  let s := rounds 7 ⟨cv.low, cv.high, ivLow, last⟩ m
  ⟨s.first.zip (· ^^^ ·) s.third, s.second.zip (· ^^^ ·) s.fourth⟩

/-! ## Chunks -/

/-- Word of four bytes, the lowest first. -/
def word (a b c d : UInt8) : UInt32 :=
  a.toUInt32 ||| (b.toUInt32 <<< 8) ||| (c.toUInt32 <<< 16) ||| (d.toUInt32 <<< 24)

def words : List UInt8 → List UInt32
  | [] => []
  | [a] => [word a 0 0 0]
  | [a, b] => [word a b 0 0]
  | [a, b, c] => [word a b c 0]
  | a :: b :: c :: d :: rest => word a b c d :: words rest

def blockLength : Nat := 64

def chunkLength : Nat := 1024

def chunkStart : UInt32 := 1

def chunkEnd : UInt32 := 2

def parentFlag : UInt32 := 4

def rootFlag : UInt32 := 8

/-- Compress the blocks of a chunk in order. -/
def blocks (cv : Chaining) (start : UInt32) (bytes : List UInt8) (counter : Nat)
    (root : UInt32) : Chaining :=
  if bytes.length ≤ blockLength then
    compress cv (words bytes).toArray counter bytes.length (start ||| chunkEnd ||| root)
  else
    let cv' := compress cv (words (bytes.take blockLength)).toArray counter blockLength start
    blocks cv' 0 (bytes.drop blockLength) counter root
termination_by bytes.length
decreasing_by
  simp only [blockLength, List.length_drop] at *
  omega

def chunk (bytes : List UInt8) (counter : Nat) (root : UInt32) : Chaining :=
  blocks ⟨ivLow, ivHigh⟩ chunkStart bytes counter root

/-! ## The tree -/

def parent (left right : Chaining) (root : UInt32) : Chaining :=
  let m := left.low.toList ++ left.high.toList ++ right.low.toList ++ right.high.toList
  compress ⟨ivLow, ivHigh⟩ m.toArray 0 blockLength (parentFlag ||| root)

/-- Chunks in the left subtree of a longer input. -/
def leftChunks (length : Nat) : Nat := Nat.pow 2 (Nat.log2 ((length - 1) / chunkLength))

theorem leftChunks_pos (length : Nat) : 0 < leftChunks length :=
  Nat.pow_pos (by decide)

/-- The left subtree leaves something for the right one. -/
theorem leftChunks_lt (length : Nat) (h : chunkLength < length) :
    leftChunks length * chunkLength < length := by
  have hq : (length - 1) / chunkLength ≠ 0 := by
    have : 1 ≤ (length - 1) / chunkLength :=
      (Nat.le_div_iff_mul_le (by decide)).mpr (by omega)
    omega
  have hl : leftChunks length ≤ (length - 1) / chunkLength := Nat.log2_self_le hq
  have hm : leftChunks length * chunkLength ≤ length - 1 :=
    Nat.le_trans (Nat.mul_le_mul_right _ hl) (Nat.div_mul_le_self _ _)
  have : 0 < length := by omega
  omega

/-- Chaining value of a subtree whose first chunk has the given number. -/
def node (bytes : List UInt8) (counter : Nat) (root : UInt32) : Chaining :=
  if bytes.length ≤ chunkLength then chunk bytes counter root
  else
    let left := leftChunks bytes.length
    parent (node (bytes.take (left * chunkLength)) counter 0)
      (node (bytes.drop (left * chunkLength)) (counter + left) 0) root
termination_by bytes.length
decreasing_by
  · have := leftChunks_lt bytes.length (by omega)
    simp only [List.length_take]
    omega
  · have := leftChunks_lt bytes.length (by omega)
    have h := Nat.mul_pos (leftChunks_pos bytes.length) (show 0 < chunkLength by decide)
    simp only [List.length_drop]
    omega

/-! ## The hash -/

def wordBytes (w : UInt32) : List UInt8 :=
  [w.toUInt8, (w >>> 8).toUInt8, (w >>> 16).toUInt8, (w >>> 24).toUInt8]

def digest (bytes : List UInt8) : List UInt8 :=
  let cv := node bytes 0 rootFlag
  (cv.low.toList ++ cv.high.toList).flatMap wordBytes

/-- Lowercase hexadecimal text of bytes. -/
def hexText (bytes : List UInt8) : String :=
  String.ofList <|
    bytes.flatMap fun b => [Nat.digitChar (b.toNat / 16), Nat.digitChar (b.toNat % 16)]

/-- Hexadecimal text of the hash of the UTF-8 bytes of a text. -/
def hex (text : String) : String := hexText (digest text.toUTF8.toList)

end Blake3

/-! ## Names for contents -/

namespace Digest

/-- Tag in front of every hash. -/
def tag : String := "blake3:"

def ofText (s : String) : String := tag ++ Blake3.hex s

/-- First twelve hexadecimal digits of the hash of a text. -/
def short (s : String) : String := String.ofList ((Blake3.hex s).toList.take 12)

/-- The components, each followed by a zero character. -/
def terminated (components : List String) : String :=
  String.join (components.map fun c => c ++ "\x00")

/-- Hash of a list of texts. -/
def composite (components : List String) : String := ofText (terminated components)

end Digest

end InfraGraph
