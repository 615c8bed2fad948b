import HoitF2fs.Lib.ByteStore

/-!
# The hash of a name

`f2fs_dentry_hash` puts a name through the Tiny Encryption Algorithm, sixteen bytes at a time.  The
names of the two entries that every directory has are hashed to 0.

In `hash & ~F2FS_HASH_COL_BIT` the bit is bit 63, so that nothing is masked out of 32 bits.
-/

namespace Hoit.Dir

open ByteStore

def delta : BitVec 32 := 0x9E3779B9

/-- The loop of `TEA_transform`, with `sum`, `b0` and `b1`. -/
def teaRounds (a b c d : BitVec 32) : (n : ℕ) → (sum b0 b1 : BitVec 32) → BitVec 32 × BitVec 32
  | 0, _, b0, b1 => (b0, b1)
  | n + 1, sum, b0, b1 =>
      let sum := sum + delta
      let b0 := b0 + (((b1 <<< 4) + a) ^^^ (b1 + sum) ^^^ ((b1 >>> 5) + b))
      let b1 := b1 + (((b0 <<< 4) + c) ^^^ (b0 + sum) ^^^ ((b0 >>> 5) + d))
      teaRounds a b c d n sum b0 b1

/-- `TEA_transform`, on `buf[0]` and `buf[1]`; the other two words of `buf` are not used. -/
def teaTransform (buf : BitVec 32 × BitVec 32) (words : List (BitVec 32)) :
    BitVec 32 × BitVec 32 :=
  let x := teaRounds (words.getD 0 0) (words.getD 1 0) (words.getD 2 0) (words.getD 3 0) 16 0
    buf.1 buf.2
  (buf.1 + x.1, buf.2 + x.2)

/-- The loop of `str2hashbuf`, with `i`: `val`, and the words that are complete. -/
def str2hashbufLoop (pad : BitVec 32) :
    List Byte → (i : ℕ) → (val : BitVec 32) → List (BitVec 32) → BitVec 32 × List (BitVec 32)
  | [], _, val, buf => (val, buf)
  | c :: msg, i, val, buf =>
      let val := c.setWidth 32 + ((if i % 4 = 0 then pad else val) <<< 8)
      if i % 4 = 3 then str2hashbufLoop pad msg (i + 1) pad (buf ++ [val])
      else str2hashbufLoop pad msg (i + 1) val buf

/-- `str2hashbuf`, for `num` words. -/
def str2hashbuf (msg : List Byte) (num : ℕ) : List (BitVec 32) :=
  let len := BitVec.ofNat 32 msg.length
  let pad := len ||| (len <<< 8)
  let pad := pad ||| (pad <<< 16)
  let x := str2hashbufLoop pad (msg.take (num * 4)) 0 pad []
  if x.2.length < num then x.2 ++ x.1 :: List.replicate (num - x.2.length - 1) pad else x.2

def isDotDotdot (name : List Byte) : Bool := name == [0x2E] || name == [0x2E, 0x2E]

/-- The loop of `f2fs_dentry_hash`. -/
def dentryHashLoop : (rounds : ℕ) → List Byte → BitVec 32 × BitVec 32 → BitVec 32
  | 0, _, buf => buf.1
  | rounds + 1, p, buf =>
      let buf := teaTransform buf (str2hashbuf p 4)
      if p.length ≤ 16 then buf.1 else dentryHashLoop rounds (p.drop 16) buf

/-- `f2fs_dentry_hash`, for a name that is not encrypted.  Each round takes sixteen bytes. -/
def f2fsDentryHash (name : List Byte) : ℕ :=
  if isDotDotdot name then 0
  else (dentryHashLoop (name.length / 16 + 1) name (0x67452301, 0xefcdab89)).toNat

end Hoit.Dir
