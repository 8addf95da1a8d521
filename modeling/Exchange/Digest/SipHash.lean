/-!
# SipHash-1-3

The keyed hash SipHash with one compression round per 8-byte block and three finalization
rounds, over a byte string. Blocks are read little-endian; the last block carries the remaining
bytes and, in its top byte, the length of the message modulo 256. The state arithmetic wraps
modulo `2^64`, as the algorithm defines it.
-/

namespace Exchange.SipHash

/-- The four words of the hash state. -/
structure State where
  v0 : UInt64
  v1 : UInt64
  v2 : UInt64
  v3 : UInt64

/-- Rotation to the left within 64 bits. -/
def rotl (x : UInt64) (k : UInt64) : UInt64 := (x <<< k) ||| (x >>> (64 - k))

/-- One SipRound. -/
def round (s : State) : State :=
  let v0 := s.v0 + s.v1
  let v1 := rotl s.v1 13 ^^^ v0
  let v0 := rotl v0 32
  let v2 := s.v2 + s.v3
  let v3 := rotl s.v3 16 ^^^ v2
  let v0 := v0 + v3
  let v3 := rotl v3 21 ^^^ v0
  let v2 := v2 + v1
  let v1 := rotl v1 17 ^^^ v2
  let v2 := rotl v2 32
  { v0, v1, v2, v3 }

/-- The state for keys `k0` and `k1`. -/
def init (k0 k1 : UInt64) : State :=
  { v0 := k0 ^^^ 0x736f6d6570736575, v1 := k1 ^^^ 0x646f72616e646f6d,
    v2 := k0 ^^^ 0x6c7967656e657261, v3 := k1 ^^^ 0x7465646279746573 }

/-- Absorbs one block with a single compression round. -/
def absorb (s : State) (m : UInt64) : State :=
  let s := round { s with v3 := s.v3 ^^^ m }
  { s with v0 := s.v0 ^^^ m }

/-- The little-endian word of up to eight bytes. -/
def word (bs : List UInt8) : UInt64 :=
  bs.foldr (fun b acc => (acc <<< 8) ||| b.toUInt64) 0

/-- Absorbs the whole blocks of a message and returns the state with the bytes left over. -/
def absorbBlocks (s : State) (bs : List UInt8) : State × List UInt8 :=
  if 8 ≤ bs.length then absorbBlocks (absorb s (word (bs.take 8))) (bs.drop 8)
  else (s, bs)
termination_by bs.length
decreasing_by simp; omega

/-- The 64-bit SipHash-1-3 of a message under keys `k0`, `k1`. -/
def hash (k0 k1 : UInt64) (msg : List UInt8) : UInt64 :=
  let (s, tail) := absorbBlocks (init k0 k1) msg
  let last := word tail ||| ((msg.length % 256).toUInt64 <<< 56)
  let s := absorb s last
  let s := round (round (round { s with v2 := s.v2 ^^^ 0xff }))
  s.v0 ^^^ s.v1 ^^^ s.v2 ^^^ s.v3

end Exchange.SipHash
