import SealedPayroll.Bytes.Radix

/-!
# SHA-256

The hash of FIPS 180-4 on byte strings. `digest` pads the message to whole
blocks of sixteen words, folds the compression function over the blocks and
writes the eight chaining words in big-endian order. Everything recurses on
lists or on a block count, so a digest can also be computed by the kernel.
Nothing here speaks about collisions: later statements that need their absence
assume it of the messages involved.
-/

namespace SealedPayroll.Sha256

-- ---------------------------------------------------------------------------
-- The compression function
-- ---------------------------------------------------------------------------

structure State where
  a : UInt32
  b : UInt32
  c : UInt32
  d : UInt32
  e : UInt32
  f : UInt32
  g : UInt32
  h : UInt32

/-- The first 32 bits of the fractional parts of the square roots of the first eight primes. -/
def State.initial : State :=
  ⟨0x6a09e667, 0xbb67ae85, 0x3c6ef372, 0xa54ff53a, 0x510e527f, 0x9b05688c, 0x1f83d9ab, 0x5be0cd19⟩

/-- The first 32 bits of the fractional parts of the cube roots of the first 64 primes. -/
def roundConstants : List UInt32 :=
  [0x428a2f98, 0x71374491, 0xb5c0fbcf, 0xe9b5dba5, 0x3956c25b, 0x59f111f1, 0x923f82a4, 0xab1c5ed5,
   0xd807aa98, 0x12835b01, 0x243185be, 0x550c7dc3, 0x72be5d74, 0x80deb1fe, 0x9bdc06a7, 0xc19bf174,
   0xe49b69c1, 0xefbe4786, 0x0fc19dc6, 0x240ca1cc, 0x2de92c6f, 0x4a7484aa, 0x5cb0a9dc, 0x76f988da,
   0x983e5152, 0xa831c66d, 0xb00327c8, 0xbf597fc7, 0xc6e00bf3, 0xd5a79147, 0x06ca6351, 0x14292967,
   0x27b70a85, 0x2e1b2138, 0x4d2c6dfc, 0x53380d13, 0x650a7354, 0x766a0abb, 0x81c2c92e, 0x92722c85,
   0xa2bfe8a1, 0xa81a664b, 0xc24b8b70, 0xc76c51a3, 0xd192e819, 0xd6990624, 0xf40e3585, 0x106aa070,
   0x19a4c116, 0x1e376c08, 0x2748774c, 0x34b0bcb5, 0x391c0cb3, 0x4ed8aa4a, 0x5b9cca4f, 0x682e6ff3,
   0x748f82ee, 0x78a5636f, 0x84c87814, 0x8cc70208, 0x90befffa, 0xa4506ceb, 0xbef9a3f7, 0xc67178f2]

def rotateRight (x : UInt32) (n : UInt32) : UInt32 :=
  (x >>> n) ||| (x <<< (32 - n))

def State.round (s : State) (k w : UInt32) : State :=
  let sigma1 := rotateRight s.e 6 ^^^ rotateRight s.e 11 ^^^ rotateRight s.e 25
  let choice := (s.e &&& s.f) ^^^ (~~~s.e &&& s.g)
  let sigma0 := rotateRight s.a 2 ^^^ rotateRight s.a 13 ^^^ rotateRight s.a 22
  let majority := (s.a &&& s.b) ^^^ (s.a &&& s.c) ^^^ (s.b &&& s.c)
  let t1 := s.h + sigma1 + choice + k + w
  ⟨t1 + (sigma0 + majority), s.a, s.b, s.c, s.d + t1, s.e, s.f, s.g⟩

/-- The schedule word that follows `w` and its fifteen successors `ws`. -/
def scheduleWord (w : UInt32) (ws : List UInt32) : UInt32 :=
  let x := ws.getD 0 0
  let y := ws.getD 13 0
  let sigma0 := rotateRight x 7 ^^^ rotateRight x 18 ^^^ (x >>> 3)
  let sigma1 := rotateRight y 17 ^^^ rotateRight y 19 ^^^ (y >>> 10)
  w + sigma0 + ws.getD 8 0 + sigma1

/-- One round per constant; `window` holds the next sixteen words of the schedule. -/
def rounds : (constants window : List UInt32) → State → State
  | k :: constants, w :: window, s =>
    rounds constants (window ++ [scheduleWord w window]) (s.round k w)
  | _, _, s => s

def compress (s : State) (block : List UInt32) : State :=
  let t := rounds roundConstants block s
  ⟨s.a + t.a, s.b + t.b, s.c + t.c, s.d + t.d, s.e + t.e, s.f + t.f, s.g + t.g, s.h + t.h⟩

def absorb : (count : Nat) → (words : List UInt32) → State → State
  | 0, _, s => s
  | count + 1, words, s => absorb count (words.drop 16) (compress s (words.take 16))

-- ---------------------------------------------------------------------------
-- Messages
-- ---------------------------------------------------------------------------

def wordsOf : Bytes → List UInt32
  | a :: b :: c :: d :: rest =>
    ((a.toUInt32 <<< 24) ||| (b.toUInt32 <<< 16) ||| (c.toUInt32 <<< 8) ||| d.toUInt32) ::
      wordsOf rest
  | _ => []

/-- The message, a one bit, zeros up to eight bytes short of a block, and the bit length. -/
def padded (message : Bytes) : Bytes :=
  message ++ 0x80 :: List.replicate ((119 - message.length % 64) % 64) 0 ++
    Bytes.bigEndian 8 (8 * message.length)

def State.toBytes (s : State) : Bytes :=
  [s.a, s.b, s.c, s.d, s.e, s.f, s.g, s.h].flatMap fun w => Bytes.bigEndian 4 w.toNat

def digest (message : Bytes) : Bytes :=
  let words := wordsOf (padded message)
  (absorb (words.length / 16) words .initial).toBytes

@[simp] theorem length_digest (message : Bytes) : (digest message).length = 32 := by
  simp [digest, State.toBytes]

end SealedPayroll.Sha256
