import AiosDeck.Python.Text

/-!
# SHA-256

`hashlib.sha256(text.encode()).hexdigest()`: UTF-8, padding, the message
schedule, 64 rounds a block, and the digest in hexadecimal.
-/

namespace AiosDeck.Python

/-- UTF-8 of one code point. -/
def utf8Point (n : ℕ) : List ℕ :=
  if n < 0x80 then [n]
  else if n < 0x800 then [0xC0 + n / 0x40, 0x80 + n % 0x40]
  else if n < 0x10000 then [0xE0 + n / 0x1000, 0x80 + n / 0x40 % 0x40, 0x80 + n % 0x40]
  else [0xF0 + n / 0x40000, 0x80 + n / 0x1000 % 0x40, 0x80 + n / 0x40 % 0x40, 0x80 + n % 0x40]

/-- `text.encode("utf-8")`. -/
def utf8 (text : Text) : List ℕ := text.flatMap fun c => utf8Point c.toNat

namespace Sha256

/-- The low 32 bits. -/
def word (n : ℕ) : ℕ := n % 0x100000000

/-- Rotation of a word to the right. -/
def rotateRight (x n : ℕ) : ℕ := (x >>> n) ||| word (x <<< (32 - n))

def roundConstants : List ℕ :=
  [0x428a2f98, 0x71374491, 0xb5c0fbcf, 0xe9b5dba5, 0x3956c25b, 0x59f111f1, 0x923f82a4, 0xab1c5ed5,
   0xd807aa98, 0x12835b01, 0x243185be, 0x550c7dc3, 0x72be5d74, 0x80deb1fe, 0x9bdc06a7, 0xc19bf174,
   0xe49b69c1, 0xefbe4786, 0x0fc19dc6, 0x240ca1cc, 0x2de92c6f, 0x4a7484aa, 0x5cb0a9dc, 0x76f988da,
   0x983e5152, 0xa831c66d, 0xb00327c8, 0xbf597fc7, 0xc6e00bf3, 0xd5a79147, 0x06ca6351, 0x14292967,
   0x27b70a85, 0x2e1b2138, 0x4d2c6dfc, 0x53380d13, 0x650a7354, 0x766a0abb, 0x81c2c92e, 0x92722c85,
   0xa2bfe8a1, 0xa81a664b, 0xc24b8b70, 0xc76c51a3, 0xd192e819, 0xd6990624, 0xf40e3585, 0x106aa070,
   0x19a4c116, 0x1e376c08, 0x2748774c, 0x34b0bcb5, 0x391c0cb3, 0x4ed8aa4a, 0x5b9cca4f, 0x682e6ff3,
   0x748f82ee, 0x78a5636f, 0x84c87814, 0x8cc70208, 0x90befffa, 0xa4506ceb, 0xbef9a3f7, 0xc67178f2]

/-- The eight working words, with their initial values. -/
structure Registers where
  a : ℕ := 0x6a09e667
  b : ℕ := 0xbb67ae85
  c : ℕ := 0x3c6ef372
  d : ℕ := 0xa54ff53a
  e : ℕ := 0x510e527f
  f : ℕ := 0x9b05688c
  g : ℕ := 0x1f83d9ab
  h : ℕ := 0x5be0cd19

/-- The message with its padding and its length in bits. -/
def pad (bytes : List ℕ) : List ℕ :=
  let size := bytes.length
  bytes ++ [0x80] ++ List.replicate ((119 - size % 64) % 64) 0 ++
    (List.range 8).map fun i => size * 8 / 256 ^ (7 - i) % 256

/-- Big-endian words of the bytes. -/
def bigEndian : List ℕ → List ℕ
  | a :: b :: c :: d :: rest => (((a * 256 + b) * 256 + c) * 256 + d) :: bigEndian rest
  | _ => []

/-- One more word of the schedule, newest word first. -/
def extend (newest : List ℕ) : List ℕ :=
  let x := newest.getD 1 0
  let y := newest.getD 14 0
  let s1 := rotateRight x 17 ^^^ rotateRight x 19 ^^^ (x >>> 10)
  let s0 := rotateRight y 7 ^^^ rotateRight y 18 ^^^ (y >>> 3)
  word (s1 + newest.getD 6 0 + s0 + newest.getD 15 0) :: newest

/-- The 64 words of the schedule. -/
def schedule (block : List ℕ) : List ℕ :=
  ((List.range 48).foldl (fun newest _ => extend newest) block.reverse).reverse

/-- One round. -/
def round (r : Registers) (k w : ℕ) : Registers :=
  let s1 := rotateRight r.e 6 ^^^ rotateRight r.e 11 ^^^ rotateRight r.e 25
  let choice := (r.e &&& r.f) ^^^ ((0xffffffff - r.e) &&& r.g)
  let t1 := word (r.h + s1 + choice + k + w)
  let s0 := rotateRight r.a 2 ^^^ rotateRight r.a 13 ^^^ rotateRight r.a 22
  let majority := (r.a &&& r.b) ^^^ (r.a &&& r.c) ^^^ (r.b &&& r.c)
  let t2 := word (s0 + majority)
  ⟨word (t1 + t2), r.a, r.b, r.c, word (r.d + t1), r.e, r.f, r.g⟩

/-- The words after one block. -/
def compress (r : Registers) (block : List ℕ) : Registers :=
  let s := (roundConstants.zip (schedule block)).foldl (fun r kw => round r kw.1 kw.2) r
  ⟨word (r.a + s.a), word (r.b + s.b), word (r.c + s.c), word (r.d + s.d), word (r.e + s.e),
    word (r.f + s.f), word (r.g + s.g), word (r.h + s.h)⟩

/-- The words after this many blocks of a message. -/
def digest : ℕ → List ℕ → Registers → Registers
  | 0, _, r => r
  | n + 1, message, r => digest n (message.drop 16) (compress r (message.take 16))

/-- Eight hexadecimal digits. -/
def hexWord (x : ℕ) : Text := (List.range 8).map fun i => Nat.digitChar (x / 16 ^ (7 - i) % 16)

end Sha256

open Sha256 in
/-- `hashlib.sha256(text.encode()).hexdigest()`. -/
def sha256 (text : Text) : Text :=
  let message := bigEndian (pad (utf8 text))
  let r := digest (message.length / 16) message {}
  [r.a, r.b, r.c, r.d, r.e, r.f, r.g, r.h].flatMap hexWord

example : sha256 "abc".toList =
    "ba7816bf8f01cfea414140de5dae2223b00361a396177a9cb410ff61f20015ad".toList := by
  decide

end AiosDeck.Python
