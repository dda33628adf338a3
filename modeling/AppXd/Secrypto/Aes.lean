import AppXd.Lib.BlockCipher

/-!
# AES with a key of 128 bits

`app_security_aes.c` works on a state of four columns of four bytes, which lies over the sixteen
bytes of a block. There are two key schedules, one for each direction, and each of the inverse steps
undoes its step: `rsbox` inverts `sbox`, and the two column transformations are additive, so that one
need only see what they do to a column in which one byte is not zero.
-/

namespace AppXd.Secrypto

/-- The number of columns of a state. -/
def nb : Nat := 4

/-- The number of words of a key. -/
def nk : Nat := 4

/-- The number of rounds. -/
def nr : Nat := 10

/-- `KEYLEN`, which is also the length of a block. -/
def keyLen : Nat := 16

def sbox : List UInt8 := [
  0x63, 0x7c, 0x77, 0x7b, 0xf2, 0x6b, 0x6f, 0xc5, 0x30, 0x01, 0x67, 0x2b, 0xfe, 0xd7, 0xab, 0x76,
  0xca, 0x82, 0xc9, 0x7d, 0xfa, 0x59, 0x47, 0xf0, 0xad, 0xd4, 0xa2, 0xaf, 0x9c, 0xa4, 0x72, 0xc0,
  0xb7, 0xfd, 0x93, 0x26, 0x36, 0x3f, 0xf7, 0xcc, 0x34, 0xa5, 0xe5, 0xf1, 0x71, 0xd8, 0x31, 0x15,
  0x04, 0xc7, 0x23, 0xc3, 0x18, 0x96, 0x05, 0x9a, 0x07, 0x12, 0x80, 0xe2, 0xeb, 0x27, 0xb2, 0x75,
  0x09, 0x83, 0x2c, 0x1a, 0x1b, 0x6e, 0x5a, 0xa0, 0x52, 0x3b, 0xd6, 0xb3, 0x29, 0xe3, 0x2f, 0x84,
  0x53, 0xd1, 0x00, 0xed, 0x20, 0xfc, 0xb1, 0x5b, 0x6a, 0xcb, 0xbe, 0x39, 0x4a, 0x4c, 0x58, 0xcf,
  0xd0, 0xef, 0xaa, 0xfb, 0x43, 0x4d, 0x33, 0x85, 0x45, 0xf9, 0x02, 0x7f, 0x50, 0x3c, 0x9f, 0xa8,
  0x51, 0xa3, 0x40, 0x8f, 0x92, 0x9d, 0x38, 0xf5, 0xbc, 0xb6, 0xda, 0x21, 0x10, 0xff, 0xf3, 0xd2,
  0xcd, 0x0c, 0x13, 0xec, 0x5f, 0x97, 0x44, 0x17, 0xc4, 0xa7, 0x7e, 0x3d, 0x64, 0x5d, 0x19, 0x73,
  0x60, 0x81, 0x4f, 0xdc, 0x22, 0x2a, 0x90, 0x88, 0x46, 0xee, 0xb8, 0x14, 0xde, 0x5e, 0x0b, 0xdb,
  0xe0, 0x32, 0x3a, 0x0a, 0x49, 0x06, 0x24, 0x5c, 0xc2, 0xd3, 0xac, 0x62, 0x91, 0x95, 0xe4, 0x79,
  0xe7, 0xc8, 0x37, 0x6d, 0x8d, 0xd5, 0x4e, 0xa9, 0x6c, 0x56, 0xf4, 0xea, 0x65, 0x7a, 0xae, 0x08,
  0xba, 0x78, 0x25, 0x2e, 0x1c, 0xa6, 0xb4, 0xc6, 0xe8, 0xdd, 0x74, 0x1f, 0x4b, 0xbd, 0x8b, 0x8a,
  0x70, 0x3e, 0xb5, 0x66, 0x48, 0x03, 0xf6, 0x0e, 0x61, 0x35, 0x57, 0xb9, 0x86, 0xc1, 0x1d, 0x9e,
  0xe1, 0xf8, 0x98, 0x11, 0x69, 0xd9, 0x8e, 0x94, 0x9b, 0x1e, 0x87, 0xe9, 0xce, 0x55, 0x28, 0xdf,
  0x8c, 0xa1, 0x89, 0x0d, 0xbf, 0xe6, 0x42, 0x68, 0x41, 0x99, 0x2d, 0x0f, 0xb0, 0x54, 0xbb, 0x16]

def rsbox : List UInt8 := [
  0x52, 0x09, 0x6a, 0xd5, 0x30, 0x36, 0xa5, 0x38, 0xbf, 0x40, 0xa3, 0x9e, 0x81, 0xf3, 0xd7, 0xfb,
  0x7c, 0xe3, 0x39, 0x82, 0x9b, 0x2f, 0xff, 0x87, 0x34, 0x8e, 0x43, 0x44, 0xc4, 0xde, 0xe9, 0xcb,
  0x54, 0x7b, 0x94, 0x32, 0xa6, 0xc2, 0x23, 0x3d, 0xee, 0x4c, 0x95, 0x0b, 0x42, 0xfa, 0xc3, 0x4e,
  0x08, 0x2e, 0xa1, 0x66, 0x28, 0xd9, 0x24, 0xb2, 0x76, 0x5b, 0xa2, 0x49, 0x6d, 0x8b, 0xd1, 0x25,
  0x72, 0xf8, 0xf6, 0x64, 0x86, 0x68, 0x98, 0x16, 0xd4, 0xa4, 0x5c, 0xcc, 0x5d, 0x65, 0xb6, 0x92,
  0x6c, 0x70, 0x48, 0x50, 0xfd, 0xed, 0xb9, 0xda, 0x5e, 0x15, 0x46, 0x57, 0xa7, 0x8d, 0x9d, 0x84,
  0x90, 0xd8, 0xab, 0x00, 0x8c, 0xbc, 0xd3, 0x0a, 0xf7, 0xe4, 0x58, 0x05, 0xb8, 0xb3, 0x45, 0x06,
  0xd0, 0x2c, 0x1e, 0x8f, 0xca, 0x3f, 0x0f, 0x02, 0xc1, 0xaf, 0xbd, 0x03, 0x01, 0x13, 0x8a, 0x6b,
  0x3a, 0x91, 0x11, 0x41, 0x4f, 0x67, 0xdc, 0xea, 0x97, 0xf2, 0xcf, 0xce, 0xf0, 0xb4, 0xe6, 0x73,
  0x96, 0xac, 0x74, 0x22, 0xe7, 0xad, 0x35, 0x85, 0xe2, 0xf9, 0x37, 0xe8, 0x1c, 0x75, 0xdf, 0x6e,
  0x47, 0xf1, 0x1a, 0x71, 0x1d, 0x29, 0xc5, 0x89, 0x6f, 0xb7, 0x62, 0x0e, 0xaa, 0x18, 0xbe, 0x1b,
  0xfc, 0x56, 0x3e, 0x4b, 0xc6, 0xd2, 0x79, 0x20, 0x9a, 0xdb, 0xc0, 0xfe, 0x78, 0xcd, 0x5a, 0xf4,
  0x1f, 0xdd, 0xa8, 0x33, 0x88, 0x07, 0xc7, 0x31, 0xb1, 0x12, 0x10, 0x59, 0x27, 0x80, 0xec, 0x5f,
  0x60, 0x51, 0x7f, 0xa9, 0x19, 0xb5, 0x4a, 0x0d, 0x2d, 0xe5, 0x7a, 0x9f, 0x93, 0xc9, 0x9c, 0xef,
  0xa0, 0xe0, 0x3b, 0x4d, 0xae, 0x2a, 0xf5, 0xb0, 0xc8, 0xeb, 0xbb, 0x3c, 0x83, 0x53, 0x99, 0x61,
  0x17, 0x2b, 0x04, 0x7e, 0xba, 0x77, 0xd6, 0x26, 0xe1, 0x69, 0x14, 0x63, 0x55, 0x21, 0x0c, 0x7d]

/-- `Rcon`. -/
def rcon : List UInt8 := [
  0x8d, 0x01, 0x02, 0x04, 0x08, 0x10, 0x20, 0x40, 0x80, 0x1b, 0x36, 0x6c, 0xd8, 0xab, 0x4d, 0x9a,
  0x2f, 0x5e, 0xbc, 0x63, 0xc6, 0x97, 0x35, 0x6a, 0xd4, 0xb3, 0x7d, 0xfa, 0xef, 0xc5, 0x91, 0x39,
  0x72, 0xe4, 0xd3, 0xbd, 0x61, 0xc2, 0x9f, 0x25, 0x4a, 0x94, 0x33, 0x66, 0xcc, 0x83, 0x1d, 0x3a,
  0x74, 0xe8, 0xcb, 0x8d, 0x01, 0x02, 0x04, 0x08, 0x10, 0x20, 0x40, 0x80, 0x1b, 0x36, 0x6c, 0xd8,
  0xab, 0x4d, 0x9a, 0x2f, 0x5e, 0xbc, 0x63, 0xc6, 0x97, 0x35, 0x6a, 0xd4, 0xb3, 0x7d, 0xfa, 0xef,
  0xc5, 0x91, 0x39, 0x72, 0xe4, 0xd3, 0xbd, 0x61, 0xc2, 0x9f, 0x25, 0x4a, 0x94, 0x33, 0x66, 0xcc,
  0x83, 0x1d, 0x3a, 0x74, 0xe8, 0xcb, 0x8d, 0x01, 0x02, 0x04, 0x08, 0x10, 0x20, 0x40, 0x80, 0x1b,
  0x36, 0x6c, 0xd8, 0xab, 0x4d, 0x9a, 0x2f, 0x5e, 0xbc, 0x63, 0xc6, 0x97, 0x35, 0x6a, 0xd4, 0xb3,
  0x7d, 0xfa, 0xef, 0xc5, 0x91, 0x39, 0x72, 0xe4, 0xd3, 0xbd, 0x61, 0xc2, 0x9f, 0x25, 0x4a, 0x94,
  0x33, 0x66, 0xcc, 0x83, 0x1d, 0x3a, 0x74, 0xe8, 0xcb, 0x8d, 0x01, 0x02, 0x04, 0x08, 0x10, 0x20,
  0x40, 0x80, 0x1b, 0x36, 0x6c, 0xd8, 0xab, 0x4d, 0x9a, 0x2f, 0x5e, 0xbc, 0x63, 0xc6, 0x97, 0x35,
  0x6a, 0xd4, 0xb3, 0x7d, 0xfa, 0xef, 0xc5, 0x91, 0x39, 0x72, 0xe4, 0xd3, 0xbd, 0x61, 0xc2, 0x9f,
  0x25, 0x4a, 0x94, 0x33, 0x66, 0xcc, 0x83, 0x1d, 0x3a, 0x74, 0xe8, 0xcb, 0x8d, 0x01, 0x02, 0x04,
  0x08, 0x10, 0x20, 0x40, 0x80, 0x1b, 0x36, 0x6c, 0xd8, 0xab, 0x4d, 0x9a, 0x2f, 0x5e, 0xbc, 0x63,
  0xc6, 0x97, 0x35, 0x6a, 0xd4, 0xb3, 0x7d, 0xfa, 0xef, 0xc5, 0x91, 0x39, 0x72, 0xe4, 0xd3, 0xbd,
  0x61, 0xc2, 0x9f, 0x25, 0x4a, 0x94, 0x33, 0x66, 0xcc, 0x83, 0x1d, 0x3a, 0x74, 0xe8, 0xcb]

/-! ## States -/

/-- Four bytes: a column of a state, or a word of a key. -/
structure Word where
  b0 : UInt8
  b1 : UInt8
  b2 : UInt8
  b3 : UInt8
  deriving DecidableEq

/-- `state_t`. The byte `(*state)[i][j]` is the byte `j` of the column `i`. -/
structure AesState where
  c0 : Word
  c1 : Word
  c2 : Word
  c3 : Word
  deriving DecidableEq

instance : XorOp Word where
  xor w v := ⟨w.b0 ^^^ v.b0, w.b1 ^^^ v.b1, w.b2 ^^^ v.b2, w.b3 ^^^ v.b3⟩

namespace Word

def map (f : UInt8 → UInt8) (w : Word) : Word := ⟨f w.b0, f w.b1, f w.b2, f w.b3⟩

/-- The word that begins at a place of a buffer. -/
def read (buf : List UInt8) (a : Nat) : Word :=
  ⟨buf.getD a 0, buf.getD (a + 1) 0, buf.getD (a + 2) 0, buf.getD (a + 3) 0⟩

def bytes (w : Word) : List UInt8 := [w.b0, w.b1, w.b2, w.b3]

end Word

namespace AesState

def map (f : Word → Word) (s : AesState) : AesState := ⟨f s.c0, f s.c1, f s.c2, f s.c3⟩

/-- The state over a block. -/
def ofBlock (block : List UInt8) : AesState :=
  ⟨.read block 0, .read block 4, .read block 8, .read block 12⟩

def toBlock (s : AesState) : List UInt8 := s.c0.bytes ++ s.c1.bytes ++ s.c2.bytes ++ s.c3.bytes

end AesState

/-! ## The key schedules -/

/-- `getSBoxValue`. -/
def getSBoxValue (num : UInt8) : UInt8 := sbox.getD num.toNat 0

/-- `getSBoxInvert`. -/
def getSBoxInvert (num : UInt8) : UInt8 := rsbox.getD num.toNat 0

def rotWord (w : Word) : Word := ⟨w.b1, w.b2, w.b3, w.b0⟩

def subWord (w : Word) : Word := w.map getSBoxValue

/-- The word `i` of a schedule, behind the words that are there already. -/
def expandWord (roundKey : List UInt8) (i : Nat) : List UInt8 :=
  let temp := Word.read roundKey ((i - 1) * 4)
  let temp :=
    if i % nk = 0 then
      let temp := subWord (rotWord temp)
      { temp with b0 := temp.b0 ^^^ rcon.getD (i / nk) 0 }
    else if 6 < nk ∧ i % nk = 4 then subWord temp
    else temp
  roundKey ++ (Word.read roundKey ((i - nk) * 4) ^^^ temp).bytes

/-- The loops of both schedules. Sixteen bytes of the key are read. -/
def keyExpansion (key : List UInt8) : List UInt8 :=
  let roundKey := (List.range nk).flatMap fun i => (Word.read key (i * 4)).bytes
  (List.range' nk (nb * (nr + 1) - nk)).foldl expandWord roundKey

/-- `KeyExpansion_encrypt`. -/
def keyExpansionEncrypt (key : List UInt8) : List UInt8 := keyExpansion key

/-- `KeyExpansion_decrypt`. -/
def keyExpansionDecrypt (key : List UInt8) : List UInt8 := keyExpansion key

/-! ## The steps of a round -/

/-- `AddRoundKey_encrypt` and `AddRoundKey_decrypt`, each with its schedule. -/
def addRoundKey (roundKey : List UInt8) (s : AesState) (round : Nat) : AesState :=
  let key (i : Nat) := Word.read roundKey (round * nb * 4 + i * nb)
  ⟨s.c0 ^^^ key 0, s.c1 ^^^ key 1, s.c2 ^^^ key 2, s.c3 ^^^ key 3⟩

/-- `SubBytes`. -/
def subBytes (s : AesState) : AesState := s.map (Word.map getSBoxValue)

/-- `ShiftRows`. -/
def shiftRows (s : AesState) : AesState where
  c0 := ⟨s.c0.b0, s.c1.b1, s.c2.b2, s.c3.b3⟩
  c1 := ⟨s.c1.b0, s.c2.b1, s.c3.b2, s.c0.b3⟩
  c2 := ⟨s.c2.b0, s.c3.b1, s.c0.b2, s.c1.b3⟩
  c3 := ⟨s.c3.b0, s.c0.b1, s.c1.b2, s.c2.b3⟩

def xtime (x : UInt8) : UInt8 := (x <<< 1) ^^^ (((x >>> 7) &&& 1) * 0x1b)

/-- One column of `MixColumns`. -/
def mixColumn (w : Word) : Word :=
  let tmp := w.b0 ^^^ w.b1 ^^^ w.b2 ^^^ w.b3
  { b0 := w.b0 ^^^ (xtime (w.b0 ^^^ w.b1) ^^^ tmp)
    b1 := w.b1 ^^^ (xtime (w.b1 ^^^ w.b2) ^^^ tmp)
    b2 := w.b2 ^^^ (xtime (w.b2 ^^^ w.b3) ^^^ tmp)
    b3 := w.b3 ^^^ (xtime (w.b3 ^^^ w.b0) ^^^ tmp) }

/-- `MixColumns`. -/
def mixColumns (s : AesState) : AesState := s.map mixColumn

/-- `Multiply`. -/
def multiply (x y : UInt8) : UInt8 :=
  let bit (k : UInt8) : UInt8 := (y >>> k) &&& 1
  (bit 0 * x) ^^^ (bit 1 * xtime x) ^^^ (bit 2 * xtime (xtime x)) ^^^
    (bit 3 * xtime (xtime (xtime x))) ^^^ (bit 4 * xtime (xtime (xtime (xtime x))))

/-- One column of `InvMixColumns`. -/
def invMixColumn (w : Word) : Word :=
  let ⟨a, b, c, d⟩ := w
  { b0 := multiply a 0x0e ^^^ multiply b 0x0b ^^^ multiply c 0x0d ^^^ multiply d 0x09
    b1 := multiply a 0x09 ^^^ multiply b 0x0e ^^^ multiply c 0x0b ^^^ multiply d 0x0d
    b2 := multiply a 0x0d ^^^ multiply b 0x09 ^^^ multiply c 0x0e ^^^ multiply d 0x0b
    b3 := multiply a 0x0b ^^^ multiply b 0x0d ^^^ multiply c 0x09 ^^^ multiply d 0x0e }

/-- `InvMixColumns`. -/
def invMixColumns (s : AesState) : AesState := s.map invMixColumn

/-- `InvSubBytes`. -/
def invSubBytes (s : AesState) : AesState := s.map (Word.map getSBoxInvert)

/-- `InvShiftRows`. -/
def invShiftRows (s : AesState) : AesState where
  c0 := ⟨s.c0.b0, s.c3.b1, s.c2.b2, s.c1.b3⟩
  c1 := ⟨s.c1.b0, s.c0.b1, s.c3.b2, s.c2.b3⟩
  c2 := ⟨s.c2.b0, s.c1.b1, s.c0.b2, s.c3.b3⟩
  c3 := ⟨s.c3.b0, s.c2.b1, s.c1.b2, s.c0.b3⟩

/-! ## Blocks -/

/-- One round of the loop of `Cipher`. -/
def cipherRound (roundKey : List UInt8) (s : AesState) (round : Nat) : AesState :=
  addRoundKey roundKey (mixColumns (shiftRows (subBytes s))) round

/-- `Cipher`. -/
def cipher (roundKey : List UInt8) (s : AesState) : AesState :=
  let s := (List.range' 1 (nr - 1)).foldl (cipherRound roundKey) (addRoundKey roundKey s 0)
  addRoundKey roundKey (shiftRows (subBytes s)) nr

/-- One round of the loop of `InvCipher`. -/
def invCipherRound (roundKey : List UInt8) (s : AesState) (round : Nat) : AesState :=
  invMixColumns (addRoundKey roundKey (invSubBytes (invShiftRows s)) round)

/-- `InvCipher`. -/
def invCipher (roundKey : List UInt8) (s : AesState) : AesState :=
  let s := (List.range' 1 (nr - 1)).reverse.foldl (invCipherRound roundKey)
    (addRoundKey roundKey s nr)
  addRoundKey roundKey (invSubBytes (invShiftRows s)) 0

/-- `AES128_ECB_encrypt`, with the block that it leaves in its output. -/
def aes128EncryptBlock (key block : List UInt8) : List UInt8 :=
  (cipher (keyExpansionEncrypt key) (.ofBlock block)).toBlock

/-- `AES128_ECB_decrypt`. -/
def aes128DecryptBlock (key block : List UInt8) : List UInt8 :=
  (invCipher (keyExpansionDecrypt key) (.ofBlock block)).toBlock

example :
    aes128EncryptBlock [0, 1, 2, 3, 4, 5, 6, 7, 8, 9, 10, 11, 12, 13, 14, 15]
      [0x00, 0x11, 0x22, 0x33, 0x44, 0x55, 0x66, 0x77, 0x88, 0x99, 0xaa, 0xbb, 0xcc, 0xdd, 0xee, 0xff] =
      [0x69, 0xc4, 0xe0, 0xd8, 0x6a, 0x7b, 0x04, 0x30, 0xd8, 0xcd, 0xb7, 0x80, 0x70, 0xb4, 0xc5, 0x5a] := by
  decide +kernel

/-! ## The columns -/

/-- A shifted byte has one lowest bit. -/
theorem lowest_bit (x k : UInt8) : (x >>> k) &&& 1 = 0 ∨ (x >>> k) &&& 1 = 1 := by
  have hall : ∀ x : BitVec 8, UInt8.ofBitVec x &&& 1 = 0 ∨ UInt8.ofBitVec x &&& 1 = 1 := by
    decide +kernel
  exact hall (x >>> k).toBitVec

theorem xor_and (x y z : UInt8) : (x ^^^ y) &&& z = (x &&& z) ^^^ (y &&& z) := by
  refine UInt8.toBitVec_inj.1 (BitVec.eq_of_getLsbD_eq fun i _ => ?_)
  simp [Bool.and_xor_distrib_right]

theorem xtime_xor (x y : UInt8) : xtime (x ^^^ y) = xtime x ^^^ xtime y := by
  have hmul : ∀ a b : UInt8, a = 0 ∨ a = 1 → b = 0 ∨ b = 1 →
      (a ^^^ b) * 0x1b = (a * 0x1b) ^^^ (b * 0x1b) := by
    rintro a b (rfl | rfl) (rfl | rfl) <;> rfl
  unfold xtime
  rw [UInt8.shiftLeft_xor, UInt8.shiftRight_xor, xor_and, hmul _ _ (lowest_bit x 7) (lowest_bit y 7)]
  ac_rfl

theorem multiply_xor (x y c : UInt8) : multiply (x ^^^ y) c = multiply x c ^^^ multiply y c := by
  have hmul : ∀ (k : UInt8) (x y : UInt8), ((c >>> k) &&& 1) * (x ^^^ y) =
      (((c >>> k) &&& 1) * x) ^^^ (((c >>> k) &&& 1) * y) := by
    intro k x y
    obtain h | h := lowest_bit c k <;> rw [h]
    · rw [UInt8.zero_mul, UInt8.zero_mul, UInt8.zero_mul, UInt8.xor_self]
    · rw [UInt8.one_mul, UInt8.one_mul, UInt8.one_mul]
  unfold multiply
  simp only [xtime_xor, hmul]
  ac_rfl

theorem mixColumn_xor (w v : Word) : mixColumn (w ^^^ v) = mixColumn w ^^^ mixColumn v := by
  have hxor : ∀ w v : Word, w ^^^ v = ⟨w.b0 ^^^ v.b0, w.b1 ^^^ v.b1, w.b2 ^^^ v.b2, w.b3 ^^^ v.b3⟩ :=
    fun _ _ => rfl
  simp only [mixColumn, hxor, xtime_xor, Word.mk.injEq]
  refine ⟨?_, ?_, ?_, ?_⟩ <;> ac_rfl

theorem invMixColumn_xor (w v : Word) :
    invMixColumn (w ^^^ v) = invMixColumn w ^^^ invMixColumn v := by
  have hxor : ∀ w v : Word, w ^^^ v = ⟨w.b0 ^^^ v.b0, w.b1 ^^^ v.b1, w.b2 ^^^ v.b2, w.b3 ^^^ v.b3⟩ :=
    fun _ _ => rfl
  simp only [invMixColumn, hxor, multiply_xor, Word.mk.injEq]
  refine ⟨?_, ?_, ?_, ?_⟩ <;> ac_rfl

/-- A column is the sum of its bytes. -/
theorem Word.eq_sum (w : Word) :
    w = ⟨w.b0, 0, 0, 0⟩ ^^^ ⟨0, w.b1, 0, 0⟩ ^^^ ⟨0, 0, w.b2, 0⟩ ^^^ ⟨0, 0, 0, w.b3⟩ := by
  obtain ⟨a, b, c, d⟩ := w
  have hxor : ∀ w v : Word, w ^^^ v = ⟨w.b0 ^^^ v.b0, w.b1 ^^^ v.b1, w.b2 ^^^ v.b2, w.b3 ^^^ v.b3⟩ :=
    fun _ _ => rfl
  simp only [hxor, UInt8.xor_zero, UInt8.zero_xor]

/-! The factors of `InvMixColumns`, as sums of the doublings of a byte. -/

theorem multiply_09 (x : UInt8) : multiply x 0x09 = x ^^^ xtime (xtime (xtime x)) := by
  show 1 * x ^^^ 0 * _ ^^^ 0 * _ ^^^ 1 * _ ^^^ 0 * _ = _
  simp only [UInt8.one_mul, UInt8.zero_mul, UInt8.xor_zero]

theorem multiply_0b (x : UInt8) : multiply x 0x0b = x ^^^ xtime x ^^^ xtime (xtime (xtime x)) := by
  show 1 * x ^^^ 1 * _ ^^^ 0 * _ ^^^ 1 * _ ^^^ 0 * _ = _
  simp only [UInt8.one_mul, UInt8.zero_mul, UInt8.xor_zero]

theorem multiply_0d (x : UInt8) :
    multiply x 0x0d = x ^^^ xtime (xtime x) ^^^ xtime (xtime (xtime x)) := by
  show 1 * x ^^^ 0 * _ ^^^ 1 * _ ^^^ 1 * _ ^^^ 0 * _ = _
  simp only [UInt8.one_mul, UInt8.zero_mul, UInt8.xor_zero]

theorem multiply_0e (x : UInt8) :
    multiply x 0x0e = xtime x ^^^ xtime (xtime x) ^^^ xtime (xtime (xtime x)) := by
  show 0 * x ^^^ 1 * _ ^^^ 1 * _ ^^^ 1 * _ ^^^ 0 * _ = _
  simp only [UInt8.one_mul, UInt8.zero_mul, UInt8.xor_zero, UInt8.zero_xor]

theorem xor_left_comm (x y z : UInt8) : x ^^^ (y ^^^ z) = y ^^^ (x ^^^ z) := by
  rw [← UInt8.xor_assoc, UInt8.xor_comm x y, UInt8.xor_assoc]

theorem xor_cancel_left (x y : UInt8) : x ^^^ (x ^^^ y) = y := by
  rw [← UInt8.xor_assoc, UInt8.xor_self, UInt8.zero_xor]

/-- `InvMixColumns` undoes `MixColumns`. -/
theorem invMixColumn_mixColumn (w : Word) : invMixColumn (mixColumn w) = w := by
  have h0 : xtime 0 = 0 := rfl
  -- in a column with one byte the doublings of that byte cancel, whatever they are
  have hall : ∀ x : UInt8,
      invMixColumn (mixColumn ⟨x, 0, 0, 0⟩) = ⟨x, 0, 0, 0⟩ ∧
      invMixColumn (mixColumn ⟨0, x, 0, 0⟩) = ⟨0, x, 0, 0⟩ ∧
      invMixColumn (mixColumn ⟨0, 0, x, 0⟩) = ⟨0, 0, x, 0⟩ ∧
      invMixColumn (mixColumn ⟨0, 0, 0, x⟩) = ⟨0, 0, 0, x⟩ := by
    intro x
    simp only [mixColumn, invMixColumn, multiply_09, multiply_0b, multiply_0d, multiply_0e,
      xtime_xor, h0, UInt8.xor_zero, UInt8.zero_xor, UInt8.xor_self]
    generalize xtime (xtime (xtime (xtime x))) = x₄
    generalize xtime (xtime (xtime x)) = x₃
    generalize xtime (xtime x) = x₂
    generalize xtime x = x₁
    refine ⟨?_, ?_, ?_, ?_⟩ <;>
      simp only [UInt8.xor_comm, xor_left_comm, xor_cancel_left, UInt8.xor_self, UInt8.xor_zero]
  conv_lhs => rw [w.eq_sum]
  simp only [mixColumn_xor, invMixColumn_xor]
  rw [(hall w.b0).1, (hall w.b1).2.1, (hall w.b2).2.2.1, (hall w.b3).2.2.2]
  exact w.eq_sum.symm

/-! ## The inverse cipher -/

theorem invMixColumns_mixColumns (s : AesState) : invMixColumns (mixColumns s) = s := by
  simp only [invMixColumns, mixColumns, AesState.map, invMixColumn_mixColumn]

theorem invShiftRows_shiftRows (s : AesState) : invShiftRows (shiftRows s) = s := rfl

theorem getSBoxInvert_getSBoxValue (x : UInt8) : getSBoxInvert (getSBoxValue x) = x := by
  have hall : ∀ x : BitVec 8, getSBoxInvert (getSBoxValue ⟨x⟩) = ⟨x⟩ := by decide +kernel
  exact hall x.toBitVec

theorem invSubBytes_subBytes (s : AesState) : invSubBytes (subBytes s) = s := by
  simp only [invSubBytes, subBytes, AesState.map, Word.map, getSBoxInvert_getSBoxValue]

theorem addRoundKey_addRoundKey (roundKey : List UInt8) (s : AesState) (round : Nat) :
    addRoundKey roundKey (addRoundKey roundKey s round) round = s := by
  have hxor : ∀ w v : Word, w ^^^ v ^^^ v = w := by
    rintro ⟨a, b, c, d⟩ v
    have hbyte : ∀ x y : UInt8, x ^^^ y ^^^ y = x := fun x y => by
      rw [UInt8.xor_assoc, UInt8.xor_self, UInt8.xor_zero]
    show Word.mk (a ^^^ v.b0 ^^^ v.b0) (b ^^^ v.b1 ^^^ v.b1) (c ^^^ v.b2 ^^^ v.b2)
      (d ^^^ v.b3 ^^^ v.b3) = _
    simp only [hbyte]
  simp only [addRoundKey, hxor]

/-- What is behind the inner steps of a round at the beginning of an inverse round. -/
theorem invCipherRound_cipherRound (roundKey : List UInt8) (s : AesState) (round : Nat) :
    invCipherRound roundKey (shiftRows (subBytes (cipherRound roundKey s round))) round =
      shiftRows (subBytes s) := by
  rw [invCipherRound, invShiftRows_shiftRows, invSubBytes_subBytes, cipherRound,
    addRoundKey_addRoundKey, invMixColumns_mixColumns]

/-- `InvCipher` undoes `Cipher` with the same schedule. -/
theorem invCipher_cipher (roundKey : List UInt8) (s : AesState) :
    invCipher roundKey (cipher roundKey s) = s := by
  have hrounds : (List.range' 1 (nr - 1)).reverse.foldl (invCipherRound roundKey)
      (shiftRows (subBytes ((List.range' 1 (nr - 1)).foldl (cipherRound roundKey)
        (addRoundKey roundKey s 0)))) = shiftRows (subBytes (addRoundKey roundKey s 0)) :=
    BlockCipher.foldl_reverse_cancel (F := fun s => shiftRows (subBytes s))
      (invCipherRound_cipherRound roundKey) _ _
  unfold invCipher cipher
  simp only
  rw [addRoundKey_addRoundKey, hrounds, invShiftRows_shiftRows, invSubBytes_subBytes,
    addRoundKey_addRoundKey]

/-! ## Blocks and states -/

theorem Word.bytes_read {buf : List UInt8} {a : Nat} (h : a + 4 ≤ buf.length) :
    (read buf a).bytes = (buf.drop a).take 4 := by
  have hget : ∀ i, i < buf.length → buf.drop i = buf.getD i 0 :: buf.drop (i + 1) := fun i hi => by
    rw [List.drop_eq_getElem_cons hi, List.getD_eq_getElem _ _ hi]
  rw [hget a (by omega), hget (a + 1) (by omega), hget (a + 2) (by omega), hget (a + 3) (by omega)]
  rfl

theorem AesState.ofBlock_toBlock (s : AesState) : ofBlock s.toBlock = s := rfl

theorem AesState.toBlock_ofBlock {block : List UInt8} (h : block.length = keyLen) :
    (ofBlock block).toBlock = block := by
  have hlen : block.length = 16 := h
  have hzero : (Word.read block 0).bytes = block.take 4 := Word.bytes_read (by omega)
  unfold toBlock ofBlock
  rw [hzero, Word.bytes_read (by omega), Word.bytes_read (by omega), Word.bytes_read (by omega),
    ← List.take_add, ← List.take_add, ← List.take_add, List.take_of_length_le (by omega)]

theorem AesState.length_toBlock (s : AesState) : s.toBlock.length = keyLen := rfl

theorem length_aes128EncryptBlock (key block : List UInt8) :
    (aes128EncryptBlock key block).length = keyLen := AesState.length_toBlock _

theorem length_aes128DecryptBlock (key block : List UInt8) :
    (aes128DecryptBlock key block).length = keyLen := AesState.length_toBlock _

/-- A block is what it was after both ciphers. -/
theorem aes128DecryptBlock_encryptBlock (key : List UInt8) {block : List UInt8}
    (h : block.length = keyLen) : aes128DecryptBlock key (aes128EncryptBlock key block) = block := by
  rw [aes128DecryptBlock, aes128EncryptBlock, AesState.ofBlock_toBlock]
  refine (congrArg AesState.toBlock (invCipher_cipher (keyExpansion key) _)).trans ?_
  exact AesState.toBlock_ofBlock h

end AppXd.Secrypto
