import AppXd.Lib.BlockHash
import AppXd.Lib.Ring

/-!
# MD5

The digest of a message that comes in any number of updates. The context counts the bits of the
message and keeps the part of a block that has not been filled yet; `xd_MD5Final` pads the message
through two more updates.
-/

namespace AppXd.Secrypto

open BlockHash (blocks rest absorb)

/-- `state[0]` to `state[3]`. -/
structure MD5State where
  a : UInt32
  b : UInt32
  c : UInt32
  d : UInt32
  deriving DecidableEq

/-- `MD5_CTX`. The buffer is memory: what stands behind the bytes that have been put there is
arbitrary. -/
structure MD5Ctx where
  count0 : UInt32
  count1 : UInt32
  state : MD5State
  buffer : Nat → UInt8

def md5Padding : List UInt8 := 0x80 :: List.replicate 63 0

/-! ## The transformation of a block -/

def rotateLeft (x n : UInt32) : UInt32 := x <<< n ||| x >>> (32 - n)

def ff (a b c d x s ac : UInt32) : UInt32 :=
  rotateLeft (a + ((b &&& c ||| ~~~b &&& d) + x + ac)) s + b

def gg (a b c d x s ac : UInt32) : UInt32 :=
  rotateLeft (a + ((b &&& d ||| c &&& ~~~d) + x + ac)) s + b

def hh (a b c d x s ac : UInt32) : UInt32 := rotateLeft (a + ((b ^^^ c ^^^ d) + x + ac)) s + b

def ii (a b c d x s ac : UInt32) : UInt32 := rotateLeft (a + ((c ^^^ (b ||| ~~~d)) + x + ac)) s + b

/-- `xd_MD5Encode` of all its words. -/
def xdMD5Encode (input : List UInt32) : List UInt8 :=
  input.flatMap fun (w : UInt32) => [(w &&& 0xFF).toUInt8, (w >>> 8 &&& 0xFF).toUInt8,
    (w >>> 16 &&& 0xFF).toUInt8, (w >>> 24 &&& 0xFF).toUInt8]

/-- The word with the number `i` of `xd_MD5Decode`. -/
def xdMD5Decode (input : List UInt8) (i : Nat) : UInt32 :=
  (input.getD (4 * i) 0).toUInt32 ||| (input.getD (4 * i + 1) 0).toUInt32 <<< 8 |||
    (input.getD (4 * i + 2) 0).toUInt32 <<< 16 ||| (input.getD (4 * i + 3) 0).toUInt32 <<< 24

def xdMD5Transform (state : MD5State) (block : List UInt8) : MD5State :=
  let a := state.a
  let b := state.b
  let c := state.c
  let d := state.d
  let x := xdMD5Decode block
  let a := ff a b c d (x 0) 7 0xd76aa478
  let d := ff d a b c (x 1) 12 0xe8c7b756
  let c := ff c d a b (x 2) 17 0x242070db
  let b := ff b c d a (x 3) 22 0xc1bdceee
  let a := ff a b c d (x 4) 7 0xf57c0faf
  let d := ff d a b c (x 5) 12 0x4787c62a
  let c := ff c d a b (x 6) 17 0xa8304613
  let b := ff b c d a (x 7) 22 0xfd469501
  let a := ff a b c d (x 8) 7 0x698098d8
  let d := ff d a b c (x 9) 12 0x8b44f7af
  let c := ff c d a b (x 10) 17 0xffff5bb1
  let b := ff b c d a (x 11) 22 0x895cd7be
  let a := ff a b c d (x 12) 7 0x6b901122
  let d := ff d a b c (x 13) 12 0xfd987193
  let c := ff c d a b (x 14) 17 0xa679438e
  let b := ff b c d a (x 15) 22 0x49b40821
  let a := gg a b c d (x 1) 5 0xf61e2562
  let d := gg d a b c (x 6) 9 0xc040b340
  let c := gg c d a b (x 11) 14 0x265e5a51
  let b := gg b c d a (x 0) 20 0xe9b6c7aa
  let a := gg a b c d (x 5) 5 0xd62f105d
  let d := gg d a b c (x 10) 9 0x2441453
  let c := gg c d a b (x 15) 14 0xd8a1e681
  let b := gg b c d a (x 4) 20 0xe7d3fbc8
  let a := gg a b c d (x 9) 5 0x21e1cde6
  let d := gg d a b c (x 14) 9 0xc33707d6
  let c := gg c d a b (x 3) 14 0xf4d50d87
  let b := gg b c d a (x 8) 20 0x455a14ed
  let a := gg a b c d (x 13) 5 0xa9e3e905
  let d := gg d a b c (x 2) 9 0xfcefa3f8
  let c := gg c d a b (x 7) 14 0x676f02d9
  let b := gg b c d a (x 12) 20 0x8d2a4c8a
  let a := hh a b c d (x 5) 4 0xfffa3942
  let d := hh d a b c (x 8) 11 0x8771f681
  let c := hh c d a b (x 11) 16 0x6d9d6122
  let b := hh b c d a (x 14) 23 0xfde5380c
  let a := hh a b c d (x 1) 4 0xa4beea44
  let d := hh d a b c (x 4) 11 0x4bdecfa9
  let c := hh c d a b (x 7) 16 0xf6bb4b60
  let b := hh b c d a (x 10) 23 0xbebfbc70
  let a := hh a b c d (x 13) 4 0x289b7ec6
  let d := hh d a b c (x 0) 11 0xeaa127fa
  let c := hh c d a b (x 3) 16 0xd4ef3085
  let b := hh b c d a (x 6) 23 0x4881d05
  let a := hh a b c d (x 9) 4 0xd9d4d039
  let d := hh d a b c (x 12) 11 0xe6db99e5
  let c := hh c d a b (x 15) 16 0x1fa27cf8
  let b := hh b c d a (x 2) 23 0xc4ac5665
  let a := ii a b c d (x 0) 6 0xf4292244
  let d := ii d a b c (x 7) 10 0x432aff97
  let c := ii c d a b (x 14) 15 0xab9423a7
  let b := ii b c d a (x 5) 21 0xfc93a039
  let a := ii a b c d (x 12) 6 0x655b59c3
  let d := ii d a b c (x 3) 10 0x8f0ccc92
  let c := ii c d a b (x 10) 15 0xffeff47d
  let b := ii b c d a (x 1) 21 0x85845dd1
  let a := ii a b c d (x 8) 6 0x6fa87e4f
  let d := ii d a b c (x 15) 10 0xfe2ce6e0
  let c := ii c d a b (x 6) 15 0xa3014314
  let b := ii b c d a (x 13) 21 0x4e0811a1
  let a := ii a b c d (x 4) 6 0xf7537e82
  let d := ii d a b c (x 11) 10 0xbd3af235
  let c := ii c d a b (x 2) 15 0x2ad7d2bb
  let b := ii b c d a (x 9) 21 0xeb86d391
  ⟨state.a + a, state.b + b, state.c + c, state.d + d⟩

/-! ## The digest -/

def xdMD5Init (context : MD5Ctx) : MD5Ctx :=
  { context with
    count0 := 0
    count1 := 0
    state := ⟨0x67452301, 0xEFCDAB89, 0x98BADCFE, 0x10325476⟩ }

/-- The loop of `xd_MD5Update` over the blocks of the input: the state and `i`. Nothing where it has
not ended after the given number of rounds. -/
def md5Blocks (input : List UInt8) (inputlen : UInt32) : Nat → MD5State → UInt32 →
    Option (MD5State × UInt32)
  | 0, _, _ => none
  | n + 1, state, i =>
    if i + 64 ≤ inputlen then
      md5Blocks input inputlen n (xdMD5Transform state ((input.drop i.toNat).take 64)) (i + 64)
    else some (state, i)

/-- The index into the buffer. -/
def MD5Ctx.index (context : MD5Ctx) : UInt32 := context.count0 >>> 3 &&& 0x3F

/-- `xd_MD5Update`. Behind 2 ^ 26 rounds `i` has its first value again, so a loop that takes so many
never ends: nothing then. -/
def xdMD5Update (context : MD5Ctx) (input : List UInt8) (inputlen : UInt32) : Option MD5Ctx :=
  let index := context.index
  let partlen := 64 - index
  let count0 := context.count0 + inputlen <<< 3
  let carried := if count0 < inputlen <<< 3 then context.count1 + 1 else context.count1
  let count1 := carried + inputlen >>> 29
  if partlen ≤ inputlen then
    let buffer := Ring.blit context.buffer index.toNat (input.take partlen.toNat)
    let state := xdMD5Transform context.state (Ring.cells buffer 0 64)
    (md5Blocks input inputlen (2 ^ 26) state partlen).map fun (state, i) =>
      ⟨count0, count1, state,
        Ring.blit buffer 0 ((input.drop i.toNat).take (inputlen - i).toNat)⟩
  else
    some ⟨count0, count1, context.state,
      Ring.blit context.buffer index.toNat (input.take inputlen.toNat)⟩

/-- `xd_MD5Final`: the context and the digest. -/
def xdMD5Final (context : MD5Ctx) : Option (MD5Ctx × List UInt8) :=
  let padlen := if context.index < 56 then 56 - context.index else 120 - context.index
  let bits := xdMD5Encode [context.count0, context.count1]
  (xdMD5Update context md5Padding padlen).bind fun context =>
    (xdMD5Update context bits 8).map fun context =>
      (context, xdMD5Encode [context.state.a, context.state.b, context.state.c, context.state.d])

def hexStr : List UInt8 :=
  [48, 49, 50, 51, 52, 53, 54, 55, 56, 57, 97, 98, 99, 100, 101, 102]

/-- `get_md5_32_str`, whose context is not initialised: the 32 characters that it writes. -/
def getMd532Str (md5 : MD5Ctx) (encrypt : List UInt8) (encryptLen : UInt32) :
    Option (List UInt8) :=
  (xdMD5Update (xdMD5Init md5) encrypt encryptLen).bind fun md5 =>
    (xdMD5Final md5).map fun (_, decrypt) =>
      decrypt.flatMap fun (b : UInt8) =>
        [hexStr.getD ((b &&& 0xf0) >>> 4).toNat 0, hexStr.getD (b &&& 0x0f).toNat 0]

/-! ## The digest of a whole message -/

/-- A number of 64 bits, the lowest byte first. -/
def leBytes (n : Nat) : List UInt8 := (List.range 8).map fun k => UInt8.ofNat (n / 256 ^ k)

/-- The message with the byte 0x80, zeros up to eight bytes before the end of a block, and its
length in bits. -/
def md5Pad (m : List UInt8) : List UInt8 :=
  m ++ (0x80 :: List.replicate ((119 - m.length % 64) % 64) 0 ++ leBytes (8 * m.length))

def md5Start : MD5State := ⟨0x67452301, 0xEFCDAB89, 0x98BADCFE, 0x10325476⟩

def md5Digest (m : List UInt8) : List UInt8 :=
  let state := (blocks 64 (md5Pad m)).foldl xdMD5Transform md5Start
  xdMD5Encode [state.a, state.b, state.c, state.d]

/-- The two lower-case hexadecimal digits of a byte. -/
def lowerHex (b : UInt8) : List UInt8 :=
  let digit n := UInt8.ofNat (if n < 10 then 48 + n else 97 + (n - 10))
  [digit (b.toNat / 16), digit (b.toNat % 16)]

/-- `xd_MD5Init`, an update for each chunk, `xd_MD5Final`: the digest. -/
def md5Chunks (context : MD5Ctx) (chunks : List (List UInt8)) : Option (List UInt8) :=
  (chunks.foldlM (fun context chunk => xdMD5Update context chunk chunk.length.toUInt32)
    (xdMD5Init context)).bind fun context => (xdMD5Final context).map Prod.snd

/-! ## The context -/

namespace MD5Ctx

/-- The state and the part of a block. -/
def view (context : MD5Ctx) : MD5State × List UInt8 :=
  (context.state, Ring.cells context.buffer 0 context.index.toNat)

/-- The number of bits that have come. -/
def count (context : MD5Ctx) : Nat := context.count0.toNat + 2 ^ 32 * context.count1.toNat

variable {context : MD5Ctx}

theorem index_eq : context.index.toNat = context.count / 8 % 64 := by
  have hnat : context.index.toNat = context.count0.toNat / 8 % 64 := by
    unfold index
    rw [UInt32.toNat_and, UInt32.toNat_shiftRight]
    exact (Nat.and_two_pow_sub_one_eq_mod _ 6).trans (by rw [Nat.shiftRight_eq_div_pow]; rfl)
  rw [hnat, count]
  omega

theorem index_lt : context.index.toNat < 64 := by
  rw [index_eq]
  exact Nat.mod_lt _ (by decide)

@[simp] theorem length_view : context.view.2.length = context.index.toNat := by
  rw [view, Ring.length_cells, Nat.sub_zero]

end MD5Ctx

/-! ## Updates -/

section
variable {context : MD5Ctx} {input : List UInt8} {inputlen : UInt32}

/-- The two words count modulo 2 ^ 64. -/
theorem count_add (count0 count1 inputlen : UInt32) :
    (count0 + inputlen <<< 3).toNat +
      2 ^ 32 * ((if count0 + inputlen <<< 3 < inputlen <<< 3 then count1 + 1 else count1) +
        inputlen >>> 29).toNat =
      (count0.toNat + 2 ^ 32 * count1.toNat + 8 * inputlen.toNat) % 2 ^ 64 := by
  have hlow : (inputlen <<< 3).toNat = 8 * inputlen.toNat % 2 ^ 32 := by
    rw [UInt32.toNat_shiftLeft, Nat.shiftLeft_eq, Nat.mul_comm]
    rfl
  have hhigh : (inputlen >>> 29).toNat = inputlen.toNat / 2 ^ 29 := by
    rw [UInt32.toNat_shiftRight, Nat.shiftRight_eq_div_pow]
    rfl
  have h0 := count0.toNat_lt
  have h1 := count1.toNat_lt
  have hlen := inputlen.toNat_lt
  -- the low word has overflowed exactly when it is less than what has been added
  by_cases hcarry : count0 + inputlen <<< 3 < inputlen <<< 3
  · rw [if_pos hcarry]
    rw [UInt32.lt_iff_toNat_lt, UInt32.toNat_add, hlow] at hcarry
    rw [UInt32.toNat_add, UInt32.toNat_add, UInt32.toNat_add, hlow, hhigh]
    simp only [UInt32.reduceToNat]
    omega
  · rw [if_neg hcarry]
    rw [UInt32.lt_iff_toNat_lt, UInt32.toNat_add, hlow] at hcarry
    rw [UInt32.toNat_add, UInt32.toNat_add, hlow, hhigh]
    omega

/-- The loop over the blocks ends, and goes through the full blocks of the input. -/
theorem md5Blocks_eq (hlen : inputlen.toNat ≤ input.length) (hlt : inputlen.toNat < 2 ^ 32 - 64)
    {n : Nat} {i : UInt32} (hi : i.toNat ≤ inputlen.toNat) (hn : inputlen.toNat - i.toNat < 64 * n)
    (state : MD5State) : ∃ j, j.toNat ≤ inputlen.toNat ∧
      md5Blocks input inputlen n state i =
        some ((blocks 64 ((input.take inputlen.toNat).drop i.toNat)).foldl xdMD5Transform state,
          j) ∧
      (input.take inputlen.toNat).drop j.toNat =
        rest 64 ((input.take inputlen.toNat).drop i.toNat) := by
  induction n generalizing i state with
  | zero => omega
  | succ n ih =>
    have hdrop : ((input.take inputlen.toNat).drop i.toNat).length =
        inputlen.toNat - i.toNat := by
      rw [List.length_drop, List.length_take, Nat.min_eq_left hlen]
    -- below the bound the index does not wrap
    have hnext : (i + 64).toNat = i.toNat + 64 := by
      rw [UInt32.toNat_add]
      exact Nat.mod_eq_of_lt (by simp only [UInt32.reduceToNat]; omega)
    rw [md5Blocks]
    by_cases hle : i + 64 ≤ inputlen
    · rw [if_pos hle]
      rw [UInt32.le_iff_toNat_le, hnext] at hle
      have hblock : ((input.take inputlen.toNat).drop i.toNat).take 64 =
          (input.drop i.toNat).take 64 := by
        rw [List.drop_take, List.take_take, Nat.min_eq_left (by omega)]
      have hfull : 64 ≤ ((input.take inputlen.toNat).drop i.toNat).length := by omega
      obtain ⟨j, hj, heq, hrest⟩ := ih (i := i + 64) (by omega) (by omega)
        (xdMD5Transform state ((input.drop i.toNat).take 64))
      rw [hnext, ← List.drop_drop] at heq hrest
      refine ⟨j, hj, ?_, ?_⟩
      · rw [heq, BlockHash.blocks_of_le (by decide) hfull, List.foldl_cons, hblock]
      · rw [hrest, ← BlockHash.rest_of_le (by decide) hfull]
    · rw [if_neg hle]
      rw [UInt32.le_iff_toNat_le, hnext] at hle
      have hpart : ((input.take inputlen.toNat).drop i.toNat).length < 64 := by omega
      refine ⟨i, hi, ?_, (BlockHash.rest_of_lt hpart).symm⟩
      rw [BlockHash.blocks_of_lt hpart]
      rfl

/-- The index into the buffer afterwards. -/
theorem index_of_count (context' : MD5Ctx)
    (h : context'.count = (context.count + 8 * inputlen.toNat) % 2 ^ 64) :
    context'.index.toNat = (context.index.toNat + inputlen.toNat) % 64 := by
  rw [MD5Ctx.index_eq, MD5Ctx.index_eq, h]
  omega

/-- The block in the buffer behind the first part of the input. -/
theorem cells_fill (context : MD5Ctx) (h : 64 - context.index.toNat ≤ input.length) :
    Ring.cells (Ring.blit context.buffer context.index.toNat
      (input.take (64 - context.index.toNat))) 0 64 =
        context.view.2 ++ input.take (64 - context.index.toNat) := by
  have hcells := Ring.cells_zero_blit context.buffer context.index.toNat
    (input.take (64 - context.index.toNat))
  rw [List.length_take, Nat.min_eq_left h,
    Nat.add_sub_cancel' (Nat.le_of_lt context.index_lt)] at hcells
  exact hcells

/-- An update takes its input in. -/
theorem xdMD5Update_eq (context : MD5Ctx) (hlen : inputlen.toNat ≤ input.length)
    (hlt : inputlen.toNat < 2 ^ 32 - 64) : ∃ context',
      xdMD5Update context input inputlen = some context' ∧
      context'.view = absorb xdMD5Transform 64 context.view (input.take inputlen.toNat) ∧
      context'.count = (context.count + 8 * inputlen.toNat) % 2 ^ 64 := by
  have hidx := context.index_lt
  have hcount := count_add context.count0 context.count1 inputlen
  have hmsg : (input.take inputlen.toNat).length = inputlen.toNat := by
    rw [List.length_take, Nat.min_eq_left hlen]
  have hpartlen : (64 - context.index).toNat = 64 - context.index.toNat :=
    UInt32.toNat_sub_of_le _ _ (UInt32.le_iff_toNat_le.2 (Nat.le_of_lt hidx))
  unfold xdMD5Update
  simp only
  have hindex := fun state buffer => index_of_count (MD5Ctx.mk _ _ state buffer) hcount
  by_cases hfull : 64 - context.index ≤ inputlen
  · rw [if_pos hfull]
    rw [UInt32.le_iff_toNat_le, hpartlen] at hfull
    have htake : (input.take inputlen.toNat).take (64 - context.index.toNat) =
        input.take (64 - context.index.toNat) := by
      rw [List.take_take, Nat.min_eq_left hfull]
    have hblock := cells_fill context (hfull.trans hlen)
    obtain ⟨j, hj, heq, hrest⟩ := md5Blocks_eq hlen hlt (n := 2 ^ 26)
      (i := 64 - context.index) (by omega) (by omega) (xdMD5Transform context.state
        (context.view.2 ++ input.take (64 - context.index.toNat)))
    have htail : (input.drop j.toNat).take (inputlen - j).toNat =
        rest 64 ((input.take inputlen.toNat).drop (64 - context.index.toNat)) := by
      rw [← hpartlen, ← hrest, List.drop_take,
        UInt32.toNat_sub_of_le _ _ (UInt32.le_iff_toNat_le.2 hj)]
    rw [hpartlen, hblock, heq, Option.map_some]
    refine ⟨_, rfl, ?_, hcount⟩
    rw [BlockHash.absorb_of_le (by decide) (by rwa [MD5Ctx.length_view])
      (by rw [MD5Ctx.length_view, hmsg]; omega), MD5Ctx.length_view, htake]
    unfold MD5Ctx.view
    rw [hindex, htail, hpartlen]
    refine Prod.ext rfl ?_
    have hcells := Ring.cells_blit (Ring.blit context.buffer context.index.toNat
      (input.take (64 - context.index.toNat))) 0
        (rest 64 ((input.take inputlen.toNat).drop (64 - context.index.toNat)))
    rw [BlockHash.length_rest, List.length_drop, hmsg, Nat.zero_add] at hcells
    have hsame : (context.index.toNat + inputlen.toNat) % 64 =
        (inputlen.toNat - (64 - context.index.toNat)) % 64 := by omega
    exact hsame ▸ hcells
  · rw [if_neg hfull]
    rw [UInt32.le_iff_toNat_le, hpartlen] at hfull
    refine ⟨_, rfl, ?_, hcount⟩
    rw [BlockHash.absorb_of_lt (by rw [MD5Ctx.length_view, hmsg]; omega)]
    unfold MD5Ctx.view
    rw [hindex, Nat.mod_eq_of_lt (by omega)]
    have hcells := Ring.cells_zero_blit context.buffer context.index.toNat
      (input.take inputlen.toNat)
    rw [hmsg] at hcells
    exact Prod.ext rfl hcells

/-- The context behind the message `m`. -/
structure Absorbed (m : List UInt8) (context : MD5Ctx) : Prop where
  view : context.view = absorb xdMD5Transform 64 (md5Start, []) m
  count : context.count = 8 * m.length % 2 ^ 64

theorem absorbed_init (context : MD5Ctx) : Absorbed [] (xdMD5Init context) where
  view := by
    have hindex : (xdMD5Init context).index = 0 := by
      show (0 : UInt32) >>> 3 &&& 0x3F = 0
      decide
    rw [BlockHash.absorb_nil (Nat.zero_lt_succ 63), MD5Ctx.view, hindex]
    exact Prod.ext rfl (Ring.cells_self ..)
  count := rfl

theorem Absorbed.update {m : List UInt8} (h : Absorbed m context) (input : List UInt8)
    {inputlen : UInt32} (hlen : inputlen.toNat ≤ input.length)
    (hlt : inputlen.toNat < 2 ^ 32 - 64) : ∃ context',
      xdMD5Update context input inputlen = some context' ∧
      Absorbed (m ++ input.take inputlen.toNat) context' := by
  obtain ⟨context', heq, hview, hcount⟩ := xdMD5Update_eq context hlen hlt
  refine ⟨context', heq, ?_, ?_⟩
  · rw [hview, h.view, BlockHash.absorb_absorb (by decide)]
  · rw [hcount, h.count, List.length_append, List.length_take, Nat.min_eq_left hlen]
    omega

/-- All updates. -/
theorem Absorbed.updates {m : List UInt8} (h : Absorbed m context) {chunks : List (List UInt8)}
    (hchunks : ∀ chunk ∈ chunks, chunk.length < 2 ^ 32 - 64) : ∃ context',
      chunks.foldlM (fun context chunk => xdMD5Update context chunk chunk.length.toUInt32)
        context = some context' ∧ Absorbed (m ++ chunks.flatten) context' := by
  induction chunks generalizing context m with
  | nil => exact ⟨context, rfl, by rwa [List.flatten_nil, List.append_nil]⟩
  | cons chunk chunks ih =>
    rw [List.forall_mem_cons] at hchunks
    have hnat : chunk.length.toUInt32.toNat = chunk.length :=
      UInt32.toNat_ofNat_of_lt' (by rw [UInt32.size]; omega)
    obtain ⟨context₁, heq, h₁⟩ := h.update chunk hnat.le (by rw [hnat]; exact hchunks.1)
    rw [hnat, List.take_length] at h₁
    obtain ⟨context', heq', h'⟩ := ih h₁ hchunks.2
    refine ⟨context', ?_, ?_⟩
    · rw [List.foldlM_cons, heq]
      exact heq'
    · rwa [List.flatten_cons, ← List.append_assoc]

/-! ## The padding -/

/-- A byte of a word. -/
theorem wordByte_eq (w : UInt32) {k : UInt32} {n : Nat} (hk : k < 32)
    (h : w.toNat / 2 ^ k.toNat % 256 = n % 256) : (w >>> k &&& 0xFF).toUInt8 = UInt8.ofNat n := by
  rw [UInt32.lt_iff_toNat_lt] at hk
  have hmask : w.toNat / 2 ^ k.toNat &&& UInt32.toNat 0xFF = w.toNat / 2 ^ k.toNat % 2 ^ 8 :=
    Nat.and_two_pow_sub_one_eq_mod _ 8
  refine UInt8.toNat_inj.1 ?_
  rw [UInt32.toNat_toUInt8, UInt32.toNat_and, UInt32.toNat_shiftRight, UInt8.toNat_ofNat',
    Nat.mod_eq_of_lt (show k.toNat < 32 from hk), Nat.shiftRight_eq_div_pow, hmask, Nat.mod_mod]
  exact h

theorem wordByte_zero_eq (w : UInt32) {n : Nat} (h : w.toNat % 256 = n % 256) :
    (w &&& 0xFF).toUInt8 = UInt8.ofNat n := by
  have hbyte := wordByte_eq w (k := 0) (n := n) (by decide) ((Nat.div_one _).symm ▸ h)
  rwa [UInt32.shiftRight_zero] at hbyte

/-- The bytes of a word that holds the low part of a number. -/
theorem xdMD5Encode_word {w : UInt32} {n : Nat} (h : w.toNat = n % 2 ^ 32) :
    xdMD5Encode [w] = (List.range 4).map fun k => UInt8.ofNat (n / 256 ^ k) := by
  unfold xdMD5Encode
  rw [List.flatMap_singleton, wordByte_zero_eq w (n := n / 256 ^ 0) (by omega),
    wordByte_eq w (k := 8) (n := n / 256 ^ 1) (by decide) ?_,
    wordByte_eq w (k := 16) (n := n / 256 ^ 2) (by decide) ?_,
    wordByte_eq w (k := 24) (n := n / 256 ^ 3) (by decide) ?_]
  · rfl
  all_goals
    simp only [UInt32.reduceToNat]
    omega

/-- The two words of the length are one number of 64 bits. -/
theorem xdMD5Encode_pair (w w' : UInt32) :
    xdMD5Encode [w, w'] = leBytes (w.toNat + 2 ^ 32 * w'.toNat) := by
  have hw := w.toNat_lt
  have hw' := w'.toNat_lt
  have hlow := xdMD5Encode_word (w := w) (n := w.toNat + 2 ^ 32 * w'.toNat) (by omega)
  have hhigh := xdMD5Encode_word (w := w') (n := (w.toNat + 2 ^ 32 * w'.toNat) / 256 ^ 4) (by omega)
  have hpair : xdMD5Encode [w, w'] = xdMD5Encode [w] ++ xdMD5Encode [w'] := by
    rw [← List.singleton_append, xdMD5Encode, List.flatMap_append]
    rfl
  rw [hpair, hlow, hhigh, leBytes, show 8 = 4 + 4 from rfl, List.range_add, List.map_append,
    List.map_map]
  refine congrArg (List.append _) (List.map_congr_left fun k _ => ?_)
  rw [Function.comp_apply, Nat.div_div_eq_div_mul, ← Nat.pow_add]

/-- The padding is taken in by the last two updates. -/
theorem Absorbed.final {m : List UInt8} (h : Absorbed m context) (hm : m.length < 2 ^ 61) :
    (xdMD5Final context).map Prod.snd = some (md5Digest m) := by
  have hcount : context.count = 8 * m.length := by
    rw [h.count]
    omega
  have hindex : context.index.toNat = m.length % 64 := by
    rw [MD5Ctx.index_eq, hcount]
    omega
  have hlt : m.length % 64 < 64 := Nat.mod_lt _ (by decide)
  -- one byte and the zeros
  have hpadlen : (if context.index < 56 then 56 - context.index else 120 - context.index).toNat =
      (119 - m.length % 64) % 64 + 1 := by
    split <;> rename_i hidx <;> rw [UInt32.lt_iff_toNat_lt, hindex] at hidx
    · rw [UInt32.toNat_sub_of_le _ _ (UInt32.le_iff_toNat_le.2 (hindex ▸ Nat.le_of_lt hidx)),
        hindex]
      simp only [UInt32.reduceToNat] at hidx ⊢
      omega
    · have hle : context.index ≤ 120 := by
        rw [UInt32.le_iff_toNat_le, hindex]
        exact (Nat.le_of_lt hlt).trans (by decide)
      rw [UInt32.toNat_sub_of_le _ _ hle, hindex]
      simp only [UInt32.reduceToNat] at hidx ⊢
      omega
  unfold xdMD5Final
  simp only
  generalize (if context.index < 56 then 56 - context.index else 120 - context.index) = padlen
    at hpadlen ⊢
  have hpadding : md5Padding.take padlen.toNat =
      0x80 :: List.replicate ((119 - m.length % 64) % 64) 0 := by
    rw [hpadlen, md5Padding, List.take_succ_cons, List.take_replicate, Nat.min_eq_left (by omega)]
  have hbits : xdMD5Encode [context.count0, context.count1] = leBytes (8 * m.length) := by
    rw [xdMD5Encode_pair, ← hcount]
    rfl
  have hroom : padlen.toNat ≤ md5Padding.length := by
    rw [hpadlen]
    exact Nat.succ_le_of_lt (Nat.mod_lt _ (by decide))
  obtain ⟨context₁, heq₁, h₁⟩ := h.update md5Padding hroom (by omega)
  rw [hpadding] at h₁
  obtain ⟨context₂, heq₂, h₂⟩ := h₁.update (leBytes (8 * m.length))
    (show (8 : UInt32).toNat ≤ _ from Nat.le_refl 8) (by decide)
  rw [heq₁, Option.bind_some, hbits, heq₂]
  have htake : (leBytes (8 * m.length)).take (8 : UInt32).toNat = leBytes (8 * m.length) := rfl
  have hview := h₂.view
  rw [htake, List.append_assoc] at hview
  have hstate : context₂.state = (blocks 64 (md5Pad m)).foldl xdMD5Transform md5Start :=
    congrArg Prod.fst hview
  rw [Option.map_some, Option.map_some, hstate]
  rfl

/-- The two digits of a byte. -/
theorem hex_eq (b : UInt8) :
    [hexStr.getD ((b &&& 0xf0) >>> 4).toNat 0, hexStr.getD (b &&& 0x0f).toNat 0] = lowerHex b := by
  have hall : ∀ n < 256, (fun b : UInt8 => [hexStr.getD ((b &&& 0xf0) >>> 4).toNat 0,
      hexStr.getD (b &&& 0x0f).toNat 0] = lowerHex b) (UInt8.ofNat n) := by
    decide +kernel
  have hb := hall b.toNat b.toNat_lt
  rwa [UInt8.ofNat_toNat] at hb

end

/-- However a message is divided into updates, the digest is the one of the whole message; and the
string is the digest in hexadecimal digits. -/
theorem md5Chunks_eq (context : MD5Ctx) {chunks : List (List UInt8)}
    (hchunks : ∀ chunk ∈ chunks, chunk.length < 2 ^ 32 - 64)
    (htotal : chunks.flatten.length < 2 ^ 61) :
    md5Chunks context chunks = some (md5Digest chunks.flatten) ∧
      ∀ m : List UInt8, m.length < 2 ^ 32 - 64 → getMd532Str context m m.length.toUInt32 =
        some ((md5Digest m).flatMap lowerHex) := by
  refine ⟨?_, fun m hm => ?_⟩
  · obtain ⟨context', heq, h⟩ := (absorbed_init context).updates hchunks
    unfold md5Chunks
    rw [heq]
    exact h.final htotal
  · have hnat : m.length.toUInt32.toNat = m.length :=
      UInt32.toNat_ofNat_of_lt' (by rw [UInt32.size]; omega)
    obtain ⟨context', heq, h⟩ := (absorbed_init context).update m hnat.le
      (by rw [hnat]; exact hm)
    rw [hnat, List.take_length] at h
    unfold getMd532Str
    simp only [hex_eq]
    have hfinal := h.final (hm.trans (by decide))
    obtain ⟨x, hx, hdigest⟩ := Option.map_eq_some_iff.1 hfinal
    rw [heq, Option.bind_some, hx, Option.map_some, hdigest]
    rfl

/-- A message in two chunks. -/
theorem md5Chunks_eq_two : md5Chunks ⟨0, 0, md5Start, fun _ => 0⟩ [[97, 98], [99]] =
    some (md5Digest [97, 98, 99]) := by
  have hchunks : ∀ chunk ∈ [[(97 : UInt8), 98], [99]], chunk.length < 2 ^ 32 - 64 := by decide
  exact (md5Chunks_eq ⟨0, 0, md5Start, fun _ => 0⟩ hchunks (by decide)).1

end AppXd.Secrypto
