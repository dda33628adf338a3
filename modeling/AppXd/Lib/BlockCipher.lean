import Mathlib.Algebra.Order.Group.Nat
import Mathlib.Data.List.Basic
import Mathlib.Data.List.GetD
import Mathlib.Tactic.Common

/-!
# Block ciphers in ECB mode with PKCS #7 padding

A cipher of many rounds is undone by the inverse rounds in the opposite order. `ecb` encrypts a
buffer block by block into another one; `pad` fills the last block of a message with bytes that say
how many they are.
-/

namespace BlockCipher

variable {α σ κ : Type*}

/-- Where `g` undoes one round between two applications of `F`, the rounds in the opposite order
undo all of them. -/
theorem foldl_reverse_cancel {f g : σ → κ → σ} {F : σ → σ} (h : ∀ s r, g (F (f s r)) r = F s)
    (s : σ) (rounds : List κ) : rounds.reverse.foldl g (F (rounds.foldl f s)) = F s := by
  induction rounds generalizing s with
  | nil => rfl
  | cons r rounds ih =>
    rw [List.reverse_cons, List.foldl_append]
    exact (congrArg (g · r) (ih (f s r))).trans (h s r)

/-! ## Buffers -/

/-- `bs` written into a buffer from `a` on. -/
def write (buf : List α) (a : Nat) (bs : List α) : List α :=
  buf.take a ++ bs ++ buf.drop (a + bs.length)

/-- The block with the given number. -/
def block (n : Nat) (buf : List α) (i : Nat) : List α := (buf.drop (n * i)).take n

/-- The loop over the blocks of `input`. -/
def ecb (n : Nat) (f : List α → List α) (input : List α) (count : Nat) (output : List α) : List α :=
  (List.range count).foldl (fun out i => write out (n * i) (f (block n input i))) output

section
variable {n : Nat} {buf bs input output : List α} {a i count : Nat}

theorem length_write (h : a + bs.length ≤ buf.length) : (write buf a bs).length = buf.length := by
  rw [write, List.length_append, List.length_append, List.length_take_of_le (by omega),
    List.length_drop]
  omega

theorem length_block (h : n * (i + 1) ≤ buf.length) : (block n buf i).length = n := by
  rw [Nat.mul_succ] at h
  exact List.length_take_of_le (by rw [List.length_drop]; omega)

/-- A buffer up to the end of the written bytes. -/
theorem take_write_end (h : a ≤ buf.length) :
    (write buf a bs).take (a + bs.length) = buf.take a ++ bs := by
  have hlen : (buf.take a ++ bs).length = a + bs.length := by
    rw [List.length_append, List.length_take_of_le h]
  rw [write, ← hlen, List.take_left]

theorem write_take (h : a ≤ buf.length) : (write buf a bs).take a = buf.take a := by
  have hlen : (buf.take a).length = a := List.length_take_of_le h
  rw [write, List.append_assoc, List.take_append_of_le_length hlen.ge, List.take_take, Nat.min_self]

/-- The block that has been written. -/
theorem block_write_self (hbs : bs.length = n) (h : n * i ≤ buf.length) :
    block n (write buf (n * i) bs) i = bs := by
  have hlen : (buf.take (n * i)).length = n * i := List.length_take_of_le h
  rw [block, write, List.append_assoc, List.drop_append_of_le_length hlen.ge,
    List.drop_of_length_le hlen.le, List.nil_append, ← hbs, List.take_left]

theorem block_take (h : n * (i + 1) ≤ a) : block n (buf.take a) i = block n buf i := by
  rw [Nat.mul_succ] at h
  rw [block, block, List.drop_take, List.take_take, Nat.min_eq_left (by omega)]

/-- A block before the written bytes. -/
theorem block_write_of_lt (hi : n * (i + 1) ≤ a) (h : a ≤ buf.length) :
    block n (write buf a bs) i = block n buf i := by
  rw [← block_take hi, write_take h, block_take hi]

/-- A buffer begins with its blocks. -/
theorem flatMap_block (h : n * count ≤ buf.length) :
    (List.range count).flatMap (block n buf) = buf.take (n * count) := by
  induction count with
  | zero => rw [Nat.mul_zero]; rfl
  | succ count ih =>
    rw [Nat.mul_succ] at h
    rw [List.range_succ, List.flatMap_append, ih (by omega), Nat.mul_succ, List.take_add]
    simp [block]

variable {f : List α → List α}

/-- The blocks of the output are those of the input under `f`. -/
theorem ecb_blocks (hf : ∀ b, b.length = n → (f b).length = n) (hin : n * count ≤ input.length)
    (hout : n * count ≤ output.length) :
    (ecb n f input count output).length = output.length ∧
      ∀ i < count, block n (ecb n f input count output) i = f (block n input i) := by
  induction count with
  | zero => exact ⟨rfl, fun i hi => absurd hi (Nat.not_lt_zero i)⟩
  | succ count ih =>
    have hmul : n * (count + 1) = n * count + n := Nat.mul_succ n count
    obtain ⟨hlen, hblocks⟩ := ih (by omega) (by omega)
    have hnew : (f (block n input count)).length = n := hf _ (length_block hin)
    have hstep : ecb n f input (count + 1) output =
        write (ecb n f input count output) (n * count) (f (block n input count)) := by
      rw [ecb, List.range_succ, List.foldl_append]
      rfl
    rw [hstep]
    refine ⟨(length_write (by omega)).trans hlen, fun i hi => ?_⟩
    obtain hlt | rfl := Nat.lt_succ_iff_lt_or_eq.1 hi
    · rw [block_write_of_lt (Nat.mul_le_mul_left n hlt) (by omega)]
      exact hblocks i hlt
    · exact block_write_self hnew (by omega)

/-- Only whole blocks are read. -/
theorem ecb_take : ecb n f (input.take (n * count)) count output = ecb n f input count output := by
  refine List.foldl_ext _ _ _ fun out i hi => ?_
  rw [block_take (Nat.mul_le_mul_left n (List.mem_range.1 hi))]

/-- Deciphering the blocks gives the buffer back. -/
theorem ecb_ecb {g : List α → List α} {output' : List α} (hf : ∀ b, b.length = n → (f b).length = n)
    (hg : ∀ b, b.length = n → (g b).length = n) (hgf : ∀ b, b.length = n → g (f b) = b)
    (hin : n * count ≤ input.length) (hout : n * count ≤ output.length)
    (hout' : n * count ≤ output'.length) :
    (ecb n g ((ecb n f input count output).take (n * count)) count output').take (n * count) =
      input.take (n * count) := by
  obtain ⟨hlen, hblocks⟩ := ecb_blocks hf hin hout
  obtain ⟨hlen', hblocks'⟩ := ecb_blocks (f := g) hg
    (hout.trans_eq hlen.symm) hout'
  rw [ecb_take, ← flatMap_block (hout'.trans_eq hlen'.symm), ← flatMap_block hin]
  refine List.flatMap_congr fun i hi => ?_
  have hi : i < count := List.mem_range.1 hi
  rw [hblocks' i hi, hblocks i hi]
  exact hgf _ (length_block ((Nat.mul_le_mul_left n hi).trans hin))

end

/-! ## Padding -/

/-- The number of bytes with which a message is filled up. -/
def padLen (n len : Nat) : Nat := n - len % n

/-- A message with its padding. -/
def pad (n : Nat) (msg : List UInt8) : List UInt8 :=
  msg ++ List.replicate (padLen n msg.length) (padLen n msg.length).toUInt8

section
variable {n : Nat}

theorem padLen_pos (hn : 0 < n) (len : Nat) : 0 < padLen n len :=
  Nat.sub_pos_of_lt (Nat.mod_lt len hn)

theorem padLen_le (n len : Nat) : padLen n len ≤ n := Nat.sub_le ..

/-- A padded message is made of whole blocks. -/
theorem add_padLen (hn : 0 < n) (len : Nat) : len + padLen n len = n * (len / n + 1) := by
  have hdiv := Nat.div_add_mod len n
  have hlt := Nat.mod_lt len hn
  rw [padLen, Nat.mul_succ]
  omega

theorem take_pad (msg : List UInt8) : (pad n msg).take msg.length = msg := List.take_left

/-- The last byte of a padded message tells how long the padding is. -/
theorem getElem?_pad (hn : 0 < n) (msg : List UInt8) :
    (pad n msg)[msg.length + padLen n msg.length - 1]? = some (padLen n msg.length).toUInt8 := by
  have hpos := padLen_pos hn msg.length
  rw [pad, List.getElem?_append_right (by omega), List.getElem?_replicate_of_lt (by omega)]

end

end BlockCipher
