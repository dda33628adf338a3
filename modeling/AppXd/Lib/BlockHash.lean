import AppXd.Lib.BlockCipher

/-!
# Taking a message in block by block

A hash folds its state over the blocks of a message. A message that comes in pieces is taken in with
a buffer for the part of a block that has not been filled yet: the state and the buffer do not
depend on where the message was cut.
-/

namespace BlockHash

open BlockCipher (block)

variable {α σ : Type*} {n : Nat}

/-- The full blocks of a message. -/
def blocks (n : Nat) (l : List α) : List (List α) := (List.range (l.length / n)).map (block n l)

/-- What stands behind them. -/
def rest (n : Nat) (l : List α) : List α := l.drop (n * (l.length / n))

/-- The state and the buffer behind another piece. -/
def absorb (f : σ → List α → σ) (n : Nat) (x : σ × List α) (piece : List α) : σ × List α :=
  ((blocks n (x.2 ++ piece)).foldl f x.1, rest n (x.2 ++ piece))

/-! ## Blocks -/

section
variable {l l' : List α}

theorem length_rest (n : Nat) (l : List α) : (rest n l).length = l.length % n := by
  rw [rest, List.length_drop]
  exact (Nat.mod_def ..).symm

theorem blocks_of_lt (h : l.length < n) : blocks n l = [] := by
  rw [blocks, Nat.div_eq_of_lt h]
  rfl

theorem rest_of_lt (h : l.length < n) : rest n l = l := by
  rw [rest, Nat.div_eq_of_lt h]
  rfl

theorem blocks_of_le (hn : 0 < n) (h : n ≤ l.length) :
    blocks n l = l.take n :: blocks n (l.drop n) := by
  have hdiv : l.length / n = (l.drop n).length / n + 1 := by
    rw [List.length_drop, Nat.div_eq_sub_div hn h]
  rw [blocks, hdiv, List.range_succ_eq_map, List.map_cons, List.map_map]
  refine congrArg (l.take n :: ·) (List.map_congr_left fun k _ => ?_)
  simp only [block, Function.comp_apply, List.drop_drop, Nat.mul_succ, Nat.add_comm]

theorem rest_of_le (hn : 0 < n) (h : n ≤ l.length) : rest n l = rest n (l.drop n) := by
  rw [rest, rest, List.drop_drop, List.length_drop, Nat.div_eq_sub_div hn h, Nat.mul_succ,
    Nat.add_comm]

/-- A block in front of all others, or none. -/
theorem blocks_induction {P : List α → Prop} (hn : 0 < n) (part : ∀ l, l.length < n → P l)
    (full : ∀ l, n ≤ l.length → P (l.drop n) → P l) (l : List α) : P l := by
  induction hlen : l.length using Nat.strong_induction_on generalizing l with
  | _ k ih =>
    rcases Nat.lt_or_ge l.length n with hlt | hge
    · exact part l hlt
    · refine full l hge (ih (l.drop n).length ?_ (l.drop n) rfl)
      rw [List.length_drop]
      omega

/-- The blocks of a message with a piece behind it. -/
theorem blocks_append (hn : 0 < n) (l l' : List α) :
    blocks n (l ++ l') = blocks n l ++ blocks n (rest n l ++ l') := by
  induction l using blocks_induction hn with
  | part l h => rw [blocks_of_lt h, rest_of_lt h, List.nil_append]
  | full l h ih =>
    have hle : n ≤ (l ++ l').length := by
      rw [List.length_append]
      exact Nat.le_add_right_of_le h
    rw [blocks_of_le hn hle, List.take_append_of_le_length h, List.drop_append_of_le_length h, ih,
      blocks_of_le hn h, ← rest_of_le hn h, List.cons_append]

theorem rest_append (hn : 0 < n) (l l' : List α) : rest n (l ++ l') = rest n (rest n l ++ l') := by
  induction l using blocks_induction hn with
  | part l h => rw [rest_of_lt h]
  | full l h ih =>
    have hle : n ≤ (l ++ l').length := by
      rw [List.length_append]
      exact Nat.le_add_right_of_le h
    rw [rest_of_le hn hle, List.drop_append_of_le_length h, ih, ← rest_of_le hn h]

end

/-! ## Pieces -/

section
variable {f : σ → List α → σ} {x : σ × List α}

theorem absorb_nil (h : x.2.length < n) : absorb f n x [] = x := by
  rw [absorb, List.append_nil, blocks_of_lt h, rest_of_lt h]
  rfl

/-- It does not matter where the message was cut. -/
theorem absorb_absorb (hn : 0 < n) (piece piece' : List α) :
    absorb f n (absorb f n x piece) piece' = absorb f n x (piece ++ piece') := by
  simp only [absorb]
  rw [← List.append_assoc, blocks_append hn (x.2 ++ piece), rest_append hn (x.2 ++ piece),
    List.foldl_append]

/-- A piece that the buffer has room for. -/
theorem absorb_of_lt {piece : List α} (h : x.2.length + piece.length < n) :
    absorb f n x piece = (x.1, x.2 ++ piece) := by
  have hlen : (x.2 ++ piece).length < n := by rwa [List.length_append]
  rw [absorb, blocks_of_lt hlen, rest_of_lt hlen]
  rfl

/-- A piece that fills the buffer: the blocks behind it stand in the piece. -/
theorem absorb_of_le {piece : List α} (hn : 0 < n) (hx : x.2.length < n)
    (h : n ≤ x.2.length + piece.length) : absorb f n x piece =
      ((blocks n (piece.drop (n - x.2.length))).foldl f
          (f x.1 (x.2 ++ piece.take (n - x.2.length))),
        rest n (piece.drop (n - x.2.length))) := by
  have hlen : n ≤ (x.2 ++ piece).length := by rwa [List.length_append]
  have htake : (x.2 ++ piece).take n = x.2 ++ piece.take (n - x.2.length) := by
    rw [List.take_append, List.take_of_length_le (Nat.le_of_lt hx)]
  have hdrop : (x.2 ++ piece).drop n = piece.drop (n - x.2.length) := by
    rw [List.drop_append, List.drop_of_length_le (Nat.le_of_lt hx), List.nil_append]
  rw [absorb, blocks_of_le hn hlen, rest_of_le hn hlen, htake, hdrop, List.foldl_cons]

end

end BlockHash
