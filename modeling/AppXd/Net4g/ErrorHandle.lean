import AppXd.Net4g.NetConfig

/-!
# The waiting behind an error

`module_4g_error_handle_process` switches the module off and counts calls before the next attempt;
the more attempts on the way to the broker have failed, the longer. A call is made every
millisecond.
-/

namespace AppXd.Net4g

/-- The `static` variables. -/
structure ErrorState where
  workSteps : Nat
  waitTimeout : Nat
  deriving DecidableEq, Repr

/-- `module_4g_error_handle_process`. The counter has 32 bits. -/
def module4gErrorHandleProcess (routeRetryTimes : Nat) (s : ErrorState) : ProcessRet × ErrorState :=
  match s.workSteps with
  | 0 => (.wait, { s with workSteps := 1 })
  | 1 =>
    let s := { s with waitTimeout := (s.waitTimeout + 1) % 4294967296 }
    if routeRetryTimes < 5 then
      (.wait, if s.waitTimeout = 2000 then { s with workSteps := 2 } else s)
    else if routeRetryTimes < 15 then
      (.wait, if s.waitTimeout = 10000 then { s with workSteps := 2 } else s)
    else (.wait, if 300000 ≤ s.waitTimeout then { s with workSteps := 2 } else s)
  | 2 => (.done, ⟨0, 0⟩)
  | _ => (.wait, s)

/-- The calls that are counted. -/
def backOff (routeRetryTimes : Nat) : Nat :=
  if routeRetryTimes < 5 then 2000 else if routeRetryTimes < 15 then 10000 else 300000

/-- The state behind `k` calls of a round. -/
def ErrorState.behind (routeRetryTimes k : Nat) : ErrorState :=
  if k = 0 then ⟨0, 0⟩
  else if k ≤ backOff routeRetryTimes then ⟨1, k - 1⟩ else ⟨2, backOff routeRetryTimes⟩

section
variable {r k : Nat}

theorem backOff_pos (r : Nat) : 0 < backOff r := by
  unfold backOff
  split_ifs <;> decide

theorem backOff_le (r : Nat) : backOff r ≤ 300000 := by
  unfold backOff
  split_ifs <;> decide

/-- A count goes up until it is complete. -/
theorem errorHandle_count (hk : k < backOff r) :
    module4gErrorHandleProcess r ⟨1, k⟩ =
      (.wait, if k + 1 = backOff r then ⟨2, k + 1⟩ else ⟨1, k + 1⟩) := by
  have hle := backOff_le r
  have hmod : (k + 1) % 4294967296 = k + 1 := Nat.mod_eq_of_lt (by omega)
  unfold module4gErrorHandleProcess
  simp only [hmod]
  unfold backOff at hk ⊢
  split_ifs at hk ⊢ <;> first | rfl | omega

/-- A round takes two calls more than are counted. -/
theorem errorHandle_behind (hk : k < backOff r + 2) :
    module4gErrorHandleProcess r (.behind r k) =
      if k = backOff r + 1 then (.done, .behind r 0) else (.wait, .behind r (k + 1)) := by
  have hpos := backOff_pos r
  rcases Nat.eq_zero_or_pos k with rfl | hk0
  · rw [if_neg (by omega)]
    unfold ErrorState.behind
    rw [if_pos rfl, if_neg (by omega), if_pos (by omega)]
    rfl
  rcases Nat.lt_or_ge (backOff r) k with hlt | hle
  · rw [if_pos (by omega)]
    unfold ErrorState.behind
    rw [if_neg (by omega), if_neg (by omega), if_pos rfl]
    rfl
  · rw [if_neg (by omega)]
    have hbefore : ErrorState.behind r k = ⟨1, k - 1⟩ := by
      unfold ErrorState.behind
      rw [if_neg (by omega), if_pos hle]
    rw [hbefore, errorHandle_count (by omega), Nat.sub_add_cancel hk0]
    unfold ErrorState.behind
    rw [if_neg (Nat.succ_ne_zero k)]
    rcases Nat.eq_or_lt_of_le hle with heq | hlt
    · rw [if_pos heq, if_neg (by omega), heq]
    · rw [if_neg (Nat.ne_of_lt hlt), if_pos (Nat.succ_le_of_lt hlt), Nat.add_sub_cancel]

end

end AppXd.Net4g
