import AppXd.Lib.CArray
import AppXd.Net4g.CellInfo

/-!
# AT commands

`atCmdSendCheck` sends a command until the expected answer comes and the command's callback takes
it, or until it has been sent often enough. The callbacks that know the SIM cards are modelled; the
others store what no step of the configuration reads, and their verdict on an answer is a parameter.
-/

namespace AppXd.Net4g

open CStr (ascii store clear textAt)

/-- The commands of the configuration steps. -/
inductive AtCmdId
  | handshake | setCloseAte | rfOff | minLev | setFence | rfOn | getModuleInfo | getImei | getSnNo
  | simCheck | simChange1 | simChange2 | isSimOk | getSimNo | getSimState | getNetState
  | setApn | setPdp | setDns | mqttDisconnect | getLocationPara | setLocationPara | getLocationAddr
  | getCell | getQcell | getQengServingcell | getQengNeighbourcell | getRssi | success | error
  deriving DecidableEq, Repr

/-- The times that a command is sent, and the answer that it waits for. -/
structure AtCmd where
  retryTimes : Nat
  ack : List UInt8

def netCmdAckOk : List UInt8 := ascii "OK\r\n"

/-- `module_4g_cmds`. The ends of the steps, `success` and `error`, are not in it. -/
def module4gCmds (m : ModuleType) : AtCmdId → AtCmd
  | .handshake => ⟨30, netCmdAckOk⟩
  | .rfOff | .rfOn => ⟨if m.quectel then 1 else 3, netCmdAckOk⟩
  | .minLev | .setFence | .setApn | .setPdp | .setDns => ⟨1, netCmdAckOk⟩
  | .setCloseAte | .getModuleInfo | .getImei | .getSnNo | .getRssi => ⟨3, netCmdAckOk⟩
  | .isSimOk => ⟨if m.quectel then 2 else 30, netCmdAckOk⟩
  | .getSimNo | .getSimState | .getNetState => ⟨30, netCmdAckOk⟩
  | .simCheck => ⟨if m.quectel then 1 else 3, netCmdAckOk⟩
  | .simChange1 | .simChange2 => ⟨3, netCmdAckOk⟩
  | .mqttDisconnect => ⟨if m.quectel then 1 else 2, netCmdAckOk⟩
  | .getLocationPara | .setLocationPara => ⟨1, netCmdAckOk⟩
  | .getLocationAddr => ⟨1, if m.quectel then ascii "+QLBS: " else netCmdAckOk⟩
  | .getCell | .getQcell | .getQengServingcell | .getQengNeighbourcell => ⟨1, netCmdAckOk⟩
  | .success | .error => ⟨0, []⟩

/-- What the configuration reads and changes. -/
structure NetState where
  netConfig : Nat
  reconnectFlag : UInt8
  simFlag : UInt8
  sim1State : UInt8
  sim2State : UInt8
  firstSim : UInt32
  iccid : List UInt8
  iccid2 : List UInt8

/-- What is received after each sending. -/
abbrev AtRsp := Nat → List UInt8

/-- A callback: whether it takes the answer. -/
abbrev AtCallback (σ : Type) := List UInt8 → σ → Bool × σ

section
variable {σ : Type} (ack : List UInt8)

/-- The loop of `at_cmd_send_check`, with `n` sendings left. -/
def atCmdSendLoop (cb : Option (AtCallback σ)) (rsp : AtRsp) : Nat → Nat → σ → Bool × σ
  | 0, _, s => (false, s)
  | n + 1, i, s =>
    if 0 < (rsp i).length ∧ (Seq.firstAt ack (textAt (rsp i) 0)).isSome then
      match cb with
      | none => (true, s)
      | some cb =>
        let x := cb (rsp i) s
        if x.1 then x else atCmdSendLoop (some cb) rsp n (i + 1) x.2
    else atCmdSendLoop cb rsp n (i + 1) s

/-- The answers that a callback gets in the loop, each with the state that it finds. -/
def atCmdSendTrace (f : AtCallback σ) (rsp : AtRsp) : Nat → Nat → σ → List (List UInt8 × σ)
  | 0, _, _ => []
  | n + 1, i, s =>
    if 0 < (rsp i).length ∧ (Seq.firstAt ack (textAt (rsp i) 0)).isSome then
      let x := f (rsp i) s
      (rsp i, s) :: if x.1 then [] else atCmdSendTrace f rsp n (i + 1) x.2
    else atCmdSendTrace f rsp n (i + 1) s

end

def atCmdSendCheck {σ : Type} (cmd : AtCmd) (cb : Option (AtCallback σ)) (rsp : AtRsp) (s : σ) :
    Bool × σ :=
  atCmdSendLoop cmd.ack cb rsp cmd.retryTimes 0 s

/-! ## Callbacks -/

section
variable (m : ModuleType)

def getSimUsingHead : List UInt8 := if m.quectel then ascii "+QDSIM: " else ascii "+LUIMSLOT:"

def isSimOkRspHead : List UInt8 := ascii "+CPIN:"

def getSimNoRspHead : List UInt8 := if m.quectel then ascii "+QCCID:" else ascii "+LCCID:"

def getSimStateRspHead : List UInt8 := ascii "+CEREG:"

def getNetStateRspHead : List UInt8 := ascii "+CGATT:"

/-- `get_atcmd_rsp_value` on an answer, up to `OK`. Behind the answer the array reads as NUL. -/
def rspValue (srcData : List UInt8) (len : Nat) (headKey : List UInt8) : Option (List UInt8) :=
  (getAtcmdRspValue (fun i => srcData.getD i 0) (srcData.length + 1) 0 len headKey
    netCmdRspTailOk).1

/-- The value as a string in a buffer of zeros. -/
def rspText (srcData headKey : List UInt8) : Option (List UInt8) :=
  (rspValue srcData srcData.length headKey).map fun v => textAt v 0

def toUpper (b : UInt8) : UInt8 := if 97 ≤ b ∧ b ≤ 122 then b - 32 else b

/-- `strcasecmp(s, t) == 0`. -/
def sameIgnoringCase (s t : List UInt8) : Bool := s.map toUpper = t.map toUpper

/-- The families count the cards from 0 and from 1. -/
def net4gGetSimUsingCb : AtCallback NetState := fun srcData s =>
  match rspValue srcData 1 (getSimUsingHead m) with
  | none => (false, s)
  | some v =>
    let simFlag := v.getD 0 0
    if simFlag = (if m.quectel then 48 else 49) then (true, { s with simFlag := 1 })
    else if simFlag = (if m.quectel then 49 else 50) then (true, { s with simFlag := 2 })
    else (true, s)

def net4gIsSimOkCb : AtCallback NetState := fun srcData s =>
  match rspText srcData isSimOkRspHead with
  | none => (false, s)
  | some v => (sameIgnoringCase v (ascii "READY"), s)

/-- The number of the card in use is kept. -/
def net4gGetSimNoCb : AtCallback NetState := fun srcData s =>
  if s.simFlag = 1 then
    match rspText srcData (getSimNoRspHead m) with
    | none => (false, s)
    | some v =>
      if textAt s.iccid 0 ≠ v then (true, { s with iccid := store (clear s.iccid) v })
      else (true, s)
  else if s.simFlag = 2 then
    match rspText srcData (getSimNoRspHead m) with
    | none => (false, s)
    | some v =>
      if textAt s.iccid2 0 ≠ v then (true, { s with iccid2 := store (clear s.iccid2) v })
      else (true, s)
  else (true, s)

/-- The state of the card in use. -/
def NetState.setSimState (s : NetState) (v : UInt8) : NetState :=
  if s.simFlag = 1 then { s with sim1State := v }
  else if s.simFlag = 2 then { s with sim2State := v }
  else s

def net4gGetSimStateCb : AtCallback NetState := fun srcData s =>
  match rspText srcData getSimStateRspHead with
  | none => (false, s)
  | some v =>
    if sameIgnoringCase v (ascii "0,1") ∨ sameIgnoringCase v (ascii "0,5") then
      (true, s.setSimState 1)
    else (false, s.setSimState 2)

def net4gGetNetStateCb : AtCallback NetState := fun srcData s =>
  match rspText srcData getNetStateRspHead with
  | none => (false, s)
  | some v =>
    if sameIgnoringCase v (ascii "1") then (true, s.setSimState 1) else (false, s.setSimState 2)

/-- The callback of each command, if it has one. `check` is the verdict of those that store nothing
that matters here. -/
def atCallback (check : AtCmdId → List UInt8 → Bool) (id : AtCmdId) :
    Option (AtCallback NetState) :=
  match id with
  | .simCheck => some (net4gGetSimUsingCb m)
  | .isSimOk => some net4gIsSimOkCb
  | .getSimNo => some (net4gGetSimNoCb m)
  | .getSimState => some net4gGetSimStateCb
  | .getNetState => some net4gGetNetStateCb
  | .getModuleInfo | .getImei | .getSnNo | .getCell | .getQcell | .getQengServingcell
  | .getQengNeighbourcell | .getRssi | .getLocationPara | .getLocationAddr =>
    some fun srcData s => (check id srcData, s)
  | _ => none

end

/-! ## What sending a command leaves -/

section
variable {σ : Type} {P : σ → Prop} {cb : Option (AtCallback σ)} {rsp : AtRsp} {s : σ}

/-- What every callback keeps is kept. -/
theorem atCmdSendCheck_keeps (hcb : ∀ f ∈ cb, ∀ data s, P s → P (f data s).2) (cmd : AtCmd)
    (hs : P s) : P (atCmdSendCheck cmd cb rsp s).2 := by
  unfold atCmdSendCheck
  generalize 0 = i
  induction cmd.retryTimes generalizing i s with
  | zero => exact hs
  | succ n ih =>
    unfold atCmdSendLoop
    split
    · cases cb with
      | none => exact hs
      | some f =>
        have hf := hcb f rfl (rsp i) s hs
        dsimp only
        split
        · exact hf
        · exact ih hf (i + 1)
    · exact ih hs (i + 1)

/-- A command that succeeds through its callback ends with an answer that the callback takes. -/
theorem exists_mem_atCmdSendTrace {f : AtCallback σ} (cmd : AtCmd)
    (h : (atCmdSendCheck cmd (some f) rsp s).1 = true) :
    ∃ x ∈ atCmdSendTrace cmd.ack f rsp cmd.retryTimes 0 s, (f x.1 x.2).1 = true := by
  unfold atCmdSendCheck at h
  generalize 0 = i, cmd.retryTimes = k at h ⊢
  induction k generalizing i s with
  | zero => cases h
  | succ n ih =>
    unfold atCmdSendLoop at h
    unfold atCmdSendTrace
    split at h
    · rename_i hack
      rw [if_pos hack]
      dsimp only at h
      split at h
      · exact ⟨(rsp i, s), List.mem_cons_self, h⟩
      · rename_i hf
        obtain ⟨x, hx, hfx⟩ := ih (i + 1) h
        dsimp only
        rw [if_neg hf]
        exact ⟨x, List.mem_cons_of_mem _ hx, hfx⟩
    · rename_i hack
      rw [if_neg hack]
      exact ih (i + 1) h

end

end AppXd.Net4g
