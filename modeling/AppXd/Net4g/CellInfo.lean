import AppXd.Lib.CString
import AppXd.Net4g.Config

/-!
# Values of AT responses

`getAtcmdRspValue` cuts the text between two keys out of a response; the callbacks for the cell
information split it at commas and store the fields by their position. A response lies in a flat
memory; next to the value each function says how far it reads.
-/

namespace AppXd.Net4g

open CStr (ascii)

/-- The bytes that are trimmed at both ends of a value. -/
def blank (b : UInt8) : Bool := b = 13 || b = 10 || b = 32 || b = 34 || b = 0

/-- Subtraction in `uint32_t`. -/
def subU32 (a b : Nat) : Nat := if b ≤ a then a - b else 4294967296 - (b - a)

section
variable (data : Nat → UInt8)

/-- The loop that skips blanks from the cell `p` on, for `n` rounds at most. -/
def skipBlanks (p : Nat) : Nat → Nat
  | 0 => 0
  | n + 1 => if blank (data p) then skipBlanks (p + 1) n + 1 else 0

theorem skipBlanks_le (p n : Nat) : skipBlanks data p n ≤ n := by
  induction n generalizing p with
  | zero => exact Nat.le_refl 0
  | succ n ih =>
    rw [skipBlanks]
    split
    · exact Nat.succ_le_succ (ih (p + 1))
    · exact Nat.zero_le _

/-- The loop that drops blanks before the cell `p`, for `n` rounds at most. -/
def trimBlanks (p : Nat) : Nat → Nat
  | 0 => 0
  | n + 1 => if blank (data (p - 1)) then trimBlanks (p - 1) n + 1 else 0

/-- The second half of `get_atcmd_rsp_value`: the text from the cell `p` on up to the tail key,
without the blanks before it. The length is a `uint8_t`. -/
def valueBefore (ram p : Nat) (tailKey : List UInt8) : Option (List UInt8) :=
  match CStr.strstr data ram p tailKey with
  | none => none
  | some q =>
    let q := q - trimBlanks data q ((q - p) % 256)
    let tempDataLen := (q - p) % 256
    if 0 < tempDataLen then some (Ring.cells data p (p + tempDataLen)) else none

/-- `get_atcmd_rsp_value` with a head key: the bytes copied to the destination, if any, and one past
the last cell read. -/
def getAtcmdRspValue (ram src srcLen : Nat) (headKey tailKey : List UInt8) :
    Option (List UInt8) × Nat :=
  let hi := CStr.strstrEnd data ram src headKey
  match CStr.strstr data ram src headKey with
  | none => (none, hi)
  | some q =>
    let tempDataLen := subU32 srcLen headKey.length % 256
    let p := q + headKey.length
    let i := skipBlanks data p tempDataLen
    (valueBefore data ram (p + i) tailKey,
      max (max hi (p + min (i + 1) tempDataLen)) (CStr.strstrEnd data ram (p + i) tailKey))

end

/-! ## Cell information -/

structure ServingCellInfo where
  isTdd : List UInt8
  mcc : Int
  mnc : Int
  cellID : Int
  pci : Int
  earfcn : Int
  freqBandInd : Int
  ulBandwidth : Int
  dlBandwidth : Int
  tac : Int
  rsrp : Int
  rsrq : Int
  rssi : Int
  sinr : Int
  srxlev : Int
  deriving DecidableEq

structure NeighbourCellInfo where
  mcc : Int
  mnc : Int
  tac : Int
  cellID : Int
  pci : Int
  rxLev : Int
  rsrp : Int
  rsrq : Int
  sinr : Int
  deriving DecidableEq

/-- The fields of `g_deviceGlobalInfo` about the radio. -/
structure SignalInfo where
  signal : Nat
  nearbtsCount : Nat
  qengServingcellInfo : ServingCellInfo
  qcellNeighbourcellInfo : NeighbourCellInfo
  qcellNeighbourcell2Info : NeighbourCellInfo
  deriving DecidableEq

/-- The loop `while (token != NULL)` over the comma-separated tokens of a buffer. `f` gets the
token's position in the row and the buffer from the token on. -/
def tokenLoop {σ : Type} (f : Nat → List UInt8 → σ → σ) :
    Nat → List UInt8 → Nat → Nat → σ → σ
  | 0, _, _, _, s => s
  | n + 1, buf, pos, currentIndex, s =>
    match CStr.strtok 44 buf pos with
    | (none, _, _) => s
    | (some t, buf, pos) =>
      tokenLoop f n buf pos ((currentIndex + 1) % 256) (f currentIndex (buf.drop t) s)

/-- Split a value, copied into a buffer of 500 bytes, at its commas. -/
def eachToken {σ : Type} (f : Nat → List UInt8 → σ → σ) (value : List UInt8) (s : σ) : σ :=
  tokenLoop f 501 (CStr.copyInto 500 value) 0 0 s

/-- `strtol(token, NULL, base)`. -/
def tokenValue (base : Nat) (token : List UInt8) : Int := CStr.strtol base (CStr.textAt token 0)

def setServingCell (m : ModuleType) (i : Nat) (token : List UInt8) (s : ServingCellInfo) :
    ServingCellInfo :=
  match i with
  | 2 => { s with mcc := tokenValue 10 token }
  | 3 => { s with mnc := tokenValue 10 token }
  | 4 => { s with tac := tokenValue 16 token }
  | 5 => { s with cellID := tokenValue 16 token }
  | 6 => { s with pci := tokenValue 10 token }
  | 7 => { s with srxlev := tokenValue 10 token }
  | 9 => if m.quectel then s else { s with rsrp := tokenValue 10 token }
  | 10 => if m.quectel then s else { s with rsrq := tokenValue 10 token }
  | 11 => if m.quectel then s else { s with sinr := tokenValue 10 token }
  | _ => s

def setNeighbourCell (m : ModuleType) (i : Nat) (token : List UInt8) (s : NeighbourCellInfo) :
    NeighbourCellInfo :=
  match i with
  | 2 => { s with mcc := tokenValue 10 token }
  | 3 => { s with mnc := tokenValue 10 token }
  | 4 => { s with tac := tokenValue 16 token }
  | 5 => { s with cellID := tokenValue 16 token }
  | 6 => { s with pci := tokenValue 10 token }
  | 7 => { s with rxLev := tokenValue 10 token }
  | 9 => if m.quectel then s else { s with rsrp := tokenValue 10 token }
  | 10 => if m.quectel then s else { s with rsrq := tokenValue 10 token }
  | 11 => if m.quectel then s else { s with sinr := tokenValue 10 token }
  | _ => s

def setQengServingCell (i : Nat) (token : List UInt8) (s : ServingCellInfo) : ServingCellInfo :=
  match i with
  | 3 => { s with isTdd := [token.getD 1 0, token.getD 2 0, token.getD 3 0, 0] }
  | 4 => { s with mcc := tokenValue 10 token }
  | 5 => { s with mnc := tokenValue 10 token }
  | 6 => { s with cellID := tokenValue 16 token }
  | 7 => { s with pci := tokenValue 10 token }
  | 8 => { s with earfcn := tokenValue 10 token }
  | 9 => { s with freqBandInd := tokenValue 10 token }
  | 10 => { s with ulBandwidth := tokenValue 10 token }
  | 11 => { s with dlBandwidth := tokenValue 10 token }
  | 12 => { s with tac := tokenValue 16 token }
  | 13 => { s with rsrp := tokenValue 10 token }
  | 14 => { s with rsrq := tokenValue 10 token }
  | 16 => { s with sinr := tokenValue 10 token }
  | 17 => { s with srxlev := tokenValue 10 token }
  | _ => s

section
variable (m : ModuleType) (data : Nat → UInt8) (ram src len : Nat)

/-- `net4g_get_net_qcell_cb` on a response that came in time, with one past the last cell read. -/
def net4gGetNetQcellCb (s : SignalInfo) : SignalInfo × Nat :=
  let s := { s with nearbtsCount := 0 }
  let tailKey := if m.quectel then netCmdRspTailOk else ascii "\r\n"
  let (value, hi) := getAtcmdRspValue data ram src len (getNetCellRspHead m) tailKey
  let s := match value with
    | none => s
    | some v =>
      { s with qengServingcellInfo := eachToken (setServingCell m) v s.qengServingcellInfo }
  let key := ascii "neighbourcell"
  let hi := max hi (CStr.strstrEnd data ram src key)
  match CStr.strstr data ram src key with
  | none => (s, hi)
  | some p =>
    let (value, hi') := getAtcmdRspValue data ram p (subU32 len (p - src)) key
      (ascii "\r\n")
    let hi := max hi hi'
    let s := match value with
      | none => s
      | some v =>
        { s with
          nearbtsCount := 1
          qcellNeighbourcellInfo := eachToken (setNeighbourCell m) v s.qcellNeighbourcellInfo }
    let hi := max hi (CStr.strstrEnd data ram (p + 13) key)
    match CStr.strstr data ram (p + 13) key with
    | none => (s, hi)
    | some p =>
      let (value, hi') := getAtcmdRspValue data ram p (subU32 len (p - src)) key
        (ascii "\r\n")
      let s := match value with
        | none => s
        | some v =>
          { s with
            nearbtsCount := 2
            qcellNeighbourcell2Info :=
              eachToken (setNeighbourCell m) v s.qcellNeighbourcell2Info }
      (s, max hi hi')

/-- `net4g_get_net_qeng_serving_cell_cb` of the second family on a response that came in time. -/
def net4gGetNetQengServingCellCb (s : SignalInfo) : SignalInfo × Nat :=
  let (value, hi) := getAtcmdRspValue data ram src len (getNetQengServingCellRspHead m)
    netCmdRspTailOk
  match value with
  | none => (s, hi)
  | some v =>
    ({ s with qengServingcellInfo := eachToken setQengServingCell v s.qengServingcellInfo }, hi)

/-- The handling of a `+CSQ:` line in `get_net4G_recv_cmd`. -/
def getNetRssi (s : SignalInfo) : SignalInfo × Nat :=
  let (value, hi) := getAtcmdRspValue data ram src len getNetRssiRspHead netCmdRspTailOk
  let rssiValue : Nat := match value with
    | none => 0
    | some v => (CStr.atoi (CStr.textAt (CStr.copyInto 200 v) 0) % 256).toNat
  let s := if rssiValue ≠ 0 then { s with signal := rssiValue * 100 / 31 } else s
  ({ s with qengServingcellInfo := { s.qengServingcellInfo with rssi := rssiValue } }, hi)

end

end AppXd.Net4g
