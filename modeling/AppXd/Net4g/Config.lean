import AppXd.Lib.CString
import Mathlib.Data.List.GetD

/-!
# Module types, keywords and buffer sizes

The 4G module is chosen at compile time. Its two families differ in the keywords that the receive
path looks for. The buffer sizes are macros of the board's configuration header; they are
parameters here.
-/

namespace AppXd.Net4g

open CStr (ascii)

/-- The values of `NET_4G_MODULE_TYPE`. -/
inductive ModuleType
  | nt26e | nt26k | ce109 | ec800 | ec801 | eg800geu
  deriving DecidableEq, Repr

/-- The second branch of the `#if` on the module type. -/
def ModuleType.quectel : ModuleType → Bool
  | nt26e | nt26k | ce109 => false
  | ec800 | ec801 | eg800geu => true

section
variable (m : ModuleType)

def netMqttCtrlCmdHead : List UInt8 :=
  if m.quectel then ascii "+QMTRECV:" else ascii "+LMQTTURC:"

def netMqttCtrlCmdTail : List UInt8 := ascii "\r\n"

def netMqttDisconnectCmdHead : List UInt8 :=
  if m.quectel then ascii "+QMTSTAT: 0,1" else ascii "+LMQTTURC: STATS"

def netMqttPubMiddleHead : List UInt8 := ascii "\r\n> "

def netMqttPubRspHead : List UInt8 :=
  if m.quectel then ascii "+QMTPUBEX:" else ascii "+LMQTTPUB:"

def getNetRssiRspHead : List UInt8 := ascii "+CSQ:"

def getNetQengServingCellRspHead : List UInt8 :=
  if m.quectel then ascii "+QENG:" else ascii " +ECBCINFO:"

/-- `GET_NET_CELL_RSP_HEAD` of the first family, `GET_NET_QCELL_RSP_HEAD` of the second. -/
def getNetCellRspHead : List UInt8 :=
  if m.quectel then ascii "+QCELL:" else ascii "+LCELL:"

def netCmdRspTailOk : List UInt8 := ascii "OK"

end

/-! ## Keywords -/

/-- What the ring search needs of a keyword: its first byte stands nowhere else in it, it has no
NUL, and a `uint8_t` counts it. -/
structure Keyword (key : List UInt8) : Prop where
  ne_nil : key ≠ []
  first : ∀ j, 0 < j → j < key.length → key[j]? ≠ key[0]?
  noNul : 0 ∉ key
  short : key.length < 256

instance (key : List UInt8) : Decidable (Keyword key) :=
  decidable_of_iff (key ≠ [] ∧ (∀ j < key.length, 0 < j → key[j]? ≠ key[0]?) ∧ 0 ∉ key ∧
      key.length < 256)
    ⟨fun ⟨h1, h2, h3, h4⟩ => ⟨h1, fun j h h' => h2 j h' h, h3, h4⟩,
      fun ⟨h1, h2, h3, h4⟩ => ⟨h1, fun j h h' => h2 j h' h, h3, h4⟩⟩

theorem Keyword.length_pos {key : List UInt8} (hk : Keyword key) : 0 < key.length :=
  List.length_pos_of_ne_nil hk.ne_nil

theorem Keyword.getD_ne_zero {key : List UInt8} (hk : Keyword key) {j : Nat}
    (hj : j < key.length) : key.getD j 0 ≠ 0 := by
  rw [List.getD_eq_getElem _ _ hj]
  intro h
  exact hk.noNul (h ▸ List.getElem_mem hj)

theorem Keyword.getD_ne_first {key : List UInt8} (hk : Keyword key) {j : Nat} (h0 : 0 < j)
    (hj : j < key.length) : key.getD j 0 ≠ key.getD 0 0 := by
  have h := hk.first j h0 hj
  rw [List.getD_eq_getElem _ _ hj, List.getD_eq_getElem _ _ hk.length_pos]
  rwa [List.getElem?_eq_getElem hj, List.getElem?_eq_getElem hk.length_pos, ne_eq,
    Option.some.injEq] at h

theorem keyword_ctrlCmdHead (m : ModuleType) : Keyword (netMqttCtrlCmdHead m) := by
  cases m <;> decide

theorem keyword_ctrlCmdTail : Keyword netMqttCtrlCmdTail := by decide

theorem keyword_disconnectCmdHead (m : ModuleType) : Keyword (netMqttDisconnectCmdHead m) := by
  cases m <;> decide

theorem keyword_pubMiddleHead : Keyword netMqttPubMiddleHead := by decide

theorem keyword_pubRspHead (m : ModuleType) : Keyword (netMqttPubRspHead m) := by
  cases m <;> decide

theorem keyword_netRssiRspHead : Keyword getNetRssiRspHead := by decide

theorem keyword_qengServingCellRspHead (m : ModuleType) :
    Keyword (getNetQengServingCellRspHead m) := by
  cases m <;> decide

theorem keyword_netCellRspHead (m : ModuleType) : Keyword (getNetCellRspHead m) := by
  cases m <;> decide

/-! ## Sizes -/

/-- The module type with the sizes of the buffers. `ram` bounds the memory that can be read from
the FIFO's first byte on. -/
structure Config where
  moduleType : ModuleType
  uartRecvFifoSize : Nat
  uartRecvCmdSize : Nat
  uartRecvQueuSize : Nat
  uartSendQueuSize : Nat
  uartSendQueuDataSize : Nat
  ram : Nat
  fifo_keyword : (netMqttDisconnectCmdHead moduleType).length < uartRecvFifoSize
  fifo_u16 : uartRecvFifoSize < 65536
  fifo_ram : uartRecvFifoSize ≤ ram
  recvQueu_two : 2 ≤ uartRecvQueuSize
  sendQueu_two : 2 ≤ uartSendQueuSize

namespace Config

variable (c : Config)

theorem fifo_pos : 0 < c.uartRecvFifoSize := Nat.zero_lt_of_lt c.fifo_keyword

end Config

end AppXd.Net4g
