import AppXd.Net4g.RecvCmd
import AppXd.Net4g.CellInfo

/-!
# The receive path

`getNet4GRecvCmd` is called once in every round of the communication step. While a publish waits
for its prompt or its acknowledgement it only looks for that; otherwise it drives
`recvCmdFromFifo`. A command goes to the queue `cmdQ`. When no message head is found, the window is
searched for a disconnect notice, the reboot banner and the radio's answers, and then dropped.
-/

namespace AppXd.Net4g

open CStr (ascii)

/-- Result of a call: the return value, the new state, the number of calls of
`InfoGsmDataPubTopic`, and one past the last FIFO cell read. -/
structure GetRecvRet where
  ret : Nat
  recv : Recv
  info : SignalInfo
  gsmPubs : Nat
  hi : Nat

section
variable (c : Config)

/-- The search of a keyword in the window, with the local `cmdHead_index`. -/
def searchWindow (f : Fifo) (key : List UInt8) (idx : Nat) : KeyIndex :=
  getKeyDataIndex c f.data f.head f.tail key idx

/-- The received command is appended to the queue, which is not checked for room. -/
def enqueueCmd (r : Recv) : Recv :=
  { r with
    cmdQ := Ring.poke r.cmdQ r.qTail
      ⟨CStr.copyInto c.uartRecvCmdSize (r.recvCmd.take r.recvCmdLen), r.recvCmdLen⟩
    qTail := (r.qTail + 1) % c.uartRecvQueuSize }

/-- The local `recvLen`. -/
def unreadLen (f : Fifo) : Nat :=
  if f.head ≤ f.tail then f.tail - f.head else c.uartRecvFifoSize - f.head + f.tail

/-- `memset` of the array, and both indices to its start. -/
def clearFifo (f : Fifo) : Fifo :=
  { data := fun i => if i < c.uartRecvFifoSize then 0 else f.data i, head := 0, tail := 0 }

/-- The local variables of the branch on a missing head. -/
structure HeadFail where
  ret : Nat
  cmdHeadIndex : Nat
  fifo : Fifo
  info : SignalInfo
  gsmPubs : Nat
  hi : Nat

/-- Record how far a C string was read. -/
def HeadFail.scanned (l : HeadFail) (hi : Nat) : HeadFail := { l with hi := max l.hi hi }

/-- `ret = get_key_data_index(…)` in the branch on a missing head. -/
def HeadFail.search (l : HeadFail) (key : List UInt8) : HeadFail :=
  let k := searchWindow c l.fifo key l.cmdHeadIndex
  { l with ret := if k.found then 1 else 0, cmdHeadIndex := k.index, hi := max l.hi k.hi }

/-- The test on the reboot banner reads the array as one C string from its first cell on. -/
def rebootBanner (f : Fifo) : Bool :=
  (CStr.strstr f.data c.ram 0 (ascii "boot.rom")).isSome ||
    (CStr.strstr f.data c.ram 0 (ascii "Lierda")).isSome

/-- One past the last cell that the test on the banner reads. -/
def rebootBannerEnd (f : Fifo) : Nat :=
  if (CStr.strstr f.data c.ram 0 (ascii "boot.rom")).isSome then
    CStr.strstrEnd f.data c.ram 0 (ascii "boot.rom")
  else max (CStr.strstrEnd f.data c.ram 0 (ascii "boot.rom"))
    (CStr.strstrEnd f.data c.ram 0 (ascii "Lierda"))

/-- The second family searches the notice once more when the string from the head on holds
`+QIURC:`. -/
def headFailRetry (l : HeadFail) : HeadFail :=
  let l := l.scanned (CStr.strstrEnd l.fifo.data c.ram l.fifo.head (ascii "+QIURC:"))
  if (CStr.strstr l.fifo.data c.ram l.fifo.head (ascii "+QIURC:")).isSome then
    let l := l.search c (netMqttDisconnectCmdHead c.moduleType)
    if l.ret = 1 then { l with ret := 10 } else l
  else l

/-- The disconnect notice, or else the reboot banner. -/
def headFailNotice (l : HeadFail) : HeadFail :=
  let l := l.search c (netMqttDisconnectCmdHead c.moduleType)
  if l.ret = 1 then { l with ret := 10 }
  else
    let l := l.scanned (rebootBannerEnd c l.fifo)
    if rebootBanner c l.fifo then { l with fifo := clearFifo c l.fifo, ret := 10 }
    else if c.moduleType.quectel then headFailRetry c l
    else l

/-- One of the radio's answers: where the string from the head on holds `text`, the keyword `key`
is searched, and if it is found the answer goes to the callback `f`. The string is printed before
the test if `showAlways` is set, and otherwise only when the test holds. -/
def headFailAnswer (showAlways : Bool) (text key : List UInt8)
    (f : (Nat → UInt8) → Nat → Nat → Nat → SignalInfo → SignalInfo × Nat) (gsm : Nat)
    (recvLen : Nat) (l : HeadFail) : HeadFail :=
  let l := if showAlways then l.scanned (CStr.textEnd l.fifo.data c.ram l.fifo.head) else l
  let l := l.scanned (CStr.strstrEnd l.fifo.data c.ram l.fifo.head text)
  if (CStr.strstr l.fifo.data c.ram l.fifo.head text).isSome then
    let l := if showAlways then l else l.scanned (CStr.textEnd l.fifo.data c.ram l.fifo.head)
    let l := l.search c key
    if l.ret = 1 then
      let (info, hi) := f l.fifo.data c.ram l.fifo.head recvLen l.info
      { l with info := info, gsmPubs := l.gsmPubs + gsm, hi := max l.hi hi }
    else l
  else l

/-- The branch on a missing head. -/
def headFail (r : Recv) (info : SignalInfo) (hi : Nat) : GetRecvRet :=
  let m := c.moduleType
  let l := headFailNotice c ⟨2, 0, r.fifo, info, 0, hi⟩
  let recvLen := unreadLen c l.fifo
  let l :=
    if m.quectel then
      let l := headFailAnswer c true (ascii "+CSQ:") getNetRssiRspHead getNetRssi 0 recvLen l
      headFailAnswer c true (ascii "+QENG:") (getNetQengServingCellRspHead m)
        (net4gGetNetQengServingCellCb m) 1 recvLen l
    else
      let l := headFailAnswer c false (ascii "+LCELL:") (getNetCellRspHead m)
        (net4gGetNetQcellCb m) 0 recvLen l
      headFailAnswer c false (ascii "+CSQ:") getNetRssiRspHead getNetRssi 1 recvLen l
  ⟨l.ret, { r with fifo := { l.fifo with head := l.fifo.tail } }, l.info, l.gsmPubs, l.hi⟩

/-- The receive path proper. -/
def recvPath (r : Recv) (info : SignalInfo) : GetRecvRet :=
  let res := recvCmdFromFifo c (netMqttCtrlCmdHead c.moduleType) netMqttCtrlCmdTail r
  match res.ret with
  | 1 => ⟨1, enqueueCmd c res.recv, info, 0, res.hi⟩
  | 2 => headFail c res.recv info res.hi
  | ret => ⟨ret, res.recv, info, 0, res.hi⟩

/-- `get_net4G_recv_cmd`. -/
def getNet4GRecvCmd (r : Recv) (info : SignalInfo) : GetRecvRet :=
  if r.checkPubMiddleFlag then
    let k := searchWindow c r.fifo netMqttPubMiddleHead 0
    if k.found then
      ⟨1, { r with checkPubMiddleFlag := false, pubMiddleFlag := true }, info, 0, k.hi⟩
    else ⟨0, r, info, 0, k.hi⟩
  else if r.checkPubAckFlag then
    let k := searchWindow c r.fifo (netMqttPubRspHead c.moduleType) 0
    if k.found then
      ⟨1, { r with checkPubAckFlag := false, pubAckFlag := true }, info, 0, k.hi⟩
    else ⟨0, r, info, 0, k.hi⟩
  else recvPath c r info

end

/-! ## What the branch on a missing head does to the FIFO -/

section
variable {c : Config}

/-- The FIFO as it was, or cleared. -/
def KeptOrCleared (c : Config) (f g : Fifo) : Prop := g = f ∨ g = clearFifo c f

@[simp] theorem HeadFail.scanned_fifo (l : HeadFail) (hi : Nat) : (l.scanned hi).fifo = l.fifo :=
  rfl

@[simp] theorem headFailRetry_fifo (l : HeadFail) : (headFailRetry c l).fifo = l.fifo := by
  unfold headFailRetry
  simp only
  split
  · split <;> rfl
  · rfl

theorem headFailNotice_fifo (l : HeadFail) :
    KeptOrCleared c l.fifo (headFailNotice c l).fifo := by
  unfold headFailNotice
  simp only
  split
  · exact .inl rfl
  split
  · exact .inr rfl
  split
  · exact .inl (headFailRetry_fifo _)
  · exact .inl rfl

@[simp] theorem headFailAnswer_fifo (b : Bool) (text key : List UInt8)
    (f : (Nat → UInt8) → Nat → Nat → Nat → SignalInfo → SignalInfo × Nat) (gsm recvLen : Nat)
    (l : HeadFail) : (headFailAnswer c b text key f gsm recvLen l).fifo = l.fifo := by
  unfold headFailAnswer
  cases b <;> simp only [if_true, Bool.false_eq_true, if_false] <;> split <;> try rfl
  all_goals split <;> rfl

/-- The window is dropped, and nothing but the FIFO changes. -/
theorem headFail_recv (r : Recv) (info : SignalInfo) (hi : Nat) :
    ∃ g, KeptOrCleared c r.fifo g ∧
      (headFail c r info hi).recv = { r with fifo := { g with head := g.tail } } := by
  refine ⟨(headFailNotice c ⟨2, 0, r.fifo, info, 0, hi⟩).fifo, headFailNotice_fifo _, ?_⟩
  unfold headFail
  simp only
  split <;> simp only [headFailAnswer_fifo]

theorem KeptOrCleared.wf {f g : Fifo} (h : KeptOrCleared c f g) (hf : f.Wf c) : g.Wf c := by
  rcases h with rfl | rfl
  · exact hf
  · exact ⟨Nat.zero_le _, c.fifo_pos, if_pos c.fifo_pos⟩

end

end AppXd.Net4g
