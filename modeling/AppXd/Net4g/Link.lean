import AppXd.Lib.Trace
import AppXd.Net4g.GetRecvCmd

/-!
# The modem's stream and the receive path

`Link` puts the receive path beside the stream that the modem is still going to send. A step is
either one call of the UART callback for the next bytes of the stream, or one call of
`get_net4G_recv_cmd`.
-/

namespace AppXd.Net4g

structure Link where
  recv : Recv
  info : SignalInfo
  uart : List UInt8
  modem : List UInt8

inductive LinkEvent
  | uart (len : Nat)
  | call
  deriving DecidableEq

namespace Link

variable (c : Config)

/-- The driver receives the next `len` bytes and runs the callback. -/
def deliver (s : Link) (len : Nat) : Link :=
  let (fifo, uart) := net4gUartRecvCb c s.recv.fifo (s.uart ++ s.modem.take len) len
  { s with recv := { s.recv with fifo := fifo }, uart := uart, modem := s.modem.drop len }

/-- The result of the call of `get_net4G_recv_cmd` in this state. -/
def received (s : Link) : GetRecvRet := getNet4GRecvCmd c s.recv s.info

def step (s : Link) : LinkEvent → Link
  | .uart len => s.deliver c len
  | .call => { s with recv := (s.received c).recv, info := (s.received c).info }

/-- Nothing is unread and no command is begun, wherever the ring's indices stand. -/
structure Idle (s : Link) : Prop where
  head_eq : s.recv.fifo.head = s.recv.fifo.tail
  tail_lt : s.recv.fifo.tail < c.uartRecvFifoSize
  data_tail : s.recv.fifo.data s.recv.fifo.tail = 0
  step_eq : s.recv.cmdGetStep = 0
  middle : s.recv.checkPubMiddleFlag = false
  ack : s.recv.checkPubAckFlag = false
  uart_nil : s.uart = []
  queue : s.recv.qHead = s.recv.qTail ∧ s.recv.qTail < c.uartRecvQueuSize

end Link

/-! ## One call without check flags -/

/-- No publish waits for its prompt or its acknowledgement. -/
def Recv.Unchecked (r : Recv) : Prop := r.checkPubMiddleFlag = false ∧ r.checkPubAckFlag = false

instance (r : Recv) : Decidable r.Unchecked := inferInstanceAs (Decidable (_ ∧ _))

section
variable {c : Config} {r : Recv} {info : SignalInfo}

/-- The call drives `recvCmdFromFifo` while no check flag is set. -/
theorem getNet4GRecvCmd_idle (hm : r.checkPubMiddleFlag = false)
    (ha : r.checkPubAckFlag = false) :
    getNet4GRecvCmd c r info = recvPath c r info := by
  rw [getNet4GRecvCmd, hm, ha]
  rfl

end

/-- The unread commands of the queue, oldest first. -/
def Recv.queue (c : Config) (r : Recv) : List CmdQ :=
  Ring.window r.cmdQ c.uartRecvQueuSize r.qHead r.qTail

/-- The entry that `get_net4G_recv_cmd` makes of a command. -/
def cmdEntry (c : Config) (bs : List UInt8) : CmdQ := ⟨CStr.copyInto c.uartRecvCmdSize bs, bs.length⟩

/-! ## After a reset -/

/-- The receive path with all its memory zero. -/
def Recv.reset : Recv where
  fifo := ⟨fun _ => 0, 0, 0⟩
  recvCmd := []
  recvCmdLen := 0
  cmdQ := fun _ => ⟨[], 0⟩
  qHead := 0
  qTail := 0
  checkPubMiddleFlag := false
  pubMiddleFlag := false
  checkPubAckFlag := false
  pubAckFlag := false
  cmdHeadIndex := 0
  cmdTailIndex := 0
  cmdGetStep := 0

def SignalInfo.reset : SignalInfo where
  signal := 0
  nearbtsCount := 0
  qengServingcellInfo := ⟨[], 0, 0, 0, 0, 0, 0, 0, 0, 0, 0, 0, 0, 0, 0⟩
  qcellNeighbourcellInfo := ⟨0, 0, 0, 0, 0, 0, 0, 0, 0⟩
  qcellNeighbourcell2Info := ⟨0, 0, 0, 0, 0, 0, 0, 0, 0⟩

/-- Nothing received yet of the given stream. -/
def Link.reset (stream : List UInt8) : Link := ⟨.reset, .reset, [], stream⟩

theorem Link.reset_idle (c : Config) (stream : List UInt8) : (Link.reset stream).Idle c :=
  ⟨rfl, c.fifo_pos, rfl, rfl, rfl, rfl, rfl, rfl, Nat.zero_lt_of_lt c.recvQueu_two⟩

/-- A small configuration of the second family, for runs on concrete streams. -/
def smallConfig : Config where
  moduleType := .ec800
  uartRecvFifoSize := 16
  uartRecvCmdSize := 16
  uartRecvQueuSize := 3
  uartSendQueuSize := 3
  uartSendQueuDataSize := 16
  ram := 16
  fifo_keyword := by decide
  fifo_u16 := by decide
  fifo_ram := by decide
  recvQueu_two := by decide
  sendQueu_two := by decide

/-- A FIFO of 64 bytes does for both families. -/
theorem disconnectCmdHead_lt_64 (m : ModuleType) : (netMqttDisconnectCmdHead m).length < 64 := by
  cases m <;> decide

theorem fifo64_u16 : 64 < 65536 := by decide

theorem fifo64_ram : 64 ≤ 64 := Nat.le_refl 64

end AppXd.Net4g
