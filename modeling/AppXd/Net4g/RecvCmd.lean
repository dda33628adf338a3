import AppXd.Lib.CString
import AppXd.Net4g.KeySearch

/-!
# Cutting one command out of the FIFO

`recvCmdFromFifo` is a machine of four steps, one for each call. Its `static` variables are kept in
`Recv` with the fields of `gNet4g_dataStruct.recv`: between two calls they hold indices into the
ring that the callback may have moved on since.
-/

namespace AppXd.Net4g

/-- An entry of `cmdQ`. -/
structure CmdQ where
  qData : List UInt8
  qLen : Nat
  deriving DecidableEq

/-- `gNet4g_dataStruct.recv`, and the `static` variables of `recv_cmd_from_fifo`. -/
structure Recv where
  fifo : Fifo
  recvCmd : List UInt8
  recvCmdLen : Nat
  cmdQ : Nat → CmdQ
  qHead : Nat
  qTail : Nat
  checkPubMiddleFlag : Bool
  pubMiddleFlag : Bool
  checkPubAckFlag : Bool
  pubAckFlag : Bool
  cmdHeadIndex : Nat
  cmdTailIndex : Nat
  cmdGetStep : Nat

/-- The bytes that step 3 copies. A tail index behind the head index is taken for a flat part, also
when it is one past the end of the ring. -/
def cmdBytes (c : Config) (r : Recv) : List UInt8 :=
  if r.cmdHeadIndex < r.cmdTailIndex then
    Ring.cells r.fifo.data r.cmdHeadIndex r.cmdTailIndex
  else
    Ring.cells r.fifo.data r.cmdHeadIndex c.uartRecvFifoSize ++
      Ring.cells r.fifo.data 0 r.cmdTailIndex

/-- One past the highest cell that step 3 copies. -/
def cmdBytesEnd (c : Config) (r : Recv) : Nat :=
  if r.cmdHeadIndex < r.cmdTailIndex then r.cmdTailIndex
  else max c.uartRecvFifoSize r.cmdTailIndex

/-- Result of a call: the return value, the state, and one past the last cell read. -/
structure RecvCmdRet where
  ret : Nat
  recv : Recv
  hi : Nat

/-- The return value is 1 for a command, 2 when no head was found, 3 when no tail was found. -/
def recvCmdFromFifo (c : Config) (keyHeader keyTail : List UInt8) (r : Recv) : RecvCmdRet :=
  match r.cmdGetStep with
  | 0 =>
    if r.fifo.tail ≠ r.fifo.head then
      let dataLen :=
        if r.fifo.head < r.fifo.tail then r.fifo.tail - r.fifo.head
        else c.uartRecvFifoSize - r.fifo.head + r.fifo.tail
      if keyHeader.length ≤ dataLen then
        ⟨0, { r with cmdHeadIndex := 0, cmdTailIndex := 0, cmdGetStep := 1 }, 0⟩
      else if 0 < dataLen then ⟨2, r, 0⟩
      else ⟨0, r, 0⟩
    else ⟨0, r, 0⟩
  | 1 =>
    let k := getKeyDataIndex c r.fifo.data r.fifo.head r.fifo.tail keyHeader r.cmdHeadIndex
    if k.found then
      ⟨0, { r with
        cmdHeadIndex := k.index
        fifo := { r.fifo with head := k.index }
        cmdGetStep := 2 }, k.hi⟩
    else ⟨2, { r with cmdHeadIndex := k.index, cmdGetStep := 0 }, k.hi⟩
  | 2 =>
    let k := getKeyDataIndex c r.fifo.data r.fifo.head r.fifo.tail keyTail r.cmdTailIndex
    if k.found then
      ⟨0, { r with
        cmdTailIndex := (k.index + keyTail.length) % 65536
        cmdGetStep := 3 }, k.hi⟩
    else ⟨3, { r with cmdTailIndex := k.index, cmdGetStep := 0 }, k.hi⟩
  | 3 =>
    ⟨1, { r with
      recvCmd := CStr.copyInto c.uartRecvCmdSize (cmdBytes c r)
      recvCmdLen := (cmdBytes c r).length
      fifo := { r.fifo with head := r.cmdTailIndex }
      cmdGetStep := 0 }, cmdBytesEnd c r⟩
  | _ => ⟨0, { r with cmdGetStep := 0 }, 0⟩

namespace Recv

/-- The unread bytes. -/
def window (c : Config) (r : Recv) : List UInt8 := r.fifo.window c

end Recv

end AppXd.Net4g
