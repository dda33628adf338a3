import AppXd.Net4g.PbKeywords
import AppXd.Net4g.SendQueue

/-!
# Publishing one message

`net4gSendDataProcess` publishes the message at the head of the queue in four steps: the publish
command, the wait for the prompt, the payload, and the wait for the acknowledgement. The two waits
look at flags that `get_net4G_recv_cmd` sets. What goes to the modem is kept with the queue entry
that it was made of.
-/

namespace AppXd.Net4g

open CStr (ascii textAt)

/-- The `static` variables of `net4g_send_data_process`. -/
structure SendProcess where
  processWorkStep : Nat
  waitTimeCount : Nat
  dataSendFailTimes : Nat
  dataSendWaitRsp1FailTimes : Nat
  deriving DecidableEq

/-- What a write to the modem is made of: the entry in a slot of the publish queue, or neither its
command nor its payload. -/
inductive WriteKind
  | pubCmd (slot : Nat) (e : SendEntry)
  | payload (slot : Nat) (e : SendEntry)
  | other
  deriving DecidableEq

/-- A call of `network_uart_send`. -/
structure Write where
  kind : WriteKind
  bytes : List UInt8
  deriving DecidableEq

/-- `NET_CMD_MQTT_PUB_MSG` filled in by `snprintf`. -/
def netCmdMqttPubMsg (m : ModuleType) (size : Nat) (productkey deviceKey : List UInt8)
    (e : SendEntry) : List UInt8 :=
  let head := if m.quectel then ascii "AT+QMTPUBEX=0,1,1,0,\"device/"
    else ascii "AT+LMQTTPUB=0,1,1,0,\"device/"
  (head ++ productkey ++ ascii "/" ++ textAt deviceKey 0 ++ ascii "/" ++ textAt e.topic 0 ++
    ascii "\"," ++ decimal e.cmdLen ++ ascii "\r\n").take (size - 1)

namespace Recv

variable (r : Recv)

/-- No wait for the prompt. -/
def clearMiddle : Recv := { r with checkPubMiddleFlag := false, pubMiddleFlag := false }

/-- No wait for the acknowledgement. -/
def clearAck : Recv := { r with checkPubAckFlag := false, pubAckFlag := false }

end Recv

/-- Result of a call: the return value, 1 when the message is done with and 2 when the connection
is, and the write that the call has made. -/
structure SendDataRet where
  ret : Nat
  proc : SendProcess
  recv : Recv
  write : Option Write

/-- `net4g_send_data_process`. `text` makes the publish command of an entry, and `init` tells the
work step `INIT` from the others. -/
def net4gSendDataProcess (text : SendEntry → List UInt8) (init : Bool) (q : Send) (p : SendProcess)
    (r : Recv) : SendDataRet :=
  let e := q.queue q.qHead
  match p.processWorkStep with
  | 0 =>
    ⟨0, { p with processWorkStep := 1, waitTimeCount := 0 },
      { r with checkPubMiddleFlag := true, pubMiddleFlag := false },
      some ⟨.pubCmd q.qHead e, text e⟩⟩
  | 1 =>
    if r.pubMiddleFlag then ⟨0, { p with processWorkStep := 2 }, r.clearMiddle, none⟩
    else
      let count := (p.waitTimeCount + 1) % 65536
      if count < (if init then 10 else 100) then ⟨0, { p with waitTimeCount := count }, r, none⟩
      else
        let fails := (p.dataSendWaitRsp1FailTimes + 1) % 256
        let p := { p with waitTimeCount := count, processWorkStep := 0 }
        if (if init then 1 else 4) ≤ fails then
          ⟨2, { p with dataSendWaitRsp1FailTimes := 0 }, r.clearMiddle, none⟩
        else
          ⟨if init then 0 else 1, { p with dataSendWaitRsp1FailTimes := fails }, r.clearMiddle, none⟩
  | 2 =>
    ⟨0, { p with processWorkStep := 3, waitTimeCount := 0 },
      { r with checkPubAckFlag := true, pubAckFlag := false },
      some ⟨.payload q.qHead e, e.cmdData.take e.cmdLen⟩⟩
  | 3 =>
    let count := (p.waitTimeCount + 1) % 65536
    let p := { p with waitTimeCount := count }
    if count % 100 = 0 then
      if r.pubAckFlag then ⟨1, { p with processWorkStep := 0, dataSendFailTimes := 0 }, r.clearAck, none⟩
      else if count < 1500 then ⟨0, p, r, none⟩
      else
        let fails := (p.dataSendFailTimes + 1) % 256
        ⟨1, { p with
          waitTimeCount := 0
          processWorkStep := 0
          dataSendFailTimes := if 4 ≤ fails then 0 else fails }, r.clearAck, none⟩
    else ⟨0, p, r, none⟩
  | _ => ⟨0, p, r, none⟩

/-- What a call does, without the counters' bounds. -/
inductive SendDataOutcome (text : SendEntry → List UInt8) (q : Send) (p : SendProcess) (r : Recv) :
    SendDataRet → Prop
  | pubCmd : p.processWorkStep = 0 → SendDataOutcome text q p r
      ⟨0, { p with processWorkStep := 1, waitTimeCount := 0 },
        { r with checkPubMiddleFlag := true, pubMiddleFlag := false },
        some ⟨.pubCmd q.qHead (q.queue q.qHead), text (q.queue q.qHead)⟩⟩
  | prompted : p.processWorkStep = 1 → r.pubMiddleFlag = true → SendDataOutcome text q p r
      ⟨0, { p with processWorkStep := 2 }, r.clearMiddle, none⟩
  | waiting (count : Nat) : p.processWorkStep = 1 → r.pubMiddleFlag = false →
      SendDataOutcome text q p r ⟨0, { p with waitTimeCount := count }, r, none⟩
  | unprompted (ret count fails : Nat) : p.processWorkStep = 1 → r.pubMiddleFlag = false →
      SendDataOutcome text q p r
        ⟨ret, { p with
          waitTimeCount := count, processWorkStep := 0, dataSendWaitRsp1FailTimes := fails },
          r.clearMiddle, none⟩
  | payload : p.processWorkStep = 2 → SendDataOutcome text q p r
      ⟨0, { p with processWorkStep := 3, waitTimeCount := 0 },
        { r with checkPubAckFlag := true, pubAckFlag := false },
        some ⟨.payload q.qHead (q.queue q.qHead),
          (q.queue q.qHead).cmdData.take (q.queue q.qHead).cmdLen⟩⟩
  | done (count fails : Nat) : p.processWorkStep = 3 → SendDataOutcome text q p r
      ⟨1, { p with waitTimeCount := count, processWorkStep := 0, dataSendFailTimes := fails },
        r.clearAck, none⟩
  | unacked (count : Nat) : p.processWorkStep = 3 → SendDataOutcome text q p r
      ⟨0, { p with waitTimeCount := count }, r, none⟩
  | still : 4 ≤ p.processWorkStep → SendDataOutcome text q p r ⟨0, p, r, none⟩

section
variable {text : SendEntry → List UInt8} {init : Bool} {q : Send} {p : SendProcess} {r : Recv}

theorem sendData_outcome : SendDataOutcome text q p r (net4gSendDataProcess text init q p r) := by
  unfold net4gSendDataProcess
  split
  · exact .pubCmd ‹_›
  · rename_i h1
    cases hmid : r.pubMiddleFlag with
    | true => exact .prompted h1 hmid
    | false =>
      simp only [Bool.false_eq_true, if_false]
      by_cases hcount : (p.waitTimeCount + 1) % 65536 < if init then 10 else 100
      · rw [if_pos hcount]
        exact .waiting _ h1 hmid
      · rw [if_neg hcount]
        by_cases hfails : (if init then 1 else 4) ≤ (p.dataSendWaitRsp1FailTimes + 1) % 256
        · rw [if_pos hfails]
          exact .unprompted _ _ _ h1 hmid
        · rw [if_neg hfails]
          exact .unprompted _ _ _ h1 hmid
  · exact .payload ‹_›
  · rename_i h3
    simp only
    split
    · split
      · exact .done _ _ h3
      split
      · exact .unacked _ h3
      · exact .done _ _ h3
    · exact .unacked _ h3
  · rename_i h0 h1 h2 h3
    have hne : p.processWorkStep ≠ 0 ∧ p.processWorkStep ≠ 1 ∧ p.processWorkStep ≠ 2 ∧
        p.processWorkStep ≠ 3 := ⟨h0, h1, h2, h3⟩
    exact .still (by omega)

/-- The reception keeps everything but the four flags. -/
theorem SendDataOutcome.recv_eq {res : SendDataRet} (h : SendDataOutcome text q p r res) :
    ∃ f₁ f₂ f₃ f₄, res.recv = { r with
      checkPubMiddleFlag := f₁, pubMiddleFlag := f₂, checkPubAckFlag := f₃, pubAckFlag := f₄ } := by
  cases h <;> exact ⟨_, _, _, _, rfl⟩

/-- The check flags belong to the two steps that wait. -/
structure Waits (p : SendProcess) (r : Recv) : Prop where
  middle : r.checkPubMiddleFlag = true → p.processWorkStep = 1
  ack : r.checkPubAckFlag = true → p.processWorkStep = 3

/-- At most one of the two answers is waited for. -/
theorem Waits.exclusive (h : Waits p r) (hm : r.checkPubMiddleFlag = true) :
    r.checkPubAckFlag = false :=
  Bool.eq_false_iff.2 fun ha => absurd ((h.middle hm).symm.trans (h.ack ha)) (by decide)

theorem SendDataOutcome.waits {res : SendDataRet} (h : SendDataOutcome text q p r res)
    (hw : Waits p r) : Waits res.proc res.recv := by
  have hno : ∀ {n}, p.processWorkStep = n →
      (n ≠ 1 → r.checkPubMiddleFlag = false) ∧ (n ≠ 3 → r.checkPubAckFlag = false) := fun h =>
    ⟨fun h1 => Bool.eq_false_iff.2 fun hm => h1 (h.symm.trans (hw.middle hm)),
      fun h3 => Bool.eq_false_iff.2 fun ha => h3 (h.symm.trans (hw.ack ha))⟩
  cases h with
  | pubCmd h0 => exact ⟨fun _ => rfl, fun ha => absurd (((hno h0).2 (by decide)).symm.trans ha) nofun⟩
  | prompted h1 => exact ⟨nofun, fun ha => absurd (((hno h1).2 (by decide)).symm.trans ha) nofun⟩
  | waiting count h1 => exact ⟨hw.middle, hw.ack⟩
  | unprompted ret count fails h1 =>
    exact ⟨nofun, fun ha => absurd (((hno h1).2 (by decide)).symm.trans ha) nofun⟩
  | payload h2 => exact ⟨fun hm => absurd (((hno h2).1 (by decide)).symm.trans hm) nofun, fun _ => rfl⟩
  | done count fails h3 =>
    exact ⟨fun hm => absurd (((hno h3).1 (by decide)).symm.trans hm) nofun, nofun⟩
  | unacked count h3 => exact ⟨hw.middle, hw.ack⟩
  | still h4 => exact hw

end

end AppXd.Net4g
