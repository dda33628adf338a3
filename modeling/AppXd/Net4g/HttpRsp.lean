import AppXd.Lib.CArray
import AppXd.Net4g.CellInfo

/-!
# Responses of the cloud over HTTP

The callbacks for activation and route cut a message out of the module's answer, as text, and decode
it. The decoder is a parameter.
-/

namespace AppXd.Net4g

open CStr (ascii textAt)

section
variable (m : ModuleType)

/-- `NET_ROUTE_ACTIVE_RSP_HEAD`. -/
def netRouteActiveRspHead : Option (List UInt8) :=
  if m.quectel then some (ascii "CONNECT") else none

/-- `NET_ROUTE_ACTIVE_RSP_TAIL`. -/
def netRouteActiveRspTail : List UInt8 := if m.quectel then ascii "OK" else ascii "\r\nOK"

/-- `get_atcmd_rsp_value` on an answer. Without a head key the value begins at the first byte that
is no blank. Behind the answer the memory reads as NUL. -/
def httpRspValue (srcData : List UInt8) : Option (List UInt8) :=
  let data := fun i => srcData.getD i 0
  let ram := srcData.length + 1
  match netRouteActiveRspHead m with
  | some headKey =>
    (getAtcmdRspValue data ram 0 srcData.length headKey (netRouteActiveRspTail m)).1
  | none =>
    valueBefore data ram (skipBlanks data 0 (srcData.length % 256)) (netRouteActiveRspTail m)

/-- The message of an answer, if it can be decoded. `none` is a value that leaves no room for a
terminator in the 200 bytes that it is copied to. -/
def httpDecode {α : Type} (decode : List UInt8 → Option α) (srcData : List UInt8) :
    Option (Option α) :=
  match httpRspValue m srcData with
  | none => some none
  | some v => if v.length < 200 then some (decode (textAt v 0)) else none

/-! ## The message -/

/-- The message that an answer holds. -/
def httpMessage {α : Type} (decode : List UInt8 → Option α) (srcData : List UInt8) : Option α :=
  (httpRspValue m srcData).bind fun v => decode (textAt v 0)

/-- The value fits in 200 bytes with its terminator. -/
def HttpFits (srcData : List UInt8) : Prop := ∀ v ∈ httpRspValue m srcData, v.length < 200

section
variable {m : ModuleType} {α : Type} {decode : List UInt8 → Option α} {srcData : List UInt8}

theorem httpDecode_of_fits (h : HttpFits m srcData) :
    httpDecode m decode srcData = some (httpMessage m decode srcData) := by
  unfold httpDecode httpMessage
  cases hv : httpRspValue m srcData with
  | none => rfl
  | some v => exact if_pos (h v hv)

theorem httpDecode_of_not_fits (h : ¬ HttpFits m srcData) :
    httpDecode m decode srcData = none := by
  unfold httpDecode
  cases hv : httpRspValue m srcData with
  | none =>
    refine absurd (fun v hv' => ?_) h
    cases hv.symm.trans hv'
  | some v =>
    refine if_neg fun hlen => h fun v' hv' => ?_
    cases hv.symm.trans hv'
    exact hlen

end

end

end AppXd.Net4g
