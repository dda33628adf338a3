import AppXd.Net4g.Communication
import AppXd.Secrypto.Ecb

/-!
# Encrypted payloads

The cloud sends a message as `aes128_ecb_encrypt` makes it. What `RspAnalyze` gets after the
decryption is the message.
-/

namespace AppXd.Net4g

open BlockCipher (padLen)
open Secrypto (aes128EcbEncrypt aes128EcbDecrypt encrypted)

/-- What `aes128_ecb_decrypt` leaves in `g_payload`, which is cleared before. -/
def decryptPayload (data : List UInt8) (len : Nat) (key : List UInt8) : List UInt8 :=
  (aes128EcbDecrypt data len key (List.replicate 500 0)).2

namespace Comm

variable {E : CommEnv} {s : Comm} {x : CallInput E.config}

/-- `RspAnalyze` on a message in clear, with the reports that its handling publishes. -/
def dispatch (E : CommEnv) (s : Comm) (x : CallInput E.config) (topic msg : List UInt8) :
    Option (Nat × Comm) :=
  match rspAnalyze s.netWork s.device E.decoder topic msg with
  | none => none
  | some none => some (x.garbage % 256, s)
  | some (some r) =>
    some (r.ret, { s with device := r.device }.save E.config
      ((published s.device r.device).flatMap x.reports))

/-- What `RspAnalyze` gets after the decryption; nothing where it is not called. -/
def clearText (E : CommEnv) (s : Comm) (i : DecryptInput) : Option (List UInt8) :=
  let payload := E.decrypt i.data i.len s.device.globalInfo.mqtt.secretKey
  let pkcsLen := (payload.getD (i.len - 1) 0).toNat
  if pkcsLen ≤ i.len then some (payload.take (if pkcsLen < 100 then i.len - pkcsLen else i.len))
  else none

theorem analyze_of_clearText {i : DecryptInput} {pbdata : List UInt8} (hlen : i.len ≠ 0)
    (h : s.clearText E i = some pbdata) : s.analyze E x i = s.dispatch E x i.topic pbdata := by
  unfold clearText at h
  unfold analyze dispatch
  simp only at h ⊢
  rw [if_neg hlen]
  split at h
  · rename_i hle
    obtain rfl := Option.some.inj h
    exact (if_pos hle).trans rfl
  · cases h

/-- A payload whose last byte in clear is a padding length. -/
theorem clearText_padded {i : DecryptInput} {k : UInt8} {text : List UInt8}
    (htext : E.decrypt i.data i.len s.device.globalInfo.mqtt.secretKey = text)
    (hk : text[i.len - 1]? = some k) (hle : k.toNat ≤ i.len) (hpad : k.toNat < 100) :
    s.clearText E i = some (text.take (i.len - k.toNat)) := by
  have hlast : (text.getD (i.len - 1) 0).toNat = k.toNat := by
    rw [List.getD_eq_getElem?_getD, hk]
    rfl
  unfold clearText
  rw [htext]
  simp only [hlast]
  rw [if_pos hle, if_pos hpad]

end Comm

/-- An encrypted message is deciphered with the same key, and `RspAnalyze` gets the message. -/
theorem encryptedPayload_roundTrip (key : List UInt8) {msg room output : List UInt8}
    (hmsg : msg.length ≤ 183) (hroom : padLen 16 msg.length ≤ room.length)
    (hout : 16 * (msg.length / 16 + 1) ≤ output.length) :
    (aes128EcbEncrypt (msg ++ room) msg.length key output).1 = 16 * (msg.length / 16 + 1) ∧
      (encrypted key msg room output).length = 16 * (msg.length / 16 + 1) ∧
      (∀ output' : List UInt8, 16 * (msg.length / 16 + 1) ≤ output'.length →
        ∃ k : UInt8, ∃ text : List UInt8,
          aes128EcbDecrypt (encrypted key msg room output) (encrypted key msg room output).length
            key output' = (some k, text) ∧ 1 ≤ k.toNat ∧ k.toNat ≤ 16 ∧
          text.take ((encrypted key msg room output).length - k.toNat) = msg) ∧
      ∀ (E : CommEnv) (s : Comm) (x : CallInput E.config) (topic : List UInt8),
        E.decrypt = decryptPayload → s.device.globalInfo.mqtt.secretKey = key →
        s.analyze E x ⟨topic, (encrypted key msg room output).length,
          encrypted key msg room output⟩ = s.dispatch E x topic msg := by
  have hlen := Secrypto.length_encrypted key hroom hout
  refine ⟨Secrypto.aes128EcbEncrypt_fst .., hlen,
    fun output' hout' => Secrypto.aes128EcbDecrypt_encrypted key hroom hout hout', ?_⟩
  intro E s x topic hE hkey
  have hpayload : 16 * (msg.length / 16 + 1) ≤ (List.replicate 500 (0 : UInt8)).length := by
    rw [List.length_replicate]
    omega
  obtain ⟨k, text, hdec, hpos, hle, hclear⟩ :=
    Secrypto.aes128EcbDecrypt_encrypted key hroom hout hpayload
  have htext : E.decrypt (encrypted key msg room output) (encrypted key msg room output).length
      s.device.globalInfo.mqtt.secretKey = text := by
    rw [hE, hkey, decryptPayload, hdec]
  have hk : text[(encrypted key msg room output).length - 1]? = some k := by
    obtain ⟨hfst, hsnd⟩ := Prod.mk.inj hdec
    rw [if_neg (by omega)] at hfst
    rw [← hsnd]
    exact hfst
  have hfit : 16 ≤ (encrypted key msg room output).length := by omega
  have hanalyze : s.analyze E x ⟨topic, (encrypted key msg room output).length,
      encrypted key msg room output⟩ =
        s.dispatch E x topic (text.take ((encrypted key msg room output).length - k.toNat)) :=
    Comm.analyze_of_clearText (Nat.ne_of_gt (Nat.lt_of_lt_of_le (by decide) hfit))
      (Comm.clearText_padded htext hk (hle.trans hfit) (hle.trans_lt (by decide)))
  rw [hanalyze, hclear]

/-- A message of two bytes. -/
theorem encryptedPayload_roundTrip_small : ∃ c : List UInt8, c.length = 16 ∧
    ∀ (E : CommEnv) (s : Comm) (x : CallInput E.config) (topic : List UInt8),
      E.decrypt = decryptPayload → s.device.globalInfo.mqtt.secretKey = List.replicate 16 7 →
      s.analyze E x ⟨topic, c.length, c⟩ = s.dispatch E x topic [1, 2] := by
  have hmsg : ([1, 2] : List UInt8).length ≤ 183 := by decide
  have hroom : padLen 16 ([1, 2] : List UInt8).length ≤ (List.replicate 14 (0 : UInt8)).length := by
    decide
  have hout : 16 * (([1, 2] : List UInt8).length / 16 + 1) ≤
      (List.replicate 16 (0 : UInt8)).length := by decide
  obtain ⟨-, hlen, -, hanalyze⟩ :=
    encryptedPayload_roundTrip (List.replicate 16 7) hmsg hroom hout
  exact ⟨_, hlen, hanalyze⟩

end AppXd.Net4g
