import AppXd.Secrypto.Aes

/-!
# Messages

`aes128_ecb_encrypt` pads its input in place and encrypts it block by block into its output;
`aes128_ecb_decrypt` returns the last byte of what it has deciphered, which is the length of the
padding.
-/

namespace AppXd.Secrypto

open BlockCipher (ecb write pad padLen)

/-- `Add_Pkcs`, with the buffer that `p` points to. -/
def addPkcs (p : List UInt8) (len : Nat) : Nat × List UInt8 :=
  let cz := 16 - len % 16
  (len + cz, write p len (List.replicate cz cz.toUInt8))

/-- `aes128_ecb_encrypt`: its value and the output. -/
def aes128EcbEncrypt (input : List UInt8) (inputLen : Nat) (key output : List UInt8) :
    Nat × List UInt8 :=
  let indexMax := inputLen / 16 + 1
  let (len, input) := addPkcs input inputLen
  (len, ecb keyLen (aes128EncryptBlock key) input indexMax output)

/-- `aes128_ecb_decrypt`: its value and the output. There is no last byte of an empty text. -/
def aes128EcbDecrypt (input : List UInt8) (baseLen : Nat) (key output : List UInt8) :
    Option UInt8 × List UInt8 :=
  let indexMax := baseLen / 16
  let output := ecb keyLen (aes128DecryptBlock key) input indexMax output
  (if baseLen = 0 then none else output[baseLen - 1]?, output)

/-- The bytes that `aes128_ecb_encrypt` makes of a message. -/
def encrypted (key msg room output : List UInt8) : List UInt8 :=
  let (len, output) := aes128EcbEncrypt (msg ++ room) msg.length key output
  output.take len

section
variable {msg room output output' : List UInt8}

/-- The input with its padding. -/
theorem addPkcs_spec (hroom : padLen 16 msg.length ≤ room.length) :
    (addPkcs (msg ++ room) msg.length).1 = 16 * (msg.length / 16 + 1) ∧
      (addPkcs (msg ++ room) msg.length).2.length = msg.length + room.length ∧
      (addPkcs (msg ++ room) msg.length).2.take (16 * (msg.length / 16 + 1)) = pad 16 msg := by
  have hlen := BlockCipher.add_padLen (n := 16) (by omega) msg.length
  have hreplicate : (List.replicate (padLen 16 msg.length) (padLen 16 msg.length).toUInt8).length =
      padLen 16 msg.length := List.length_replicate
  refine ⟨hlen, ?_, ?_⟩
  · refine (BlockCipher.length_write ?_).trans List.length_append
    rw [List.length_append, List.length_replicate]
    exact Nat.add_le_add_left hroom _
  · have hwrite : (addPkcs (msg ++ room) msg.length).2.take (msg.length +
        (List.replicate (padLen 16 msg.length) (padLen 16 msg.length).toUInt8).length) =
          (msg ++ room).take msg.length ++
            List.replicate (padLen 16 msg.length) (padLen 16 msg.length).toUInt8 :=
      BlockCipher.take_write_end (by rw [List.length_append]; exact Nat.le_add_right ..)
    rw [hreplicate, hlen, List.take_left] at hwrite
    exact hwrite

theorem encrypted_eq (key msg room output : List UInt8) :
    encrypted key msg room output = (ecb 16 (aes128EncryptBlock key)
      (addPkcs (msg ++ room) msg.length).2 (msg.length / 16 + 1) output).take
        (16 * (msg.length / 16 + 1)) :=
  congrArg (List.take · _) (BlockCipher.add_padLen (by decide) msg.length)

theorem aes128EcbEncrypt_fst (key msg room output : List UInt8) :
    (aes128EcbEncrypt (msg ++ room) msg.length key output).1 = 16 * (msg.length / 16 + 1) :=
  BlockCipher.add_padLen (by decide) msg.length

/-- The length of an encrypted message. -/
theorem length_encrypted (key : List UInt8) (hroom : padLen 16 msg.length ≤ room.length)
    (hout : 16 * (msg.length / 16 + 1) ≤ output.length) :
    (encrypted key msg room output).length = 16 * (msg.length / 16 + 1) := by
  obtain ⟨-, hlen, -⟩ := addPkcs_spec hroom
  have hpad := BlockCipher.add_padLen (n := 16) (by omega) msg.length
  have hecb : (ecb 16 (aes128EncryptBlock key) (addPkcs (msg ++ room) msg.length).2
      (msg.length / 16 + 1) output).length = output.length :=
    (BlockCipher.ecb_blocks (n := 16) (fun b _ => length_aes128EncryptBlock key b)
      (by rw [hlen]; omega) hout).1
  rw [encrypted_eq]
  exact List.length_take_of_le (hout.trans_eq hecb.symm)

/-- What is deciphered is the padded message. -/
theorem take_aes128EcbDecrypt (key : List UInt8) (hroom : padLen 16 msg.length ≤ room.length)
    (hout : 16 * (msg.length / 16 + 1) ≤ output.length)
    (hout' : 16 * (msg.length / 16 + 1) ≤ output'.length) :
    (aes128EcbDecrypt (encrypted key msg room output) (encrypted key msg room output).length key
      output').2.take (16 * (msg.length / 16 + 1)) = pad 16 msg := by
  obtain ⟨-, hlength, hpad⟩ := addPkcs_spec hroom
  have hfit := BlockCipher.add_padLen (n := 16) (by omega) msg.length
  have hcount : 16 * (msg.length / 16 + 1) / 16 = msg.length / 16 + 1 := by omega
  rw [length_encrypted key hroom hout, ← hpad, encrypted_eq]
  unfold aes128EcbDecrypt
  simp only [hcount]
  exact BlockCipher.ecb_ecb (n := 16) (fun b _ => length_aes128EncryptBlock key b)
    (fun b _ => length_aes128DecryptBlock key b)
    (fun b hb => aes128DecryptBlock_encryptBlock key hb) (by rw [hlength]; omega) hout hout'

/-- What deciphering an encrypted message returns and leaves in the output. -/
theorem aes128EcbDecrypt_encrypted (key : List UInt8) (hroom : padLen 16 msg.length ≤ room.length)
    (hout : 16 * (msg.length / 16 + 1) ≤ output.length)
    (hout' : 16 * (msg.length / 16 + 1) ≤ output'.length) :
    ∃ k : UInt8, ∃ text : List UInt8,
      aes128EcbDecrypt (encrypted key msg room output) (encrypted key msg room output).length key
        output' = (some k, text) ∧ 1 ≤ k.toNat ∧ k.toNat ≤ 16 ∧
      text.take ((encrypted key msg room output).length - k.toNat) = msg := by
  have htext := take_aes128EcbDecrypt key hroom hout hout'
  have hlen := length_encrypted key hroom hout
  have hfit := BlockCipher.add_padLen (n := 16) (by omega) msg.length
  have hpos := BlockCipher.padLen_pos (n := 16) (by omega) msg.length
  have hle := BlockCipher.padLen_le 16 msg.length
  have hk : (padLen 16 msg.length).toUInt8.toNat = padLen 16 msg.length :=
    UInt8.toNat_ofNat_of_lt' (hle.trans_lt (by decide))
  generalize hdec : aes128EcbDecrypt (encrypted key msg room output)
    (encrypted key msg room output).length key output' = dec at htext
  refine ⟨(padLen 16 msg.length).toUInt8, dec.2, Prod.ext ?_ rfl, ?_, ?_, ?_⟩
  · have hlast := BlockCipher.getElem?_pad (n := 16) (by omega) msg
    rw [← htext, List.getElem?_take_of_lt (by omega), hfit, ← hlen] at hlast
    rw [← hlast, ← hdec]
    exact if_neg (by rw [hlen]; omega)
  · rw [hk]
    exact hpos
  · rw [hk]
    exact hle
  · have hmsg := BlockCipher.take_pad (n := 16) msg
    rw [← htext, List.take_take, Nat.min_eq_left (by omega)] at hmsg
    rw [hk, hlen, show 16 * (msg.length / 16 + 1) - padLen 16 msg.length = msg.length by omega]
    exact hmsg

end

end AppXd.Secrypto
