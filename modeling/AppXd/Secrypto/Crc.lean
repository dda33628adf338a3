import AppXd.Lib.ReflectedCrc

/-!
# Checksums

The two CRC-32 of the firmware update and of the messages, which go byte by byte through a table,
and the check of a frame from the serial line, which goes bit by bit.
-/

namespace AppXd.Secrypto

open Crc (remainder shift bitsOf)

def table : List UInt32 := [
  0x00000000, 0x77073096, 0xee0e612c, 0x990951ba, 0x076dc419, 0x706af48f, 0xe963a535, 0x9e6495a3,
  0x0edb8832, 0x79dcb8a4, 0xe0d5e91e, 0x97d2d988, 0x09b64c2b, 0x7eb17cbd, 0xe7b82d07, 0x90bf1d91,
  0x1db71064, 0x6ab020f2, 0xf3b97148, 0x84be41de, 0x1adad47d, 0x6ddde4eb, 0xf4d4b551, 0x83d385c7,
  0x136c9856, 0x646ba8c0, 0xfd62f97a, 0x8a65c9ec, 0x14015c4f, 0x63066cd9, 0xfa0f3d63, 0x8d080df5,
  0x3b6e20c8, 0x4c69105e, 0xd56041e4, 0xa2677172, 0x3c03e4d1, 0x4b04d447, 0xd20d85fd, 0xa50ab56b,
  0x35b5a8fa, 0x42b2986c, 0xdbbbc9d6, 0xacbcf940, 0x32d86ce3, 0x45df5c75, 0xdcd60dcf, 0xabd13d59,
  0x26d930ac, 0x51de003a, 0xc8d75180, 0xbfd06116, 0x21b4f4b5, 0x56b3c423, 0xcfba9599, 0xb8bda50f,
  0x2802b89e, 0x5f058808, 0xc60cd9b2, 0xb10be924, 0x2f6f7c87, 0x58684c11, 0xc1611dab, 0xb6662d3d,
  0x76dc4190, 0x01db7106, 0x98d220bc, 0xefd5102a, 0x71b18589, 0x06b6b51f, 0x9fbfe4a5, 0xe8b8d433,
  0x7807c9a2, 0x0f00f934, 0x9609a88e, 0xe10e9818, 0x7f6a0dbb, 0x086d3d2d, 0x91646c97, 0xe6635c01,
  0x6b6b51f4, 0x1c6c6162, 0x856530d8, 0xf262004e, 0x6c0695ed, 0x1b01a57b, 0x8208f4c1, 0xf50fc457,
  0x65b0d9c6, 0x12b7e950, 0x8bbeb8ea, 0xfcb9887c, 0x62dd1ddf, 0x15da2d49, 0x8cd37cf3, 0xfbd44c65,
  0x4db26158, 0x3ab551ce, 0xa3bc0074, 0xd4bb30e2, 0x4adfa541, 0x3dd895d7, 0xa4d1c46d, 0xd3d6f4fb,
  0x4369e96a, 0x346ed9fc, 0xad678846, 0xda60b8d0, 0x44042d73, 0x33031de5, 0xaa0a4c5f, 0xdd0d7cc9,
  0x5005713c, 0x270241aa, 0xbe0b1010, 0xc90c2086, 0x5768b525, 0x206f85b3, 0xb966d409, 0xce61e49f,
  0x5edef90e, 0x29d9c998, 0xb0d09822, 0xc7d7a8b4, 0x59b33d17, 0x2eb40d81, 0xb7bd5c3b, 0xc0ba6cad,
  0xedb88320, 0x9abfb3b6, 0x03b6e20c, 0x74b1d29a, 0xead54739, 0x9dd277af, 0x04db2615, 0x73dc1683,
  0xe3630b12, 0x94643b84, 0x0d6d6a3e, 0x7a6a5aa8, 0xe40ecf0b, 0x9309ff9d, 0x0a00ae27, 0x7d079eb1,
  0xf00f9344, 0x8708a3d2, 0x1e01f268, 0x6906c2fe, 0xf762575d, 0x806567cb, 0x196c3671, 0x6e6b06e7,
  0xfed41b76, 0x89d32be0, 0x10da7a5a, 0x67dd4acc, 0xf9b9df6f, 0x8ebeeff9, 0x17b7be43, 0x60b08ed5,
  0xd6d6a3e8, 0xa1d1937e, 0x38d8c2c4, 0x4fdff252, 0xd1bb67f1, 0xa6bc5767, 0x3fb506dd, 0x48b2364b,
  0xd80d2bda, 0xaf0a1b4c, 0x36034af6, 0x41047a60, 0xdf60efc3, 0xa867df55, 0x316e8eef, 0x4669be79,
  0xcb61b38c, 0xbc66831a, 0x256fd2a0, 0x5268e236, 0xcc0c7795, 0xbb0b4703, 0x220216b9, 0x5505262f,
  0xc5ba3bbe, 0xb2bd0b28, 0x2bb45a92, 0x5cb36a04, 0xc2d7ffa7, 0xb5d0cf31, 0x2cd99e8b, 0x5bdeae1d,
  0x9b64c2b0, 0xec63f226, 0x756aa39c, 0x026d930a, 0x9c0906a9, 0xeb0e363f, 0x72076785, 0x05005713,
  0x95bf4a82, 0xe2b87a14, 0x7bb12bae, 0x0cb61b38, 0x92d28e9b, 0xe5d5be0d, 0x7cdcefb7, 0x0bdbdf21,
  0x86d3d2d4, 0xf1d4e242, 0x68ddb3f8, 0x1fda836e, 0x81be16cd, 0xf6b9265b, 0x6fb077e1, 0x18b74777,
  0x88085ae6, 0xff0f6a70, 0x66063bca, 0x11010b5c, 0x8f659eff, 0xf862ae69, 0x616bffd3, 0x166ccf45,
  0xa00ae278, 0xd70dd2ee, 0x4e048354, 0x3903b3c2, 0xa7672661, 0xd06016f7, 0x4969474d, 0x3e6e77db,
  0xaed16a4a, 0xd9d65adc, 0x40df0b66, 0x37d83bf0, 0xa9bcae53, 0xdebb9ec5, 0x47b2cf7f, 0x30b5ffe9,
  0xbdbdf21c, 0xcabac28a, 0x53b39330, 0x24b4a3a6, 0xbad03605, 0xcdd70693, 0x54de5729, 0x23d967bf,
  0xb3667a2e, 0xc4614ab8, 0x5d681b02, 0x2a6f2b94, 0xb40bbe37, 0xc30c8ea1, 0x5a05df1b, 0x2d02ef8d]

/-- A `char`, signed or not, in `crc ^ buff[i]`. -/
def charOperand (signed : Bool) (b : UInt8) : UInt32 :=
  if signed then b.toInt8.toInt32.toUInt32 else b.toUInt32

/-- `crc32` of the `len` bytes of `buff`. -/
def crc32 (signed : Bool) (buff : List UInt8) (crc : UInt32) : UInt32 :=
  ~~~buff.foldl (fun crc b =>
    crc >>> 8 ^^^ table.getD ((crc ^^^ charOperand signed b) &&& 0xff).toNat 0) (~~~crc)

/-- `crc32_com` of the `size` bytes of `buff`. -/
def crc32Com (buff : List UInt8) : UInt32 :=
  buff.foldl (fun (crc : UInt32) b =>
    table.getD ((crc ^^^ b.toUInt32) &&& 0xff).toNat 0 ^^^ crc >>> 8) 0xFFFFFFFF ^^^ 0xFFFFFFFF

/-- A frame from the serial line: the last two bytes are its check value. -/
structure Frame where
  data : List UInt8
  two_le : 2 ≤ data.length
  lt : data.length < 65536

/-- The bytes that the loop goes through. -/
def Frame.payload (f : Frame) : List UInt8 := f.data.take (f.data.length - 2)

def Frame.crcData (f : Frame) : UInt16 :=
  (f.data.getD (f.data.length - 2) 0).toUInt16 <<< 8 |||
    (f.data.getD (f.data.length - 1) 0).toUInt16

/-- The body of the loop over the bits. -/
def crcCalBit (crcCal : UInt16) : UInt16 :=
  if crcCal &&& 0x01 ≠ 0 then crcCal >>> 1 ^^^ 0xA001 else crcCal >>> 1

/-- `CRC16_Modbus_check`. -/
def crc16ModbusCheck (f : Frame) (flag : UInt8) : UInt16 :=
  let crcCal := f.payload.foldl (fun crcCal b => crcCalBit^[8] (crcCal ^^^ b.toUInt16)) 0xFFFF
  if flag = 0 then
    if crcCal ≠ f.crcData then 0 else if crcCal = f.crcData ∧ crcCal = 0 then 1 else crcCal
  else crcCal

/-! ## The bitwise checks -/

/-- The bits of a text, the lowest of each byte first. -/
def bits (bytes : List UInt8) : List Bool := bytes.flatMap fun b => bitsOf b.toBitVec

/-- The reflected CRC-32 with the polynomial 0xEDB88320. -/
def crc32Bitwise (bytes : List UInt8) : BitVec 32 :=
  remainder 0xEDB88320#32 0xFFFFFFFF#32 (bits bytes) ^^^ 0xFFFFFFFF#32

/-! ## The table -/

/-- Each entry is the register behind the eight bits of its number. -/
theorem table_eq : ∀ i < 256,
    (table.getD i 0).toBitVec = (shift 0xEDB88320#32)^[8] (BitVec.ofNat 32 i) := by
  decide +kernel

section
variable (crc : UInt32) (b : UInt8)

theorem and_255_eq (x : BitVec 32) : x &&& 0xFF#32 = x ^^^ x >>> 8 <<< 8 := by
  refine BitVec.eq_of_getLsbD_eq fun i hi => ?_
  have hmask : ∀ i < 32, (0xFF#32).getLsbD i = decide (i < 8) := by decide
  rw [BitVec.getLsbD_and, hmask i hi, BitVec.getLsbD_xor, BitVec.getLsbD_shiftLeft,
    BitVec.getLsbD_ushiftRight]
  rcases Nat.lt_or_ge i 8 with hlt | hge
  · simp [hlt]
  · simp [hi, Nat.not_lt.2 hge, Nat.add_sub_cancel' hge]

/-- Only the byte of a `char` matters. -/
theorem charOperand_and (signed : Bool) :
    (crc ^^^ charOperand signed b) &&& 0xff = (crc ^^^ b.toUInt32) &&& 0xff := by
  cases signed with
  | false => rfl
  | true =>
    have hsigned : (charOperand true b).toBitVec = b.toBitVec.signExtend 32 := rfl
    refine UInt32.toBitVec_inj.1 (BitVec.eq_of_getLsbD_eq fun i hi => ?_)
    have hmask : ∀ i < 32, (UInt32.toBitVec 0xff).getLsbD i = decide (i < 8) := by decide
    rw [UInt32.toBitVec_and, UInt32.toBitVec_and, BitVec.getLsbD_and, BitVec.getLsbD_and,
      hmask i hi, UInt32.toBitVec_xor, UInt32.toBitVec_xor, BitVec.getLsbD_xor, BitVec.getLsbD_xor,
      hsigned, UInt8.toBitVec_toUInt32, BitVec.getLsbD_signExtend, BitVec.getLsbD_setWidth]
    -- above the byte the mask is clear
    rcases Nat.lt_or_ge i 8 with hlt | hge
    · rw [if_pos hlt]
    · rw [decide_eq_false (Nat.not_lt.2 hge), Bool.and_false, Bool.and_false]

/-- A step through the table takes in the eight bits of a byte. -/
theorem table_step : (table.getD ((crc ^^^ b.toUInt32) &&& 0xff).toNat 0 ^^^ crc >>> 8).toBitVec =
    remainder 0xEDB88320#32 crc.toBitVec (bitsOf b.toBitVec) := by
  have hmask : ((crc ^^^ b.toUInt32) &&& 0xff).toBitVec =
      (crc ^^^ b.toUInt32).toBitVec ^^^ (crc ^^^ b.toUInt32).toBitVec >>> 8 <<< 8 := by
    rw [UInt32.toBitVec_and]
    exact and_255_eq _
  have hlt : ((crc ^^^ b.toUInt32) &&& 0xff).toNat < 256 := by
    rw [UInt32.toNat_and]
    exact Nat.lt_succ_of_le Nat.and_le_right
  have hnum : BitVec.ofNat 32 ((crc ^^^ b.toUInt32) &&& 0xff).toNat =
      ((crc ^^^ b.toUInt32) &&& 0xff).toBitVec := BitVec.ofNat_toNat ..
  have hhigh : (crc ^^^ b.toUInt32).toBitVec >>> 8 = (crc >>> 8).toBitVec := by
    have hbyte : b.toUInt32.toBitVec >>> 8 = 0#32 := by
      refine BitVec.eq_of_getLsbD_eq fun i _ => ?_
      rw [BitVec.getLsbD_ushiftRight, UInt8.toBitVec_toUInt32, BitVec.getLsbD_setWidth,
        BitVec.getLsbD_of_ge b.toBitVec _ (Nat.le_add_right 8 i), Bool.and_false]
      exact BitVec.getLsbD_zero.symm
    rw [UInt32.toBitVec_xor, BitVec.ushiftRight_xor_distrib, hbyte, BitVec.xor_zero]
    rfl
  calc (table.getD ((crc ^^^ b.toUInt32) &&& 0xff).toNat 0 ^^^ crc >>> 8).toBitVec
      = (shift 0xEDB88320#32)^[8] ((crc ^^^ b.toUInt32) &&& 0xff).toBitVec ^^^
          (crc ^^^ b.toUInt32).toBitVec >>> 8 := by
        rw [UInt32.toBitVec_xor, table_eq _ hlt, hnum, hhigh]
    _ = (shift 0xEDB88320#32)^[8] (crc ^^^ b.toUInt32).toBitVec := by
        rw [hmask, ← Crc.shift_iterate_split]
    _ = remainder 0xEDB88320#32 crc.toBitVec (bitsOf b.toBitVec) := by
        rw [Crc.remainder_bitsOf (by decide), ← UInt8.toBitVec_toUInt32, UInt32.toBitVec_xor]

end

section
variable (buff : List UInt8)

theorem bits_cons (b : UInt8) : bits (b :: buff) = bitsOf b.toBitVec ++ bits buff :=
  List.flatMap_cons

theorem bits_append (buff' : List UInt8) : bits (buff ++ buff') = bits buff ++ bits buff' :=
  List.flatMap_append

/-- The loop of both checks. -/
theorem table_foldl (crc : UInt32) : (buff.foldl (fun (crc : UInt32) b =>
      table.getD ((crc ^^^ b.toUInt32) &&& 0xff).toNat 0 ^^^ crc >>> 8) crc).toBitVec =
    remainder 0xEDB88320#32 crc.toBitVec (bits buff) := by
  induction buff generalizing crc with
  | nil => rfl
  | cons b buff ih => rw [List.foldl_cons, ih, table_step, bits_cons, Crc.remainder_append]

theorem crc32Com_eq : (crc32Com buff).toBitVec = crc32Bitwise buff := by
  unfold crc32Com crc32Bitwise
  rw [UInt32.toBitVec_xor, table_foldl]
  rfl

theorem crc32_eq (signed : Bool) (crc : UInt32) : (crc32 signed buff crc).toBitVec =
    ~~~remainder 0xEDB88320#32 (~~~crc).toBitVec (bits buff) := by
  unfold crc32
  simp only [charOperand_and]
  rw [UInt32.toBitVec_not, ← table_foldl]
  simp only [UInt32.xor_comm]

end

/-- The chunks' checks, each from the one before. -/
def crc32Chunks (signed : Bool) (chunks : List (List UInt8)) : UInt32 :=
  chunks.foldl (fun crc buff => crc32 signed buff crc) 0

theorem crc32_foldl (signed : Bool) (chunks : List (List UInt8)) (crc : UInt32) :
    (chunks.foldl (fun crc buff => crc32 signed buff crc) crc).toBitVec =
      ~~~remainder 0xEDB88320#32 (~~~crc).toBitVec (bits chunks.flatten) := by
  induction chunks generalizing crc with
  | nil => exact (BitVec.not_not).symm
  | cons buff chunks ih =>
    rw [List.foldl_cons, ih, UInt32.toBitVec_not, crc32_eq, BitVec.not_not, List.flatten_cons,
      bits_append, Crc.remainder_append]

theorem crc32Chunks_eq (signed : Bool) (chunks : List (List UInt8)) :
    (crc32Chunks signed chunks).toBitVec = crc32Bitwise chunks.flatten := by
  unfold crc32Chunks crc32Bitwise
  rw [crc32_foldl]
  exact BitVec.xor_allOnes.symm

/-- The chunks' checks agree with the check of the whole buffer, and both with the bitwise one. -/
theorem crc32Chunks_eq_crc32Com (signed : Bool) (chunks : List (List UInt8)) :
    crc32Chunks signed chunks = crc32Com chunks.flatten ∧
      (crc32Com chunks.flatten).toBitVec = crc32Bitwise chunks.flatten := by
  refine ⟨UInt32.toBitVec_inj.1 ?_, crc32Com_eq _⟩
  rw [crc32Chunks_eq, crc32Com_eq]

/-! ## The check of a frame -/

theorem crcCalBit_toBitVec (crcCal : UInt16) :
    (crcCalBit crcCal).toBitVec = shift 0xA001#16 crcCal.toBitVec := by
  have hlow : crcCal &&& 0x01 ≠ 0 ↔ crcCal.toBitVec.getLsbD 0 = true := by
    have hbit : (crcCal &&& 0x01).toBitVec =
        BitVec.setWidth 16 (BitVec.ofBool (crcCal.toBitVec.getLsbD 0)) :=
      BitVec.and_one_eq_setWidth_ofBool_getLsbD
    rw [ne_eq, ← UInt16.toBitVec_inj, hbit]
    cases crcCal.toBitVec.getLsbD 0 <;> decide
  unfold crcCalBit shift
  rw [if_congr hlow rfl rfl, apply_ite UInt16.toBitVec]
  rfl

section
variable {f f' : Frame}

theorem crc16ModbusCheck_one (f : Frame) :
    (crc16ModbusCheck f 1).toBitVec = remainder 0xA001#16 0xFFFF#16 (bits f.payload) := by
  have hbyte : ∀ crcCal : UInt16, (crcCalBit^[8] crcCal).toBitVec =
      (shift 0xA001#16)^[8] crcCal.toBitVec :=
    Function.Semiconj.iterate_right (f := UInt16.toBitVec) crcCalBit_toBitVec 8
  have hfold : ∀ (bytes : List UInt8) (crcCal : UInt16),
      (bytes.foldl (fun crcCal b => crcCalBit^[8] (crcCal ^^^ b.toUInt16)) crcCal).toBitVec =
        remainder 0xA001#16 crcCal.toBitVec (bits bytes) := by
    intro bytes
    induction bytes with
    | nil => exact fun _ => rfl
    | cons b bytes ih =>
      intro crcCal
      rw [List.foldl_cons, ih, bits_cons, Crc.remainder_append, hbyte,
        Crc.remainder_bitsOf (by decide), UInt16.toBitVec_xor, UInt8.toBitVec_toUInt16]
  exact hfold f.payload 0xFFFF

/-- A frame with the right check value passes, also where that value is 0. -/
theorem crc16ModbusCheck_zero (f : Frame) : crc16ModbusCheck f 0 =
    if f.crcData = crc16ModbusCheck f 1 then
      if crc16ModbusCheck f 1 = 0 then 1 else crc16ModbusCheck f 1
    else 0 := by
  unfold crc16ModbusCheck
  simp only [if_true, if_neg (show ¬ (1 : UInt8) = 0 by decide)]
  generalize List.foldl _ _ f.payload = crcCal
  by_cases hdata : f.crcData = crcCal
  · rw [if_neg (not_not.2 hdata.symm), if_pos hdata]
    simp only [hdata, true_and]
  · rw [if_pos (Ne.symm hdata), if_neg hdata]

theorem crc16ModbusCheck_zero_ne : crc16ModbusCheck f 0 ≠ 0 ↔ f.crcData = crc16ModbusCheck f 1 := by
  rw [crc16ModbusCheck_zero]
  split
  · refine iff_of_true ?_ ‹_›
    split
    · decide
    · assumption
  · exact iff_of_false (fun h => h rfl) ‹_›

/-- The check value is in the last two bytes. -/
theorem crcData_eq (h : f'.data.drop (f'.data.length - 2) = f.data.drop (f.data.length - 2)) :
    f'.crcData = f.crcData := by
  have hlast : ∀ f : Frame, f.crcData =
      ((f.data.drop (f.data.length - 2)).getD 0 0).toUInt16 <<< 8 |||
        ((f.data.drop (f.data.length - 2)).getD 1 0).toUInt16 := by
    intro f
    have hone : f.data.length - 2 + 1 = f.data.length - 1 := by
      have := f.two_le
      omega
    simp only [Frame.crcData, List.getD_eq_getElem?_getD, List.getElem?_drop, Nat.add_zero, hone]
  rw [hlast, hlast, h]

end

/-- A frame passes exactly when its last two bytes are its check value, and it does not pass after a
burst of at most sixteen bits in its payload. -/
theorem crc16ModbusCheck_detects (f : Frame) :
    (crc16ModbusCheck f 0 ≠ 0 ↔ f.crcData = crc16ModbusCheck f 1) ∧
      ∀ f' : Frame, crc16ModbusCheck f 0 ≠ 0 →
        f'.data.drop (f'.data.length - 2) = f.data.drop (f.data.length - 2) →
        Crc.Burst 16 (bits f.payload) (bits f'.payload) → crc16ModbusCheck f' 0 = 0 := by
  refine ⟨crc16ModbusCheck_zero_ne, fun f' haccepted hend hburst => ?_⟩
  by_contra hne
  rw [← ne_eq, crc16ModbusCheck_zero_ne, crcData_eq hend] at hne
  rw [crc16ModbusCheck_zero_ne] at haccepted
  have hsame := congrArg UInt16.toBitVec (hne.symm.trans haccepted)
  rw [crc16ModbusCheck_one, crc16ModbusCheck_one] at hsame
  exact hburst.remainder_ne (by decide) hsame

theorem two_le_framed (b : UInt8) : 2 ≤ [b, 0x80, 0x7E].length := Nat.le_succ 2

/-- A frame with one byte in front of the check value of the byte 1. -/
def byteFrame (b : UInt8) : Frame where
  data := [b, 0x80, 0x7E]
  two_le := two_le_framed b
  lt := show 3 < 65536 by decide

/-- The byte 2 instead of 1. -/
theorem crc16ModbusCheck_detects_byteFrame : crc16ModbusCheck (byteFrame 1) 0 ≠ 0 ∧
    crc16ModbusCheck (byteFrame 2) 0 = 0 := by
  have haccepted : crc16ModbusCheck (byteFrame 1) 0 ≠ 0 := by decide
  have hburst : Crc.Burst 16 (bits (byteFrame 1).payload) (bits (byteFrame 2).payload) := by
    refine ⟨rfl, by decide, 0, fun j hne => ⟨Nat.zero_le j, ?_⟩⟩
    by_contra hj
    rw [List.getElem?_eq_none (show 8 ≤ j by omega),
      List.getElem?_eq_none (show 8 ≤ j by omega)] at hne
    exact hne rfl
  exact ⟨haccepted,
    (crc16ModbusCheck_detects (byteFrame 1)).2 (byteFrame 2) haccepted rfl hburst⟩

end AppXd.Secrypto
