import Scaler.Collections.Base64
import Scaler.Ymq.WebSocketUpgrade

/-! `base64Encode` writes the base64 of RFC 4648. Its accumulator overflows from the fourth byte on, but a
letter is made of bits that were read last: after every third byte nothing of the old bits is used. -/

namespace Scaler.Ymq.WebSocket

open Collections

/-- The byte of an ASCII character, and back. -/
def byteOf (c : Char) : UInt8 := c.toNat.toUInt8

def charOf (b : UInt8) : Char := Char.ofNat b.toNat

section Letters

theorem alphabet_eq : alphabet = Base64.letters.map byteOf := rfl

theorem letter_eq (val : UInt32) {shift : Nat} (h : shift < 32) :
    letter val shift = byteOf (Base64.letter (val.toNat / 2 ^ shift % 64)) := by
  have hshift : (shift.toUInt32.toNat) % 32 = shift := by
    rw [Nat.toUInt32, UInt32.toNat_ofNat']
    omega
  have hbits : ((val >>> shift.toUInt32) &&& 0x3F).toNat = val.toNat / 2 ^ shift % 64 := by
    rw [UInt32.toNat_and, UInt32.toNat_shiftRight, hshift, Nat.shiftRight_eq_div_pow]
    exact Nat.and_two_pow_sub_one_eq_mod _ 6
  have hlt : val.toNat / 2 ^ shift % 64 < Base64.letters.length := Nat.mod_lt _ (by decide)
  rw [letter, hbits, alphabet_eq, Base64.letter, List.getD_eq_getElem?_getD, List.getD_eq_getElem?_getD,
    List.getElem?_map, List.getElem?_eq_getElem hlt]
  rfl

/-- The source shifts an `int`, with its sign; the six bits of a letter are below the copies of the sign. -/
theorem letter_sshiftRight (val : UInt32) {shift : Nat} (h : shift ≤ 26) :
    alphabet.getD (val.toBitVec.sshiftRight shift &&& 0x3F#32).toNat 0 = letter val shift := by
  have hmask : ∀ i : Fin 32, 6 ≤ i.val → (0x3F#32).getLsbD i = false := by decide
  have hbits : val.toBitVec.sshiftRight shift &&& 0x3F#32 = val.toBitVec >>> shift &&& 0x3F#32 := by
    refine BitVec.eq_of_getLsbD_eq fun i hi => ?_
    rw [BitVec.getLsbD_and, BitVec.getLsbD_and]
    by_cases hlow : i < 6
    · have hsum : shift + i < 32 := by omega
      rw [BitVec.getLsbD_sshiftRight, BitVec.getLsbD_ushiftRight, if_pos hsum]
      simp [show ¬ 32 ≤ i by omega]
    · rw [hmask ⟨i, hi⟩ (Nat.le_of_not_lt hlow), Bool.and_false, Bool.and_false]
  have hlogical : (val >>> shift.toUInt32).toBitVec = val.toBitVec >>> shift := by
    have hmod : shift % 4294967296 % 32 = shift := by omega
    apply BitVec.eq_of_toNat_eq
    simp [Nat.toUInt32, hmod]
  rw [letter, hbits, ← hlogical]
  rfl

/-- The accumulator after one byte more. -/
def shiftIn (val : UInt32) (c : UInt8) : UInt32 := (val <<< 8) ||| c.toUInt32

theorem toNat_shiftLeft_eight (val : UInt32) : (val <<< 8).toNat = val.toNat * 256 % 2 ^ 32 := by
  rw [UInt32.toNat_shiftLeft, Nat.shiftLeft_eq]
  rfl

theorem toNat_shiftIn (val : UInt32) (c : UInt8) : (shiftIn val c).toNat = val.toNat * 256 % 2 ^ 32 + c.toNat := by
  have hc := c.toNat_lt
  rw [shiftIn, UInt32.toNat_or, toNat_shiftLeft_eight, UInt8.toNat_toUInt32]
  have hmultiple : val.toNat * 256 % 2 ^ 32 = 2 ^ 8 * (val.toNat % 2 ^ 24) := by omega
  rw [hmultiple, ← Nat.two_pow_add_eq_or_of_lt hc]

end Letters

section Loop

variable (val : UInt32) (result : Bytes)

/-- After the first byte of three: one letter, and two bits are left. -/
theorem encodeByte_first (a : UInt8) :
    encodeByte (val, -6, result) a = (shiftIn val a, -4, result ++ [byteOf (Base64.letter (a.toNat / 4))]) := by
  have hletter : letter (shiftIn val a) 2 = byteOf (Base64.letter (a.toNat / 4)) := by
    rw [letter_eq _ (by decide), toNat_shiftIn]
    have ha := a.toNat_lt
    congr 2
    omega
  have hvalb : encodeByte (val, -6, result) a = (shiftIn val a, -4, result ++ [letter (shiftIn val a) 2]) := rfl
  rw [hvalb, hletter]

theorem encodeByte_second (a b : UInt8) :
    encodeByte (shiftIn val a, -4, result) b =
      (shiftIn (shiftIn val a) b, -2, result ++ [byteOf (Base64.letter (a.toNat % 4 * 16 + b.toNat / 16))]) := by
  have hletter : letter (shiftIn (shiftIn val a) b) 4 = byteOf (Base64.letter (a.toNat % 4 * 16 + b.toNat / 16)) := by
    rw [letter_eq _ (by decide), toNat_shiftIn, toNat_shiftIn]
    have ha := a.toNat_lt
    have hb := b.toNat_lt
    congr 2
    omega
  have hvalb : encodeByte (shiftIn val a, -4, result) b =
      (shiftIn (shiftIn val a) b, -2, result ++ [letter (shiftIn (shiftIn val a) b) 4]) := rfl
  rw [hvalb, hletter]

theorem encodeByte_third (b c : UInt8) :
    encodeByte (shiftIn val b, -2, result) c =
      (shiftIn (shiftIn val b) c, -6, result ++
        [byteOf (Base64.letter (b.toNat % 16 * 4 + c.toNat / 64)), byteOf (Base64.letter (c.toNat % 64))]) := by
  have hhigh : letter (shiftIn (shiftIn val b) c) 6 = byteOf (Base64.letter (b.toNat % 16 * 4 + c.toNat / 64)) := by
    rw [letter_eq _ (by decide), toNat_shiftIn, toNat_shiftIn]
    have hb := b.toNat_lt
    have hc := c.toNat_lt
    congr 2
    omega
  have hlow : letter (shiftIn (shiftIn val b) c) 0 = byteOf (Base64.letter (c.toNat % 64)) := by
    rw [letter_eq _ (by decide), toNat_shiftIn]
    have hc := c.toNat_lt
    congr 2
    omega
  have hvalb : encodeByte (shiftIn val b, -2, result) c =
      (shiftIn (shiftIn val b) c, -6,
        result ++ [letter (shiftIn (shiftIn val b) c) 6] ++ [letter (shiftIn (shiftIn val b) c) 0]) := rfl
  rw [hvalb, hhigh, hlow, List.append_assoc]
  rfl

/-- The part of `base64Encode` behind its loop. -/
def finishEncoding (s : UInt32 × Int × Bytes) : Bytes :=
  let result := if -6 < s.2.1 then s.2.2 ++ [letter (s.1 <<< 8) (s.2.1 + 8).toNat] else s.2.2
  result ++ List.replicate ((4 - result.length % 4) % 4) 61

theorem base64Encode_eq (data : Bytes) : base64Encode data = finishEncoding (data.foldl encodeByte (0, -6, [])) := rfl

theorem finishEncoding_foldl (data : Bytes) (hresult : result.length % 4 = 0) :
    finishEncoding (data.foldl encodeByte (val, -6, result)) = result ++ (Base64.b64encode data).map byteOf := by
  fun_induction Base64.b64encode data generalizing val result with
  | case1 =>
    simp [finishEncoding, hresult]
  | case2 a =>
    have hletter : letter (shiftIn val a <<< 8) 4 = byteOf (Base64.letter (a.toNat % 4 * 16)) := by
      rw [letter_eq _ (by decide), toNat_shiftLeft_eight, toNat_shiftIn]
      have ha := a.toNat_lt
      congr 2
      omega
    have hlength : (4 - (result.length + 1 + 1) % 4) % 4 = 2 := by omega
    rw [List.foldl_cons, List.foldl_nil, encodeByte_first]
    change result ++ [_] ++ [letter (shiftIn val a <<< 8) 4] ++ _ = _
    rw [hletter]
    simp [hlength]
    rfl
  | case3 a b =>
    have hletter : letter (shiftIn (shiftIn val a) b <<< 8) 6 = byteOf (Base64.letter (b.toNat % 16 * 4)) := by
      rw [letter_eq _ (by decide), toNat_shiftLeft_eight, toNat_shiftIn]
      have hb := b.toNat_lt
      congr 2
      omega
    have hlength : (4 - (result.length + 1 + 1 + 1) % 4) % 4 = 1 := by omega
    rw [List.foldl_cons, List.foldl_cons, List.foldl_nil, encodeByte_first, encodeByte_second]
    change result ++ [_] ++ [_] ++ [letter (shiftIn (shiftIn val a) b <<< 8) 6] ++ _ = _
    rw [hletter]
    simp [hlength]
    rfl
  | case4 a b c rest ih =>
    rw [List.foldl_cons, List.foldl_cons, List.foldl_cons, encodeByte_first, encodeByte_second, encodeByte_third, ih]
    · simp
    · simp
      omega

end Loop

section Standard

theorem charOf_byteOf {c : Char} (h : c = '=' ∨ c ∈ Base64.letters) : charOf (byteOf c) = c := by
  have hall : ('=' :: Base64.letters).all (fun d => charOf (byteOf d) = d) = true := by decide +kernel
  exact of_decide_eq_true (List.all_eq_true.mp hall c (List.mem_cons.mpr h))

theorem map_charOf_byteOf (data : Bytes) :
    ((Base64.b64encode data).map byteOf).map charOf = Base64.b64encode data := by
  have hkept := List.filter_eq_self.mp (Base64.filter_b64encode data)
  have hid : ∀ c ∈ Base64.b64encode data, (charOf ∘ byteOf) c = id c := by
    intro c hc
    have hletter := hkept c hc
    simp only [Bool.or_eq_true, decide_eq_true_eq] at hletter
    exact charOf_byteOf hletter
  rw [List.map_map, List.map_congr_left hid, List.map_id]

/-- The text, its length and what it decodes to, for every number of bytes. -/
theorem base64Encode_rfc4648 (data : Bytes) :
    base64Encode data = (Base64.b64encode data).map byteOf ∧
      (base64Encode data).length = 4 * ((data.length + 2) / 3) ∧
      Base64.decodeGroups ((base64Encode data).map charOf) = some data := by
  have hencoded : base64Encode data = (Base64.b64encode data).map byteOf := by
    rw [base64Encode_eq, finishEncoding_foldl 0 [] data rfl, List.nil_append]
  refine ⟨hencoded, ?_, ?_⟩
  · rw [hencoded, List.length_map]
    exact Base64.length_b64encode data
  · rw [hencoded, map_charOf_byteOf]
    exact Base64.decodeGroups_b64encode data

end Standard

end Scaler.Ymq.WebSocket
