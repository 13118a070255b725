import Mathlib.Data.List.Basic

/-! The base64 of the standard library: four letters for three bytes, the last of them filled up
with padding. -/

namespace Collections

namespace Base64

def letters : List Char := "ABCDEFGHIJKLMNOPQRSTUVWXYZabcdefghijklmnopqrstuvwxyz0123456789+/".toList

def letter (n : Nat) : Char := letters.getD n '='

def value (c : Char) : Option Nat := letters.idxOf? c

def b64encode : List UInt8 → List Char
  | [] => []
  | [a] => [letter (a.toNat / 4), letter (a.toNat % 4 * 16), '=', '=']
  | [a, b] =>
    [letter (a.toNat / 4), letter (a.toNat % 4 * 16 + b.toNat / 16), letter (b.toNat % 16 * 4), '=']
  | a :: b :: c :: rest =>
    letter (a.toNat / 4) :: letter (a.toNat % 4 * 16 + b.toNat / 16) ::
      letter (b.toNat % 16 * 4 + c.toNat / 64) :: letter (c.toNat % 64) :: b64encode rest

/-- The letters must come in groups of four; only the last group may be padded. -/
def decodeGroups : List Char → Option (List UInt8)
  | [] => some []
  | w :: x :: y :: z :: rest =>
    if z = '=' then
      if rest ≠ [] then none
      else if y = '=' then do
        let w ← value w
        let x ← value x
        some [UInt8.ofNat (w * 4 + x / 16)]
      else do
        let w ← value w
        let x ← value x
        let y ← value y
        some [UInt8.ofNat (w * 4 + x / 16), UInt8.ofNat (x % 16 * 16 + y / 4)]
    else do
      let w ← value w
      let x ← value x
      let y ← value y
      let z ← value z
      let bytes ← decodeGroups rest
      some (UInt8.ofNat (w * 4 + x / 16) :: UInt8.ofNat (x % 16 * 16 + y / 4) ::
        UInt8.ofNat (y % 4 * 64 + z) :: bytes)
  | _ => none

/-- Other characters are discarded first. -/
def b64decode (text : List Char) : Option (List UInt8) :=
  decodeGroups (text.filter fun c => c = '=' || c ∈ letters)

theorem value_letter {n : Nat} (h : n < 64) : value (letter n) = some n := by
  have hall : ∀ k : Fin 64, value (letter k) = some k.val := by decide +kernel
  exact hall ⟨n, h⟩

theorem letter_ne_pad {n : Nat} (h : n < 64) : letter n ≠ '=' := by
  have hall : ∀ k : Fin 64, letter k ≠ '=' := by decide +kernel
  exact hall ⟨n, h⟩

theorem letter_kept (n : Nat) : letter n = '=' ∨ letter n ∈ letters := by
  rw [letter, List.getD_eq_getElem?_getD]
  cases h : letters[n]? with
  | none => exact .inl rfl
  | some c => exact .inr (List.mem_of_getElem? h)

theorem filter_b64encode (bytes : List UInt8) :
    (b64encode bytes).filter (fun c => c = '=' || c ∈ letters) = b64encode bytes := by
  refine List.filter_eq_self.mpr ?_
  fun_induction b64encode bytes with
  | case1 => simp
  | case2 a => simpa using ⟨letter_kept _, letter_kept _⟩
  | case3 a b => simpa using ⟨letter_kept _, letter_kept _, letter_kept _⟩
  | case4 a b c rest ih =>
    intro d hd
    simp only [List.mem_cons] at hd
    rcases hd with rfl | rfl | rfl | rfl | hd
    · simpa using letter_kept _
    · simpa using letter_kept _
    · simpa using letter_kept _
    · simpa using letter_kept _
    · exact ih d hd

theorem length_b64encode (bytes : List UInt8) : (b64encode bytes).length = 4 * ((bytes.length + 2) / 3) := by
  fun_induction b64encode bytes with
  | case1 => rfl
  | case2 a => simp
  | case3 a b => simp
  | case4 a b c rest ih =>
    simp only [List.length_cons, ih]
    omega

/-- Three bytes from the four letters made of them. -/
theorem ofNat_groups (a b c : UInt8) :
    UInt8.ofNat (a.toNat / 4 * 4 + (a.toNat % 4 * 16 + b.toNat / 16) / 16) = a ∧
      UInt8.ofNat ((a.toNat % 4 * 16 + b.toNat / 16) % 16 * 16 + (b.toNat % 16 * 4 + c.toNat / 64) / 4) = b ∧
      UInt8.ofNat ((b.toNat % 16 * 4 + c.toNat / 64) % 4 * 64 + c.toNat % 64) = c := by
  have ha := a.toNat_lt
  have hb := b.toNat_lt
  have hc := c.toNat_lt
  refine ⟨?_, ?_, ?_⟩
  · rw [show a.toNat / 4 * 4 + (a.toNat % 4 * 16 + b.toNat / 16) / 16 = a.toNat by omega]
    exact UInt8.ofNat_toNat
  · rw [show (a.toNat % 4 * 16 + b.toNat / 16) % 16 * 16 + (b.toNat % 16 * 4 + c.toNat / 64) / 4 = b.toNat by omega]
    exact UInt8.ofNat_toNat
  · rw [show (b.toNat % 16 * 4 + c.toNat / 64) % 4 * 64 + c.toNat % 64 = c.toNat by omega]
    exact UInt8.ofNat_toNat

theorem decodeGroups_b64encode (bytes : List UInt8) : decodeGroups (b64encode bytes) = some bytes := by
  fun_induction b64encode bytes with
  | case1 => rfl
  | case2 a =>
    have ha := a.toNat_lt
    obtain ⟨hfirst, -, -⟩ := ofNat_groups a 0 0
    simp only [decodeGroups, if_true, ne_eq, not_true, if_false, value_letter (show a.toNat / 4 < 64 by omega),
      value_letter (show a.toNat % 4 * 16 < 64 by omega), Option.bind_eq_bind, Option.bind_some]
    simpa using hfirst
  | case3 a b =>
    have ha := a.toNat_lt
    have hb := b.toNat_lt
    obtain ⟨hfirst, hsecond, -⟩ := ofNat_groups a b 0
    have hpad : letter (b.toNat % 16 * 4) ≠ '=' := letter_ne_pad (by omega)
    simp only [decodeGroups, if_true, ne_eq, not_true, if_false, hpad,
      value_letter (show a.toNat / 4 < 64 by omega),
      value_letter (show a.toNat % 4 * 16 + b.toNat / 16 < 64 by omega),
      value_letter (show b.toNat % 16 * 4 < 64 by omega), Option.bind_eq_bind, Option.bind_some]
    have hlast : UInt8.ofNat ((a.toNat % 4 * 16 + b.toNat / 16) % 16 * 16 + b.toNat % 16 * 4 / 4) = b := hsecond
    rw [hfirst, hlast]
  | case4 a b c rest ih =>
    have ha := a.toNat_lt
    have hb := b.toNat_lt
    have hc := c.toNat_lt
    obtain ⟨hfirst, hsecond, hthird⟩ := ofNat_groups a b c
    have hpad : letter (c.toNat % 64) ≠ '=' := letter_ne_pad (by omega)
    simp only [decodeGroups, hpad, if_false, value_letter (show a.toNat / 4 < 64 by omega),
      value_letter (show a.toNat % 4 * 16 + b.toNat / 16 < 64 by omega),
      value_letter (show b.toNat % 16 * 4 + c.toNat / 64 < 64 by omega),
      value_letter (show c.toNat % 64 < 64 by omega), ih, Option.bind_eq_bind, Option.bind_some]
    rw [hfirst, hsecond, hthird]

@[simp] theorem b64decode_b64encode (bytes : List UInt8) : b64decode (b64encode bytes) = some bytes := by
  rw [b64decode, filter_b64encode, decodeGroups_b64encode]

end Base64

end Collections
