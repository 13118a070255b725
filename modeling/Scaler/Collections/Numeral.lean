import Mathlib.Algebra.Ring.Int.Defs
import Mathlib.Algebra.Ring.Nat
import Mathlib.Data.List.TakeWhile

/-! Texts with decimal numbers in them: the last separator of a text, and the number that the
conversions of the C library find at its front. -/

namespace Collections

section Split

variable {α : Type} [DecidableEq α]

/-- What stands before and behind the last `c`. -/
def splitLast (c : α) : List α → Option (List α × List α)
  | [] => none
  | x :: xs =>
    match splitLast c xs with
    | some (before, behind) => some (x :: before, behind)
    | none => if x = c then some ([], xs) else none

variable {c : α} {xs before behind : List α}

theorem splitLast_eq_none_iff : splitLast c xs = none ↔ c ∉ xs := by
  induction xs with
  | nil => simp [splitLast]
  | cons x xs ih =>
    unfold splitLast
    cases hrest : splitLast c xs with
    | some found =>
      have hmem : c ∈ xs := by
        by_contra hno
        rw [ih.mpr hno] at hrest
        cases hrest
      simp [hmem]
    | none =>
      have hno := ih.mp hrest
      by_cases hx : x = c
      · simp [hx]
      · simp [hx, hno, Ne.symm hx]

theorem splitLast_append (hno : c ∉ behind) : splitLast c (before ++ c :: behind) = some (before, behind) := by
  induction before with
  | nil => simp [splitLast, splitLast_eq_none_iff.mpr hno]
  | cons x before ih => simp [splitLast, ih]

theorem eq_append_of_splitLast (h : splitLast c xs = some (before, behind)) : xs = before ++ c :: behind ∧ c ∉ behind := by
  induction xs generalizing before with
  | nil => cases h
  | cons x xs ih =>
    unfold splitLast at h
    cases hrest : splitLast c xs with
    | some found =>
      obtain ⟨front, back⟩ := found
      rw [hrest] at h
      obtain ⟨rfl, rfl⟩ := Prod.mk.inj (Option.some.inj h)
      obtain ⟨rfl, hno⟩ := ih hrest
      exact ⟨rfl, hno⟩
    | none =>
      rw [hrest] at h
      dsimp only at h
      split at h
      · next hx =>
        obtain ⟨rfl, rfl⟩ := Prod.mk.inj (Option.some.inj h)
        exact ⟨by rw [hx, List.nil_append], splitLast_eq_none_iff.mp hrest⟩
      · cases h

end Split

/-- The white space of the C locale. -/
def isSpace (c : Char) : Bool := c = ' ' ∨ c = '\t' ∨ c = '\n' ∨ c = '\x0b' ∨ c = '\x0c' ∨ c = '\r'

/-- The sign of a number and what follows it. -/
def splitSign : List Char → Bool × List Char
  | '-' :: text => (true, text)
  | '+' :: text => (false, text)
  | text => (false, text)

/-- `std::stoi`: white space, a sign and digits in front of anything. It throws when there is no
digit or the number is no `int`. -/
def stoi (text : List Char) : Option Int :=
  let signed := splitSign (text.dropWhile isSpace)
  let digits := signed.2.takeWhile Char.isDigit
  let n : Int := if signed.1 then -(Nat.ofDigitChars 10 digits 0 : Int) else Nat.ofDigitChars 10 digits 0
  if digits = [] then none else if -2 ^ 31 ≤ n ∧ n < 2 ^ 31 then some n else none

/-- A number with nothing around it. -/
def IsNumeral (text : List Char) : Prop := text ≠ [] ∧ ∀ c ∈ text, c.isDigit = true

instance (text : List Char) : Decidable (IsNumeral text) :=
  decidable_of_iff (text ≠ [] ∧ text.all Char.isDigit = true) (and_congr_right fun _ => List.all_eq_true)

def numeralValue (text : List Char) : Nat := Nat.ofDigitChars 10 text 0

theorem isNumeral_toDigits (n : Nat) : IsNumeral (Nat.toDigits 10 n) :=
  ⟨Nat.toDigits_ne_nil, fun _ hc => Nat.isDigit_of_mem_toDigits (by decide) (by decide) hc⟩

theorem splitSign_of_isNumeral {text : List Char} (h : IsNumeral text) : splitSign text = (false, text) := by
  cases text with
  | nil => rfl
  | cons c text =>
    have hc := h.2 c List.mem_cons_self
    unfold splitSign
    split
    · next heq => exact absurd hc (by rw [(List.cons.inj heq).1]; decide)
    · next heq => exact absurd hc (by rw [(List.cons.inj heq).1]; decide)
    · rfl

theorem stoi_of_isNumeral {text : List Char} (h : IsNumeral text) (hint : numeralValue text < 2 ^ 31) :
    stoi text = some (numeralValue text : Int) := by
  have hsign := splitSign_of_isNumeral h
  obtain ⟨hne, hdigits⟩ := h
  have hspace : text.dropWhile isSpace = text := by
    cases text with
    | nil => rfl
    | cons c text =>
      have hc := hdigits c List.mem_cons_self
      have hno : isSpace c = false := by
        by_contra hyes
        simp only [isSpace, Bool.not_eq_false, decide_eq_true_eq] at hyes
        rcases hyes with rfl | rfl | rfl | rfl | rfl | rfl <;> exact absurd hc (by decide)
      rw [List.dropWhile_cons_of_neg (by rw [hno]; decide)]
  have htake : text.takeWhile Char.isDigit = text := List.takeWhile_eq_self_iff.mpr hdigits
  have hfits : -2 ^ 31 ≤ (Nat.ofDigitChars 10 text 0 : Int) ∧ (Nat.ofDigitChars 10 text 0 : Int) < 2 ^ 31 := by
    unfold numeralValue at hint
    omega
  simp only [stoi, hspace, hsign, htake, if_neg hne, Bool.false_eq_true, if_false, if_pos hfits, numeralValue]

end Collections
