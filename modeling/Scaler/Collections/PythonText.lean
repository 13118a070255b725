import Mathlib.Algebra.Ring.Nat
import Mathlib.Data.List.DropRight
import Scaler.Collections.Numeral

/-! The methods of Python's `str` that take texts apart, and the conversions between texts and numbers. -/

namespace Collections.PythonText

/-- `str.isspace` of one character. -/
def isspace (c : Char) : Bool :=
  (9 ≤ c.toNat && c.toNat ≤ 13) || (28 ≤ c.toNat && c.toNat ≤ 32) || c.toNat == 0x85 || c.toNat == 0xa0 ||
    c.toNat == 0x1680 || (0x2000 ≤ c.toNat && c.toNat ≤ 0x200a) || c.toNat == 0x2028 || c.toNat == 0x2029 ||
    c.toNat == 0x202f || c.toNat == 0x205f || c.toNat == 0x3000

def strip (text : List Char) : List Char := (text.dropWhile isspace).rdropWhile isspace

/-- The zeros of the scripts that write decimal numbers, each of them followed by its nine other digits. -/
def zeros : List Nat :=
  [0x30, 0x660, 0x6f0, 0x7c0, 0x966, 0x9e6, 0xa66, 0xae6, 0xb66, 0xbe6, 0xc66, 0xce6, 0xd66, 0xde6, 0xe50, 0xed0, 0xf20,
    0x1040, 0x1090, 0x17e0, 0x1810, 0x1946, 0x19d0, 0x1a80, 0x1a90, 0x1b50, 0x1bb0, 0x1c40, 0x1c50, 0xa620, 0xa8d0, 0xa900,
    0xa9d0, 0xa9f0, 0xaa50, 0xabf0, 0xff10, 0x104a0, 0x10d30, 0x11066, 0x110f0, 0x11136, 0x111d0, 0x112f0, 0x11450, 0x114d0,
    0x11650, 0x116c0, 0x11730, 0x118e0, 0x11950, 0x11c50, 0x11d50, 0x11da0, 0x16a60, 0x16ac0, 0x16b50, 0x1d7ce, 0x1d7d8,
    0x1d7e2, 0x1d7ec, 0x1d7f6, 0x1e140, 0x1e2f0, 0x1e950, 0x1fbf0]

def decimal (c : Char) : Option Nat :=
  zeros.findSome? fun first => if first ≤ c.toNat ∧ c.toNat < first + 10 then some (c.toNat - first) else none

/-- The digits that follow a digit; one underscore may stand between two of them. -/
def moreDigits (n : Nat) : List Char → Option Nat
  | [] => some n
  | '_' :: c :: text =>
    match decimal c with
    | some digit => moreDigits (n * 10 + digit) text
    | none => none
  | c :: text =>
    match decimal c with
    | some digit => moreDigits (n * 10 + digit) text
    | none => none

def digits : List Char → Option Nat
  | [] => none
  | c :: text =>
    match decimal c with
    | some digit => moreDigits digit text
    | none => none

/-- `int(text)`. -/
def int (text : List Char) : Option Int :=
  let signed := splitSign (strip text)
  (digits signed.2).map fun n => if signed.1 then -(n : Int) else n

/-- `str` of an `int`. -/
def str (n : Int) : List Char := if n < 0 then '-' :: Nat.toDigits 10 n.natAbs else Nat.toDigits 10 n.natAbs

/-- The code of a character in hexadecimal, with leading zeros. -/
def hex (width : Nat) (c : Char) : List Char :=
  let digits := Nat.toDigits 16 c.toNat
  List.replicate (width - digits.length) '0' ++ digits

def reprChar (isprintable : Char → Bool) (quote c : Char) : List Char :=
  if c = quote ∨ c = '\\' then ['\\', c]
  else if c = '\t' then ['\\', 't']
  else if c = '\n' then ['\\', 'n']
  else if c = '\r' then ['\\', 'r']
  else if 32 ≤ c.toNat ∧ c.toNat < 127 ∨ 127 < c.toNat ∧ isprintable c then [c]
  else if c.toNat < 0x100 then '\\' :: 'x' :: hex 2 c
  else if c.toNat < 0x10000 then '\\' :: 'u' :: hex 4 c
  else '\\' :: 'U' :: hex 8 c

/-- `repr` of a `str`; `isprintable` is the property of the Unicode database. -/
def repr (isprintable : Char → Bool) (text : List Char) : List Char :=
  let quote := if text.contains '\'' && !text.contains '"' then '"' else '\''
  quote :: text.flatMap (reprChar isprintable quote) ++ [quote]

/-- `shlex.quote`. -/
def shlexQuote (text : List Char) : List Char :=
  if text = [] then ['\'', '\'']
  else if text.all fun c => c.isAlphanum || "_@%+=:,./-".toList.contains c then text
  else '\'' :: text.flatMap (fun c => if c = '\'' then "'\"'\"'".toList else [c]) ++ ['\'']

section Strip

variable {text : List Char}

theorem strip_sublist (text : List Char) : (strip text).Sublist text :=
  (List.rdropWhile_prefix isspace (text.dropWhile isspace)).sublist.trans (List.dropWhile_sublist isspace)

/-- Nothing is stripped where the ends are no white space. -/
theorem strip_of_ends (hhead : ∀ c ∈ text.head?, isspace c = false) (hlast : ∀ c ∈ text.getLast?, isspace c = false) :
    strip text = text := by
  have hdrop : text.dropWhile isspace = text := by
    cases text with
    | nil => rfl
    | cons c text =>
      have hc := hhead c rfl
      rw [List.dropWhile_cons_of_neg (by rw [hc]; decide)]
  rw [strip, hdrop, List.rdropWhile_eq_self_iff]
  intro hne hspace
  rw [hlast _ (List.getLast?_eq_some_getLast hne)] at hspace
  cases hspace

theorem strip_head : ∀ c ∈ (strip text).head?, isspace c = false := by
  intro c hc
  have hprefix := List.rdropWhile_prefix isspace (text.dropWhile isspace)
  obtain ⟨rest, hrest⟩ := hprefix
  cases hstrip : strip text with
  | nil =>
    rw [hstrip] at hc
    cases hc
  | cons d ds =>
    rw [hstrip] at hc
    obtain rfl := Option.some.inj hc
    have hdrop : text.dropWhile isspace = d :: (ds ++ rest) := by
      rw [← hrest]
      change strip text ++ rest = _
      rw [hstrip]
      rfl
    have := List.head_dropWhile_not isspace (w := by rw [hdrop]; exact List.cons_ne_nil _ _)
    simpa [hdrop] using this

theorem strip_last : ∀ c ∈ (strip text).getLast?, isspace c = false := by
  intro c hc
  cases hne : strip text with
  | nil =>
    rw [hne] at hc
    cases hc
  | cons d ds =>
    have hnil : strip text ≠ [] := by
      rw [hne]
      exact List.cons_ne_nil _ _
    rw [List.getLast?_eq_some_getLast hnil] at hc
    obtain rfl := Option.some.inj hc
    exact Bool.eq_false_iff.mpr (List.rdropWhile_last_not isspace _ hnil)

end Strip

section Split

theorem not_mem_of_mem_splitOn {c : Char} {text item : List Char} (h : item ∈ text.splitOn c) : c ∉ item := by
  induction text generalizing item with
  | nil =>
    rw [List.splitOn_nil, List.mem_singleton] at h
    rw [h]
    exact List.not_mem_nil
  | cons d text ih =>
    rw [List.splitOn_cons_eq_if_modifyHead] at h
    split at h
    · rcases List.mem_cons.mp h with rfl | h
      · exact List.not_mem_nil
      · exact ih h
    · next hd =>
      cases hsplit : text.splitOn c with
      | nil => exact absurd hsplit (List.splitOn_ne_nil c text)
      | cons first rest =>
        rw [hsplit, List.modifyHead_cons] at h
        rcases List.mem_cons.mp h with rfl | h
        · intro hmem
          rcases List.mem_cons.mp hmem with rfl | hmem
          · exact hd (beq_self_eq_true c)
          · exact ih (hsplit ▸ List.mem_cons_self) hmem
        · exact ih (hsplit ▸ List.mem_cons_of_mem _ h)

/-- What is counted in a text that was put together is counted in its parts. -/
theorem countP_intercalate {p : Char → Bool} {c : Char} (hc : p c = false) (parts : List (List Char)) :
    ([c].intercalate parts).countP p = (parts.map (List.countP p)).sum := by
  induction parts with
  | nil => rfl
  | cons part parts ih =>
    cases parts with
    | nil => simp
    | cons next parts =>
      rw [List.intercalate_cons_cons, List.countP_append, List.countP_append, ih, List.map_cons, List.sum_cons]
      simp [hc]

theorem sum_countP_splitOn {p : Char → Bool} {c : Char} (hc : p c = false) (text : List Char) :
    ((text.splitOn c).map (List.countP p)).sum = text.countP p := by
  rw [← countP_intercalate hc, List.intercalate_splitOn]

end Split

section Numbers

theorem decimal_of_isDigit {c : Char} (h : c.isDigit = true) : decimal c = some (c.toNat - 48) := by
  have hrange : 48 ≤ c.toNat ∧ c.toNat < 48 + 10 := by
    simp only [Char.isDigit, Bool.and_eq_true, decide_eq_true_eq] at h
    have hlow : 48 ≤ c.toNat := h.1
    have hhigh : c.toNat ≤ 57 := h.2
    omega
  rw [decimal, zeros, List.findSome?_cons, if_pos hrange]

theorem isspace_of_isDigit {c : Char} (h : c.isDigit = true) : isspace c = false := by
  simp only [Char.isDigit, Bool.and_eq_true, decide_eq_true_eq] at h
  have hlow : 48 ≤ c.toNat := h.1
  have hhigh : c.toNat ≤ 57 := h.2
  simp only [isspace, Bool.or_eq_false_iff, Bool.and_eq_false_iff, decide_eq_false_iff_not, beq_eq_false_iff_ne]
  omega

theorem moreDigits_of_isDigit {text : List Char} (h : ∀ c ∈ text, c.isDigit = true) (n : Nat) :
    moreDigits n text = some (Nat.ofDigitChars 10 text n) := by
  induction text generalizing n with
  | nil => rfl
  | cons c text ih =>
    have hc := h c List.mem_cons_self
    have hne : c ≠ '_' := by
      rintro rfl
      cases hc
    have hmore : moreDigits n (c :: text) = moreDigits (n * 10 + (c.toNat - 48)) text := by
      rw [moreDigits.eq_3 _ _ _ (fun d ds heq => absurd heq hne), decimal_of_isDigit hc]
    rw [hmore, ih (fun d hd => h d (List.mem_cons_of_mem _ hd)), Nat.ofDigitChars_cons, Nat.mul_comm]
    rfl

theorem digits_of_isNumeral {text : List Char} (h : IsNumeral text) : digits text = some (numeralValue text) := by
  obtain ⟨hne, hdigits⟩ := h
  cases text with
  | nil => exact absurd rfl hne
  | cons c text =>
    rw [digits, decimal_of_isDigit (hdigits c List.mem_cons_self)]
    dsimp only
    rw [moreDigits_of_isDigit fun d hd => hdigits d (List.mem_cons_of_mem _ hd), numeralValue, Nat.ofDigitChars_cons]
    simp

theorem str_ne_nil (n : Int) : str n ≠ [] := by
  unfold str
  split
  · exact List.cons_ne_nil _ _
  · exact Nat.toDigits_ne_nil

/-- The characters of a number. -/
theorem mem_str {n : Int} {c : Char} (h : c ∈ str n) : c = '-' ∨ c.isDigit = true := by
  have hdigits := (isNumeral_toDigits n.natAbs).2
  unfold str at h
  split at h
  · rcases List.mem_cons.mp h with rfl | h
    · exact .inl rfl
    · exact .inr (hdigits c h)
  · exact .inr (hdigits c h)

theorem isspace_of_mem_str {n : Int} {c : Char} (h : c ∈ str n) : isspace c = false := by
  rcases mem_str h with rfl | h
  · rfl
  · exact isspace_of_isDigit h

theorem int_str (n : Int) : int (str n) = some n := by
  have hstrip : strip (str n) = str n :=
    strip_of_ends (fun c hc => isspace_of_mem_str (List.mem_of_mem_head? hc))
      (fun c hc => isspace_of_mem_str (List.mem_of_mem_getLast? hc))
  have hnumeral := isNumeral_toDigits n.natAbs
  have hvalue : numeralValue (Nat.toDigits 10 n.natAbs) = n.natAbs := Nat.ofDigitChars_ten_toDigits
  rw [int, hstrip, str]
  split
  · have hneg : -(n.natAbs : Int) = n := by omega
    simp only [splitSign, digits_of_isNumeral hnumeral, hvalue, if_true]
    exact congrArg some hneg
  · rw [splitSign_of_isNumeral hnumeral]
    have hpos : (n.natAbs : Int) = n := by omega
    simp only [digits_of_isNumeral hnumeral, hvalue, Bool.false_eq_true, if_false]
    exact congrArg some hpos

end Numbers

end Collections.PythonText
