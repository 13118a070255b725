import Mathlib.Algebra.Order.Group.Nat
import Mathlib.Data.List.Basic

/-! How a POSIX shell takes a text apart into words and operators: quoting, line continuation, comments
and quote removal. Where the words depend on more than the text (parameters, commands, the home directory
or the files that a pattern matches) there is no result. -/

namespace Collections.Shell

inductive Token where
  | word (text : List Char)
  | operator (c : Char)
  deriving DecidableEq, Repr

inductive Mode where
  | plain
  | escaped
  | single
  | double
  | doubleEscaped
  | comment
  deriving DecidableEq, Repr

/-- The tokens that are complete, and the word that is not. -/
structure State where
  tokens : List Token
  current : Option (List Char)
  mode : Mode
  deriving DecidableEq, Repr

def start : State := ⟨[], none, .plain⟩

def blank (c : Char) : Bool := c == ' ' || c == '\t'

def isOperator (c : Char) : Bool := ['|', '&', ';', '<', '>', '(', ')', '\n'].contains c

def quoting (c : Char) : Bool := ['\\', '\'', '"'].contains c

/-- The start of an expansion, or a character of a pattern. -/
def expanding (c : Char) : Bool := ['$', '\x60', '*', '?', '['].contains c

/-- The characters that do not stand for themselves anywhere in a word. -/
def special (c : Char) : Bool := blank c || isOperator c || quoting c || expanding c

def endWord (s : State) : State :=
  match s.current with
  | some word => { s with tokens := s.tokens ++ [.word word], current := none }
  | none => s

def push (s : State) (c : Char) : State := { s with current := some (s.current.getD [] ++ [c]), mode := .plain }

def openQuote (s : State) (mode : Mode) : State := { s with current := some (s.current.getD []), mode := mode }

def stepPlain (s : State) (c : Char) : Option State :=
  if blank c then some (endWord s)
  else if isOperator c then some { endWord s with tokens := (endWord s).tokens ++ [.operator c] }
  else if c = '\\' then some { s with mode := .escaped }
  else if c = '\'' then some (openQuote s .single)
  else if c = '"' then some (openQuote s .double)
  else if expanding c then none
  else if c = '#' ∧ s.current = none then some { s with mode := .comment }
  else if c = '~' ∧ s.current = none then none
  else some (push s c)

def step (s : State) (c : Char) : Option State :=
  match s.mode with
  | .plain => stepPlain s c
  | .escaped => some (if c = '\n' then { s with mode := .plain } else push s c)
  | .single => some (if c = '\'' then { s with mode := .plain } else { push s c with mode := .single })
  | .double =>
    if c = '"' then some { s with mode := .plain }
    else if c = '\\' then some { s with mode := .doubleEscaped }
    else if c = '$' ∨ c = '\x60' then none
    else some { push s c with mode := .double }
  | .doubleEscaped =>
    if c = '\n' then some { s with mode := .double }
    else if c = '$' ∨ c = '\x60' ∨ c = '"' ∨ c = '\\' then some { push s c with mode := .double }
    else some { push (push s '\\') c with mode := .double }
  | .comment =>
    some (if c = '\n' then { s with tokens := s.tokens ++ [.operator c], mode := .plain } else s)

def scan (s : State) (text : List Char) : Option State := text.foldlM step s

/-- The end of the text. An open quote has no end and a backslash has nothing to quote. -/
def finish (s : State) : Option (List Token) :=
  if s.mode = .plain ∨ s.mode = .comment then some (endWord s).tokens else none

def tokens (text : List Char) : Option (List Token) := (scan start text).bind finish

theorem scan_append (s : State) (t u : List Char) : scan s (t ++ u) = (scan s t).bind fun s => scan s u :=
  List.foldlM_append

theorem scan_cons (s : State) (c : Char) (t : List Char) : scan s (c :: t) = (step s c).bind fun s => scan s t :=
  List.foldlM_cons

@[simp] theorem scan_nil (s : State) : scan s [] = some s := rfl

section Frame

/-- The tokens that are there already. -/
def after (ts : List Token) (s : State) : State := { s with tokens := ts ++ s.tokens }

theorem endWord_after (ts : List Token) (s : State) : endWord (after ts s) = after ts (endWord s) := by
  unfold endWord after
  cases hcurrent : s.current with
  | none => simp [hcurrent]
  | some word => simp

theorem stepPlain_after (ts : List Token) (s : State) (c : Char) : stepPlain (after ts s) c = (stepPlain s c).map (after ts) := by
  have hcurrent : (after ts s).current = s.current := rfl
  unfold stepPlain
  simp only [endWord_after, hcurrent, apply_ite (Option.map (after ts)), Option.map_some, Option.map_none]
  simp only [after, openQuote, push, List.append_assoc]

theorem step_after (ts : List Token) (s : State) (c : Char) : step (after ts s) c = (step s c).map (after ts) := by
  have hmode : (after ts s).mode = s.mode := rfl
  unfold step
  rw [hmode]
  cases s.mode with
  | plain => exact stepPlain_after ts s c
  | escaped => dsimp only; split <;> rfl
  | single => dsimp only; split <;> rfl
  | double => dsimp only; split_ifs <;> rfl
  | doubleEscaped => dsimp only; split_ifs <;> rfl
  | comment => dsimp only; split <;> simp [after]

theorem scan_after (ts : List Token) (s : State) (text : List Char) : scan (after ts s) text = (scan s text).map (after ts) := by
  induction text generalizing s with
  | nil => rfl
  | cons c text ih =>
    rw [scan_cons, scan_cons, step_after]
    cases hstep : step s c with
    | none => rfl
    | some s' => exact ih s'

theorem finish_after (ts : List Token) (s : State) : finish (after ts s) = (finish s).map (ts ++ ·) := by
  unfold finish
  rw [endWord_after]
  have hmode : (after ts s).mode = s.mode := rfl
  rw [hmode]
  split <;> rfl

/-- From a place between two words the rest is taken apart by itself. -/
theorem scan_between (ts : List Token) (text : List Char) :
    (scan ⟨ts, none, .plain⟩ text).bind finish = (tokens text).map (ts ++ ·) := by
  have hstate : (⟨ts, none, .plain⟩ : State) = after ts start := by simp [after, start]
  rw [hstate, scan_after, tokens]
  cases scan start text with
  | none => rfl
  | some s => exact finish_after ts s

theorem isPrefix_of_scan {s : State} {text : List Char} {ts : List Token} (h : (scan s text).bind finish = some ts) :
    s.tokens <+: ts := by
  have hstate : s = after s.tokens { s with tokens := [] } := by simp [after]
  rw [hstate, scan_after] at h
  cases hscan : scan { s with tokens := [] } text with
  | none =>
    rw [hscan] at h
    cases h
  | some s' =>
    rw [hscan] at h
    change finish (after s.tokens s') = some ts at h
    rw [finish_after] at h
    obtain ⟨rest, -, heq⟩ := Option.map_eq_some_iff.mp h
    exact ⟨rest, heq⟩

end Frame

section Insert

/-- A text that is one word and stands for itself. -/
structure PlainWord (text : List Char) : Prop where
  ne_nil : text ≠ []
  plain : ∀ c ∈ text, special c = false
  head : ∀ c ∈ text.head?, c ≠ '#' ∧ c ≠ '~'

instance (text : List Char) : Decidable (PlainWord text) :=
  decidable_of_iff (text ≠ [] ∧ (text.all fun c => !special c) = true ∧ (text.head?.all fun c => c ≠ '#' ∧ c ≠ '~') = true)
    ⟨fun ⟨h1, h2, h3⟩ => ⟨h1, by simpa using h2, by simpa [Option.all_eq_true] using h3⟩,
      fun ⟨h1, h2, h3⟩ => ⟨h1, by simpa using h2, by simpa [Option.all_eq_true] using h3⟩⟩

theorem stepPlain_of_not_special {s : State} {c : Char} (h : special c = false)
    (hstart : s.current = none → c ≠ '#' ∧ c ≠ '~') : stepPlain s c = some (push s c) := by
  simp only [special, Bool.or_eq_false_iff] at h
  obtain ⟨⟨⟨hblank, hoperator⟩, hquoting⟩, hexpanding⟩ := h
  have hquote : c ≠ '\\' ∧ c ≠ '\'' ∧ c ≠ '"' := by
    refine ⟨?_, ?_, ?_⟩ <;> (rintro rfl; exact absurd hquoting (by decide))
  have hhash : ¬(c = '#' ∧ s.current = none) := fun hc => (hstart hc.2).1 hc.1
  have htilde : ¬(c = '~' ∧ s.current = none) := fun hc => (hstart hc.2).2 hc.1
  simp [stepPlain, hblank, hoperator, hquote, hexpanding, hhash, htilde]

theorem scan_rest_of_word {text : List Char} (h : ∀ c ∈ text, special c = false) (ts : List Token) (word : List Char) :
    scan ⟨ts, some word, .plain⟩ text = some ⟨ts, some (word ++ text), .plain⟩ := by
  induction text generalizing word with
  | nil => simp
  | cons c text ih =>
    have hstep : step ⟨ts, some word, .plain⟩ c = some ⟨ts, some (word ++ [c]), .plain⟩ :=
      stepPlain_of_not_special (h c List.mem_cons_self) nofun
    rw [scan_cons, hstep]
    refine (ih (fun d hd => h d (List.mem_cons_of_mem _ hd)) _).trans ?_
    rw [List.append_assoc, List.singleton_append]

theorem PlainWord.scan {text : List Char} (h : PlainWord text) (ts : List Token) :
    scan ⟨ts, none, .plain⟩ text = some ⟨ts, some text, .plain⟩ := by
  obtain ⟨hne, hplain, hhead⟩ := h
  cases text with
  | nil => exact absurd rfl hne
  | cons c text =>
    have hstep : step ⟨ts, none, .plain⟩ c = some ⟨ts, some [c], .plain⟩ :=
      stepPlain_of_not_special (hplain c List.mem_cons_self) fun _ => hhead c rfl
    rw [scan_cons, hstep]
    exact scan_rest_of_word (fun d hd => hplain d (List.mem_cons_of_mem _ hd)) ts [c]

/-- A text that separates words. -/
def Gap (text : List Char) : Prop := ∀ s, s.mode = .plain → scan s text = some (endWord s)

theorem scan_blank {s : State} (h : s.mode = .plain) (text : List Char) : scan s (' ' :: text) = scan (endWord s) text := by
  have hstep : step s ' ' = some (endWord s) := by
    rw [step, h]
    rfl
  rw [scan_cons, hstep]
  rfl

theorem gap_blank : Gap [' '] := fun _ h => scan_blank h []

theorem endWord_mode (s : State) : (endWord s).mode = s.mode := by
  unfold endWord
  split <;> rfl

theorem endWord_current (s : State) : (endWord s).current = none := by
  unfold endWord
  split
  · rfl
  · assumption

/-- A backslash at the end of the line continues it. -/
theorem gap_continued : Gap " \\\n    ".toList := by
  intro s h
  have hmode := (endWord_mode s).trans h
  have hcurrent := endWord_current s
  have hagain : endWord (endWord s) = endWord s := by
    rw [endWord, hcurrent]
  change scan s (' ' :: '\\' :: '\n' :: ' ' :: ' ' :: ' ' :: ' ' :: []) = _
  have hslash : step (endWord s) '\\' = some { endWord s with mode := .escaped } := by
    rw [step, hmode]
    rfl
  have hline : step { endWord s with mode := .escaped } '\n' = some (endWord s) := by
    change some { endWord s with mode := .plain } = _
    rw [← hmode]
  rw [scan_blank h, scan_cons, hslash, Option.bind_some, scan_cons, hline, Option.bind_some, scan_blank hmode, hagain,
    scan_blank hmode, hagain, scan_blank hmode, hagain, scan_blank hmode, hagain]
  rfl

/-- What follows a complete text stands by itself if a blank comes first. -/
theorem scan_finish {s : State} (h : s.mode = .plain) {back : List Char} (hback : back = [] ∨ ∃ rest, back = ' ' :: rest) :
    (scan s back).bind finish = (tokens back).map ((endWord s).tokens ++ ·) := by
  have hbetween : endWord s = ⟨(endWord s).tokens, none, .plain⟩ := by
    rw [← (endWord_mode s).trans h, ← endWord_current s]
  rcases hback with rfl | ⟨rest, rfl⟩
  · simp [tokens, finish, start, h, endWord]
  · have hrest : tokens (' ' :: rest) = tokens rest := by
      rw [tokens, scan_blank (s := start) rfl]
      rfl
    rw [scan_blank h, hrest, ← scan_between, ← hbetween]

/-- One option more, with a plain word: the other words stay. -/
theorem tokens_insert {front gap option word back : List Char} {s : State} (hfront : scan start front = some s)
    (hmode : s.mode = .plain) (hgap : Gap gap) (hoption : PlainWord option) (hword : PlainWord word)
    (hback : back = [] ∨ ∃ rest, back = ' ' :: rest) :
    tokens (front ++ back) = (tokens back).map ((endWord s).tokens ++ ·) ∧
      tokens (front ++ gap ++ option ++ ' ' :: word ++ back) =
        (tokens back).map ((endWord s).tokens ++ [Token.word option, .word word] ++ ·) := by
  have hbetween : endWord s = ⟨(endWord s).tokens, none, .plain⟩ := by
    rw [← (endWord_mode s).trans hmode, ← endWord_current s]
  constructor
  · rw [tokens, scan_append, hfront]
    exact scan_finish hmode hback
  · have hscan : scan start (front ++ gap ++ option ++ ' ' :: word) =
        some ⟨(endWord s).tokens ++ [Token.word option], some word, .plain⟩ := by
      rw [scan_append, scan_append, scan_append, hfront, Option.bind_some, hgap s hmode, Option.bind_some, hbetween,
        hoption.scan, Option.bind_some, scan_blank rfl]
      exact hword.scan _
    rw [tokens, scan_append, hscan]
    refine (scan_finish (by rfl) hback).trans ?_
    simp [endWord]

theorem takeWhile_before {token : Token} {ts : List Token} (h : token ∉ ts) (rest : List Token) :
    (ts ++ token :: rest).takeWhile (· ≠ token) = ts := by
  have hts : ∀ t ∈ ts, decide (t ≠ token) = true := fun t ht => decide_eq_true fun heq => h (heq ▸ ht)
  rw [List.takeWhile_append_of_pos hts]
  simp

/-- Where the words are those of a text with one option more, the option stands where it was put in, and
the word behind it is the first one of what follows. -/
theorem first_of_insert {front option word back : List Char} {s : State} {behind f b : List Token} {w : List Char}
    (hfront : scan start front = some s) (hmode : s.mode = .plain) (hoption : PlainWord option)
    (hback : ∃ rest, back = ' ' :: rest) (hbehind : tokens back = some behind)
    (hnew : Token.word option ∉ (endWord s).tokens ++ behind) (hbase : tokens (front ++ back) = some (f ++ b))
    (hinsert : tokens (front ++ [' '] ++ option ++ ' ' :: word ++ back) = some (f ++ [Token.word option, .word w] ++ b)) :
    (scan start (word ++ back)).bind finish = some (Token.word w :: behind) := by
  have hbetween : endWord s = ⟨(endWord s).tokens, none, .plain⟩ := by
    rw [← (endWord_mode s).trans hmode, ← endWord_current s]
  rw [tokens, scan_append, hfront, Option.bind_some, scan_finish hmode (.inr hback), hbehind] at hbase
  replace hbase : (endWord s).tokens ++ behind = f ++ b := Option.some.inj hbase
  have hscan : scan start (front ++ [' '] ++ option) = some ⟨(endWord s).tokens, some option, .plain⟩ := by
    rw [scan_append, scan_append, hfront, Option.bind_some, gap_blank s hmode, Option.bind_some, hbetween]
    exact hoption.scan _
  rw [List.append_assoc _ _ back, tokens, scan_append, hscan, Option.bind_some, List.cons_append, scan_blank rfl] at hinsert
  change (scan ⟨(endWord s).tokens ++ [Token.word option], none, .plain⟩ _).bind finish = _ at hinsert
  rw [scan_between] at hinsert
  obtain ⟨ts, hts, heq⟩ := Option.map_eq_some_iff.mp hinsert
  have hnotFront : Token.word option ∉ f := fun hmem => hnew (hbase ▸ List.mem_append_left _ hmem)
  have hnotBefore : Token.word option ∉ (endWord s).tokens := fun hmem => hnew (List.mem_append_left _ hmem)
  simp only [List.append_assoc, List.cons_append, List.nil_append] at heq
  have hf : (endWord s).tokens = f := by
    have := congrArg (List.takeWhile (· ≠ Token.word option)) heq
    rwa [takeWhile_before hnotBefore, takeWhile_before hnotFront] at this
  rw [hf] at heq hbase
  obtain ⟨-, hts'⟩ := List.cons.inj (List.append_cancel_left heq)
  rw [List.append_cancel_left hbase]
  exact hts.trans (congrArg some hts')

end Insert

section First

def weight (text : List Char) : Nat := text.countP special

/-- What counts of the word that is not complete. Between double quotes a backslash may come to stand for itself. -/
def pending (s : State) : Nat := weight (s.current.getD []) + if s.mode = .doubleEscaped then 1 else 0

theorem weight_append (t u : List Char) : weight (t ++ u) = weight t + weight u := List.countP_append

theorem weight_cons (c : Char) (t : List Char) : weight (c :: t) = weight [c] + weight t := weight_append [c] t

theorem weight_singleton_of_special {c : Char} (h : special c = true) : weight [c] = 1 := by
  simp [weight, h]

/-- The ways on with no token complete, where the character may add to the word. -/
def Continues (s s' : State) (c : Char) : Prop :=
  s'.tokens = [] ∧ pending s' ≤ pending s + weight [c] ∧ (s.mode = .plain → special c = true → pending s' ≤ pending s)

/-- The first token is complete: it is the word that was read, or an operator. -/
def Completes (s s' : State) : Prop :=
  (∃ word rest, s.current = some word ∧ s.mode = .plain ∧ s'.tokens = .word word :: rest) ∨
    ∃ d rest, s'.tokens = .operator d :: rest

theorem first_of_stepPlain {s s' : State} {c : Char} (hmode : s.mode = .plain) (hstep : stepPlain s c = some s')
    (hnil : s.tokens = []) : Continues s s' c ∨ Completes s s' := by
  unfold stepPlain at hstep
  have hendSome : ∀ word, s.current = some word → (endWord s).tokens = [.word word] := by
    intro word hword
    rw [endWord, hword]
    simp [hnil]
  have hendNone : s.current = none → endWord s = s := by
    intro hnone
    rw [endWord, hnone]
  by_cases h1 : blank c = true
  · rw [if_pos h1] at hstep
    obtain rfl := Option.some.inj hstep
    cases hcurrent : s.current with
    | none =>
      rw [hendNone hcurrent]
      exact .inl ⟨hnil, by omega, fun _ _ => Nat.le_refl _⟩
    | some word => exact .inr (.inl ⟨word, [], hcurrent, hmode, hendSome word hcurrent⟩)
  rw [if_neg h1] at hstep
  by_cases h2 : isOperator c = true
  · rw [if_pos h2] at hstep
    obtain rfl := Option.some.inj hstep
    cases hcurrent : s.current with
    | none => exact .inr (.inr ⟨c, [], by simp [hendNone hcurrent, hnil]⟩)
    | some word => exact .inr (.inl ⟨word, [.operator c], hcurrent, hmode, by simp [hendSome word hcurrent]⟩)
  rw [if_neg h2] at hstep
  by_cases h3 : c = '\\'
  · rw [if_pos h3] at hstep
    obtain rfl := Option.some.inj hstep
    refine .inl ⟨hnil, ?_, fun _ _ => ?_⟩ <;> simp [pending, hmode]
  rw [if_neg h3] at hstep
  by_cases h4 : c = '\''
  · rw [if_pos h4] at hstep
    obtain rfl := Option.some.inj hstep
    refine .inl ⟨hnil, ?_, fun _ _ => ?_⟩ <;> simp [pending, openQuote, hmode]
  rw [if_neg h4] at hstep
  by_cases h5 : c = '"'
  · rw [if_pos h5] at hstep
    obtain rfl := Option.some.inj hstep
    refine .inl ⟨hnil, ?_, fun _ _ => ?_⟩ <;> simp [pending, openQuote, hmode]
  rw [if_neg h5] at hstep
  by_cases h6 : expanding c = true
  · rw [if_pos h6] at hstep
    cases hstep
  rw [if_neg h6] at hstep
  by_cases h7 : c = '#' ∧ s.current = none
  · rw [if_pos h7] at hstep
    obtain rfl := Option.some.inj hstep
    refine .inl ⟨hnil, ?_, fun _ _ => ?_⟩ <;> simp [pending, hmode]
  rw [if_neg h7] at hstep
  by_cases h8 : c = '~' ∧ s.current = none
  · rw [if_pos h8] at hstep
    cases hstep
  rw [if_neg h8] at hstep
  obtain rfl := Option.some.inj hstep
  have hplain : special c = false := by
    simp only [special, Bool.or_eq_false_iff]
    refine ⟨⟨⟨Bool.eq_false_iff.mpr h1, Bool.eq_false_iff.mpr h2⟩, ?_⟩, Bool.eq_false_iff.mpr h6⟩
    simp [quoting, h3, h4, h5]
  refine .inl ⟨hnil, ?_, fun _ hspecial => absurd hspecial (by rw [hplain]; decide)⟩
  simp [pending, push, hmode, weight_append]

theorem first_of_step {s s' : State} {c : Char} (hstep : step s c = some s') (hnil : s.tokens = []) :
    Continues s s' c ∨ Completes s s' := by
  unfold step at hstep
  cases hmode : s.mode with
  | plain =>
    rw [hmode] at hstep
    exact first_of_stepPlain hmode hstep hnil
  | escaped =>
    rw [hmode] at hstep
    obtain rfl := Option.some.inj hstep
    refine .inl ⟨?_, ?_, fun hplain => ?_⟩
    · split <;> exact hnil
    · split <;> simp [pending, push, hmode, weight_append]
    · rw [hmode] at hplain
      cases hplain
  | single =>
    rw [hmode] at hstep
    obtain rfl := Option.some.inj hstep
    refine .inl ⟨?_, ?_, fun hplain => ?_⟩
    · split <;> exact hnil
    · split <;> simp [pending, push, hmode, weight_append]
    · rw [hmode] at hplain
      cases hplain
  | double =>
    rw [hmode] at hstep
    dsimp only at hstep
    split_ifs at hstep with h1 h2 h3 <;> obtain rfl := Option.some.inj hstep
    all_goals refine .inl ⟨hnil, ?_, fun hplain => absurd (hmode.symm.trans hplain) nofun⟩
    · simp [pending, hmode]
    · have hspecial : special c = true := by
        rw [h2]
        decide
      simp [pending, hmode, weight_singleton_of_special hspecial]
    · simp [pending, push, hmode, weight_append]
  | doubleEscaped =>
    rw [hmode] at hstep
    dsimp only at hstep
    split_ifs at hstep with h1 h2 <;> obtain rfl := Option.some.inj hstep
    all_goals refine .inl ⟨hnil, ?_, fun hplain => absurd (hmode.symm.trans hplain) nofun⟩
    · simp [pending, hmode]
      omega
    · simp [pending, push, hmode, weight_append]
    · have hpair : weight ['\\', c] = 1 + weight [c] := weight_cons _ _
      simp [pending, push, hmode, weight_append, hpair]
      omega
  | comment =>
    rw [hmode] at hstep
    obtain rfl := Option.some.inj hstep
    split
    · exact .inr (.inr ⟨c, [], by simp [hnil]⟩)
    · exact .inl ⟨hnil, by omega, fun _ _ => Nat.le_refl _⟩

variable {w back : List Char} {ts : List Token}

/-- The text behind a word ends it, and does nothing else to it. -/
def Ends (w back : List Char) (ts : List Token) : Prop :=
  ∀ s, s.tokens = [] → (scan s back).bind finish = some (.word w :: ts) → s.mode = .plain ∧ s.current = some w

theorem Completes.word_eq {s s' : State} {text : List Char} (h : Completes s s')
    (hscan : (scan s' text).bind finish = some (.word w :: ts)) : s.mode = .plain ∧ s.current = some w := by
  obtain ⟨rest, hrest⟩ := isPrefix_of_scan hscan
  rcases h with ⟨word, more, hcurrent, hmode, htokens⟩ | ⟨d, more, htokens⟩
  · rw [htokens] at hrest
    obtain ⟨hword, -⟩ := List.cons.inj hrest
    exact ⟨hmode, hcurrent.trans (congrArg some (Token.word.inj hword))⟩
  · rw [htokens] at hrest
    cases (List.cons.inj hrest).1

/-- The characters of the first word come from the text. -/
theorem weight_first (hends : Ends w back ts) {text : List Char} {s : State} (hnil : s.tokens = [])
    (h : (scan s (text ++ back)).bind finish = some (.word w :: ts)) : weight w ≤ pending s + weight text := by
  induction text generalizing s with
  | nil =>
    obtain ⟨hmode, hcurrent⟩ := hends s hnil h
    simp [pending, hmode, hcurrent]
  | cons c text ih =>
    rw [List.cons_append, scan_cons] at h
    cases hstep : step s c with
    | none =>
      rw [hstep] at h
      cases h
    | some s' =>
      rw [hstep] at h
      rw [weight_cons]
      rcases first_of_step hstep hnil with ⟨hnil', hpending, -⟩ | hcompletes
      · have := ih hnil' h
        omega
      · obtain ⟨hmode, hcurrent⟩ := hcompletes.word_eq h
        simp [pending, hmode, hcurrent]

/-- A special character is not one of them. -/
theorem weight_first_special (hends : Ends w back ts) {text : List Char} {s : State} {c : Char} (hnil : s.tokens = [])
    (hmode : s.mode = .plain) (hspecial : special c = true)
    (h : (scan s (c :: text ++ back)).bind finish = some (.word w :: ts)) : weight w ≤ pending s + weight text := by
  rw [List.cons_append, scan_cons] at h
  cases hstep : step s c with
  | none =>
    rw [hstep] at h
    cases h
  | some s' =>
    rw [hstep] at h
    rcases first_of_step hstep hnil with ⟨hnil', -, hpending⟩ | hcompletes
    · have := weight_first hends hnil' h
      have := hpending hmode hspecial
      omega
    · obtain ⟨-, hcurrent⟩ := hcompletes.word_eq h
      simp [pending, hmode, hcurrent]

theorem not_word_of_comment (hends : Ends w back ts) {text : List Char} {s : State} (hnil : s.tokens = [])
    (hmode : s.mode = .comment) : (scan s (text ++ back)).bind finish ≠ some (.word w :: ts) := by
  induction text with
  | nil =>
    intro h
    obtain ⟨hplain, -⟩ := hends s hnil h
    exact absurd (hmode.symm.trans hplain) nofun
  | cons c text ih =>
    intro h
    rw [List.cons_append, scan_cons, step, hmode] at h
    dsimp only [Option.bind_some] at h
    split at h
    · obtain ⟨rest, hrest⟩ := isPrefix_of_scan h
      rw [hnil] at hrest
      cases (List.cons.inj hrest).1
    · exact ih h

theorem plain_of_weight (hends : Ends w back ts) {text word : List Char}
    (h : (scan ⟨[], some word, .plain⟩ (text ++ back)).bind finish = some (.word w :: ts))
    (hweight : weight word + weight text ≤ weight w) : ∀ c ∈ text, special c = false := by
  induction text generalizing word with
  | nil => exact fun c hc => absurd hc List.not_mem_nil
  | cons c text ih =>
    rw [weight_cons] at hweight
    have hplain : special c = false := by
      by_contra hspecial
      rw [Bool.not_eq_false] at hspecial
      have hle := weight_first_special hends rfl rfl hspecial h
      rw [weight_singleton_of_special hspecial] at hweight
      have hpending : pending ⟨[], some word, .plain⟩ = weight word := rfl
      omega
    have hstep : step ⟨[], some word, .plain⟩ c = some ⟨[], some (word ++ [c]), .plain⟩ :=
      stepPlain_of_not_special hplain nofun
    rw [List.cons_append, scan_cons, hstep] at h
    have hrest := ih h (by rw [weight_append]; omega)
    exact fun d hd => (List.mem_cons.mp hd).elim (fun heq => heq ▸ hplain) (hrest d)

/-- If a text gives a word with as many special characters as it has, it is a plain word. -/
theorem plainWord_of_weight (hends : Ends w back ts) {text : List Char} (hne : text ≠ [])
    (h : (scan start (text ++ back)).bind finish = some (.word w :: ts)) (hweight : weight text ≤ weight w) :
    PlainWord text := by
  cases text with
  | nil => exact absurd rfl hne
  | cons c text =>
    rw [weight_cons] at hweight
    have hplain : special c = false := by
      by_contra hspecial
      rw [Bool.not_eq_false] at hspecial
      have hle := weight_first_special hends rfl rfl hspecial h
      rw [weight_singleton_of_special hspecial] at hweight
      have hpending : pending start = 0 := rfl
      omega
    have hhash : c ≠ '#' := by
      rintro rfl
      rw [List.cons_append, scan_cons] at h
      exact not_word_of_comment hends (s := ⟨[], none, .comment⟩) rfl rfl h
    have htilde : c ≠ '~' := by
      rintro rfl
      cases h
    have hstep : step start c = some ⟨[], some [c], .plain⟩ := stepPlain_of_not_special hplain fun _ => ⟨hhash, htilde⟩
    rw [List.cons_append, scan_cons, hstep] at h
    have hrest := plain_of_weight hends h hweight
    refine ⟨List.cons_ne_nil _ _, fun d hd => (List.mem_cons.mp hd).elim (fun heq => heq ▸ hplain) (hrest d), ?_⟩
    intro d hd
    obtain rfl := Option.some.inj hd
    exact ⟨hhash, htilde⟩

end First

end Collections.Shell
