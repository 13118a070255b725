import Mathlib.Algebra.BigOperators.Group.List.Basic
import Mathlib.Algebra.Order.BigOperators.Group.List
import Scaler.Collections.Dict
import Scaler.Collections.PythonText
import Scaler.Utility.Containers

/-! `WorkerCapabilities.from_string` and `format_capabilities`. -/

namespace Scaler.Config

open Collections Collections.PythonText

/-- A `Dict[str, int]`. -/
abbrev Capabilities := List (List Char × Int)

namespace WorkerCapabilities

/-- The body of the loop over the items. -/
def addItem (capabilities : Capabilities) (item : List Char) : Except Exn Capabilities :=
  let name := strip (item.takeWhile (· ≠ '='))
  if name = [] then .error .valueError
  else
    match item.dropWhile (· ≠ '=') with
    | [] => .ok (setIn name (-1) capabilities)
    | _ :: capabilityValue =>
      match int capabilityValue with
      | some n => .ok (setIn name n capabilities)
      | none => .error .valueError

def fromString (value : List Char) : Except Exn Capabilities :=
  if value = [] then .ok [] else (value.splitOn ',').foldlM addItem []

end WorkerCapabilities

def formatCapability (capability : List Char × Int) : List Char :=
  if capability.2 = -1 then capability.1 else capability.1 ++ '=' :: str capability.2

def formatCapabilities (capabilities : Capabilities) : List Char :=
  [','].intercalate (capabilities.map formatCapability)

namespace WorkerCapabilities

/-- The names that `from_string` can give. -/
structure IsName (name : List Char) : Prop where
  ne_nil : name ≠ []
  comma : ',' ∉ name
  equals : '=' ∉ name
  head : ∀ c ∈ name.head?, isspace c = false
  last : ∀ c ∈ name.getLast?, isspace c = false

structure Wellformed (capabilities : Capabilities) : Prop where
  names : ∀ capability ∈ capabilities, IsName capability.1
  nodup : (capabilities.map Prod.fst).Nodup

/-- One item stores one name. -/
theorem addItem_ok {capabilities capabilities' : Capabilities} {item : List Char} (h : addItem capabilities item = .ok capabilities') :
    strip (item.takeWhile (· ≠ '=')) ≠ [] ∧ ∃ n, capabilities' = setIn (strip (item.takeWhile (· ≠ '='))) n capabilities := by
  unfold addItem at h
  dsimp only at h
  split_ifs at h with hnil
  refine ⟨hnil, ?_⟩
  split at h
  · exact ⟨-1, (Except.ok.inj h).symm⟩
  · split at h
    · next n _ => exact ⟨n, (Except.ok.inj h).symm⟩
    · cases h

theorem wellformed_setIn {capabilities : Capabilities} (h : Wellformed capabilities) {name : List Char} (hname : IsName name)
    (n : Int) : Wellformed (setIn name n capabilities) := by
  refine ⟨fun capability hmem => ?_, nodup_setIn h.nodup⟩
  rcases mem_keys_setIn.mp (List.mem_map_of_mem hmem) with heq | hold
  · rw [heq]
    exact hname
  · obtain ⟨old, hold, heq⟩ := List.mem_map.mp hold
    rw [← heq]
    exact h.names old hold

theorem isName_strip {item : List Char} (hcomma : ',' ∉ item) (hne : strip (item.takeWhile (· ≠ '=')) ≠ []) :
    IsName (strip (item.takeWhile (· ≠ '='))) := by
  refine ⟨hne, fun hmem => ?_, fun hmem => ?_, strip_head, strip_last⟩
  · exact hcomma ((List.takeWhile_sublist _).mem ((strip_sublist _).mem hmem))
  · have := List.mem_takeWhile_imp ((strip_sublist _).mem hmem)
    simp at this

theorem wellformed_foldlM {items : List (List Char)} (hitems : ∀ item ∈ items, ',' ∉ item) {capabilities capabilities' : Capabilities}
    (h : Wellformed capabilities) (hok : items.foldlM addItem capabilities = .ok capabilities') : Wellformed capabilities' := by
  induction items generalizing capabilities with
  | nil =>
    obtain rfl := Except.ok.inj hok
    exact h
  | cons item items ih =>
    rw [List.foldlM_cons] at hok
    cases hitem : addItem capabilities item with
    | error e =>
      rw [hitem] at hok
      cases hok
    | ok next =>
      rw [hitem] at hok
      obtain ⟨hne, n, rfl⟩ := addItem_ok hitem
      exact ih (fun x hx => hitems x (List.mem_cons_of_mem _ hx))
        (wellformed_setIn h (isName_strip (hitems item List.mem_cons_self) hne) n) hok

theorem wellformed_fromString {value : List Char} {capabilities : Capabilities} (h : fromString value = .ok capabilities) :
    Wellformed capabilities := by
  unfold fromString at h
  have hnil : Wellformed [] := ⟨fun _ hmem => absurd hmem List.not_mem_nil, List.nodup_nil⟩
  split_ifs at h
  · obtain rfl := Except.ok.inj h
    exact hnil
  · exact wellformed_foldlM (fun item hitem => not_mem_of_mem_splitOn hitem) hnil h

section RoundTrip

variable {name : List Char}

theorem takeWhile_name (h : '=' ∉ name) (rest : List Char) : (name ++ '=' :: rest).takeWhile (· ≠ '=') = name := by
  have hname : ∀ c ∈ name, decide (c ≠ '=') = true := fun c hc => decide_eq_true fun heq => h (heq ▸ hc)
  rw [List.takeWhile_append_of_pos hname]
  simp

theorem dropWhile_name (h : '=' ∉ name) (rest : List Char) :
    (name ++ '=' :: rest).dropWhile (· ≠ '=') = '=' :: rest := by
  have hname : ∀ c ∈ name, decide (c ≠ '=') = true := fun c hc => decide_eq_true fun heq => h (heq ▸ hc)
  rw [List.dropWhile_append_of_pos hname]
  simp

theorem IsName.strip (h : IsName name) : strip name = name := strip_of_ends h.head h.last

theorem addItem_formatCapability (h : IsName name) (n : Int) (capabilities : Capabilities) :
    addItem capabilities (formatCapability (name, n)) = .ok (setIn name n capabilities) := by
  unfold formatCapability
  split
  · next hflag =>
    have htake : name.takeWhile (· ≠ '=') = name :=
      List.takeWhile_eq_self_iff.mpr fun c hc => decide_eq_true fun heq => h.equals (heq ▸ hc)
    have hdrop : name.dropWhile (· ≠ '=') = [] :=
      List.dropWhile_eq_nil_iff.mpr fun c hc => decide_eq_true fun heq => h.equals (heq ▸ hc)
    rw [addItem, htake, h.strip, if_neg h.ne_nil, hdrop]
    dsimp only at hflag ⊢
    rw [hflag]
  · rw [addItem, takeWhile_name h.equals, h.strip, if_neg h.ne_nil, dropWhile_name h.equals]
    dsimp only
    rw [int_str]

theorem foldlM_formatCapability {capabilities : Capabilities} (before : Capabilities)
    (hnames : ∀ capability ∈ capabilities, IsName capability.1) (hnodup : ((before ++ capabilities).map Prod.fst).Nodup) :
    (capabilities.map formatCapability).foldlM addItem before = .ok (before ++ capabilities) := by
  induction capabilities generalizing before with
  | nil =>
    rw [List.append_nil]
    rfl
  | cons capability capabilities ih =>
    obtain ⟨name, n⟩ := capability
    have hnew : name ∉ before.map Prod.fst := by
      intro hmem
      rw [List.map_append, List.map_cons, List.nodup_append] at hnodup
      exact hnodup.2.2 name hmem name List.mem_cons_self rfl
    rw [List.map_cons, List.foldlM_cons, addItem_formatCapability (hnames _ List.mem_cons_self), Dict.setIn_of_not_mem hnew]
    refine (ih (before ++ [(name, n)]) (fun c hc => hnames c (List.mem_cons_of_mem _ hc)) ?_).trans ?_
    · rw [List.append_assoc]
      exact hnodup
    · rw [List.append_assoc]
      rfl

theorem formatCapability_ne_nil (h : IsName name) (n : Int) : formatCapability (name, n) ≠ [] := by
  unfold formatCapability
  split
  · exact h.ne_nil
  · exact List.append_ne_nil_of_left_ne_nil h.ne_nil _

theorem mem_formatCapability {capability : List Char × Int} {c : Char} (h : c ∈ formatCapability capability) :
    c ∈ capability.1 ∨ c = '=' ∨ c = '-' ∨ c.isDigit = true := by
  unfold formatCapability at h
  split at h
  · exact .inl h
  · rcases List.mem_append.mp h with h | h
    · exact .inl h
    · rcases List.mem_cons.mp h with h | h
      · exact .inr (.inl h)
      · exact .inr (.inr (mem_str h))

theorem formatCapabilities_ne_nil {capabilities : Capabilities} (h : Wellformed capabilities) (hne : capabilities ≠ []) :
    formatCapabilities capabilities ≠ [] := by
  obtain ⟨capability, rest, rfl⟩ := List.exists_cons_of_ne_nil hne
  have hfirst := formatCapability_ne_nil (h.names _ List.mem_cons_self) capability.2
  unfold formatCapabilities
  cases rest with
  | nil => simpa using hfirst
  | cons next rest =>
    rw [List.map_cons, List.map_cons, List.intercalate_cons_cons, List.append_assoc]
    exact List.append_ne_nil_of_left_ne_nil hfirst _

theorem formatCapabilities_cons (capability : List Char × Int) {rest : Capabilities} (h : rest ≠ []) :
    formatCapabilities (capability :: rest) = formatCapability capability ++ ',' :: formatCapabilities rest := by
  obtain ⟨next, rest, rfl⟩ := List.exists_cons_of_ne_nil h
  rw [formatCapabilities, List.map_cons, List.map_cons, List.intercalate_cons_cons, List.append_assoc]
  rfl

theorem head?_formatCapability (h : IsName name) (n : Int) : (formatCapability (name, n)).head? = name.head? := by
  unfold formatCapability
  split
  · rfl
  · exact List.head?_append_of_ne_nil name h.ne_nil

theorem head?_formatCapabilities {capabilities : Capabilities} (h : Wellformed capabilities) :
    (formatCapabilities capabilities).head? = capabilities.head?.bind fun capability => capability.1.head? := by
  cases capabilities with
  | nil => rfl
  | cons capability rest =>
    have hname := h.names capability List.mem_cons_self
    refine Eq.trans ?_ (head?_formatCapability hname capability.2)
    by_cases hrest : rest = []
    · subst hrest
      simp [formatCapabilities]
    · rw [formatCapabilities_cons capability hrest]
      exact List.head?_append_of_ne_nil _ (formatCapability_ne_nil hname capability.2)

theorem last_formatCapabilities {capabilities : Capabilities} (h : Wellformed capabilities) :
    ∀ c ∈ (formatCapabilities capabilities).getLast?, isspace c = false := by
  induction capabilities with
  | nil => nofun
  | cons capability rest ih =>
    have hname := h.names capability List.mem_cons_self
    intro c hc
    by_cases hrest : rest = []
    · subst hrest
      have hsingle : formatCapabilities [capability] = formatCapability capability := by simp [formatCapabilities]
      rw [hsingle, formatCapability] at hc
      split at hc
      · exact hname.last c hc
      · rw [List.getLast?_append_of_ne_nil _ (List.cons_ne_nil _ _), List.getLast?_cons_of_ne_nil (str_ne_nil _)] at hc
        exact isspace_of_mem_str (List.mem_of_mem_getLast? hc)
    · have hwell : Wellformed rest :=
        ⟨fun x hx => h.names x (List.mem_cons_of_mem _ hx), (List.nodup_cons.mp h.nodup).2⟩
      rw [formatCapabilities_cons capability hrest, List.getLast?_append_of_ne_nil _ (List.cons_ne_nil _ _),
        List.getLast?_cons_of_ne_nil (formatCapabilities_ne_nil hwell hrest)] at hc
      exact ih hwell c hc

theorem strip_formatCapabilities {capabilities : Capabilities} (h : Wellformed capabilities) :
    PythonText.strip (formatCapabilities capabilities) = formatCapabilities capabilities := by
  refine strip_of_ends (fun c hc => ?_) (last_formatCapabilities h)
  rw [head?_formatCapabilities h] at hc
  obtain ⟨capability, hcapability, hc⟩ := Option.bind_eq_some_iff.mp hc
  exact (h.names capability (List.mem_of_mem_head? hcapability)).head c hc

/-- What is written is read back. -/
theorem fromString_formatCapabilities {capabilities : Capabilities} (h : Wellformed capabilities) :
    fromString (formatCapabilities capabilities) = .ok capabilities := by
  by_cases hnil : capabilities = []
  · subst hnil
    rfl
  · have hparts : capabilities.map formatCapability ≠ [] := fun heq => hnil (List.map_eq_nil_iff.mp heq)
    have hcomma : ∀ part ∈ capabilities.map formatCapability, ',' ∉ part := by
      intro part hpart hmem
      obtain ⟨capability, hcapability, rfl⟩ := List.mem_map.mp hpart
      rcases mem_formatCapability hmem with hname | heq | heq | hdigit
      · exact (h.names capability hcapability).comma hname
      · cases heq
      · cases heq
      · cases hdigit
    rw [fromString, if_neg (formatCapabilities_ne_nil h hnil), formatCapabilities, List.splitOn_intercalate ',' hcomma hparts]
    exact foldlM_formatCapability [] h.names h.nodup

end RoundTrip

section Count

variable {p : Char → Bool}

/-- How many characters of a kind the names have. -/
def countNames (p : Char → Bool) (capabilities : Capabilities) : Nat := (capabilities.map fun capability => capability.1.countP p).sum

theorem countNames_setIn (name : List Char) (n : Int) (capabilities : Capabilities) :
    countNames p (setIn name n capabilities) ≤ countNames p capabilities + name.countP p := by
  induction capabilities with
  | nil => simp [setIn, countNames]
  | cons capability capabilities ih =>
    unfold countNames at ih ⊢
    rw [setIn]
    split
    · next heq => simp [← heq]
    · simp only [List.map_cons, List.sum_cons]
      omega

theorem countNames_foldlM {items : List (List Char)} {capabilities capabilities' : Capabilities}
    (hok : items.foldlM addItem capabilities = .ok capabilities') :
    countNames p capabilities' ≤ countNames p capabilities + (items.map (List.countP p)).sum := by
  induction items generalizing capabilities with
  | nil =>
    obtain rfl := Except.ok.inj hok
    simp
  | cons item items ih =>
    rw [List.foldlM_cons] at hok
    cases hitem : addItem capabilities item with
    | error e =>
      rw [hitem] at hok
      cases hok
    | ok next =>
      rw [hitem] at hok
      obtain ⟨-, n, rfl⟩ := addItem_ok hitem
      have hstep := countNames_setIn (p := p) (strip (item.takeWhile (· ≠ '='))) n capabilities
      have hname : (strip (item.takeWhile (· ≠ '='))).countP p ≤ item.countP p :=
        ((strip_sublist _).trans (List.takeWhile_sublist _)).countP_le
      have hrest := ih hok
      rw [List.map_cons, List.sum_cons]
      omega

/-- No name has a character that the text does not have. -/
theorem countNames_fromString (hcomma : p ',' = false) {value : List Char} {capabilities : Capabilities}
    (h : fromString value = .ok capabilities) : countNames p capabilities ≤ value.countP p := by
  unfold fromString at h
  split_ifs at h
  · obtain rfl := Except.ok.inj h
    exact Nat.zero_le _
  · have hle := countNames_foldlM (p := p) h
    rw [sum_countP_splitOn hcomma] at hle
    simpa [countNames] using hle

theorem countP_formatCapability (hequals : p '=' = false) (hminus : p '-' = false) (hdigit : ∀ c, c.isDigit = true → p c = false)
    (capability : List Char × Int) : (formatCapability capability).countP p = capability.1.countP p := by
  unfold formatCapability
  split
  · rfl
  · have hnone : ('=' :: str capability.2).countP p = 0 := by
      refine List.countP_eq_zero.mpr fun c hc => ?_
      rw [Bool.not_eq_true]
      rcases List.mem_cons.mp hc with rfl | hc
      · exact hequals
      · rcases mem_str hc with rfl | hc
        · exact hminus
        · exact hdigit c hc
    rw [List.countP_append, hnone, Nat.add_zero]

theorem countP_formatCapabilities (hcomma : p ',' = false) (hequals : p '=' = false) (hminus : p '-' = false)
    (hdigit : ∀ c, c.isDigit = true → p c = false) (capabilities : Capabilities) :
    (formatCapabilities capabilities).countP p = countNames p capabilities := by
  rw [formatCapabilities, countP_intercalate hcomma, List.map_map, countNames]
  congr 1
  exact List.map_congr_left fun capability _ => countP_formatCapability hequals hminus hdigit capability

end Count

end WorkerCapabilities

end Scaler.Config
