import Scaler.Collections.Dict

/-! `Client.__convert_kwargs_to_args`: keyword arguments become positional ones before a call is
sent away. Python's own binding of arguments says what a call means. -/

namespace Scaler

open Collections

inductive ParameterKind where
  | positionalOnly
  | positionalOrKeyword
  | varPositional
  | keywordOnly
  | varKeyword
  deriving DecidableEq, Repr

/-- A parameter without a default has `inspect.Parameter.empty` in its place. -/
structure Parameter (Value : Type) where
  name : String
  kind : ParameterKind
  default : Option Value
  deriving DecidableEq, Repr

namespace Parameter

variable {Value : Type} (p : Parameter Value)

def isPositional : Bool := p.kind = .positionalOnly ∨ p.kind = .positionalOrKeyword

def isRequired : Bool := p.default.isNone

end Parameter

/-- What `inspect.signature` returns: the kinds in their order, distinct names, and no positional
parameter without a default behind one with a default. -/
structure Signature (Value : Type) where
  parameters : List (Parameter Value)
  kinds : parameters.Pairwise fun p q => p.kind.ctorIdx ≤ q.kind.ctorIdx
  nodup : (parameters.map Parameter.name).Nodup
  defaults : (parameters.filter Parameter.isPositional).Pairwise fun p q => q.isRequired = true → p.isRequired = true

namespace Signature

variable {Value : Type} (s : Signature Value)

def positional : List (Parameter Value) := s.parameters.filter Parameter.isPositional

def keywordOnly : List (Parameter Value) := s.parameters.filter fun p => p.kind = .keywordOnly

/-- The names and defaults of the keyword-only parameters that have one. -/
def keywordDefaults : List (String × Value) :=
  s.keywordOnly.filterMap fun p => p.default.map fun value => (p.name, value)

def hasVarPositional : Bool := s.parameters.any fun p => p.kind = .varPositional

def hasVarKeyword : Bool := s.parameters.any fun p => p.kind = .varKeyword

end Signature

/-- What the parameters of a call are bound to: `*args` and `**kwargs` take what is left. -/
structure Binding (Value : Type) where
  positional : List Value
  varPositional : List Value
  keywordOnly : List Value
  varKeyword : List (String × Value)
  deriving DecidableEq, Repr

/-- The value of a parameter that is not given by position. -/
def Parameter.byKeyword {Value : Type} (kwargs : Dict String Value) (p : Parameter Value) : Option Value :=
  match p.kind with
  | .positionalOnly => p.default
  | _ => (kwargs.get? p.name).or p.default

namespace Signature

variable {Value : Type} (s : Signature Value)

/-- The parameter can be given by its name. -/
def takesKeyword (name : String) : Bool :=
  s.parameters.any fun p => p.name = name ∧ (p.kind = .positionalOrKeyword ∨ p.kind = .keywordOnly)

/-- The keywords that no parameter is named after. -/
def unclaimed (kwargs : Dict String Value) : List (String × Value) :=
  kwargs.entries.filter fun entry => ¬s.takesKeyword entry.1

/-- `fn(*args, **kwargs)`: too many positional arguments, a parameter that is given twice, a keyword
that nothing takes and a parameter that is missing are a `TypeError`. -/
def bind (args : List Value) (kwargs : Dict String Value) : Option (Binding Value) :=
  if s.positional.length < args.length ∧ s.hasVarPositional = false then none
  else if (s.positional.take args.length).any fun p => p.kind = .positionalOrKeyword ∧ (kwargs.get? p.name).isSome then none
  else if s.unclaimed kwargs ≠ [] ∧ s.hasVarKeyword = false then none
  else do
    let missing ← (s.positional.drop args.length).mapM (Parameter.byKeyword kwargs)
    let keywordOnly ← s.keywordOnly.mapM (Parameter.byKeyword kwargs)
    some ⟨args.take s.positional.length ++ missing, args.drop s.positional.length, keywordOnly, s.unclaimed kwargs⟩

end Signature

/-- The `TypeError` with the names that are missing, or what the comparison of a default with
`empty` raises. -/
inductive ConvertError where
  | missing (names : List String)
  | comparison
  deriving DecidableEq, Repr

section

variable {Value : Type}

/-- The loop over the required parameters. -/
def popRequired : List (Parameter Value) → List Value → Dict String Value →
    Except ConvertError (List Value × Dict String Value)
  | [], argsList, kwargs => .ok (argsList, kwargs)
  | p :: params, argsList, kwargs =>
    match kwargs.get? p.name with
    | some value => popRequired params (argsList ++ [value]) (kwargs.erase p.name)
    | none => .error (.missing ((p :: params).map Parameter.name))

/-- The loop over the other parameters. `empty` would be appended for a parameter without default,
but these are behind the required ones. -/
def popOptional (empty : Value) : List (Parameter Value) → List Value → Dict String Value → List Value
  | [], argsList, _ => argsList
  | p :: params, argsList, kwargs =>
    popOptional empty params (argsList ++ [(kwargs.get? p.name).getD (p.default.getD empty)]) (kwargs.erase p.name)

/-- The two loops, from the end of the given arguments on. -/
def popParameters (empty : Value) (s : Signature Value) (args : List Value) (kwargs : Dict String Value) :
    Except ConvertError (List Value) :=
  let params := s.positional
  let numberOfRequired := (params.filter Parameter.isRequired).length
  match popRequired ((params.take numberOfRequired).drop args.length) args kwargs with
  | .error error => .error error
  | .ok (argsList, kwargs) => .ok (popOptional empty (params.drop argsList.length) argsList kwargs)

/-- `differs` is the comparison `p.default != p.empty`, which may raise. -/
def convertKwargsToArgs (empty : Value) (differs : Value → Option Bool) (s : Signature Value) (args : List Value)
    (kwargs : Dict String Value) : Except ConvertError (List Value) :=
  if s.positional.length ≤ args.length then .ok args
  else if s.keywordDefaults.any fun entry => differs entry.2 = none then .error .comparison
  else popParameters empty s args ((s.keywordDefaults.filter fun entry => differs entry.2 = some true).foldl
    (fun d entry => d.set entry.1 entry.2) kwargs)

/-- A call keeps its meaning: what binds is bound to the same values by the converted call, unless
the conversion raises, and what does not bind is not made to succeed. -/
structure KeepsMeaning (empty : Value) (differs : Value → Option Bool) (s : Signature Value) (args : List Value)
    (kwargs : Dict String Value) : Prop where
  binds : ∀ binding, s.bind args kwargs = some binding →
    (∃ error, convertKwargsToArgs empty differs s args kwargs = .error error) ∨
      ∃ converted, convertKwargsToArgs empty differs s args kwargs = .ok converted ∧
        s.bind converted Dict.empty = some binding
  refuses : s.bind args kwargs = none → ∀ converted, convertKwargsToArgs empty differs s args kwargs = .ok converted →
    s.bind converted Dict.empty = none

namespace Signature

variable (s : Signature Value) (args : List Value) (kwargs : Dict String Value)

/-- The conversion does not get through: a required positional parameter has no value, or a default
cannot be compared. -/
def Unconvertible (differs : Value → Option Bool) : Prop :=
  args.length < s.positional.length ∧
    ((∃ p ∈ s.keywordOnly, ∃ value, p.default = some value ∧ differs value = none) ∨
      ∃ p ∈ s.positional.drop args.length, p.isRequired = true ∧ kwargs.get? p.name = none)

/-- There are more positional arguments than parameters for them. -/
def Overfull : Prop := s.positional.length < args.length ∧ s.hasVarPositional = false

/-- The keyword is not lost: it names a parameter that can be given by position and is not, or gives
a keyword-only parameter its default. -/
def Kept (name : String) (value : Value) : Prop :=
  (∃ p ∈ s.positional.drop args.length, p.kind = .positionalOrKeyword ∧ p.name = name) ∨
    ∃ p ∈ s.keywordOnly, p.name = name ∧ p.default = some value

/-- No keyword is lost that the call would need. -/
def LosesNothing : Prop :=
  if ∃ p ∈ s.keywordOnly, p.isRequired = true then s.bind args kwargs = none
  else ∀ name value, kwargs.get? name = some value → s.Kept args name value

end Signature

end

section

variable {Value : Type} {s : Signature Value}

/-- What the loops append for a parameter. -/
def popped (empty : Value) (kwargs : Dict String Value) (p : Parameter Value) : Value :=
  (kwargs.get? p.name).getD (p.default.getD empty)

theorem get?_erase_of_mem {p q : Parameter Value} {ps : List (Parameter Value)} (hp : p.name ∉ ps.map Parameter.name)
    (hq : q ∈ ps) (kwargs : Dict String Value) : (kwargs.erase p.name).get? q.name = kwargs.get? q.name := by
  refine Dict.get?_erase_ne _ fun heq => hp ?_
  rw [← heq]
  exact List.mem_map_of_mem hq

theorem popRequired_ok {ps : List (Parameter Value)} (hnodup : (ps.map Parameter.name).Nodup) {argsList values : List Value}
    {kwargs rest : Dict String Value} (h : popRequired ps argsList kwargs = .ok (values, rest)) (empty : Value) :
    (∀ p ∈ ps, kwargs.get? p.name ≠ none) ∧ values = argsList ++ ps.map (popped empty kwargs) ∧
      ∀ name, name ∉ ps.map Parameter.name → rest.get? name = kwargs.get? name := by
  induction ps generalizing argsList kwargs with
  | nil =>
    obtain ⟨rfl, rfl⟩ := Prod.mk.inj (Except.ok.inj h)
    simp
  | cons p ps ih =>
    rw [List.map_cons, List.nodup_cons] at hnodup
    unfold popRequired at h
    cases hvalue : kwargs.get? p.name with
    | none =>
      rw [hvalue] at h
      cases h
    | some value =>
      rw [hvalue] at h
      obtain ⟨hsome, rfl, hrest⟩ := ih hnodup.2 h
      have hsame : ∀ q ∈ ps, (kwargs.erase p.name).get? q.name = kwargs.get? q.name :=
        fun q hq => get?_erase_of_mem hnodup.1 hq kwargs
      refine ⟨?_, ?_, fun name hname => ?_⟩
      · intro q hq
        rcases List.mem_cons.mp hq with rfl | hq
        · rw [hvalue]
          exact Option.some_ne_none value
        · rw [← hsame q hq]
          exact hsome q hq
      · have hmap : ps.map (popped empty (kwargs.erase p.name)) = ps.map (popped empty kwargs) := by
          refine List.map_congr_left fun q hq => ?_
          rw [popped, popped, hsame q hq]
        have hp : popped empty kwargs p = value := by rw [popped, hvalue, Option.getD_some]
        rw [hmap, List.map_cons, hp, List.append_assoc, List.singleton_append]
      · rw [List.map_cons, List.mem_cons, not_or] at hname
        rw [hrest name hname.2, Dict.get?_erase_ne _ hname.1]

theorem exists_popRequired {ps : List (Parameter Value)} (hnodup : (ps.map Parameter.name).Nodup) {kwargs : Dict String Value}
    (h : ∀ p ∈ ps, kwargs.get? p.name ≠ none) (argsList : List Value) :
    ∃ values rest, popRequired ps argsList kwargs = .ok (values, rest) := by
  induction ps generalizing argsList kwargs with
  | nil => exact ⟨argsList, kwargs, rfl⟩
  | cons p ps ih =>
    rw [List.map_cons, List.nodup_cons] at hnodup
    obtain ⟨value, hvalue⟩ := Option.ne_none_iff_exists'.mp (h p List.mem_cons_self)
    unfold popRequired
    rw [hvalue]
    refine ih hnodup.2 (fun q hq => ?_) (argsList ++ [value])
    rw [get?_erase_of_mem hnodup.1 hq]
    exact h q (List.mem_cons_of_mem p hq)

theorem popOptional_eq (empty : Value) {ps : List (Parameter Value)} (hnodup : (ps.map Parameter.name).Nodup)
    (argsList : List Value) (kwargs : Dict String Value) :
    popOptional empty ps argsList kwargs = argsList ++ ps.map (popped empty kwargs) := by
  induction ps generalizing argsList kwargs with
  | nil => simp [popOptional]
  | cons p ps ih =>
    rw [List.map_cons, List.nodup_cons] at hnodup
    have hmap : ps.map (popped empty (kwargs.erase p.name)) = ps.map (popped empty kwargs) := by
      refine List.map_congr_left fun q hq => ?_
      rw [popped, popped, get?_erase_of_mem hnodup.1 hq]
    rw [popOptional, ih hnodup.2, hmap, List.map_cons, List.append_assoc, List.singleton_append]
    rfl

namespace Signature

/-- The required positional parameters come first. -/
theorem positional_eq_append (s : Signature Value) :
    s.positional = s.positional.filter Parameter.isRequired ++ s.positional.filter fun p => !p.isRequired := by
  have hall : ∀ ps : List (Parameter Value), ps.Pairwise (fun p q => q.isRequired = true → p.isRequired = true) →
      ps = ps.filter Parameter.isRequired ++ ps.filter fun p => !p.isRequired := by
    intro ps h
    induction ps with
    | nil => rfl
    | cons p ps ih =>
      rw [List.pairwise_cons] at h
      have hp := h.1
      replace ih := ih h.2
      cases hr : p.isRequired with
      | true => rw [List.filter_cons_of_pos hr, List.filter_cons_of_neg (by simp [hr]), List.cons_append, ← ih]
      | false =>
        have hno : ∀ q ∈ ps, q.isRequired = false := by
          intro q hq
          by_contra hq'
          rw [hp q hq (by simpa using hq')] at hr
          cases hr
        have hnil : ps.filter Parameter.isRequired = [] := by
          rw [List.filter_eq_nil_iff]
          intro q hq
          simp [hno q hq]
        rw [hnil, List.nil_append] at ih
        rw [List.filter_cons_of_neg (by simp [hr]), hnil, List.nil_append, List.filter_cons_of_pos (by simp [hr]), ← ih]
  exact hall _ s.defaults

theorem nodup_positional (s : Signature Value) : (s.positional.map Parameter.name).Nodup :=
  s.nodup.sublist (List.filter_sublist.map _)

theorem not_mem_keywordOnly {p : Parameter Value} (hp : p ∈ s.positional) {q : Parameter Value} (hq : q ∈ s.keywordOnly) :
    q.name ≠ p.name := by
  intro hname
  rw [positional, List.mem_filter] at hp
  rw [keywordOnly, List.mem_filter] at hq
  have heq : q = p := List.inj_on_of_nodup_map s.nodup hq.1 hp.1 hname
  rw [heq] at hq
  have hkind : p.kind = .keywordOnly := of_decide_eq_true hq.2
  have hpositional := hp.2
  rw [Parameter.isPositional, hkind] at hpositional
  cases hpositional

section Convert

variable {empty : Value} {differs : Value → Option Bool} {args : List Value} {kwargs : Dict String Value}

theorem convert_of_le (h : s.positional.length ≤ args.length) : convertKwargsToArgs empty differs s args kwargs = .ok args :=
  if_pos h

theorem drop_take_positional (a : Nat) :
    (s.positional.take (s.positional.filter Parameter.isRequired).length).drop a =
      (s.positional.filter Parameter.isRequired).drop a := by
  have hsplit := s.positional_eq_append
  generalize s.positional.filter Parameter.isRequired = req at hsplit ⊢
  rw [hsplit, List.take_left]

theorem drop_positional (a : Nat) :
    s.positional.drop a = (s.positional.filter Parameter.isRequired).drop a ++
      s.positional.drop (a + ((s.positional.filter Parameter.isRequired).drop a).length) := by
  have hsplit := s.positional_eq_append
  generalize s.positional.filter Parameter.isRequired = req at hsplit ⊢
  rw [hsplit, List.drop_append, List.drop_append, List.length_drop]
  have hnil : req.drop (a + (req.length - a)) = [] := List.drop_eq_nil_of_le (by omega)
  have hsub : a + (req.length - a) - req.length = a - req.length := by omega
  rw [hnil, List.nil_append, hsub]

theorem mem_drop_required {p : Parameter Value} {a : Nat} (hp : p ∈ s.positional.drop a) (hreq : p.isRequired = true) :
    p ∈ (s.positional.filter Parameter.isRequired).drop a := by
  rw [s.positional_eq_append, List.drop_append, List.mem_append] at hp
  rcases hp with hp | hp
  · exact hp
  · have hno := (List.mem_filter.mp (List.mem_of_mem_drop hp)).2
    rw [hreq] at hno
    cases hno

/-- The two loops, when every required parameter has a value. -/
theorem popParameters_eq (hgiven : ∀ p ∈ s.positional.drop args.length, p.isRequired = true → kwargs.get? p.name ≠ none) :
    popParameters empty s args kwargs = .ok (args ++ (s.positional.drop args.length).map (popped empty kwargs)) := by
  have hsplit := drop_positional (s := s) args.length
  rw [popParameters, drop_take_positional]
  generalize hreq : (s.positional.filter Parameter.isRequired).drop args.length = req at hsplit ⊢
  have hnodup : ((req ++ s.positional.drop (args.length + req.length)).map Parameter.name).Nodup := by
    rw [← hsplit]
    exact s.nodup_positional.sublist ((List.drop_sublist _ _).map _)
  rw [List.map_append, List.nodup_append] at hnodup
  have hrequired : ∀ p ∈ req, kwargs.get? p.name ≠ none := by
    intro p hp
    refine hgiven p (by rw [hsplit]; exact List.mem_append_left _ hp) ?_
    rw [← hreq] at hp
    exact (List.mem_filter.mp (List.mem_of_mem_drop hp)).2
  obtain ⟨values, rest, hpop⟩ := exists_popRequired hnodup.1 hrequired args
  obtain ⟨-, rfl, hrest⟩ := popRequired_ok hnodup.1 hpop empty
  have hlength : (args ++ req.map (popped empty kwargs)).length = args.length + req.length := by
    rw [List.length_append, List.length_map]
  have hmap : (s.positional.drop (args.length + req.length)).map (popped empty rest) =
      (s.positional.drop (args.length + req.length)).map (popped empty kwargs) := by
    refine List.map_congr_left fun q hq => ?_
    have hname : q.name ∉ req.map Parameter.name :=
      fun hmem => hnodup.2.2 q.name hmem q.name (List.mem_map_of_mem hq) rfl
    rw [popped, popped, hrest _ hname]
  rw [hpop]
  dsimp only
  rw [hlength, popOptional_eq empty hnodup.2.1, hmap, hsplit, List.map_append, List.append_assoc]

theorem popParameters_error
    (hmissing : ∃ p ∈ s.positional.drop args.length, p.isRequired = true ∧ kwargs.get? p.name = none) :
    ∃ error, popParameters empty s args kwargs = .error error := by
  obtain ⟨p, hp, hreq, hnone⟩ := hmissing
  have hnodup : (((s.positional.filter Parameter.isRequired).drop args.length).map Parameter.name).Nodup :=
    s.nodup_positional.sublist (((List.drop_sublist _ _).trans List.filter_sublist).map _)
  rw [popParameters, drop_take_positional]
  cases hpop : popRequired ((s.positional.filter Parameter.isRequired).drop args.length) args kwargs with
  | error error => exact ⟨error, rfl⟩
  | ok result => exact absurd hnone ((popRequired_ok hnodup hpop empty).1 p (mem_drop_required hp hreq))

theorem mem_keywordDefaults {entry : String × Value} :
    entry ∈ s.keywordDefaults ↔ ∃ p ∈ s.keywordOnly, p.name = entry.1 ∧ p.default = some entry.2 := by
  rw [keywordDefaults, List.mem_filterMap]
  constructor
  · rintro ⟨p, hp, hentry⟩
    obtain ⟨value, hvalue, rfl⟩ := Option.map_eq_some_iff.mp hentry
    exact ⟨p, hp, rfl, hvalue⟩
  · rintro ⟨p, hp, hname, hvalue⟩
    refine ⟨p, hp, ?_⟩
    rw [hvalue, Option.map_some, hname]

theorem get?_updated {keep : String × Value → Bool} {p : Parameter Value} (hp : p ∈ s.positional) :
    ((s.keywordDefaults.filter keep).foldl (fun d entry => d.set entry.1 entry.2) kwargs).get? p.name =
      kwargs.get? p.name := by
  refine Dict.get?_foldl_set_of_not_mem (fun hmem => ?_) kwargs
  obtain ⟨entry, hentry, hname⟩ := List.mem_map.mp hmem
  obtain ⟨q, hq, hqname, -⟩ := mem_keywordDefaults.mp (List.mem_of_mem_filter hentry)
  exact not_mem_keywordOnly hp hq (hqname.trans hname)

theorem any_comparison_iff : (s.keywordDefaults.any fun entry => differs entry.2 = none) = true ↔
    ∃ p ∈ s.keywordOnly, ∃ value, p.default = some value ∧ differs value = none := by
  rw [List.any_eq_true]
  constructor
  · rintro ⟨entry, hentry, hnone⟩
    obtain ⟨p, hp, -, hvalue⟩ := mem_keywordDefaults.mp hentry
    exact ⟨p, hp, entry.2, hvalue, of_decide_eq_true hnone⟩
  · rintro ⟨p, hp, value, hvalue, hnone⟩
    exact ⟨(p.name, value), mem_keywordDefaults.mpr ⟨p, hp, rfl, hvalue⟩, decide_eq_true hnone⟩

theorem convert_of_lt (h : args.length < s.positional.length) (hconv : ¬s.Unconvertible args kwargs differs) :
    convertKwargsToArgs empty differs s args kwargs =
      .ok (args ++ (s.positional.drop args.length).map (popped empty kwargs)) := by
  have hcompare : ¬(s.keywordDefaults.any fun entry => differs entry.2 = none) = true :=
    fun hany => hconv ⟨h, .inl (any_comparison_iff.mp hany)⟩
  rw [convertKwargsToArgs, if_neg (Nat.not_le_of_lt h), if_neg hcompare]
  generalize hupdated : List.foldl _ kwargs _ = updated
  have hget : ∀ p ∈ s.positional.drop args.length, updated.get? p.name = kwargs.get? p.name := by
    intro p hp
    rw [← hupdated]
    exact get?_updated (List.mem_of_mem_drop hp)
  have hmap : (s.positional.drop args.length).map (popped empty updated) =
      (s.positional.drop args.length).map (popped empty kwargs) := by
    refine List.map_congr_left fun p hp => ?_
    rw [popped, popped, hget p hp]
  rw [popParameters_eq, hmap]
  intro p hp hreq hnone
  exact hconv ⟨h, .inr ⟨p, hp, hreq, (hget p hp).symm.trans hnone⟩⟩

theorem convert_of_unconvertible (h : s.Unconvertible args kwargs differs) :
    ∃ error, convertKwargsToArgs empty differs s args kwargs = .error error := by
  rw [convertKwargsToArgs, if_neg (Nat.not_le_of_lt h.1)]
  by_cases hcompare : (s.keywordDefaults.any fun entry => differs entry.2 = none) = true
  · exact ⟨.comparison, if_pos hcompare⟩
  · obtain ⟨p, hp, hreq, hnone⟩ := h.2.resolve_left fun hany => hcompare (any_comparison_iff.mpr hany)
    rw [if_neg hcompare]
    refine popParameters_error ⟨p, hp, hreq, ?_⟩
    rw [get?_updated (List.mem_of_mem_drop hp)]
    exact hnone

end Convert

section Bind

variable {empty : Value} {differs : Value → Option Bool} {args : List Value} {kwargs : Dict String Value}

theorem mapM_eq_some_map_iff {α β : Type} {f : α → Option β} {g : α → β} {xs : List α} :
    xs.mapM f = some (xs.map g) ↔ ∀ x ∈ xs, f x = some (g x) := by
  induction xs with
  | nil => simp
  | cons x xs ih =>
    rw [List.mapM_cons, List.forall_mem_cons, ← ih, List.map_cons]
    cases hx : f x with
    | none => simp
    | some y =>
      cases hxs : xs.mapM f with
      | none => simp
      | some ys => simp

theorem ne_none_of_mapM {α β : Type} {f : α → Option β} {xs : List α} {ys : List β} (h : xs.mapM f = some ys) :
    ∀ x ∈ xs, f x ≠ none := by
  induction xs generalizing ys with
  | nil => simp
  | cons x xs ih =>
    rw [List.mapM_cons] at h
    obtain ⟨y, hy, h⟩ := Option.bind_eq_some_iff.mp h
    obtain ⟨zs, hzs, -⟩ := Option.bind_eq_some_iff.mp h
    rw [List.forall_mem_cons, hy]
    exact ⟨Option.some_ne_none y, ih hzs⟩

/-- What a call is bound to when nothing is lost: the keyword-only parameters have their defaults. -/
def keptBinding (empty : Value) (s : Signature Value) (args : List Value) (kwargs : Dict String Value) : Binding Value where
  positional := args.take s.positional.length ++ (s.positional.drop args.length).map (popped empty kwargs)
  varPositional := args.drop s.positional.length
  keywordOnly := s.keywordOnly.map fun p => p.default.getD empty
  varKeyword := []

theorem bind_eq_none_of_overfull (h : s.Overfull args) (kwargs : Dict String Value) : s.bind args kwargs = none :=
  if_pos h

/-- All that a call that binds has to meet, and what it is bound to. -/
theorem bind_eq_some_iff {binding : Binding Value} : s.bind args kwargs = some binding ↔
    ¬s.Overfull args ∧
      (∀ p ∈ s.positional.take args.length, p.kind = .positionalOrKeyword → kwargs.get? p.name = none) ∧
      (s.unclaimed kwargs = [] ∨ s.hasVarKeyword = true) ∧
      ∃ missing keywordOnly, (s.positional.drop args.length).mapM (Parameter.byKeyword kwargs) = some missing ∧
        s.keywordOnly.mapM (Parameter.byKeyword kwargs) = some keywordOnly ∧
        binding = ⟨args.take s.positional.length ++ missing, args.drop s.positional.length, keywordOnly,
          s.unclaimed kwargs⟩ := by
  have htwice : ((s.positional.take args.length).any fun p =>
      p.kind = .positionalOrKeyword ∧ (kwargs.get? p.name).isSome) = true ↔
      ¬∀ p ∈ s.positional.take args.length, p.kind = .positionalOrKeyword → kwargs.get? p.name = none := by
    simp [Option.isSome_iff_ne_none]
  have hunclaimed : (s.unclaimed kwargs ≠ [] ∧ s.hasVarKeyword = false) ↔
      ¬(s.unclaimed kwargs = [] ∨ s.hasVarKeyword = true) := by
    simp
  unfold bind
  simp only [htwice, hunclaimed]
  by_cases hover : s.positional.length < args.length ∧ s.hasVarPositional = false
  · rw [if_pos hover]
    exact ⟨fun h => absurd h.symm (Option.some_ne_none _), fun h => absurd hover h.1⟩
  rw [if_neg hover]
  by_cases hgiven : ∀ p ∈ s.positional.take args.length, p.kind = .positionalOrKeyword → kwargs.get? p.name = none
  swap
  · rw [if_pos hgiven]
    exact ⟨fun h => absurd h.symm (Option.some_ne_none _), fun h => absurd h.2.1 hgiven⟩
  rw [if_neg (not_not.mpr hgiven)]
  by_cases hclaimed : s.unclaimed kwargs = [] ∨ s.hasVarKeyword = true
  swap
  · rw [if_pos hclaimed]
    exact ⟨fun h => absurd h.symm (Option.some_ne_none _), fun h => absurd h.2.2.1 hclaimed⟩
  rw [if_neg (not_not.mpr hclaimed)]
  constructor
  · intro h
    obtain ⟨missing, hmissing, h⟩ := Option.bind_eq_some_iff.mp h
    obtain ⟨keywordOnly, hkeyword, h⟩ := Option.bind_eq_some_iff.mp h
    exact ⟨hover, hgiven, hclaimed, missing, keywordOnly, hmissing, hkeyword, (Option.some.inj h).symm⟩
  · rintro ⟨-, -, -, missing, keywordOnly, hmissing, hkeyword, rfl⟩
    rw [hmissing, hkeyword]
    rfl

theorem byKeyword_empty : Parameter.byKeyword (Dict.empty : Dict String Value) = Parameter.default := by
  funext p
  unfold Parameter.byKeyword
  cases p.kind <;> rfl

theorem bind_empty_iff {converted : List Value} (h : s.positional.length ≤ converted.length) {binding : Binding Value} :
    s.bind converted Dict.empty = some binding ↔ ¬s.Overfull converted ∧
      ∃ keywordOnly, s.keywordOnly.mapM Parameter.default = some keywordOnly ∧
        binding = ⟨converted.take s.positional.length, converted.drop s.positional.length, keywordOnly, []⟩ := by
  have hdrop : s.positional.drop converted.length = [] := List.drop_eq_nil_of_le h
  have hnone : s.unclaimed (Dict.empty : Dict String Value) = [] := rfl
  rw [bind_eq_some_iff, byKeyword_empty, hdrop, hnone]
  constructor
  · rintro ⟨hover, -, -, missing, keywordOnly, hmissing, hkeyword, rfl⟩
    obtain rfl : [] = missing := Option.some.inj hmissing
    exact ⟨hover, keywordOnly, hkeyword, by rw [List.append_nil]⟩
  · rintro ⟨hover, keywordOnly, hkeyword, rfl⟩
    exact ⟨hover, fun _ _ _ => rfl, .inl rfl, [], keywordOnly, rfl, hkeyword, by rw [List.append_nil]⟩

/-- A required keyword-only parameter cannot be given by position. -/
theorem bind_empty_of_required {converted : List Value} (h : s.positional.length ≤ converted.length)
    (hreq : ∃ p ∈ s.keywordOnly, p.isRequired = true) : s.bind converted Dict.empty = none := by
  obtain ⟨p, hp, hnone⟩ := hreq
  by_contra hsome
  obtain ⟨binding, hbinding⟩ := Option.ne_none_iff_exists'.mp hsome
  obtain ⟨-, keywordOnly, hkeyword, -⟩ := (bind_empty_iff h).mp hbinding
  exact ne_none_of_mapM hkeyword p hp (Option.isNone_iff_eq_none.mp hnone)

theorem default_eq {p : Parameter Value} (h : ¬p.isRequired = true) (empty : Value) :
    p.default = some (p.default.getD empty) := by
  cases hdefault : p.default with
  | none => exact absurd (by rw [Parameter.isRequired, hdefault]; rfl) h
  | some value => rfl

theorem bind_converted {converted : List Value} (hconv : convertKwargsToArgs empty differs s args kwargs = .ok converted)
    (hnot : ¬s.Unconvertible args kwargs differs) (hover : ¬s.Overfull args)
    (hreq : ∀ p ∈ s.keywordOnly, ¬p.isRequired = true) :
    s.bind converted Dict.empty = some (keptBinding empty s args kwargs) := by
  have hkeyword : s.keywordOnly.mapM Parameter.default = some (s.keywordOnly.map fun p => p.default.getD empty) :=
    mapM_eq_some_map_iff.mpr fun p hp => default_eq (hreq p hp) empty
  rcases Nat.lt_or_ge args.length s.positional.length with hlt | hge
  · rw [convert_of_lt hlt hnot] at hconv
    obtain rfl := Except.ok.inj hconv
    have hlength : (args ++ (s.positional.drop args.length).map (popped empty kwargs)).length = s.positional.length := by
      rw [List.length_append, List.length_map, List.length_drop]
      omega
    refine (bind_empty_iff (Nat.le_of_eq hlength.symm)).mpr ⟨?_, _, hkeyword, ?_⟩
    · rintro ⟨hmore, -⟩
      omega
    · rw [keptBinding, ← hlength, List.take_length, List.drop_length, hlength, List.take_of_length_le (Nat.le_of_lt hlt),
        List.drop_eq_nil_of_le (Nat.le_of_lt hlt)]
  · rw [convert_of_le hge] at hconv
    obtain rfl := Except.ok.inj hconv
    refine (bind_empty_iff hge).mpr ⟨hover, _, hkeyword, ?_⟩
    rw [keptBinding, List.drop_eq_nil_of_le hge, List.map_nil, List.append_nil]

theorem parameter_eq {p q : Parameter Value} (hp : p ∈ s.parameters) (hq : q ∈ s.parameters) (h : p.name = q.name) : p = q :=
  List.inj_on_of_nodup_map s.nodup hp hq h

theorem mem_of_mem_positional {p : Parameter Value} (hp : p ∈ s.positional) : p ∈ s.parameters := List.mem_of_mem_filter hp

theorem mem_of_mem_keywordOnly {p : Parameter Value} (hp : p ∈ s.keywordOnly) : p ∈ s.parameters := List.mem_of_mem_filter hp

theorem Kept.takesKeyword {name : String} {value : Value} (h : s.Kept args name value) : s.takesKeyword name = true := by
  rw [Signature.takesKeyword, List.any_eq_true]
  rcases h with ⟨p, hp, hkind, hname⟩ | ⟨p, hp, hname, -⟩
  · exact ⟨p, mem_of_mem_positional (List.mem_of_mem_drop hp), decide_eq_true ⟨hname, .inl hkind⟩⟩
  · exact ⟨p, mem_of_mem_keywordOnly hp, decide_eq_true ⟨hname, .inr (of_decide_eq_true (List.mem_filter.mp hp).2)⟩⟩

/-- A kept keyword with the name of a positional parameter is for that parameter. -/
theorem Kept.of_positional {p : Parameter Value} {value : Value} (h : s.Kept args p.name value) (hp : p ∈ s.positional) :
    p ∈ s.positional.drop args.length ∧ p.kind = .positionalOrKeyword := by
  rcases h with ⟨q, hq, hkind, hname⟩ | ⟨q, hq, hname, -⟩
  · have heq := parameter_eq (mem_of_mem_positional (List.mem_of_mem_drop hq)) (mem_of_mem_positional hp) hname
    exact ⟨heq ▸ hq, heq ▸ hkind⟩
  · exact absurd hname (not_mem_keywordOnly hp hq)

theorem Kept.of_keywordOnly {p : Parameter Value} {value : Value} (h : s.Kept args p.name value) (hp : p ∈ s.keywordOnly) :
    p.default = some value := by
  rcases h with ⟨q, hq, -, hname⟩ | ⟨q, hq, hname, hdefault⟩
  · exact absurd hname.symm (not_mem_keywordOnly (List.mem_of_mem_drop hq) hp)
  · have heq := parameter_eq (mem_of_mem_keywordOnly hq) (mem_of_mem_keywordOnly hp) hname
    exact heq ▸ hdefault

/-- When every keyword is kept, the direct call binds the same. -/
theorem bind_of_kept (hnot : ¬s.Unconvertible args kwargs differs) (hover : ¬s.Overfull args)
    (hreq : ∀ p ∈ s.keywordOnly, ¬p.isRequired = true)
    (hkept : ∀ name value, kwargs.get? name = some value → s.Kept args name value) :
    s.bind args kwargs = some (keptBinding empty s args kwargs) := by
  have hclaimed : s.unclaimed kwargs = [] := by
    rw [unclaimed, List.filter_eq_nil_iff]
    intro entry hentry
    have htakes := (hkept _ _ ((kwargs.mem_entries entry.1 entry.2).mp hentry)).takesKeyword
    simp [htakes]
  refine bind_eq_some_iff.mpr ⟨hover, ?_, .inl hclaimed, _, _, mapM_eq_some_map_iff.mpr (fun p hp => ?_),
    mapM_eq_some_map_iff.mpr (fun p hp => ?_), by rw [keptBinding, hclaimed]⟩
  · intro p hp hkind
    by_contra hsome
    obtain ⟨value, hvalue⟩ := Option.ne_none_iff_exists'.mp hsome
    have hdrop := ((hkept _ _ hvalue).of_positional (List.mem_of_mem_take hp)).1
    exact List.disjoint_take_drop (s.nodup_positional.of_map _) (Nat.le_refl _) hp hdrop
  · -- a positional parameter that is not given by position
    have hpositional := List.mem_of_mem_drop hp
    have hlt : args.length < s.positional.length := by
      by_contra hge
      rw [List.drop_eq_nil_of_le (Nat.le_of_not_lt hge)] at hp
      cases hp
    cases hvalue : kwargs.get? p.name with
    | some value =>
      have hkind := ((hkept _ _ hvalue).of_positional hpositional).2
      simp [Parameter.byKeyword, popped, hkind, hvalue]
    | none =>
      have hoptional : ¬p.isRequired = true := fun h => hnot ⟨hlt, .inr ⟨p, hp, h, hvalue⟩⟩
      have hdefault := default_eq hoptional empty
      unfold Parameter.byKeyword popped
      rw [hvalue]
      split
      · exact hdefault
      · exact hdefault
  · cases hvalue : kwargs.get? p.name with
    | some value =>
      have hdefault := (hkept _ _ hvalue).of_keywordOnly hp
      unfold Parameter.byKeyword
      rw [hvalue, hdefault]
      split <;> rfl
    | none =>
      have hdefault := default_eq (hreq p hp) empty
      unfold Parameter.byKeyword
      rw [hvalue]
      split
      · exact hdefault
      · exact hdefault

/-- When the direct call binds the same, every keyword is kept. -/
theorem kept_of_bind (hreq : ∀ p ∈ s.keywordOnly, ¬p.isRequired = true)
    (h : s.bind args kwargs = some (keptBinding empty s args kwargs)) {name : String} {value : Value}
    (hvalue : kwargs.get? name = some value) : s.Kept args name value := by
  obtain ⟨-, hgiven, -, missing, keywordOnly, -, hkeyword, heq⟩ := bind_eq_some_iff.mp h
  simp only [keptBinding, Binding.mk.injEq] at heq
  obtain ⟨-, -, rfl, hclaimed⟩ := heq
  have hmem : (name, value) ∈ kwargs.entries := (kwargs.mem_entries name value).mpr hvalue
  have htakes : s.takesKeyword name = true := by
    have hall := List.filter_eq_nil_iff.mp hclaimed.symm (name, value) hmem
    simpa using hall
  rw [takesKeyword, List.any_eq_true] at htakes
  obtain ⟨p, hp, hclaims⟩ := htakes
  obtain ⟨rfl, hkind⟩ := of_decide_eq_true hclaims
  rcases hkind with hkind | hkind
  · have hpositional : p ∈ s.positional := by
      rw [positional, List.mem_filter, Parameter.isPositional, hkind]
      exact ⟨hp, rfl⟩
    rw [← List.take_append_drop args.length s.positional, List.mem_append] at hpositional
    rcases hpositional with htake | hdrop
    · rw [hgiven p htake hkind] at hvalue
      cases hvalue
    · exact .inl ⟨p, hdrop, hkind, rfl⟩
  · have hko : p ∈ s.keywordOnly := List.mem_filter.mpr ⟨hp, decide_eq_true hkind⟩
    have hsame := mapM_eq_some_map_iff.mp hkeyword p hko
    rw [← default_eq (hreq p hko) empty, Parameter.byKeyword, hkind, hvalue] at hsame
    exact .inr ⟨p, hko, rfl, hsame.symm⟩

end Bind

end Signature

section

variable {empty : Value} {differs : Value → Option Bool} {args : List Value} {kwargs : Dict String Value}

theorem keepsMeaning_of_error {error : ConvertError} (h : convertKwargsToArgs empty differs s args kwargs = .error error) :
    KeepsMeaning empty differs s args kwargs where
  binds _ _ := .inl ⟨error, h⟩
  refuses _ converted hconverted := by
    rw [h] at hconverted
    cases hconverted

theorem keepsMeaning_iff_of_ok {converted : List Value} (h : convertKwargsToArgs empty differs s args kwargs = .ok converted) :
    KeepsMeaning empty differs s args kwargs ↔ s.bind converted Dict.empty = s.bind args kwargs := by
  constructor
  · intro hkeeps
    cases hdirect : s.bind args kwargs with
    | none => exact hkeeps.refuses hdirect converted h
    | some binding =>
      rcases hkeeps.binds binding hdirect with ⟨error, herror⟩ | ⟨other, hother, hbind⟩
      · rw [h] at herror
        cases herror
      · rw [h] at hother
        obtain rfl := Except.ok.inj hother
        exact hbind
  · intro heq
    refine ⟨fun binding hdirect => .inr ⟨converted, h, heq.trans hdirect⟩, fun hdirect other hother => ?_⟩
    rw [h] at hother
    obtain rfl := Except.ok.inj hother
    exact heq.trans hdirect

variable (empty differs s args kwargs) in
/-- A call keeps its meaning exactly when it cannot be converted, has too many arguments or loses no
keyword. -/
theorem keepsMeaning_iff : KeepsMeaning empty differs s args kwargs ↔
    s.Unconvertible args kwargs differs ∨ s.Overfull args ∨ s.LosesNothing args kwargs := by
  by_cases hun : s.Unconvertible args kwargs differs
  · obtain ⟨error, herror⟩ := Signature.convert_of_unconvertible hun
    exact ⟨fun _ => .inl hun, fun _ => keepsMeaning_of_error herror⟩
  have hok : ∃ converted, convertKwargsToArgs empty differs s args kwargs = .ok converted ∧
      s.positional.length ≤ converted.length ∧ (s.Overfull args → s.Overfull converted) := by
    rcases Nat.lt_or_ge args.length s.positional.length with hlt | hge
    · refine ⟨_, Signature.convert_of_lt hlt hun, ?_, fun hover => absurd hover.1 (Nat.not_lt_of_le (Nat.le_of_lt hlt))⟩
      rw [List.length_append, List.length_map, List.length_drop]
      omega
    · exact ⟨args, Signature.convert_of_le hge, hge, id⟩
  obtain ⟨converted, hconverted, hlength, hoverfull⟩ := hok
  rw [keepsMeaning_iff_of_ok hconverted]
  by_cases hover : s.Overfull args
  · rw [Signature.bind_eq_none_of_overfull hover, Signature.bind_eq_none_of_overfull (hoverfull hover)]
    exact ⟨fun _ => .inr (.inl hover), fun _ => rfl⟩
  simp only [hun, hover, false_or]
  unfold Signature.LosesNothing
  by_cases hreq : ∃ p ∈ s.keywordOnly, p.isRequired = true
  · rw [if_pos hreq, Signature.bind_empty_of_required hlength hreq]
    exact eq_comm
  · have hnone : ∀ p ∈ s.keywordOnly, ¬p.isRequired = true := fun p hp h => hreq ⟨p, hp, h⟩
    rw [if_neg hreq, Signature.bind_converted hconverted hun hover hnone]
    exact ⟨fun h name value hvalue => Signature.kept_of_bind hnone h.symm hvalue,
      fun hkept => (Signature.bind_of_kept hun hover hnone hkept).symm⟩

end

end

/-- `def fn(a, *, k=1)`. -/
def keywordOnlySignature : Signature Nat where
  parameters := [⟨"a", .positionalOrKeyword, none⟩, ⟨"k", .keywordOnly, some 1⟩]
  kinds := by decide
  nodup := by decide
  defaults := by decide

/-- `fn(0, k=2)` is sent away as `fn(0)`, where `k` is 1. -/
theorem keyword_dropped :
    convertKwargsToArgs 9 (fun _ => some true) keywordOnlySignature [0] (Dict.empty.set "k" 2) = .ok [0] ∧
      keywordOnlySignature.bind [0] (Dict.empty.set "k" 2) = some ⟨[0], [], [2], []⟩ ∧
      keywordOnlySignature.bind [0] Dict.empty = some ⟨[0], [], [1], []⟩ ∧
      ¬KeepsMeaning 9 (fun _ => some true) keywordOnlySignature [0] (Dict.empty.set "k" 2) := by
  have hconverted : convertKwargsToArgs 9 (fun _ => some true) keywordOnlySignature [0] (Dict.empty.set "k" 2) = .ok [0] := by
    decide
  refine ⟨hconverted, by decide, by decide, fun hkeeps => ?_⟩
  have hsame := (keepsMeaning_iff_of_ok hconverted).mp hkeeps
  exact absurd hsame (by decide)

end Scaler
