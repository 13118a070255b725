import Scaler.Config.ConfigClass

/-! What a config class is built from, option by option: a parser stores one value for every argument, and
`_from_args` and `_from_toml` put the values of the options together. -/

namespace Scaler.Config

open Collections

variable {O : Type}

namespace ConfigClass

def nestedNames : ConfigClass O → List Text
  | nil => []
  | field _ rest => nestedNames rest
  | nested name _ inner rest => name :: (nestedNames inner ++ nestedNames rest)

def nestedKeys : ConfigClass O → List Text
  | nil => []
  | field _ rest => nestedKeys rest
  | nested name long inner rest => longKey name long :: (nestedKeys inner ++ nestedKeys rest)

/-- Whether a positional argument is found without strings for it. -/
def found (cls : ConfigClass O) (cli : Text → Option (List Text)) (o : OptionField O) : Bool :=
  o.action.takesNone && (cls.options.takeWhile fun x => x.name ≠ o.name).all fun x => x.action.passes cli

/-- Names do not conflict: all the fields of a class tree share one namespace, for argparse and for TOML. -/
structure Distinct (cls : ConfigClass O) : Prop where
  names : (cls.options.map OptionField.name ++ cls.nestedNames).Nodup
  keys : (cls.options.map OptionField.key ++ cls.nestedKeys).Nodup
  dests : (cls.options.map OptionField.dest).Nodup
  renamed : ∀ o ∈ cls.options, o.dest ≠ o.name → o.dest ∉ cls.options.map OptionField.name

end ConfigClass

section Parser

namespace Parser

variable {cli : Text → Option (List Text)}

theorem get?_addMissing (ns : Dict Text (Value O)) (e : Text × Value O) (k : Text) :
    (addMissing ns e).get? k = (ns.get? k).or (if k = e.1 then some e.2 else none) := by
  unfold addMissing
  split
  · next hcontains =>
    by_cases hk : k = e.1
    · obtain ⟨v, hv⟩ := Option.isSome_iff_exists.mp hcontains
      rw [hk, hv]
      rfl
    · rw [if_neg hk, Option.or_none]
  · next hcontains =>
    have hnone : ns.get? e.1 = none := Option.not_isSome_iff_eq_none.mp hcontains
    rw [Dict.get?_set]
    by_cases hk : k = e.1
    · rw [if_pos hk, if_pos hk, hk, hnone]
      rfl
    · rw [if_neg hk, if_neg hk, Option.or_none]

/-- The first value of a name stays. -/
theorem get?_foldl_addMissing (es : List (Text × Value O)) (ns : Dict Text (Value O)) (k : Text) :
    (es.foldl addMissing ns).get? k = (ns.get? k).or (lookupIn k es) := by
  induction es generalizing ns with
  | nil => simp [lookupIn]
  | cons e es ih =>
    rw [List.foldl_cons, ih, get?_addMissing, Option.or_assoc, lookupIn]
    congr 1
    by_cases hk : e.1 = k
    · rw [if_pos hk.symm, if_pos hk]
      rfl
    · rw [if_neg (fun heq => hk heq.symm), if_neg hk]
      rfl

theorem lookupIn_append {V : Type} (k : Text) (es fs : List (Text × V)) :
    lookupIn k (es ++ fs) = (lookupIn k es).or (lookupIn k fs) := by
  induction es with
  | nil => rfl
  | cons e es ih =>
    obtain ⟨a, b⟩ := e
    rw [List.cons_append, lookupIn, lookupIn]
    split
    · rfl
    · exact ih

theorem map_consumePositionals (reached : Bool) (actions : List (Action O)) :
    (consumePositionals cli reached actions).map Prod.fst = actions := by
  induction actions generalizing reached with
  | nil => rfl
  | cons a actions ih => rw [consumePositionals, List.map_cons, ih]

theorem values_ok {actions : List (Action O × Bool)} {vs : List (Text × Value O)} (h : values cli actions = .ok vs) :
    vs.map Prod.fst = actions.map (Action.dest ∘ Prod.fst) ∧
      ∀ a ∈ actions, ∃ v, actionValue cli a.1 a.2 = .ok v ∧ (a.1.dest, v) ∈ vs := by
  induction actions generalizing vs with
  | nil =>
    obtain rfl := Except.ok.inj h
    exact ⟨rfl, fun a ha => absurd ha List.not_mem_nil⟩
  | cons a actions ih =>
    rw [values] at h
    cases hvalue : actionValue cli a.1 a.2 with
    | error e =>
      rw [hvalue] at h
      cases h
    | ok v =>
      rw [hvalue] at h
      cases hrest : values cli actions with
      | error e =>
        rw [hrest] at h
        cases h
      | ok vs' =>
        rw [hrest] at h
        obtain rfl := Except.ok.inj h
        obtain ⟨hfst, hall⟩ := ih hrest
        refine ⟨by rw [List.map_cons, List.map_cons, hfst, Function.comp_apply], fun x hx => ?_⟩
        rcases List.mem_cons.mp hx with rfl | hx
        · exact ⟨v, hvalue, List.mem_cons_self⟩
        · obtain ⟨w, hw, hmem⟩ := hall x hx
          exact ⟨w, hw, List.mem_cons_of_mem _ hmem⟩

theorem values_error {actions : List (Action O × Bool)} {e : ParseError} (h : values cli actions = .error e) :
    ∃ a ∈ actions, actionValue cli a.1 a.2 = .error e := by
  induction actions with
  | nil => cases h
  | cons a actions ih =>
    rw [values] at h
    cases hvalue : actionValue cli a.1 a.2 with
    | error e' =>
      rw [hvalue] at h
      obtain rfl := Except.error.inj h
      exact ⟨a, List.mem_cons_self, hvalue⟩
    | ok v =>
      rw [hvalue] at h
      cases hrest : values cli actions with
      | error e' =>
        rw [hrest] at h
        obtain rfl := Except.error.inj h
        obtain ⟨x, hx, hxe⟩ := ih hrest
        exact ⟨x, List.mem_cons_of_mem _ hx, hxe⟩
      | ok vs' =>
        rw [hrest] at h
        cases h

/-- The namespace has the value of every argument, and below them the other defaults. -/
theorem parseArgs_ok {p : Parser O} {ns : Dict Text (Value O)} (hnodup : (p.actions.map Action.dest).Nodup)
    (h : p.parseArgs cli = .ok ns) :
    (∀ a ∈ consumePositionals cli true p.actions, (a.1.required = true → a.2 = false → (cli a.1.dest).isSome = true) ∧
      ∃ v, actionValue cli a.1 a.2 = .ok v ∧ ns.get? a.1.dest = some v) ∧
      ∀ k ∉ p.actions.map Action.dest, ns.get? k = p.defaults.get? k := by
  unfold parseArgs at h
  dsimp only at h
  cases hvalues : values cli (consumePositionals cli true p.actions) with
  | error e =>
    rw [hvalues] at h
    cases h
  | ok vs =>
    rw [hvalues] at h
    dsimp only at h
    split at h
    · cases h
    · next hrequired =>
      obtain rfl := Except.ok.inj h
      obtain ⟨hfst, hall⟩ := values_ok hvalues
      rw [← List.map_map, map_consumePositionals] at hfst
      rw [← hfst] at hnodup
      have hget : ∀ k, ((vs ++ p.defaults.entries).foldl addMissing Dict.empty).get? k =
          (lookupIn k vs).or (p.defaults.get? k) := by
        intro k
        rw [get?_foldl_addMissing, lookupIn_append, Dict.get?_empty, Option.none_or]
        rfl
      refine ⟨fun a ha => ⟨fun hreq hfound => ?_, ?_⟩, fun k hk => ?_⟩
      · by_contra hnone
        rw [Option.not_isSome_iff_eq_none] at hnone
        exact hrequired (List.any_eq_true.mpr ⟨a, ha, by simp [hreq, hfound, hnone]⟩)
      · obtain ⟨v, hv, hmem⟩ := hall a ha
        refine ⟨v, hv, ?_⟩
        rw [hget, lookupIn_of_mem hnodup hmem]
        rfl
      · rw [← hfst] at hk
        rw [hget, lookupIn_eq_none.mpr hk, Option.none_or]

theorem parseArgs_error {p : Parser O} {e : ParseError} (h : p.parseArgs cli = .error e) :
    (∃ a ∈ consumePositionals cli true p.actions, actionValue cli a.1 a.2 = .error e) ∨
      e = .missing ∧ ∃ a ∈ consumePositionals cli true p.actions, a.1.required = true ∧ a.2 = false ∧ cli a.1.dest = none := by
  unfold parseArgs at h
  dsimp only at h
  cases hvalues : values cli (consumePositionals cli true p.actions) with
  | error e' =>
    rw [hvalues] at h
    obtain rfl := Except.error.inj h
    exact .inl (values_error hvalues)
  | ok vs =>
    rw [hvalues] at h
    dsimp only at h
    split at h
    · next hrequired =>
      obtain ⟨a, ha, hreq⟩ := List.any_eq_true.mp hrequired
      rw [Bool.and_eq_true, Bool.and_eq_true, Bool.not_eq_true', Option.isNone_iff_eq_none] at hreq
      exact .inr ⟨(Except.error.inj h).symm, a, ha, hreq.1.1, hreq.1.2, hreq.2⟩
    · cases h

/-- A parser with two layers of defaults: an action keeps its own default below them. -/
theorem actions_injectDefaults (actions : List (Action O)) (defaults tomlDefs envDefs : Dict Text (Value O)) :
    (injectDefaults ⟨actions, defaults⟩ tomlDefs envDefs).actions = actions.map fun a =>
      { a with
        default := ((envDefs.get? a.dest).or (tomlDefs.get? a.dest)).getD a.default
        required := a.required && !(tomlDefs.contains a.dest || envDefs.contains a.dest) } := by
  simp only [injectDefaults, relax, setDefaults, List.map_map]
  refine List.map_congr_left fun a _ => ?_
  simp only [Function.comp_apply]
  cases ht : tomlDefs.get? a.dest with
  | none =>
    cases he : envDefs.get? a.dest with
    | none => simp
    | some v => simp
  | some w =>
    cases he : envDefs.get? a.dest with
    | none => simp
    | some v => simp

theorem get?_defaults_injectDefaults (actions : List (Action O)) (tomlDefs envDefs : Dict Text (Value O)) (k : Text) :
    (injectDefaults ⟨actions, Dict.empty⟩ tomlDefs envDefs).defaults.get? k = (envDefs.get? k).or (tomlDefs.get? k) := by
  change (envDefs.entries.foldl (fun d e => d.set e.1 e.2) (tomlDefs.entries.foldl (fun d e => d.set e.1 e.2) Dict.empty)).get? k = _
  rw [Dict.get?_update, Dict.get?_update, Dict.get?_empty, Option.or_none]

end Parser

end Parser

section Build

/-- The configuration with the given values of its options, if all of them have one. -/
def assemble (value : OptionField O → Except ParseError (Value O)) : ConfigClass O → Option (ConfigObject O)
  | .nil => some .nil
  | .field o rest =>
    match value o with
    | .ok v => (assemble value rest).map (.field o.name v)
    | .error _ => none
  | .nested name _ inner rest => (assemble value inner).bind fun config => (assemble value rest).map (.nested name config)

/-- A result that comes from the values of the options: with the first error, if there is any. -/
def Builds (value : OptionField O → Except ParseError (Value O)) (cls : ConfigClass O) : Except ParseError (ConfigObject O) → Prop
  | .ok config => assemble value cls = some config
  | .error e => ∃ o ∈ cls.options, value o = .error e

variable {value value' : OptionField O → Except ParseError (Value O)} {cls : ConfigClass O}

theorem assemble_eq_some {config : ConfigObject O} (h : assemble value cls = some config) : ∀ o ∈ cls.options, ∃ v, value o = .ok v := by
  induction cls generalizing config with
  | nil => exact fun o ho => absurd ho List.not_mem_nil
  | field o rest ih =>
    rw [assemble] at h
    cases hvalue : value o with
    | error e =>
      rw [hvalue] at h
      cases h
    | ok v =>
      rw [hvalue] at h
      obtain ⟨config', hrest, -⟩ := Option.map_eq_some_iff.mp h
      intro x hx
      rcases List.mem_cons.mp hx with rfl | hx
      · exact ⟨v, hvalue⟩
      · exact ih hrest x hx
  | nested name long inner rest ihInner ihRest =>
    obtain ⟨config', hinner, hmap⟩ := Option.bind_eq_some_iff.mp h
    obtain ⟨config'', hrest, -⟩ := Option.map_eq_some_iff.mp hmap
    intro x hx
    rcases List.mem_append.mp hx with hx | hx
    · exact ihInner hinner x hx
    · exact ihRest hrest x hx

theorem assemble_congr (h : ∀ o ∈ cls.options, value o = value' o) : assemble value cls = assemble value' cls := by
  induction cls with
  | nil => rfl
  | field o rest ih =>
    rw [assemble, assemble, h o List.mem_cons_self, ih fun x hx => h x (List.mem_cons_of_mem _ hx)]
  | nested name long inner rest ihInner ihRest =>
    rw [assemble, assemble, ihInner fun x hx => h x (List.mem_append_left _ hx),
      ihRest fun x hx => h x (List.mem_append_right _ hx)]

/-- The values can be read from the configuration. -/
theorem values_of_assemble {config : ConfigObject O} (h : assemble value cls = some config) (h' : assemble value' cls = some config) :
    ∀ o ∈ cls.options, value o = value' o := by
  induction cls generalizing config with
  | nil => exact fun o ho => absurd ho List.not_mem_nil
  | field o rest ih =>
    rw [assemble] at h h'
    cases hvalue : value o with
    | error e =>
      rw [hvalue] at h
      cases h
    | ok v =>
      cases hvalue' : value' o with
      | error e =>
        rw [hvalue'] at h'
        cases h'
      | ok v' =>
        rw [hvalue] at h
        rw [hvalue'] at h'
        obtain ⟨c, hc, rfl⟩ := Option.map_eq_some_iff.mp h
        obtain ⟨c', hc', heq⟩ := Option.map_eq_some_iff.mp h'
        obtain ⟨-, rfl, rfl⟩ := ConfigObject.field.inj heq
        intro x hx
        rcases List.mem_cons.mp hx with rfl | hx
        · rw [hvalue, hvalue']
        · exact ih hc hc' x hx
  | nested name long inner rest ihInner ihRest =>
    obtain ⟨c, hinner, hmap⟩ := Option.bind_eq_some_iff.mp h
    obtain ⟨r, hrest, rfl⟩ := Option.map_eq_some_iff.mp hmap
    obtain ⟨c', hinner', hmap'⟩ := Option.bind_eq_some_iff.mp h'
    obtain ⟨r', hrest', heq⟩ := Option.map_eq_some_iff.mp hmap'
    obtain ⟨-, rfl, rfl⟩ := ConfigObject.nested.inj heq
    intro x hx
    rcases List.mem_append.mp hx with hx | hx
    · exact ihInner hinner hinner' x hx
    · exact ihRest hrest hrest' x hx

/-- Two results agree where no option is missing, if the values of the options do. -/
theorem Builds.eq {r r' : Except ParseError (ConfigObject O)} (h : Builds value cls r) (h' : Builds value' cls r')
    (hsame : ∀ o ∈ cls.options, value o = value' o ∨ value o = .error .missing ∨ value' o = .error .missing)
    (hr : r ≠ .error .missing) (hr' : r' ≠ .error .missing) : r = r' := by
  cases r with
  | ok config =>
    have hok := assemble_eq_some h
    cases r' with
    | ok config' =>
      have hok' := assemble_eq_some h'
      have hvalues : ∀ o ∈ cls.options, value o = value' o := by
        intro o ho
        obtain ⟨v, hv⟩ := hok o ho
        obtain ⟨v', hv'⟩ := hok' o ho
        rcases hsame o ho with heq | hmissing | hmissing
        · exact heq
        · rw [hv] at hmissing
          cases hmissing
        · rw [hv'] at hmissing
          cases hmissing
      have heq : some config = some config' := h.symm.trans ((assemble_congr hvalues).trans h')
      rw [Option.some.inj heq]
    | error e =>
      obtain ⟨o, ho, he⟩ := h'
      obtain ⟨v, hv⟩ := hok o ho
      rcases hsame o ho with heq | hmissing | hmissing
      · rw [hv, he] at heq
        cases heq
      · rw [hv] at hmissing
        cases hmissing
      · rw [he] at hmissing
        obtain rfl := Except.error.inj hmissing
        exact absurd rfl hr'
  | error e =>
    obtain ⟨o, ho, he⟩ := h
    have hinvalid : e = .invalid := by
      cases e with
      | missing => exact absurd rfl hr
      | invalid => rfl
    subst hinvalid
    cases r' with
    | ok config' =>
      obtain ⟨v', hv'⟩ := assemble_eq_some h' o ho
      rcases hsame o ho with heq | hmissing | hmissing
      · rw [he, hv'] at heq
        cases heq
      · rw [he] at hmissing
        cases hmissing
      · rw [hv'] at hmissing
        cases hmissing
    | error e' =>
      cases e' with
      | missing => exact absurd rfl hr'
      | invalid => rfl

end Build

section Keywords

/-- The value of an option from what is given for it. -/
def OptionField.complete (o : OptionField O) (given : Except ParseError (Option (Value O))) : Except ParseError (Value O) :=
  given.bind fun given =>
    match given.or o.default with
    | some value => .ok value
    | none => .error .missing

/-- Both ways back to an object, by what they find for each option. -/
def keywordsWith (given : OptionField O → Except ParseError (Option (Value O))) : ConfigClass O → Except ParseError (Keywords O)
  | .nil => .ok .nil
  | .field o rest =>
    match given o with
    | .error e => .error e
    | .ok value => (keywordsWith given rest).map (.field o value)
  | .nested name _ inner rest =>
    match (keywordsWith given inner).bind construct with
    | .error e => .error e
    | .ok config => (keywordsWith given rest).map (.nested name config)

variable {given : OptionField O → Except ParseError (Option (Value O))} {cls : ConfigClass O}

theorem builds_keywordsWith : Builds (fun o => o.complete (given o)) cls ((keywordsWith given cls).bind construct) := by
  induction cls with
  | nil => rfl
  | field o rest ih =>
    rw [keywordsWith]
    cases hgiven : given o with
    | error e =>
      refine ⟨o, List.mem_cons_self, ?_⟩
      change o.complete (given o) = _
      rw [hgiven]
      rfl
    | ok value =>
      dsimp only
      cases hrest : keywordsWith given rest with
      | error e =>
        rw [hrest] at ih
        obtain ⟨x, hx, hxe⟩ := ih
        exact ⟨x, List.mem_cons_of_mem _ hx, hxe⟩
      | ok keywords =>
        rw [hrest] at ih
        change Builds _ _ (construct (.field o value keywords))
        rw [construct]
        cases hfilled : value.or o.default with
        | none =>
          refine ⟨o, List.mem_cons_self, ?_⟩
          change o.complete (given o) = _
          rw [hgiven]
          simp only [OptionField.complete, Except.bind, hfilled]
        | some v =>
          have hvalue : o.complete (given o) = .ok v := by
            rw [hgiven]
            simp only [OptionField.complete, Except.bind, hfilled]
          change Builds _ rest (construct keywords) at ih
          dsimp only
          cases hconstruct : construct keywords with
          | error e =>
            rw [hconstruct] at ih
            obtain ⟨x, hx, hxe⟩ := ih
            exact ⟨x, List.mem_cons_of_mem _ hx, hxe⟩
          | ok config =>
            rw [hconstruct] at ih
            change assemble _ _ = some _
            rw [assemble, hvalue]
            dsimp only
            rw [show assemble _ rest = some config from ih]
            rfl
  | nested name long inner rest ihInner ihRest =>
    rw [keywordsWith]
    cases hinner : (keywordsWith given inner).bind construct with
    | error e =>
      rw [hinner] at ihInner
      obtain ⟨x, hx, hxe⟩ := ihInner
      exact ⟨x, List.mem_append_left _ hx, hxe⟩
    | ok config =>
      rw [hinner] at ihInner
      dsimp only
      cases hrest : keywordsWith given rest with
      | error e =>
        rw [hrest] at ihRest
        obtain ⟨x, hx, hxe⟩ := ihRest
        exact ⟨x, List.mem_append_right _ hx, hxe⟩
      | ok keywords =>
        rw [hrest] at ihRest
        change Builds _ _ ((construct keywords).map (.nested name config))
        change Builds _ rest (construct keywords) at ihRest
        cases hconstruct : construct keywords with
        | error e =>
          rw [hconstruct] at ihRest
          obtain ⟨x, hx, hxe⟩ := ihRest
          exact ⟨x, List.mem_append_right _ hx, hxe⟩
        | ok config' =>
          rw [hconstruct] at ihRest
          change assemble _ _ = some _
          rw [assemble, show assemble _ inner = some config from ihInner, Option.bind_some,
            show assemble _ rest = some config' from ihRest]
          rfl

theorem keywordsWith_congr {given' : OptionField O → Except ParseError (Option (Value O))}
    (h : ∀ o ∈ cls.options, given o = given' o) : keywordsWith given cls = keywordsWith given' cls := by
  induction cls with
  | nil => rfl
  | field o rest ih =>
    rw [keywordsWith, keywordsWith, h o List.mem_cons_self, ih fun x hx => h x (List.mem_cons_of_mem _ hx)]
  | nested name long inner rest ihInner ihRest =>
    rw [keywordsWith, keywordsWith, ihInner fun x hx => h x (List.mem_append_left _ hx),
      ihRest fun x hx => h x (List.mem_append_right _ hx)]

end Keywords

section Args

/-- What `_from_args` finds for an option. -/
def argsGiven (kwargs : Dict Text (Value O)) (o : OptionField O) : Except ParseError (Option (Value O)) :=
  match kwargs.get? o.name with
  | none => .ok none
  | some value => (o.reconvert value).map some

theorem argsGiven_congr {kwargs kwargs' : Dict Text (Value O)} {o : OptionField O} (h : kwargs.get? o.name = kwargs'.get? o.name) :
    argsGiven kwargs o = argsGiven kwargs' o := by
  rw [argsGiven, argsGiven, h]

/-- Popping the arguments of distinct options is reading them; other arguments stay. -/
theorem argsKeywords_eq {cls : ConfigClass O} (hnodup : (cls.options.map OptionField.name).Nodup) (kwargs : Dict Text (Value O)) :
    (argsKeywords cls kwargs).map Prod.fst = keywordsWith (argsGiven kwargs) cls ∧
      ∀ keywords kwargs', argsKeywords cls kwargs = .ok (keywords, kwargs') →
        ∀ k ∉ cls.options.map OptionField.name, kwargs'.get? k = kwargs.get? k := by
  induction cls generalizing kwargs with
  | nil =>
    refine ⟨rfl, fun keywords kwargs' h k _ => ?_⟩
    obtain ⟨-, rfl⟩ := Prod.mk.inj (Except.ok.inj h)
    rfl
  | field o rest ih =>
    obtain ⟨hnew, hnodup⟩ := List.nodup_cons.mp hnodup
    rw [argsKeywords, keywordsWith]
    cases hget : kwargs.get? o.name with
    | none =>
      obtain ⟨heq, hframe⟩ := ih hnodup kwargs
      have hgiven : argsGiven kwargs o = .ok none := by rw [argsGiven, hget]
      rw [hgiven]
      dsimp only
      constructor
      · rw [← heq]
        cases argsKeywords rest kwargs <;> rfl
      · intro keywords kwargs' h k hk
        cases hrest : argsKeywords rest kwargs with
        | error e =>
          rw [hrest] at h
          cases h
        | ok result =>
          rw [hrest] at h
          obtain ⟨-, rfl⟩ := Prod.mk.inj (Except.ok.inj h)
          exact hframe _ _ hrest k fun hmem => hk (List.mem_cons_of_mem _ hmem)
    | some v =>
      dsimp only
      cases hvalue : o.reconvert v with
      | error e =>
        have hgiven : argsGiven kwargs o = .error e := by
          rw [argsGiven, hget]
          simp only [hvalue, Except.map]
        rw [hgiven]
        exact ⟨rfl, nofun⟩
      | ok w =>
        have hgiven : argsGiven kwargs o = .ok (some w) := by
          rw [argsGiven, hget]
          simp only [hvalue, Except.map]
        obtain ⟨heq, hframe⟩ := ih hnodup (kwargs.erase o.name)
        have hcongr : ∀ x ∈ rest.options, argsGiven (kwargs.erase o.name) x = argsGiven kwargs x := by
          intro x hx
          refine argsGiven_congr (Dict.get?_erase_ne _ ?_)
          rintro hname
          exact hnew (hname ▸ List.mem_map_of_mem hx)
        rw [hgiven, ← keywordsWith_congr hcongr]
        dsimp only
        constructor
        · rw [← heq]
          cases argsKeywords rest (kwargs.erase o.name) <;> rfl
        · intro keywords kwargs' h k hk
          cases hrest : argsKeywords rest (kwargs.erase o.name) with
          | error e =>
            rw [hrest] at h
            cases h
          | ok result =>
            rw [hrest] at h
            obtain ⟨-, rfl⟩ := Prod.mk.inj (Except.ok.inj h)
            rw [hframe _ _ hrest k fun hmem => hk (List.mem_cons_of_mem _ hmem)]
            exact Dict.get?_erase_ne _ fun hname => hk (hname ▸ List.mem_cons_self)
  | nested name long inner rest ihInner ihRest =>
    rw [ConfigClass.options, List.map_append] at hnodup
    obtain ⟨hnodupInner, hnodupRest, hdisjoint⟩ := List.nodup_append.mp hnodup
    obtain ⟨heqInner, hframeInner⟩ := ihInner hnodupInner kwargs
    rw [argsKeywords, keywordsWith, ← heqInner]
    cases hinner : argsKeywords inner kwargs with
    | error e => exact ⟨rfl, nofun⟩
    | ok result =>
      obtain ⟨keywords₁, kwargs₁⟩ := result
      dsimp only [Except.map, Except.bind]
      cases hconstruct : construct keywords₁ with
      | error e => exact ⟨rfl, nofun⟩
      | ok config =>
        dsimp only
        have hframe₁ := hframeInner _ _ hinner
        obtain ⟨heqRest, hframeRest⟩ := ihRest hnodupRest kwargs₁
        have hcongr : ∀ x ∈ rest.options, argsGiven kwargs₁ x = argsGiven kwargs x := by
          intro x hx
          refine argsGiven_congr (hframe₁ _ fun hmem => ?_)
          exact hdisjoint _ hmem _ (List.mem_map_of_mem hx) rfl
        rw [← keywordsWith_congr hcongr, ← heqRest]
        cases hrest : argsKeywords rest kwargs₁ with
        | error e => exact ⟨rfl, nofun⟩
        | ok result =>
          refine ⟨rfl, fun keywords kwargs' h k hk => ?_⟩
          obtain ⟨-, rfl⟩ := Prod.mk.inj (Except.ok.inj h)
          rw [ConfigClass.options, List.map_append, List.mem_append, not_or] at hk
          exact (hframeRest _ _ hrest k hk.2).trans (hframe₁ k hk.1)

theorem builds_fromArgs {cls : ConfigClass O} (hnodup : (cls.options.map OptionField.name).Nodup) (kwargs : Dict Text (Value O)) :
    Builds (fun o => o.complete (argsGiven kwargs o)) cls (fromArgs cls kwargs) := by
  have heq : fromArgs cls kwargs = (keywordsWith (argsGiven kwargs) cls).bind construct := by
    rw [← (argsKeywords_eq hnodup kwargs).1, fromArgs]
    cases argsKeywords cls kwargs <;> rfl
  rw [heq]
  exact builds_keywordsWith

end Args

section Toml

theorem normalize_normalize (key : Text) : normalize (normalize key) = normalize key := by
  unfold normalize
  rw [List.map_map]
  refine List.map_congr_left fun c _ => ?_
  simp only [Function.comp_apply]
  split
  · rfl
  · rfl

theorem normalize_longKey (name : Text) (long : Option Text) : normalize (longKey name long) = longKey name long :=
  normalize_normalize _

theorem normalized_of_mem_normalizeKeys {data : Dict Text (Value O)} : ∀ e ∈ (normalizeKeys data).entries, normalize e.1 = e.1 := by
  have hfold : ∀ (es : List (Text × Value O)) (d : Dict Text (Value O)), (∀ k ∈ d.keys, normalize k = k) →
      ∀ k ∈ (es.foldl (fun d e => d.set (normalize e.1) e.2) d).keys, normalize k = k := by
    intro es
    induction es with
    | nil => exact fun d h => h
    | cons e es ih =>
      intro d h
      refine ih _ fun k hk => ?_
      rcases mem_keys_setIn.mp hk with rfl | hk
      · exact normalize_normalize _
      · exact h k hk
  intro e he
  exact hfold data.entries Dict.empty (fun k hk => absurd hk List.not_mem_nil) e.1 (List.mem_map_of_mem he)

theorem normalizeKeys_of_normalized {data : Dict Text (Value O)} (h : ∀ e ∈ data.entries, normalize e.1 = e.1) :
    normalizeKeys data = data := by
  have hentries : (normalizeKeys data).entries = data.entries := by
    have hcongr : normalizeKeys data = data.entries.foldl (fun d e => d.set e.1 e.2) (Dict.empty : Dict Text (Value O)) := by
      refine List.foldl_ext _ _ _ fun d e he => ?_
      rw [h e he]
    rw [hcongr, Dict.entries_foldl_set (by exact data.nodup)]
    rfl
  cases hleft : normalizeKeys data
  cases data
  rw [hleft] at hentries
  simpa using hentries

theorem normalizeKeys_normalizeKeys (data : Dict Text (Value O)) : normalizeKeys (normalizeKeys data) = normalizeKeys data :=
  normalizeKeys_of_normalized normalized_of_mem_normalizeKeys

/-- What `_from_toml` finds for an option. -/
def tomlGiven (normalized : Dict Text (Value O)) (o : OptionField O) : Except ParseError (Option (Value O)) :=
  match normalized.get? o.key with
  | none => .ok none
  | some value => (o.reconvert value).map some

theorem tomlKeywords_eq (cls : ConfigClass O) {normalized : Dict Text (Value O)} (h : normalizeKeys normalized = normalized) :
    tomlKeywords cls normalized = keywordsWith (tomlGiven normalized) cls := by
  induction cls with
  | nil => rfl
  | field o rest ih =>
    rw [tomlKeywords, keywordsWith, tomlGiven]
    cases normalized.get? o.key with
    | none => rw [ih]
    | some v =>
      dsimp only
      cases o.reconvert v with
      | error e => rfl
      | ok w => rw [ih]; rfl
  | nested name long inner rest ihInner ihRest =>
    rw [tomlKeywords, keywordsWith, h, ihInner]
    cases (keywordsWith (tomlGiven normalized) inner).bind construct with
    | error e => rfl
    | ok config => exact congrArg (Except.map _) ihRest

theorem builds_fromToml (cls : ConfigClass O) (data : Dict Text (Value O)) :
    Builds (fun o => o.complete (tomlGiven (normalizeKeys data) o)) cls (fromToml cls data) := by
  rw [fromToml, tomlKeywords_eq cls (normalizeKeys_normalizeKeys data)]
  exact builds_keywordsWith

end Toml

section Parsed

namespace OptionField

variable (o : OptionField O)

/-- What the parser stores for the argument, with the defaults that were injected. -/
def storedValue (found : Bool) (injected : Text → Option (Value O)) (cli : Text → Option (List Text)) :
    Except ParseError (Value O) :=
  match cli o.dest with
  | some arguments =>
    match o.stored arguments with
    | some value => .ok value
    | none => .error .invalid
  | none =>
    if (o.isRequired = true ∧ found = false) ∧ injected o.dest = none then .error .missing
    else o.action.takeDefault found ((injected o.dest).getD (o.default.getD .none))

/-- What becomes of the option: a value that is stored under another name is lost. -/
def parsedValue (found : Bool) (injected : Text → Option (Value O)) (cli : Text → Option (List Text)) :
    Except ParseError (Value O) :=
  (o.storedValue found injected cli).bind fun value =>
    if o.dest = o.name then o.reconvert value
    else
      o.complete (match injected o.name with
        | none => .ok none
        | some value => (o.reconvert value).map some)

end OptionField

theorem configureParser_eq (cls : ConfigClass O) : configureParser cls = cls.options.map OptionField.action := by
  induction cls with
  | nil => rfl
  | field o rest ih => rw [configureParser, ih, ConfigClass.options, List.map_cons]
  | nested name long inner rest ihInner ihRest =>
    rw [configureParser, ihInner, ihRest, ConfigClass.options, List.map_append]

/-- The argument of an option with its injected default. -/
def OptionField.actionWith (injected : Text → Option (Value O)) (o : OptionField O) : Action O :=
  { o.action with
    default := (injected o.dest).getD (o.default.getD .none)
    required := o.isRequired && (injected o.dest).isNone }

theorem actionValue_actionWith {injected : Text → Option (Value O)} {cli : Text → Option (List Text)} {o : OptionField O}
    {found : Bool} (h : (o.actionWith injected).required = true → found = false → (cli o.dest).isSome = true) :
    Parser.actionValue cli (o.actionWith injected) found = o.storedValue found injected cli := by
  unfold Parser.actionValue OptionField.storedValue
  change (match cli o.dest with | some arguments => _ | none => _) = _
  cases hcli : cli o.dest with
  | some arguments => rfl
  | none =>
    have hfree : ¬((o.actionWith injected).required && !found) = true := by
      rw [hcli] at h
      simpa using h
    have hgiven : ¬((o.isRequired = true ∧ found = false) ∧ injected o.dest = none) := by
      rintro ⟨⟨hrequired, hfound⟩, hnone⟩
      simp [OptionField.actionWith, hrequired, hfound, hnone] at hfree
    dsimp only
    rw [if_neg hfree, if_neg hgiven]
    rfl

/-- The positional arguments that are found, option by option. -/
theorem consumePositionals_actionWith {injected : Text → Option (Value O)} {cli : Text → Option (List Text)} (reached : Bool)
    {os : List (OptionField O)} (hnodup : (os.map OptionField.name).Nodup) :
    Parser.consumePositionals cli reached (os.map (OptionField.actionWith injected)) = os.map fun o =>
      (o.actionWith injected,
        (reached && (os.takeWhile fun x => x.name ≠ o.name).all fun x => x.action.passes cli) && o.action.takesNone) := by
  induction os generalizing reached with
  | nil => rfl
  | cons o os ih =>
    obtain ⟨hnew, hnodup⟩ := List.nodup_cons.mp hnodup
    rw [List.map_cons, Parser.consumePositionals, List.map_cons, ih _ hnodup]
    congr 1
    · rw [List.takeWhile_cons_of_neg (by simp), List.all_nil, Bool.and_true]
      rfl
    · refine List.map_congr_left fun x hx => ?_
      have hne : o.name ≠ x.name := fun heq => hnew (heq ▸ List.mem_map_of_mem hx)
      rw [List.takeWhile_cons_of_pos (by simpa using hne), List.all_cons, ← Bool.and_assoc]
      rfl

theorem Builds.congr {value value' : OptionField O → Except ParseError (Value O)} {cls : ConfigClass O}
    {r : Except ParseError (ConfigObject O)} (h : Builds value cls r) (hsame : ∀ o ∈ cls.options, value o = value' o) :
    Builds value' cls r := by
  cases r with
  | ok config => exact (assemble_congr hsame).symm.trans h
  | error e =>
    obtain ⟨o, ho, he⟩ := h
    exact ⟨o, ho, (hsame o ho).symm.trans he⟩

/-- No other argument is stored under the name of an option. -/
theorem ConfigClass.Distinct.not_mem_dests {cls : ConfigClass O} (h : cls.Distinct) {o : OptionField O} (ho : o ∈ cls.options)
    (hrenamed : o.dest ≠ o.name) : o.name ∉ cls.options.map OptionField.dest := by
  intro hmem
  obtain ⟨x, hx, hdest⟩ := List.mem_map.mp hmem
  by_cases hname : x.dest = x.name
  · have heq : x = o := List.inj_on_of_nodup_map (List.nodup_append.mp h.names).1 hx ho (hname.symm.trans hdest)
    subst heq
    exact hrenamed hname
  · exact h.renamed x hx hname (hdest ▸ List.mem_map_of_mem ho)

/-- A parser with injected defaults and `_from_args` behind it. -/
theorem builds_parseArgs {cls : ConfigClass O} (h : cls.Distinct) (tomlDefs envDefs : Dict Text (Value O))
    (cli : Text → Option (List Text)) :
    Builds (fun o => o.parsedValue (cls.found cli o) (fun k => (envDefs.get? k).or (tomlDefs.get? k)) cli) cls
      (((injectDefaults ⟨configureParser cls, Dict.empty⟩ tomlDefs envDefs).parseArgs cli).bind (fromArgs cls)) := by
  obtain ⟨injected, hinjected⟩ : ∃ f : Text → Option (Value O), f = fun k => (envDefs.get? k).or (tomlDefs.get? k) := ⟨_, rfl⟩
  obtain ⟨p, hp⟩ : ∃ p, p = injectDefaults ⟨configureParser cls, Dict.empty⟩ tomlDefs envDefs := ⟨_, rfl⟩
  have hactions : p.actions = cls.options.map (OptionField.actionWith injected) := by
    rw [hp, Parser.actions_injectDefaults, configureParser_eq, List.map_map]
    refine List.map_congr_left fun o _ => ?_
    have hrelaxed : (!(tomlDefs.contains o.dest || envDefs.contains o.dest)) = (injected o.dest).isNone := by
      rw [hinjected, Dict.contains, Dict.contains]
      dsimp only
      cases envDefs.get? o.dest <;> cases tomlDefs.get? o.dest <;> rfl
    simp only [Function.comp_apply, OptionField.actionWith, ← hrelaxed]
    rw [hinjected]
    rfl
  have hfound : Parser.consumePositionals cli true p.actions =
      cls.options.map fun o => (o.actionWith injected, cls.found cli o) := by
    rw [hactions, consumePositionals_actionWith true (List.nodup_append.mp h.names).1]
    refine List.map_congr_left fun o _ => ?_
    rw [ConfigClass.found, Bool.true_and, Bool.and_comm]
  have hdests : p.actions.map Action.dest = cls.options.map OptionField.dest := by
    rw [hactions, List.map_map]
    rfl
  have hdefaults : ∀ k, p.defaults.get? k = injected k := by
    intro k
    rw [hp, Parser.get?_defaults_injectDefaults, hinjected]
  rw [← hp, ← hinjected]
  cases hparse : p.parseArgs cli with
  | error e =>
    rcases Parser.parseArgs_error hparse with ⟨a, ha, hvalue⟩ | ⟨rfl, a, ha, hrequired, hlost, hnone⟩
    · rw [hfound] at ha
      obtain ⟨o, ho, rfl⟩ := List.mem_map.mp ha
      refine ⟨o, ho, ?_⟩
      have hstored : o.storedValue (cls.found cli o) injected cli = .error e := by
        rw [← hvalue]
        refine (actionValue_actionWith fun hrequired hlost => ?_).symm
        by_contra hcli
        have hcli' : cli (o.actionWith injected).dest = none := Option.not_isSome_iff_eq_none.mp hcli
        dsimp only at hvalue
        rw [Parser.actionValue, hcli', hlost, hrequired] at hvalue
        cases hvalue
      change o.parsedValue (cls.found cli o) injected cli = _
      rw [OptionField.parsedValue, hstored]
      rfl
    · rw [hfound] at ha
      obtain ⟨o, ho, rfl⟩ := List.mem_map.mp ha
      refine ⟨o, ho, ?_⟩
      have hmissing : o.isRequired = true ∧ injected o.dest = none := by
        simpa [OptionField.actionWith] using hrequired
      have hcli : cli o.dest = none := hnone
      have hnot : cls.found cli o = false := hlost
      change o.parsedValue (cls.found cli o) injected cli = _
      rw [OptionField.parsedValue, OptionField.storedValue, hcli]
      dsimp only
      rw [if_pos ⟨⟨hmissing.1, hnot⟩, hmissing.2⟩]
      rfl
  | ok ns =>
    obtain ⟨hstored, hothers⟩ := Parser.parseArgs_ok (hdests ▸ h.dests) hparse
    refine (builds_fromArgs (List.nodup_append.mp h.names).1 ns).congr fun o ho => ?_
    obtain ⟨hrequired, v, hv, hns⟩ := hstored (o.actionWith injected, cls.found cli o)
      (hfound ▸ List.mem_map_of_mem (f := fun o => (OptionField.actionWith injected o, cls.found cli o)) ho)
    rw [actionValue_actionWith hrequired] at hv
    rw [OptionField.parsedValue, hv, argsGiven]
    simp only [Except.bind]
    by_cases hname : o.dest = o.name
    · have hget : ns.get? o.name = some v := hname ▸ hns
      rw [if_pos hname, hget]
      cases hreconvert : o.reconvert v with
      | error e => simp [OptionField.complete, hreconvert, Except.map, Except.bind]
      | ok w => simp [OptionField.complete, hreconvert, Except.map, Except.bind]
    · have hget : ns.get? o.name = injected o.name := by
        rw [hothers o.name (hdests ▸ h.not_mem_dests ho hname), hdefaults]
      rw [if_neg hname, hget]

end Parsed

end Scaler.Config
