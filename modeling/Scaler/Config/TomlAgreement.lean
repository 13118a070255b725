import Scaler.Config.Reconstruction

/-! `parse_with_section` and `_from_toml` on the same section. The first makes the section the defaults of a
parser and takes the namespace apart again; the second looks the keys up in the class tree. -/

namespace Scaler.Config

open Collections

variable {O : Type}

namespace ConfigClass

/-- No nested class. -/
def Flat : ConfigClass O → Prop
  | nil => True
  | field _ rest => Flat rest
  | nested _ _ _ _ => False

/-- The nested classes have no nested classes. -/
def Shallow : ConfigClass O → Prop
  | nil => True
  | field _ rest => Shallow rest
  | nested _ _ inner rest => Flat inner ∧ Shallow rest

end ConfigClass

def noCli : Text → Option (List Text) := fun _ => none

/-- An argument that has to be given is stored under the name of its field. -/
def ConfigClass.Buildable (cls : ConfigClass O) : Prop :=
  ∀ o ∈ cls.options, o.isRequired = true → cls.found noCli o = false → o.dest = o.name

def noEnviron : Text → Option Text := fun _ => none

/-- The keys that `_toml_section_defaults` lets through. -/
def RecognisedByParser (cls : ConfigClass O) (key : Text) : Prop := ((keyToDest cls Dict.empty).get? (normalize key)).isSome = true

/-- The keys that `_from_toml` looks up. -/
def RecognisedByToml (cls : ConfigClass O) (key : Text) : Prop := normalize key ∈ cls.options.map OptionField.key

/-- A value that can stand in a section. -/
def Value.InToml : Value O → Prop
  | .none => False
  | .object _ => False
  | _ => True

/-- The two entry points recognise the same keys, and build the same object if no required field is missing. -/
def EntryPointsAgree (cls : ConfigClass O) : Prop :=
  (∀ key, RecognisedByParser cls key ↔ RecognisedByToml cls key) ∧
    ∀ sectionData : Dict Text (Value O), (∀ e ∈ sectionData.entries, e.2.InToml) →
      parseWithSection cls sectionData noEnviron noCli ≠ .error .missing → fromToml cls sectionData ≠ .error .missing →
      parseWithSection cls sectionData noEnviron noCli = fromToml cls sectionData

/-- Nothing that argparse stores in place of a missing argument is changed by it: neither a value of the section nor
a default. -/
def OptionField.Stable (o : OptionField O) (found : Bool) : Prop :=
  (o.dest = o.name → ∀ value : Value O, value.InToml →
    (o.action.takeDefault found value).bind o.reconvert = o.reconvert value) ∧
  (¬(o.isRequired = true ∧ found = false) →
    (o.dest = o.name → ∀ value, o.default = some value → (o.action.takeDefault found value).bind o.reconvert = .ok value) ∧
    (o.dest ≠ o.name → ∃ stored, o.action.takeDefault found (o.default.getD .none) = .ok stored))

section Keys

/-- The keys and names that the parser's side knows, in the order in which it stores them. -/
def nestedKeyPairs : ConfigClass O → List (Text × Text)
  | .nil => []
  | .field o rest => (o.key, o.name) :: nestedKeyPairs rest
  | .nested name long _ rest => (longKey name long, name) :: nestedKeyPairs rest

def keyPairs : ConfigClass O → List (Text × Text)
  | .nil => []
  | .field o rest => (o.key, o.name) :: keyPairs rest
  | .nested _ _ inner rest => nestedKeyPairs inner ++ keyPairs rest

theorem nestedKeyToDest_eq (cls : ConfigClass O) (d : Dict Text Text) :
    nestedKeyToDest cls d = (nestedKeyPairs cls).foldl (fun d e => d.set e.1 e.2) d := by
  induction cls generalizing d with
  | nil => rfl
  | field o rest ih => exact ih _
  | nested name long inner rest _ ih => exact ih _

theorem keyToDest_eq (cls : ConfigClass O) (d : Dict Text Text) :
    keyToDest cls d = (keyPairs cls).foldl (fun d e => d.set e.1 e.2) d := by
  induction cls generalizing d with
  | nil => rfl
  | field o rest ih => exact ih _
  | nested name long inner rest _ ih =>
    rw [keyToDest, ih, nestedKeyToDest_eq, keyPairs, List.foldl_append]

theorem isSome_foldl_set (es : List (Text × Text)) (d : Dict Text Text) (k : Text) :
    ((es.foldl (fun d e => d.set e.1 e.2) d).get? k).isSome = true ↔ k ∈ es.map Prod.fst ∨ (d.get? k).isSome = true := by
  induction es generalizing d with
  | nil => simp
  | cons e es ih =>
    rw [List.foldl_cons, ih, Dict.get?_set, List.map_cons, List.mem_cons]
    by_cases hk : k = e.1
    · simp [hk]
    · simp [hk]

theorem recognisedByParser_iff {cls : ConfigClass O} {key : Text} :
    RecognisedByParser cls key ↔ normalize key ∈ (keyPairs cls).map Prod.fst := by
  rw [RecognisedByParser, keyToDest_eq, isSome_foldl_set, Dict.get?_empty]
  simp

theorem nestedKeyPairs_of_flat {cls : ConfigClass O} (h : cls.Flat) :
    nestedKeyPairs cls = cls.options.map fun o => (o.key, o.name) := by
  induction cls with
  | nil => rfl
  | field o rest ih => rw [nestedKeyPairs, ih h, ConfigClass.options, List.map_cons]
  | nested name long inner rest _ _ => exact absurd h id

theorem keyPairs_of_shallow {cls : ConfigClass O} (h : cls.Shallow) :
    keyPairs cls = cls.options.map fun o => (o.key, o.name) := by
  induction cls with
  | nil => rfl
  | field o rest ih => rw [keyPairs, ih h, ConfigClass.options, List.map_cons]
  | nested name long inner rest _ ih =>
    rw [keyPairs, nestedKeyPairs_of_flat h.1, ih h.2, ConfigClass.options, List.map_append]

theorem exists_nestedKey_of_not_flat {cls : ConfigClass O} (h : ¬cls.Flat) :
    ∃ k ∈ cls.nestedKeys, k ∈ (nestedKeyPairs cls).map Prod.fst := by
  induction cls with
  | nil => exact absurd trivial h
  | field o rest ih =>
    obtain ⟨k, hk, hpair⟩ := ih h
    exact ⟨k, hk, List.mem_cons_of_mem _ hpair⟩
  | nested name long inner rest _ _ => exact ⟨longKey name long, List.mem_cons_self, List.mem_cons_self⟩

/-- The name of a class that is nested too deep is taken for a key. -/
theorem exists_nestedKey_of_not_shallow {cls : ConfigClass O} (h : ¬cls.Shallow) :
    ∃ k ∈ cls.nestedKeys, k ∈ (keyPairs cls).map Prod.fst := by
  induction cls with
  | nil => exact absurd trivial h
  | field o rest ih =>
    obtain ⟨k, hk, hpair⟩ := ih h
    exact ⟨k, hk, List.mem_cons_of_mem _ hpair⟩
  | nested name long inner rest _ ih =>
    by_cases hflat : inner.Flat
    · obtain ⟨k, hk, hpair⟩ := ih fun hrest => h ⟨hflat, hrest⟩
      refine ⟨k, List.mem_cons_of_mem _ (List.mem_append_right _ hk), ?_⟩
      rw [keyPairs, List.map_append]
      exact List.mem_append_right _ hpair
    · obtain ⟨k, hk, hpair⟩ := exists_nestedKey_of_not_flat hflat
      refine ⟨k, List.mem_cons_of_mem _ (List.mem_append_left _ hk), ?_⟩
      rw [keyPairs, List.map_append]
      exact List.mem_append_left _ hpair

theorem normalize_of_mem_nestedKeys {cls : ConfigClass O} {k : Text} (h : k ∈ cls.nestedKeys) : normalize k = k := by
  induction cls with
  | nil => exact absurd h List.not_mem_nil
  | field o rest ih => exact ih h
  | nested name long inner rest ihInner ihRest =>
    rcases List.mem_cons.mp h with rfl | h
    · exact normalize_longKey name long
    · exact (List.mem_append.mp h).elim ihInner ihRest

/-- The same keys are recognised exactly if no class is nested in a nested one. -/
theorem recognised_iff_shallow {cls : ConfigClass O} (h : cls.Distinct) :
    (∀ key, RecognisedByParser cls key ↔ RecognisedByToml cls key) ↔ cls.Shallow := by
  constructor
  · intro hall
    by_contra hdeep
    obtain ⟨k, hk, hpair⟩ := exists_nestedKey_of_not_shallow hdeep
    have hnormal := normalize_of_mem_nestedKeys hk
    have hparser : RecognisedByParser cls k := recognisedByParser_iff.mpr (hnormal.symm ▸ hpair)
    have htoml := (hall k).mp hparser
    rw [RecognisedByToml, hnormal] at htoml
    exact (List.nodup_append.mp h.keys).2.2 k htoml k hk rfl
  · intro hshallow key
    rw [recognisedByParser_iff, keyPairs_of_shallow hshallow, RecognisedByToml, List.map_map]
    rfl

end Keys

section Values

variable {cls : ConfigClass O}

theorem envDefaults_noEnviron (cls : ConfigClass O) (result : Dict Text (Value O)) : envDefaults noEnviron cls result = .ok result := by
  induction cls generalizing result with
  | nil => rfl
  | field o rest ih =>
    have hunset : o.envVar.bind noEnviron = none := by
      cases o.envVar <;> rfl
    rw [envDefaults, hunset]
    exact ih result
  | nested name long inner rest ihInner ihRest =>
    rw [envDefaults, ihInner]
    exact ihRest result

/-- The defaults that the section gives. -/
def injectedBy (cls : ConfigClass O) (sectionData : Dict Text (Value O)) (name : Text) : Option (Value O) :=
  (tomlSectionDefaults sectionData cls).get? name

theorem builds_parseWithSection (h : cls.Distinct) (sectionData : Dict Text (Value O)) :
    Builds (fun o => o.parsedValue (cls.found noCli o) (injectedBy cls sectionData) noCli) cls
      (parseWithSection cls sectionData noEnviron noCli) := by
  rw [parseWithSection, envDefaults_noEnviron]
  exact builds_parseArgs h (tomlSectionDefaults sectionData cls) Dict.empty noCli

theorem ConfigClass.Distinct.eq_of_key (h : cls.Distinct) {o x : OptionField O} (ho : o ∈ cls.options) (hx : x ∈ cls.options)
    (hkey : o.key = x.key) : o = x := List.inj_on_of_nodup_map (List.nodup_append.mp h.keys).1 ho hx hkey

theorem ConfigClass.Distinct.eq_of_name (h : cls.Distinct) {o x : OptionField O} (ho : o ∈ cls.options) (hx : x ∈ cls.options)
    (hname : o.name = x.name) : o = x := List.inj_on_of_nodup_map (List.nodup_append.mp h.names).1 ho hx hname

theorem keyToDest_eq_some (h : cls.Distinct) (hshallow : cls.Shallow) {k name : Text}
    (hget : (keyToDest cls Dict.empty).get? k = some name) : ∃ o ∈ cls.options, o.key = k ∧ o.name = name := by
  rw [keyToDest_eq, keyPairs_of_shallow hshallow, List.foldl_map,
    Dict.get?_foldl_set OptionField.key OptionField.name (List.nodup_append.mp h.keys).1, Dict.get?_empty, Option.or_none] at hget
  obtain ⟨o, hfind, hname⟩ := Option.map_eq_some_iff.mp hget
  exact ⟨o, List.mem_of_find?_eq_some hfind, by simpa using List.find?_some hfind, hname⟩

theorem keyToDest_eq_none {k : Text} (hshallow : cls.Shallow) (hget : (keyToDest cls Dict.empty).get? k = none) :
    ∀ o ∈ cls.options, o.key ≠ k := by
  intro o ho hkey
  have hsome := (isSome_foldl_set (keyPairs cls) Dict.empty k).mpr (.inl ?_)
  · rw [← keyToDest_eq, hget] at hsome
    cases hsome
  · rw [keyPairs_of_shallow hshallow, List.map_map, ← hkey]
    exact List.mem_map_of_mem (f := fun o => o.key) ho

/-- Both sides read the section in its order, so that a later spelling of a key goes over an earlier one. -/
theorem injectedBy_eq (h : cls.Distinct) (hshallow : cls.Shallow) (sectionData : Dict Text (Value O)) :
    (∀ o ∈ cls.options, injectedBy cls sectionData o.name = (normalizeKeys sectionData).get? o.key) ∧
      ∀ k ∉ cls.options.map OptionField.name, injectedBy cls sectionData k = none := by
  have hfold : ∀ (es : List (Text × Value O)) (result normalized : Dict Text (Value O)),
      (∀ o ∈ cls.options, result.get? o.name = normalized.get? o.key) →
      (∀ k ∉ cls.options.map OptionField.name, result.get? k = none) →
      (∀ o ∈ cls.options, (es.foldl (addDefault (keyToDest cls Dict.empty)) result).get? o.name =
        (es.foldl (fun d e => d.set (normalize e.1) e.2) normalized).get? o.key) ∧
      ∀ k ∉ cls.options.map OptionField.name, (es.foldl (addDefault (keyToDest cls Dict.empty)) result).get? k = none := by
    intro es
    induction es with
    | nil => exact fun result normalized hsame hother => ⟨hsame, hother⟩
    | cons e es ih =>
      intro result normalized hsame hother
      rw [List.foldl_cons, List.foldl_cons]
      cases hdest : (keyToDest cls Dict.empty).get? (normalize e.1) with
      | none =>
        have hkeys := keyToDest_eq_none hshallow hdest
        have hkept : addDefault (keyToDest cls Dict.empty) result e = result := by
          rw [addDefault, hdest]
        rw [hkept]
        refine ih _ _ (fun o ho => ?_) hother
        rw [Dict.get?_set_ne _ (hkeys o ho)]
        exact hsame o ho
      | some name =>
        obtain ⟨x, hx, hkey, rfl⟩ := keyToDest_eq_some h hshallow hdest
        have hset : addDefault (keyToDest cls Dict.empty) result e = result.set x.name e.2 := by
          rw [addDefault, hdest]
        rw [hset, ← hkey]
        refine ih _ _ (fun o ho => ?_) fun k hk => ?_
        · by_cases heq : o = x
          · subst heq
            rw [Dict.get?_set_self, Dict.get?_set_self]
          · rw [Dict.get?_set_ne _ fun hname => heq (h.eq_of_name ho hx hname),
              Dict.get?_set_ne _ fun hkey => heq (h.eq_of_key ho hx hkey)]
            exact hsame o ho
        · have hne : k ≠ x.name := fun heq => hk (heq ▸ List.mem_map_of_mem hx)
          rw [Dict.get?_set_ne _ hne]
          exact hother k hk
  exact hfold sectionData.entries Dict.empty Dict.empty (fun _ _ => rfl) fun _ _ => rfl

namespace OptionField

variable {o : OptionField O} {found : Bool} {injected : Text → Option (Value O)} {normalized : Dict Text (Value O)}

theorem complete_map_some (r : Except ParseError (Value O)) : o.complete (r.map some) = r := by
  cases r <;> rfl

theorem parsedValue_of_given {value : Value O} (hname : o.dest = o.name) (hgiven : injected o.name = some value) :
    o.parsedValue found injected noCli = (o.action.takeDefault found value).bind o.reconvert := by
  have hdest : injected o.dest = some value := hname.symm ▸ hgiven
  rw [parsedValue, storedValue, hdest]
  simp only [noCli, reduceCtorEq, and_false, if_false, Option.getD_some, hname, if_true]

theorem parsedValue_of_absent (hname : o.dest = o.name) (hfree : ¬(o.isRequired = true ∧ found = false))
    (hgiven : injected o.name = none) :
    o.parsedValue found injected noCli = (o.action.takeDefault found (o.default.getD .none)).bind o.reconvert := by
  have hdest : injected o.dest = none := hname.symm ▸ hgiven
  rw [parsedValue, storedValue, hdest]
  simp only [noCli, hfree, false_and, if_false, Option.getD_none, hname, if_true]

theorem parsedValue_of_required (hlost : o.isRequired = true ∧ found = false) (hdest : injected o.dest = none) :
    o.parsedValue found injected noCli = .error .missing := by
  have hmissing : o.storedValue found injected noCli = .error .missing := if_pos ⟨hlost, hdest⟩
  rw [parsedValue, hmissing]
  rfl

theorem parsedValue_of_renamed (hname : o.dest ≠ o.name) (hfree : ¬(o.isRequired = true ∧ found = false))
    (hdest : injected o.dest = none) (hgiven : injected o.name = normalized.get? o.key) :
    o.parsedValue found injected noCli =
      (o.action.takeDefault found (o.default.getD .none)).bind fun _ => o.complete (tomlGiven normalized o) := by
  rw [parsedValue, storedValue, hdest, tomlGiven, hgiven]
  simp only [noCli, hfree, false_and, if_false, Option.getD_none, hname]

theorem complete_tomlGiven {value : Value O} (h : normalized.get? o.key = some value) :
    o.complete (tomlGiven normalized o) = o.reconvert value := by
  rw [tomlGiven, h]
  exact complete_map_some _

end OptionField

end Values

section Agreement

variable {cls : ConfigClass O}

/-- A stable option has the same value on both sides, unless one of them misses it. -/
theorem OptionField.Stable.same_value {o : OptionField O} {found : Bool} {injected : Text → Option (Value O)}
    {normalized : Dict Text (Value O)} (hstable : o.Stable found) (hgiven : injected o.name = normalized.get? o.key)
    (htoml : ∀ value, normalized.get? o.key = some value → value.InToml) (hdest : o.dest ≠ o.name → injected o.dest = none) :
    o.parsedValue found injected noCli = o.complete (tomlGiven normalized o) ∨
      o.parsedValue found injected noCli = .error .missing ∨ o.complete (tomlGiven normalized o) = .error .missing := by
  by_cases hname : o.dest = o.name
  · cases hvalue : normalized.get? o.key with
    | some value =>
      left
      rw [OptionField.parsedValue_of_given hname (hgiven.trans hvalue), OptionField.complete_tomlGiven hvalue]
      exact hstable.1 hname value (htoml value hvalue)
    | none =>
      have habsent : injected o.name = none := hgiven.trans hvalue
      by_cases hlost : o.isRequired = true ∧ found = false
      · exact .inr (.inl (OptionField.parsedValue_of_required hlost (hname.symm ▸ habsent)))
      · rw [OptionField.parsedValue_of_absent hname hlost habsent, tomlGiven, hvalue]
        cases hdefault : o.default with
        | none =>
          right
          right
          simp [OptionField.complete, Except.bind, hdefault]
        | some value =>
          left
          rw [Option.getD_some, (hstable.2 hlost).1 hname value hdefault]
          simp [OptionField.complete, Except.bind, hdefault]
  · by_cases hlost : o.isRequired = true ∧ found = false
    · exact .inr (.inl (OptionField.parsedValue_of_required hlost (hdest hname)))
    · left
      rw [OptionField.parsedValue_of_renamed hname hlost (hdest hname) hgiven]
      obtain ⟨stored, hstored⟩ := (hstable.2 hlost).2 hname
      rw [hstored]
      rfl

/-- Normalizing keys keeps the values. -/
theorem inToml_normalizeKeys {data : Dict Text (Value O)} (h : ∀ e ∈ data.entries, e.2.InToml) {key : Text} {value : Value O}
    (hget : (normalizeKeys data).get? key = some value) : value.InToml := by
  have hfold : ∀ (es : List (Text × Value O)) (d : Dict Text (Value O)), (∀ e ∈ es, e.2.InToml) →
      (∀ k v, d.get? k = some v → v.InToml) →
      ∀ k v, (es.foldl (fun d e => d.set (normalize e.1) e.2) d).get? k = some v → v.InToml := by
    intro es
    induction es with
    | nil => exact fun d _ hd => hd
    | cons e es ih =>
      intro d hes hd
      refine ih _ (fun e he => hes e (List.mem_cons_of_mem _ he)) fun k v hv => ?_
      rw [Dict.get?_set] at hv
      split at hv
      · rw [← Option.some.inj hv]
        exact hes e List.mem_cons_self
      · exact hd k v hv
  exact hfold data.entries Dict.empty h (fun k v hv => by cases hv) key value hget

theorem entryPointsAgree_of_stable (h : cls.Distinct) (hshallow : cls.Shallow)
    (hstable : ∀ o ∈ cls.options, o.Stable (cls.found noCli o)) : EntryPointsAgree cls := by
  refine ⟨(recognised_iff_shallow h).mpr hshallow, fun sectionData hsection hparse htoml => ?_⟩
  obtain ⟨hgiven, hothers⟩ := injectedBy_eq h hshallow sectionData
  refine (builds_parseWithSection h sectionData).eq (builds_fromToml cls sectionData) (fun o ho => ?_) hparse htoml
  exact (hstable o ho).same_value (hgiven o ho) (fun value => inToml_normalizeKeys hsection) fun hrenamed =>
    hothers _ (h.renamed o ho hrenamed)

end Agreement

section Probes

variable {cls : ConfigClass O}

theorem map_key_filterMap_sublist (f : OptionField O → Option (Value O)) (os : List (OptionField O)) :
    ((os.filterMap fun o => (f o).map fun v => (o.key, v)).map Prod.fst).Sublist (os.map OptionField.key) := by
  induction os with
  | nil => exact List.Sublist.refl _
  | cons o os ih =>
    rw [List.filterMap_cons, List.map_cons]
    cases f o with
    | none => exact ih.cons o.key
    | some v => exact ih.cons_cons o.key

/-- A section that gives chosen values to the options. -/
def probe (h : cls.Distinct) (f : OptionField O → Option (Value O)) : Dict Text (Value O) where
  entries := cls.options.filterMap fun o => (f o).map fun v => (o.key, v)
  nodup := (map_key_filterMap_sublist f cls.options).nodup (List.nodup_append.mp h.keys).1

theorem mem_probe {h : cls.Distinct} {f : OptionField O → Option (Value O)} {e : Text × Value O}
    (he : e ∈ (probe h f).entries) : ∃ o ∈ cls.options, f o = some e.2 ∧ e.1 = o.key := by
  obtain ⟨o, ho, hmap⟩ := List.mem_filterMap.mp he
  obtain ⟨v, hv, rfl⟩ := Option.map_eq_some_iff.mp hmap
  exact ⟨o, ho, hv, rfl⟩

theorem normalizeKeys_probe (h : cls.Distinct) (f : OptionField O → Option (Value O)) : normalizeKeys (probe h f) = probe h f := by
  refine normalizeKeys_of_normalized fun e he => ?_
  obtain ⟨o, -, -, hkey⟩ := mem_probe he
  rw [hkey]
  exact normalize_longKey o.name o.long

theorem get?_probe (h : cls.Distinct) (f : OptionField O → Option (Value O)) {o : OptionField O} (ho : o ∈ cls.options) :
    (normalizeKeys (probe h f)).get? o.key = f o := by
  rw [normalizeKeys_probe]
  cases hf : f o with
  | some v =>
    refine (Dict.mem_entries _ _ _).mp (List.mem_filterMap.mpr ⟨o, ho, ?_⟩)
    rw [hf]
    rfl
  | none =>
    by_contra hne
    obtain ⟨v, hv⟩ := Option.ne_none_iff_exists'.mp hne
    obtain ⟨x, hx, hfx, hkey⟩ := mem_probe ((Dict.mem_entries _ _ _).mpr hv)
    obtain rfl := h.eq_of_key ho hx hkey
    rw [hf] at hfx
    cases hfx

/-- If all the other options have a value, a common result tells that one option has the same value on both sides. -/
theorem Builds.value_eq {value value' : OptionField O → Except ParseError (Value O)} {r : Except ParseError (ConfigObject O)}
    (h : Builds value cls r) (h' : Builds value' cls r) {o : OptionField O} (ho : o ∈ cls.options)
    (hothers : ∀ x ∈ cls.options, x ≠ o → (∃ v, value x = .ok v) ∧ ∃ v, value' x = .ok v) : value o = value' o := by
  cases r with
  | ok config => exact values_of_assemble h h' o ho
  | error e =>
    obtain ⟨x, hx, hvalue⟩ := h
    obtain ⟨x', hx', hvalue'⟩ := h'
    have hxo : x = o := by
      by_contra hne
      obtain ⟨⟨v, hv⟩, -⟩ := hothers x hx hne
      rw [hv] at hvalue
      cases hvalue
    have hxo' : x' = o := by
      by_contra hne
      obtain ⟨-, v, hv⟩ := hothers x' hx' hne
      rw [hv] at hvalue'
      cases hvalue'
    rw [← hxo, hvalue, hxo, ← hxo', hvalue']

theorem Builds.ne_missing {value : OptionField O → Except ParseError (Value O)} {r : Except ParseError (ConfigObject O)}
    (h : Builds value cls r) (hvalues : ∀ o ∈ cls.options, value o ≠ .error .missing) : r ≠ .error .missing := by
  rintro rfl
  obtain ⟨o, ho, hmissing⟩ := h
  exact hvalues o ho hmissing

theorem OptionField.reconvert_ne_missing {o : OptionField O} (v : Value O) : o.reconvert v ≠ .error .missing := by
  cases v with
  | str text =>
    rw [OptionField.reconvert]
    cases o.convert text <;> nofun
  | _ => nofun

theorem Action.takeDefault_ne_missing {a : Action O} {found : Bool} (value : Value O) :
    a.takeDefault found value ≠ .error .missing := by
  have hcheck : ∀ value, a.checkValue value ≠ .error .missing := by
    intro value
    unfold Action.checkValue
    split <;> nofun
  have hget : ∀ value, a.getValue value ≠ .error .missing := by
    intro value
    unfold Action.getValue
    split
    · split <;> nofun
    · nofun
  unfold Action.takeDefault
  split
  · unfold Action.getValues
    split
    · exact hcheck _
    · exact hcheck _
    · intro hmissing
      cases hvalue : a.getValue (.str _) with
      | ok w =>
        rw [hvalue] at hmissing
        exact hcheck w hmissing
      | error e =>
        rw [hvalue] at hmissing
        exact hget _ (hvalue.trans hmissing)
    · nofun
  · exact hget value

theorem bind_reconvert_ne_missing {o : OptionField O} {found : Bool} (value : Value O) :
    (o.action.takeDefault found value).bind o.reconvert ≠ .error .missing := by
  cases hvalue : o.action.takeDefault found value with
  | ok w => exact OptionField.reconvert_ne_missing w
  | error e =>
    intro hmissing
    obtain rfl := Except.error.inj hmissing
    exact Action.takeDefault_ne_missing value hvalue

/-- A number is stored as it is, or refused. -/
theorem Action.takeDefault_number (a : Action O) (found : Bool) (n : Int) :
    a.takeDefault found (.int n) = .ok (.int n) ∨ a.takeDefault found (.int n) = .error .invalid := by
  unfold Action.takeDefault
  split
  · unfold Action.getValues
    split
    · next hnone => cases hnone
    · unfold Action.checkValue
      split
      · exact .inl rfl
      · exact .inr rfl
    · next hstr _ => cases hstr
    · exact .inl rfl
  · exact .inl rfl

/-- What argparse has as the default of an argument whose key holds a number. -/
def OptionField.probed (o : OptionField O) : Value O := if o.dest = o.name then .int 0 else o.default.getD .none

/-- The number of a key, as the parser's side gets it. -/
theorem parsedValue_of_number {o : OptionField O} {found : Bool} {injected : Text → Option (Value O)}
    {normalized : Dict Text (Value O)} (hbuildable : o.isRequired = true → found = false → o.dest = o.name)
    (hgiven : injected o.name = normalized.get? o.key) (hdest : o.dest ≠ o.name → injected o.dest = none)
    (hnumber : normalized.get? o.key = some (.int 0)) :
    o.parsedValue found injected noCli = (o.action.takeDefault found o.probed).bind fun _ => .ok (.int 0) := by
  unfold OptionField.probed
  by_cases hname : o.dest = o.name
  · rw [if_pos hname, OptionField.parsedValue_of_given hname (hgiven.trans hnumber)]
    rcases o.action.takeDefault_number found 0 with hok | herror
    · rw [hok]
      rfl
    · rw [herror]
      rfl
  · have hfree : ¬(o.isRequired = true ∧ found = false) := fun hlost => hname (hbuildable hlost.1 hlost.2)
    rw [if_neg hname, OptionField.parsedValue_of_renamed hname hfree (hdest hname) hgiven, OptionField.complete_tomlGiven hnumber]
    rfl

variable (h : cls.Distinct) (hbuildable : cls.Buildable) (hagree : EntryPointsAgree cls)

include h hbuildable hagree in
/-- Options whose keys all hold numbers: argparse stores something for each. -/
theorem probed_of_agree {o : OptionField O} (ho : o ∈ cls.options) :
    ∃ stored, o.action.takeDefault (cls.found noCli o) o.probed = .ok stored := by
  obtain ⟨hgiven, hothers⟩ := injectedBy_eq h ((recognised_iff_shallow h).mp hagree.1) (probe h fun _ => some (.int 0))
  have hparsed : ∀ x ∈ cls.options, _ := fun x hx => parsedValue_of_number (hbuildable x hx) (hgiven x hx)
    (fun hrenamed => hothers _ (h.renamed x hx hrenamed)) (get?_probe h _ hx)
  have htoml : ∀ x ∈ cls.options, _ := fun x hx => OptionField.complete_tomlGiven (get?_probe h (fun _ => some (.int 0)) hx)
  have hbuildsParsed := builds_parseWithSection h (probe h fun _ => some (.int 0))
  have hbuildsToml := builds_fromToml cls (probe h fun _ => some (.int 0))
  have hsame : parseWithSection cls (probe h fun _ => some (.int 0)) noEnviron noCli = fromToml cls (probe h fun _ => some (.int 0)) := by
    refine hagree.2 _ (fun e he => ?_) (hbuildsParsed.ne_missing fun x hx => ?_) (hbuildsToml.ne_missing fun x hx => ?_)
    · obtain ⟨x, -, hvalue, -⟩ := mem_probe he
      rw [← Option.some.inj hvalue]
      trivial
    · rw [hparsed x hx]
      cases hstored : x.action.takeDefault (cls.found noCli x) x.probed with
      | ok stored => nofun
      | error e =>
        intro hmissing
        obtain rfl := Except.error.inj hmissing
        exact Action.takeDefault_ne_missing _ hstored
    · rw [htoml x hx]
      nofun
  rw [hsame] at hbuildsParsed
  cases hresult : fromToml cls (probe h fun _ => some (.int 0)) with
  | error e =>
    rw [hresult] at hbuildsToml
    obtain ⟨x, hx, herror⟩ := hbuildsToml
    have hok := htoml x hx
    cases hok.symm.trans herror
  | ok config =>
    rw [hresult] at hbuildsParsed
    obtain ⟨v, hv⟩ := assemble_eq_some hbuildsParsed o ho
    have hvalue := (hparsed o ho).symm.trans hv
    cases hstored : o.action.takeDefault (cls.found noCli o) o.probed with
    | ok stored => exact ⟨stored, rfl⟩
    | error e =>
      rw [hstored] at hvalue
      cases hvalue

include hbuildable hagree in
/-- With numbers for the other options, the two sides have to agree on one option, whatever its key holds. -/
theorem value_eq_of_agree {o : OptionField O} (ho : o ∈ cls.options) {f : OptionField O → Option (Value O)}
    (hnumbers : ∀ x ∈ cls.options, x ≠ o → f x = some (.int 0)) (hvalue : ∀ v, f o = some v → v.InToml)
    (hmissing : o.parsedValue (cls.found noCli o) (injectedBy cls (probe h f)) noCli ≠ .error .missing)
    (hmissing' : o.complete (tomlGiven (normalizeKeys (probe h f)) o) ≠ .error .missing) :
    o.parsedValue (cls.found noCli o) (injectedBy cls (probe h f)) noCli =
      o.complete (tomlGiven (normalizeKeys (probe h f)) o) := by
  obtain ⟨hgiven, hothers⟩ := injectedBy_eq h ((recognised_iff_shallow h).mp hagree.1) (probe h f)
  have hkey : ∀ x ∈ cls.options, x ≠ o → (normalizeKeys (probe h f)).get? x.key = some (.int 0) := fun x hx hne =>
    (get?_probe h f hx).trans (hnumbers x hx hne)
  have hparsed : ∀ x ∈ cls.options, x ≠ o →
      ∃ v, x.parsedValue (cls.found noCli x) (injectedBy cls (probe h f)) noCli = .ok v := by
    intro x hx hne
    rw [parsedValue_of_number (hbuildable x hx) (hgiven x hx) (fun hrenamed => hothers _ (h.renamed x hx hrenamed)) (hkey x hx hne)]
    obtain ⟨stored, hstored⟩ := probed_of_agree h hbuildable hagree hx
    rw [hstored]
    exact ⟨_, rfl⟩
  have htoml : ∀ x ∈ cls.options, x ≠ o → ∃ v, x.complete (tomlGiven (normalizeKeys (probe h f)) x) = .ok v := fun x hx hne =>
    ⟨_, OptionField.complete_tomlGiven (hkey x hx hne)⟩
  have hbuildsParsed := builds_parseWithSection h (probe h f)
  have hbuildsToml := builds_fromToml cls (probe h f)
  have hsame : parseWithSection cls (probe h f) noEnviron noCli = fromToml cls (probe h f) := by
    refine hagree.2 _ (fun e he => ?_) (hbuildsParsed.ne_missing fun x hx => ?_) (hbuildsToml.ne_missing fun x hx => ?_)
    · obtain ⟨x, hx, hentry, -⟩ := mem_probe he
      by_cases heq : x = o
      · subst heq
        exact hvalue _ hentry
      · rw [hnumbers x hx heq] at hentry
        rw [← Option.some.inj hentry]
        trivial
    · by_cases heq : x = o
      · subst heq
        exact hmissing
      · obtain ⟨v, hv⟩ := hparsed x hx heq
        rw [hv]
        nofun
    · by_cases heq : x = o
      · subst heq
        exact hmissing'
      · obtain ⟨v, hv⟩ := htoml x hx heq
        rw [hv]
        nofun
  rw [hsame] at hbuildsParsed
  exact hbuildsParsed.value_eq hbuildsToml ho fun x hx hne => ⟨hparsed x hx hne, htoml x hx hne⟩

open Classical in
/-- One key with a chosen value, all the others with numbers. -/
noncomputable def numbersExcept (o : OptionField O) (value : Option (Value O)) (x : OptionField O) : Option (Value O) :=
  if x = o then value else some (.int 0)

theorem numbersExcept_self (o : OptionField O) (value : Option (Value O)) : numbersExcept o value o = value := if_pos rfl

theorem numbersExcept_ne {o x : OptionField O} (value : Option (Value O)) (hne : x ≠ o) : numbersExcept o value x = some (.int 0) :=
  if_neg hne

include h hbuildable hagree in
theorem stable_of_agree {o : OptionField O} (ho : o ∈ cls.options) : o.Stable (cls.found noCli o) := by
  have hnumbers : ∀ value, ∀ x ∈ cls.options, x ≠ o → numbersExcept o value x = some (.int 0) := fun value x _ hne =>
    numbersExcept_ne value hne
  have hgiven : ∀ value, injectedBy cls (probe h (numbersExcept o value)) o.name = value := by
    intro value
    rw [(injectedBy_eq h ((recognised_iff_shallow h).mp hagree.1) _).1 o ho, get?_probe h _ ho, numbersExcept_self]
  have hkey : ∀ value, (normalizeKeys (probe h (numbersExcept o value))).get? o.key = value := by
    intro value
    rw [get?_probe h _ ho, numbersExcept_self]
  refine ⟨fun hname value hsection => ?_, fun hfree => ⟨fun hname value hdefault => ?_, fun hname => ?_⟩⟩
  · have hparsed : o.parsedValue (cls.found noCli o) _ noCli = _ := OptionField.parsedValue_of_given hname (hgiven (some value))
    have htoml := OptionField.complete_tomlGiven (o := o) (hkey (some value))
    rw [← hparsed, ← htoml]
    refine value_eq_of_agree h hbuildable hagree ho (hnumbers _) (fun v hv => ?_) ?_ ?_
    · rw [numbersExcept_self] at hv
      rw [← Option.some.inj hv]
      exact hsection
    · rw [hparsed]
      exact bind_reconvert_ne_missing _
    · rw [htoml]
      exact OptionField.reconvert_ne_missing _
  · have hparsed := OptionField.parsedValue_of_absent hname hfree (hgiven none)
    rw [hdefault, Option.getD_some] at hparsed
    have htoml : o.complete (tomlGiven (normalizeKeys (probe h (numbersExcept o none))) o) = .ok value := by
      rw [tomlGiven, hkey]
      simp [OptionField.complete, Except.bind, hdefault]
    rw [← hparsed, ← htoml]
    refine value_eq_of_agree h hbuildable hagree ho (hnumbers _) (fun v hv => ?_) ?_ ?_
    · rw [numbersExcept_self] at hv
      cases hv
    · rw [hparsed]
      exact bind_reconvert_ne_missing _
    · rw [htoml]
      intro hmissing
      cases hmissing
  · obtain ⟨stored, hstored⟩ := probed_of_agree h hbuildable hagree ho
    rw [OptionField.probed, if_neg hname] at hstored
    exact ⟨stored, hstored⟩

end Probes

section Results

variable {cls : ConfigClass O}

/-- The entry points agree if classes are nested only once and no option is changed by what argparse does with
defaults; and, where an object can be built at all, only then. -/
theorem entryPoints_agree_iff (h : cls.Distinct) :
    (cls.Shallow ∧ (∀ o ∈ cls.options, o.Stable (cls.found noCli o)) → EntryPointsAgree cls) ∧
      (cls.Buildable → (EntryPointsAgree cls ↔ cls.Shallow ∧ ∀ o ∈ cls.options, o.Stable (cls.found noCli o))) := by
  have hsufficient : cls.Shallow ∧ (∀ o ∈ cls.options, o.Stable (cls.found noCli o)) → EntryPointsAgree cls :=
    fun hcondition => entryPointsAgree_of_stable h hcondition.1 hcondition.2
  refine ⟨hsufficient, fun hbuildable => ⟨fun hagree => ⟨?_, ?_⟩, hsufficient⟩⟩
  · exact (recognised_iff_shallow h).mp hagree.1
  · exact fun o ho => stable_of_agree h hbuildable hagree ho

/-- `level: str = "INFO"`. -/
def levelField : OptionField Unit where
  name := "level".toList
  long := none
  positional := none
  positionalName := none
  required := false
  untyped := false
  allowed := fun _ => true
  envVar := none
  default := some (.str "INFO".toList)
  convert := fun text => some (.str text)
  stored := fun arguments => arguments.getLast?.map .str

def loggingClass : ConfigClass Unit := .field levelField .nil

def schedulerClass : ConfigClass Unit := .nested "logging".toList none loggingClass .nil

theorem schedulerClass_agrees : schedulerClass.Distinct ∧ EntryPointsAgree schedulerClass := by
  have hdistinct : schedulerClass.Distinct := by
    refine ⟨by decide +kernel, by decide +kernel, by decide +kernel, ?_⟩
    intro o ho hrenamed
    obtain rfl := List.mem_singleton.mp ho
    exact absurd rfl hrenamed
  refine ⟨hdistinct, (entryPoints_agree_iff hdistinct).1 ⟨⟨trivial, trivial⟩, fun o ho => ?_⟩⟩
  obtain rfl := List.mem_singleton.mp ho
  refine ⟨fun _ value _ => ?_, fun _ => ⟨fun _ value hvalue => ?_, fun hrenamed => absurd rfl hrenamed⟩⟩
  · cases value <;> rfl
  · obtain rfl := Option.some.inj hvalue
    rfl

/-- The section reaches a class that is nested twice only through `_from_toml`. -/
theorem nestedTwice_disagrees :
    ¬EntryPointsAgree (.nested "scheduler".toList none schedulerClass .nil) := by
  intro hagree
  have hsame := hagree.2 (Dict.empty.set "level".toList (.str "DEBUG".toList)) (fun e he => ?_) nofun nofun
  · have hparse : parseWithSection (.nested "scheduler".toList none schedulerClass .nil)
        (Dict.empty.set "level".toList (.str "DEBUG".toList)) noEnviron noCli =
        .ok (.nested "scheduler".toList (.nested "logging".toList (.field "level".toList (.str "INFO".toList) .nil) .nil) .nil) := rfl
    have htoml : fromToml (.nested "scheduler".toList none schedulerClass .nil)
        (Dict.empty.set "level".toList (.str "DEBUG".toList)) =
        .ok (.nested "scheduler".toList (.nested "logging".toList (.field "level".toList (.str "DEBUG".toList) .nil) .nil) .nil) := rfl
    rw [hparse, htoml] at hsame
    injection hsame with hconfig
    injection hconfig with _ hinner
    injection hinner with _ hlevel
    injection hlevel with _ hvalue
    injection hvalue with htext
    exact absurd htext (by decide +kernel)
  · obtain rfl := List.mem_singleton.mp he
    trivial

/-- A positional argument that needs a string, and one of any number of strings behind it whose `type` puts dashes
in front. -/
def commandClass : ConfigClass Unit :=
  .field { levelField with name := "script".toList, positional := some .needed, default := none } <|
    .field { levelField with
      name := "args".toList, positional := some .any, convert := fun text => some (.str ('-' :: '-' :: text)) } .nil

/-- Behind an argument that needs a string the default of the other one is converted by argparse and once more by
`_from_args`. -/
theorem convertedTwice_disagrees : ¬EntryPointsAgree commandClass := by
  intro hagree
  have hsame := hagree.2 ((Dict.empty.set "script".toList (.str "s".toList)).set "args".toList (.str "v".toList))
    (fun e he => ?_) nofun nofun
  · have hparse : parseWithSection commandClass
        ((Dict.empty.set "script".toList (.str "s".toList)).set "args".toList (.str "v".toList)) noEnviron noCli =
        .ok (.field "script".toList (.str "s".toList) (.field "args".toList (.str "----v".toList) .nil)) := rfl
    have htoml : fromToml commandClass
        ((Dict.empty.set "script".toList (.str "s".toList)).set "args".toList (.str "v".toList)) =
        .ok (.field "script".toList (.str "s".toList) (.field "args".toList (.str "--v".toList) .nil)) := rfl
    rw [hparse, htoml] at hsame
    injection hsame with hconfig
    injection hconfig with _ _ hargs
    injection hargs with _ hvalue
    injection hvalue with htext
    exact absurd htext (by decide +kernel)
  · rcases List.mem_cons.mp he with rfl | he
    · trivial
    · obtain rfl := List.mem_singleton.mp he
      trivial

/-- The entry points disagree on a class that is nested twice, and on a default that is converted twice. -/
theorem entryPoints_disagree :
    ¬EntryPointsAgree (.nested "scheduler".toList none schedulerClass .nil) ∧ ¬EntryPointsAgree commandClass :=
  ⟨nestedTwice_disagrees, convertedTwice_disagrees⟩

end Results

end Scaler.Config
