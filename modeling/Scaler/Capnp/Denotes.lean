import Mathlib.Data.List.Forall2
import Scaler.Capnp.Values

/-! What a Python object stands for. An object that was made from bytes stands for what is at its
path in the bytes, and what was read of it before stands for the same; an object that was
constructed stands for its attributes, with the defaults for those it does not have. -/

namespace Scaler.Capnp

variable (library : Library)

/-- How the parts of an object of the struct fit the entries of a complete struct. With `decoded`
the object was made from bytes. -/
structure StandsFor (decoded : Bool) (structName : String) (fields : Fields) (source : Option Lazy)
    (variantName : Option String) (dict : List (String × PyValue)) (entries : List (String × Content)) : Prop where
  typed : Typed (.struct structName fields) (.struct entries)
  variant : ∀ name, variantName = some name → fields.active entries = some name
  fromBytes : ∀ l, source = some l →
    withLazyStructReader library l = .ok (.struct structName fields, .struct entries)
  isDecoded : decoded = true → source.isSome = true
  kept : ∀ f ∈ fields.toList, dict.lookup f.name ≠ none → Kept (fields.active entries) f
  named : source = none → fields.members ≠ [] → variantName.isSome = true
  unset : source = none → ∀ f ∈ fields.toList, dict.lookup f.name = none → Kept (fields.active entries) f →
    f.discriminant = none ∧ entries.lookup f.name = some (complete f.type f.default)

mutual

/-- The value conforms to the type and stands for the content; with `decoded`, every object in it
was made from bytes. -/
def Denotes (decoded : Bool) : CapnpType → PyValue → Content → Prop
  | .void, value, content => value = .none ∧ content = .void
  | .bool, value, content => ∃ b, value = .bool b ∧ content = .bool b
  | .int bits, value, content => ∃ i, value = .int i ∧ content = .int i ∧ Typed (.int bits) (.int i)
  | .uint bits, value, content => ∃ i, value = .int i ∧ content = .int i ∧ Typed (.uint bits) (.int i)
  | .text, value, content => ∃ text, value = .str text ∧ content = .text text
  | .data, value, content => ∃ data, value = .bytes data ∧ content = .data data
  | .enum schemaId enumerants, value, content =>
    ∃ raw, value = .enum schemaId raw ∧ content = .enum raw ∧ raw < enumerants
  | .list element, value, content =>
    ∃ items contents, value = .list items ∧ content = .list contents ∧
      List.Forall₂ (Denotes decoded element) items contents
  | .struct structName fields, value, content =>
    ∃ source variantName dict entries,
      value = .object (.struct structName fields) source variantName dict ∧ content = .struct entries ∧
        StandsFor library decoded structName fields source variantName dict entries ∧
        DenotesFields decoded dict entries fields

/-- What the attributes that the object has stand for. -/
def DenotesFields (decoded : Bool) (dict : List (String × PyValue)) (entries : List (String × Content)) :
    Fields → Prop
  | .nil => True
  | .cons name _ _ type rest =>
    (∀ value content, dict.lookup name = some value → entries.lookup name = some content →
      Denotes decoded type value content) ∧ DenotesFields decoded dict entries rest

end

variable {library} {decoded : Bool}

theorem denotesFields_iff {dict : List (String × PyValue)} {entries : List (String × Content)} {fields : Fields} :
    DenotesFields library decoded dict entries fields ↔ ∀ f ∈ fields.toList, ∀ value content,
      dict.lookup f.name = some value → entries.lookup f.name = some content →
        Denotes library decoded f.type value content := by
  induction fields using Fields.induct with
  | nil => simp [DenotesFields, Fields.toList]
  | cons name discriminant default type rest ih => simp [DenotesFields, Fields.toList, ih]

theorem walk_append (p q : List PathItem) (s : CapnpType × Content) :
    walk (p ++ q) s = (walk p s).bind (walk q) := by
  fun_induction walk p s with
  | case1 => rfl
  | case2 name path structName fields entries hfind => simp [walk, hfind, Except.bind]
  | case3 name path structName fields entries discriminant type hfind hlookup =>
    simp [walk, hfind, hlookup, Except.bind]
  | case4 name path structName fields entries discriminant type hfind content hlookup ih =>
    simp [walk, hfind, hlookup, ih]
  | case5 => simp_all [walk, Except.bind]
  | case6 i path element items hget => simp [walk, hget, Except.bind]
  | case7 i path element items content hget ih => simp [walk, hget, ih]
  | case8 => simp_all [walk, Except.bind]

/-- One step further along a path. -/
theorem withLazyStructReader_append {l : Lazy} {s : CapnpType × Content} (h : withLazyStructReader library l = .ok s)
    (item : PathItem) :
    withLazyStructReader library { l with path := l.path ++ [item] } = walk [item] s := by
  unfold withLazyStructReader at h ⊢
  split at h
  · cases h
  · rename_i hlength
    rw [if_neg hlength]
    split at h
    · cases h
    · rename_i root hroot
      simp only [hroot, walk_append, h, Except.bind]

theorem walk_index {element : CapnpType} {items : List Content} {i : Nat} {content : Content}
    (h : items[i]? = some content) : walk [.index i] (.list element, .list items) = .ok (element, content) := by
  simp [walk, h]

theorem walk_field {structName : String} {fields : Fields} {entries : List (String × Content)} {f : FieldInfo}
    {content : Content} (hnodup : fields.names.Nodup) (hf : f ∈ fields.toList)
    (h : entries.lookup f.name = some content) :
    walk [.field f.name] (.struct structName fields, .struct entries) = .ok (f.type, content) := by
  simp [walk, Fields.find_eq hnodup hf, h]

theorem convertItems_ok (convert : Nat → Content → Except PyError PyValue) (P : PyValue → Content → Prop) {k : Nat}
    {contents : List Content}
    (h : ∀ i content, contents[i]? = some content → ∃ value, convert (k + i) content = .ok value ∧ P value content) :
    ∃ items, convertItems convert k contents = .ok items ∧ List.Forall₂ P items contents := by
  induction contents generalizing k with
  | nil => exact ⟨[], rfl, .nil⟩
  | cons content contents ih =>
    obtain ⟨item, hitem, hp⟩ := h 0 content rfl
    obtain ⟨items, hitems, hps⟩ := @ih (k + 1) fun i content' hi => by
      obtain ⟨value, hvalue, hp'⟩ := h (i + 1) content' hi
      exact ⟨value, by rwa [Nat.add_right_comm, Nat.add_assoc], hp'⟩
    refine ⟨item :: items, ?_, .cons hp hps⟩
    rw [Nat.add_zero] at hitem
    rw [convertItems, hitem, hitems]
    rfl

/-- A new object that was made from bytes stands for what is at its path. -/
theorem standsFor_new {structName : String} {fields : Fields} {entries : List (String × Content)} {l : Lazy}
    (ht : Typed (.struct structName fields) (.struct entries))
    (hl : withLazyStructReader library l = .ok (.struct structName fields, .struct entries)) :
    StandsFor library decoded structName fields (some l) none [] entries where
  typed := ht
  variant := fun name h => by cases h
  fromBytes := fun l' h => by
    cases h
    exact hl
  isDecoded := fun _ => rfl
  kept := fun f hf h => absurd rfl h
  named := fun h => by cases h
  unset := fun h => by cases h

theorem dynamicValueToPyObject_ok {type : CapnpType} {content : Content} {l : Lazy} (ht : Typed type content)
    (hl : withLazyStructReader library l = .ok (type, content)) :
    ∃ value, dynamicValueToPyObject type content l = .ok value ∧ Denotes library decoded type value content := by
  induction type using CapnpType.induct generalizing content l with
  | void =>
    rw [Typed] at ht
    exact ⟨.none, rfl, rfl, ht⟩
  | bool =>
    rw [Typed] at ht
    obtain ⟨b, rfl⟩ := ht
    exact ⟨.bool b, rfl, b, rfl, rfl⟩
  | int bits =>
    have hint := ht
    rw [Typed] at ht
    obtain ⟨i, rfl, -⟩ := ht
    exact ⟨.int i, rfl, i, rfl, rfl, hint⟩
  | uint bits =>
    have hint := ht
    rw [Typed] at ht
    obtain ⟨i, rfl, -⟩ := ht
    exact ⟨.int i, rfl, i, rfl, rfl, hint⟩
  | text =>
    rw [Typed] at ht
    obtain ⟨text, rfl⟩ := ht
    exact ⟨.str text, rfl, text, rfl, rfl⟩
  | data =>
    rw [Typed] at ht
    obtain ⟨data, rfl⟩ := ht
    exact ⟨.bytes data, rfl, data, rfl, rfl⟩
  | enum schemaId enumerants =>
    rw [Typed] at ht
    obtain ⟨raw, rfl, hraw⟩ := ht
    refine ⟨.enum schemaId raw, ?_, raw, rfl, rfl, hraw⟩
    rw [dynamicValueToPyObject, if_pos hraw]
  | list element ih =>
    rw [Typed] at ht
    obtain ⟨contents, rfl, hcontents⟩ := ht
    obtain ⟨items, hconvert, hforall⟩ := @convertItems_ok
      (fun i content => dynamicValueToPyObject element content { l with path := l.path ++ [.index i] })
      (Denotes library decoded element) 0 contents fun i content hi => by
        refine ih (hcontents content (List.mem_of_getElem? hi)) ?_
        rw [withLazyStructReader_append hl, Nat.zero_add]
        exact walk_index hi
    refine ⟨.list items, ?_, ?_⟩
    · rw [dynamicValueToPyObject, hconvert]
      rfl
    · rw [Denotes]
      exact ⟨items, contents, rfl, rfl, hforall⟩
  | struct structName fields _ =>
    have hstruct := ht
    rw [Typed] at ht
    obtain ⟨entries, rfl, -⟩ := ht
    refine ⟨.object (.struct structName fields) (some l) none [], rfl, ?_⟩
    rw [Denotes]
    refine ⟨some l, none, [], entries, rfl, rfl, standsFor_new hstruct hl, denotesFields_iff.mpr ?_⟩
    intro f hf value content hv
    cases hv

theorem typed_struct {structName : String} {fields : Fields} {entries : List (String × Content)} :
    Typed (.struct structName fields) (.struct entries) ↔
      completeFields (fields.active entries) entries fields = entries ∧
        ∀ f ∈ fields.toList, ∀ content, entries.lookup f.name = some content → Typed f.type content := by
  rw [Typed, ← typedFields_iff]
  constructor
  · rintro ⟨entries', he, h⟩
    cases he
    exact h
  · exact fun h => ⟨entries, rfl, h⟩

section Struct

variable {structName : String} {fields : Fields} {source : Option Lazy} {variantName : Option String}
  {dict : List (String × PyValue)} {entries : List (String × Content)} {f : FieldInfo}

/-- A complete struct has exactly the fields that are kept. -/
theorem exists_lookup_iff_kept (hnodup : fields.names.Nodup)
    (ht : Typed (.struct structName fields) (.struct entries)) (hf : f ∈ fields.toList) :
    (∃ content, entries.lookup f.name = some content) ↔ Kept (fields.active entries) f := by
  have hlookup := @lookup_complete fields (fields.active entries) entries hnodup f hf
  rw [(typed_struct.mp ht).1] at hlookup
  rw [hlookup]
  split
  · rename_i hkept
    exact ⟨fun _ => hkept, fun _ => ⟨_, rfl⟩⟩
  · rename_i hkept
    refine ⟨fun h => ?_, fun h => absurd h hkept⟩
    obtain ⟨content, hnone⟩ := h
    cases hnone

variable (hwf : WellFormed (.struct structName fields))
  (hs : StandsFor library decoded structName fields source variantName dict entries)
  (hd : DenotesFields library decoded dict entries fields)

include hwf in
theorem names_nodup : fields.names.Nodup := by
  rw [WellFormed] at hwf
  exact hwf.1

include hwf in
theorem not_classAttribute (hf : f ∈ fields.toList) : f.name ∉ classAttributes fields := by
  rw [WellFormed] at hwf
  refine hwf.2.1 f.name ?_
  rw [Fields.names_eq]
  exact List.mem_map_of_mem hf

include hwf hs in
/-- A field that is read from the bytes. -/
theorem loadStructField_of_standsFor {l : Lazy} (hsource : source = some l) (hf : f ∈ fields.toList) :
    (∃ attr content, loadStructField library source f.name = .ok attr ∧
      entries.lookup f.name = some content ∧ Denotes library decoded f.type attr content) ∨
      (loadStructField library source f.name = .error .attributeError ∧ ¬Kept (fields.active entries) f) := by
  have hl := hs.fromBytes l hsource
  have hnodup := names_nodup hwf
  subst hsource
  simp only [loadStructField, hl, Fields.find_eq hnodup hf]
  by_cases hkept : Kept (fields.active entries) f
  · obtain ⟨content, hcontent⟩ := (exists_lookup_iff_kept hnodup hs.typed hf).mpr hkept
    left
    have hread : ¬(f.discriminant.isSome = true ∧ fields.active entries ≠ some f.name) :=
      fun h => h.2 (hkept h.1)
    have hat : withLazyStructReader library { l with path := l.path ++ [.field f.name] } = .ok (f.type, content) := by
      rw [withLazyStructReader_append hl]
      exact walk_field hnodup hf hcontent
    obtain ⟨attr, hattr, hdenotes⟩ := dynamicValueToPyObject_ok ((typed_struct.mp hs.typed).2 f hf content hcontent) hat
    refine ⟨attr, content, ?_, hcontent, hdenotes⟩
    rw [if_neg hread, hcontent]
    exact hattr
  · right
    exact ⟨if_pos (Classical.not_imp.mp hkept), hkept⟩

include hwf hs hd in
/-- Reading an attribute: a value that stands for the field, or an error where the field is not
kept or was left unset. -/
theorem getAttr_of_standsFor (hf : f ∈ fields.toList) :
    (∃ attr content, getAttr library (.object (.struct structName fields) source variantName dict) f.name = .ok attr ∧
      entries.lookup f.name = some content ∧ Denotes library decoded f.type attr content) ∨
      (getAttr library (.object (.struct structName fields) source variantName dict) f.name =
          .error .attributeError ∧
        (¬Kept (fields.active entries) f ∨ source = none ∧ f.discriminant = none ∧
          entries.lookup f.name = some (complete f.type f.default))) := by
  have hnodup := names_nodup hwf
  rw [getAttr]
  cases hdict : dict.lookup f.name with
  | some attr =>
    left
    have hkept := hs.kept f hf (by rw [hdict]; exact Option.some_ne_none attr)
    obtain ⟨content, hcontent⟩ := (exists_lookup_iff_kept hnodup hs.typed hf).mpr hkept
    exact ⟨attr, content, rfl, hcontent, denotesFields_iff.mp hd f hf attr content hdict hcontent⟩
  | none =>
    rw [if_neg (not_classAttribute hwf hf)]
    cases hsource : source with
    | none =>
      right
      refine ⟨rfl, ?_⟩
      by_cases hkept : Kept (fields.active entries) f
      · obtain ⟨hplain, hdefault⟩ := hs.unset hsource f hf hdict hkept
        exact .inr ⟨rfl, hplain, hdefault⟩
      · exact .inl hkept
    | some l =>
      rw [← hsource]
      rcases loadStructField_of_standsFor hwf hs hsource hf with hread | ⟨herr, hkept⟩
      · exact .inl hread
      · exact .inr ⟨herr, .inl hkept⟩

end Struct

end Scaler.Capnp
