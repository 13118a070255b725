import Mathlib.Data.List.Nodup
import Scaler.Capnp.PyObject

/-! The values a message can have: a reader of a complete message finds every field, and exactly
one member of every union. -/

namespace Scaler.Capnp

/-- A field of a struct. -/
structure FieldInfo where
  name : String
  discriminant : Option Nat
  default : Content
  type : CapnpType

namespace Fields

def toList : Fields → List FieldInfo
  | .nil => []
  | .cons name discriminant default type rest => ⟨name, discriminant, default, type⟩ :: rest.toList

theorem induct {P : Fields → Prop} (nil : P .nil)
    (cons : ∀ name discriminant default type rest, P rest → P (.cons name discriminant default type rest)) :
    ∀ fields, P fields
  | .nil => nil
  | .cons name discriminant default type rest => cons name discriminant default type rest (induct nil cons rest)

theorem names_eq (fields : Fields) : fields.names = fields.toList.map (·.name) := by
  induction fields using Fields.induct with
  | nil => rfl
  | cons name discriminant default type rest ih => rw [names, toList, List.map_cons, ih]

theorem mem_members {fields : Fields} {name : String} :
    name ∈ fields.members ↔ ∃ f ∈ fields.toList, f.name = name ∧ f.discriminant.isSome = true := by
  induction fields using Fields.induct with
  | nil => simp [members, toList]
  | cons n discriminant default type rest ih =>
    rw [members, toList]
    split
    · next h =>
      rw [List.mem_cons, ih]
      constructor
      · rintro (rfl | ⟨f, hf, hname⟩)
        · exact ⟨_, List.mem_cons_self, rfl, h⟩
        · exact ⟨f, List.mem_cons_of_mem _ hf, hname⟩
      · rintro ⟨f, hf, rfl, hsome⟩
        rcases List.mem_cons.mp hf with rfl | hf
        · exact .inl rfl
        · exact .inr ⟨f, hf, rfl, hsome⟩
    · next h =>
      rw [ih]
      constructor
      · rintro ⟨f, hf, hname⟩
        exact ⟨f, List.mem_cons_of_mem _ hf, hname⟩
      · rintro ⟨f, hf, rfl, hsome⟩
        rcases List.mem_cons.mp hf with rfl | hf
        · exact absurd hsome h
        · exact ⟨f, hf, rfl, hsome⟩

/-- The fields of a struct have different names. -/
theorem member_iff {fields : Fields} (hnodup : fields.names.Nodup) {f : FieldInfo} (hf : f ∈ fields.toList) :
    f.name ∈ fields.members ↔ f.discriminant.isSome = true := by
  rw [mem_members]
  refine ⟨fun ⟨f', hf', hname, hsome⟩ => ?_, fun h => ⟨f, hf, rfl, h⟩⟩
  rw [names_eq] at hnodup
  cases List.inj_on_of_nodup_map hnodup hf' hf hname
  exact hsome

theorem find_eq {fields : Fields} (hnodup : fields.names.Nodup) {f : FieldInfo} (hf : f ∈ fields.toList) :
    fields.find f.name = some (f.discriminant.isSome, f.type) := by
  induction fields using Fields.induct with
  | nil => cases hf
  | cons name discriminant default type rest ih =>
    rw [names, List.nodup_cons, names_eq] at hnodup
    rw [find]
    rcases List.mem_cons.mp hf with rfl | hf
    · exact if_pos rfl
    · rw [if_neg fun he => hnodup.1 (List.mem_map.mpr ⟨f, hf, he⟩)]
      rw [← names_eq] at hnodup
      exact ih hnodup.2 hf

theorem find_eq_none {fields : Fields} {name : String} (h : name ∉ fields.names) : fields.find name = none := by
  induction fields using Fields.induct with
  | nil => rfl
  | cons n discriminant default type rest ih =>
    rw [names, List.mem_cons, not_or] at h
    rw [find, if_neg h.1]
    exact ih h.2

theorem exists_field {fields : Fields} {name : String} (h : name ∈ fields.names) :
    ∃ f ∈ fields.toList, f.name = name := by
  rw [names_eq] at h
  exact List.mem_map.mp h

theorem firstMember_mem {fields : Fields} {name : String} (h : fields.firstMember = some name) :
    name ∈ fields.members := by
  induction fields using Fields.induct with
  | nil => cases h
  | cons n discriminant default type rest ih =>
    rw [firstMember] at h
    rw [members]
    split at h
    · next hd =>
      cases h
      rw [hd]
      simp
    · split
      · exact List.mem_cons_of_mem _ (ih h)
      · exact ih h

theorem active_mem {fields : Fields} {entries : List (String × Content)} {name : String}
    (h : fields.active entries = some name) : name ∈ fields.members := by
  rw [active] at h
  cases hfind : entries.reverse.find? fun entry => entry.1 ∈ fields.members with
  | none =>
    rw [hfind] at h
    exact firstMember_mem h
  | some entry =>
    rw [hfind] at h
    cases h
    simpa using List.find?_some hfind

end Fields

/-- Induction over types, with all the fields of a struct at once. -/
theorem CapnpType.induct {P : CapnpType → Prop} (void : P .void) (bool : P .bool) (int : ∀ bits, P (.int bits))
    (uint : ∀ bits, P (.uint bits)) (text : P .text) (data : P .data) (enum : ∀ schemaId n, P (.enum schemaId n))
    (list : ∀ element, P element → P (.list element))
    (struct : ∀ name fields, (∀ f ∈ fields.toList, P f.type) → P (.struct name fields)) (type : CapnpType) : P type :=
  @CapnpType.rec P (fun fields => ∀ f ∈ fields.toList, P f.type)
    void bool int uint text data enum list struct (fun _ h => (by cases h))
    (fun name discriminant default type rest htype hrest f hf => by
      rcases List.mem_cons.mp hf with rfl | hf
      · exact htype
      · exact hrest f hf) type

mutual

/-- A complete value of the type. -/
def Typed : CapnpType → Content → Prop
  | .void, content => content = .void
  | .bool, content => ∃ value, content = .bool value
  | .int bits, content => ∃ value, content = .int value ∧ -2 ^ (bits - 1) ≤ value ∧ value < 2 ^ (bits - 1)
  | .uint bits, content => ∃ value, content = .int value ∧ 0 ≤ value ∧ value < 2 ^ bits
  | .text, content => ∃ value, content = .text value
  | .data, content => ∃ value, content = .data value
  | .enum _ enumerants, content => ∃ raw, content = .enum raw ∧ raw < enumerants
  | .list element, content => ∃ items, content = .list items ∧ ∀ item ∈ items, Typed element item
  | .struct _ fields, content => ∃ entries, content = .struct entries ∧
    completeFields (fields.active entries) entries fields = entries ∧ TypedFields entries fields

def TypedFields (entries : List (String × Content)) : Fields → Prop
  | .nil => True
  | .cons name _ _ type rest => (∀ content, entries.lookup name = some content → Typed type content) ∧
    TypedFields entries rest

end

section

variable (library : Library)

mutual

/-- A builder has room for every text, data and list of the value. -/
def Fits : CapnpType → Content → Prop
  | .text, .text value => library.allocates .text value.utf8ByteSize = true
  | .data, .data value => library.allocates .data value.length = true
  | .list element, .list items =>
    items.length < 2 ^ 32 ∧ library.allocates (.list element) items.length = true ∧ ∀ item ∈ items, Fits element item
  | .struct _ fields, .struct entries => FitsFields entries fields
  | _, _ => True

def FitsFields (entries : List (String × Content)) : Fields → Prop
  | .nil => True
  | .cons name _ _ type rest => (∀ content, entries.lookup name = some content → Fits type content) ∧
    FitsFields entries rest

end

end

mutual

/-- A schema as Cap'n Proto admits it, with no field that is named like an attribute of its class.
The defaults are values of the fields. -/
def WellFormed : CapnpType → Prop
  | .int bits => bits ≤ 64
  | .uint bits => bits ≤ 64
  | .enum _ enumerants => enumerants ≤ 2 ^ 16
  | .list element => WellFormed element
  | .struct _ fields => fields.names.Nodup ∧ (∀ name ∈ fields.names, name ∉ classAttributes fields) ∧
    (fields.members ≠ [] → fields.firstMember.isSome = true) ∧ WellFormedFields fields
  | _ => True

def WellFormedFields : Fields → Prop
  | .nil => True
  | .cons _ _ default type rest => (WellFormed type ∧ Typed type (complete type default)) ∧ WellFormedFields rest

end

theorem wellFormedFields_iff {fields : Fields} : WellFormedFields fields ↔
    ∀ f ∈ fields.toList, WellFormed f.type ∧ Typed f.type (complete f.type f.default) := by
  induction fields using Fields.induct with
  | nil => simp [WellFormedFields, Fields.toList]
  | cons name discriminant default type rest ih => simp [WellFormedFields, Fields.toList, ih]

theorem typedFields_iff {entries : List (String × Content)} {fields : Fields} : TypedFields entries fields ↔
    ∀ f ∈ fields.toList, ∀ content, entries.lookup f.name = some content → Typed f.type content := by
  induction fields using Fields.induct with
  | nil => simp [TypedFields, Fields.toList]
  | cons name discriminant default type rest ih => simp [TypedFields, Fields.toList, ih]

theorem fitsFields_iff {library : Library} {entries : List (String × Content)} {fields : Fields} :
    FitsFields library entries fields ↔
      ∀ f ∈ fields.toList, ∀ content, entries.lookup f.name = some content → Fits library f.type content := by
  induction fields using Fields.induct with
  | nil => simp [FitsFields, Fields.toList]
  | cons name discriminant default type rest ih => simp [FitsFields, Fields.toList, ih]

/-- The field has a value in every struct whose active member is the given one. -/
def Kept (active : Option String) (f : FieldInfo) : Prop := f.discriminant.isSome = true → active = some f.name

instance (active : Option String) (f : FieldInfo) : Decidable (Kept active f) :=
  inferInstanceAs (Decidable (_ → _))

theorem completeFields_eq (active : Option String) (entries : List (String × Content)) (fields : Fields) :
    completeFields active entries fields = (fields.toList.filter fun f => Kept active f).map fun f =>
      (f.name, complete f.type ((entries.lookup f.name).getD f.default)) := by
  induction fields using Fields.induct with
  | nil => rw [completeFields]; rfl
  | cons name discriminant default type rest ih =>
    rw [completeFields, Fields.toList, List.filter_cons, ih]
    by_cases hk : Kept active ⟨name, discriminant, default, type⟩
    · rw [if_neg fun h => h.2 (hk h.1), if_pos (decide_eq_true hk)]
      rfl
    · rw [if_pos (Classical.not_imp.mp hk), if_neg (by simpa using hk)]

section Lookup

variable {fields : Fields} {active : Option String} {entries : List (String × Content)}

theorem lookup_map_filter {p : FieldInfo → Prop} [DecidablePred p] {g : FieldInfo → Content} {fs : List FieldInfo}
    (hnodup : (fs.map (·.name)).Nodup) {f : FieldInfo} (hf : f ∈ fs) :
    ((fs.filter fun f => p f).map fun f => (f.name, g f)).lookup f.name = if p f then some (g f) else none := by
  induction fs with
  | nil => cases hf
  | cons f' fs ih =>
    rw [List.map_cons, List.nodup_cons] at hnodup
    rw [List.filter_cons]
    rcases List.mem_cons.mp hf with rfl | hf
    · have hrest : ((fs.filter fun f => p f).map fun f => (f.name, g f)).lookup f.name = none := by
        rw [List.lookup_eq_none_iff]
        intro entry hentry
        obtain ⟨f', hf', rfl⟩ := List.mem_map.mp hentry
        have hne : f.name ≠ f'.name := fun he =>
          hnodup.1 (he ▸ List.mem_map_of_mem (List.mem_filter.mp hf').1)
        simpa using hne
      by_cases hp : p f
      · simp [hp]
      · simpa [hp] using hrest
    · have hne : f.name ≠ f'.name := fun he => hnodup.1 (he ▸ List.mem_map_of_mem hf)
      by_cases hp : p f'
      · simp only [hp, decide_true, if_true, List.map_cons, List.lookup_cons, beq_eq_false_iff_ne.mpr hne]
        exact ih hnodup.2 hf
      · simp only [hp, decide_false, Bool.false_eq_true, if_false]
        exact ih hnodup.2 hf

/-- A complete struct has a value for the fields that are kept and for no other. -/
theorem lookup_complete (hnodup : fields.names.Nodup) {f : FieldInfo} (hf : f ∈ fields.toList) :
    (completeFields active entries fields).lookup f.name =
      if Kept active f then some (complete f.type ((entries.lookup f.name).getD f.default)) else none := by
  rw [completeFields_eq]
  rw [Fields.names_eq] at hnodup
  exact lookup_map_filter hnodup hf

end Lookup

theorem active_isSome {structName : String} {fields : Fields} {entries : List (String × Content)}
    (hwf : WellFormed (.struct structName fields)) (hmembers : fields.members ≠ []) :
    ∃ name, fields.active entries = some name := by
  rw [WellFormed] at hwf
  obtain ⟨first, hfirst⟩ := Option.isSome_iff_exists.mp (hwf.2.2.1 hmembers)
  rw [Fields.active, hfirst]
  cases entries.reverse.find? fun entry => entry.1 ∈ fields.members with
  | none => exact ⟨first, rfl⟩
  | some entry => exact ⟨entry.1, rfl⟩

theorem active_eq_none {fields : Fields} {entries : List (String × Content)} (hmembers : fields.members = []) :
    fields.active entries = none := by
  by_contra hsome
  obtain ⟨name, hname⟩ := Option.ne_none_iff_exists'.mp hsome
  have hmem := Fields.active_mem hname
  rw [hmembers] at hmem
  exact absurd hmem List.not_mem_nil

theorem complete_of_typed {type : CapnpType} {content : Content} (h : Typed type content) :
    complete type content = content := by
  induction type using CapnpType.induct generalizing content with
  | list element ih =>
    rw [Typed] at h
    obtain ⟨items, rfl, hitems⟩ := h
    rw [complete]
    congr 1
    exact (List.map_congr_left fun item hitem => ih (hitems item hitem)).trans (List.map_id' items)
  | struct name fields _ =>
    rw [Typed] at h
    obtain ⟨entries, rfl, hcomplete, -⟩ := h
    rw [complete, hcomplete]
  | _ => rw [complete] <;> simp

end Scaler.Capnp
