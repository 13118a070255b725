import Mathlib.Algebra.Order.Ring.Int
import Mathlib.Data.List.Basic
import Scaler.Capnp.Denotes

/-! Writing an object. The attributes it has are set field by field, and what was left out is the default again
when the message is read. -/

namespace Scaler.Capnp

variable {library : Library} {decoded : Bool}

theorem mapM_ok {α β : Type} {f : α → Except PyError β} {g : β → Content} {xs : List α} {contents : List Content}
    (h : List.Forall₂ (fun x content => ∃ y, f x = .ok y ∧ g y = content) xs contents) :
    ∃ ys, xs.mapM f = .ok ys ∧ ys.map g = contents := by
  induction h with
  | nil => exact ⟨[], rfl, rfl⟩
  | cons hx _ ih =>
    obtain ⟨y, hy, rfl⟩ := hx
    obtain ⟨ys, hys, rfl⟩ := ih
    refine ⟨y :: ys, ?_, rfl⟩
    rw [List.mapM_cons, hy, hys]
    rfl

/-- A value is stored as a content that reads back as what the value stands for. -/
def Stores (library : Library) (type : CapnpType) (value : PyValue) (content : Content) : Prop :=
  ∃ set, setDynamicValue library type value = .ok set ∧ complete type set = content

section Struct

variable {structName : String} {fields : Fields} {source : Option Lazy} {variantName : Option String}
  {dict : List (String × PyValue)} {entries : List (String × Content)}

/-- What was set for one field. -/
def Written (source : Option Lazy) (active : Option String) (entries built : List (String × Content)) (f : FieldInfo) : Prop :=
  (∃ set content, built.lookup f.name = some set ∧ entries.lookup f.name = some content ∧ complete f.type set = content) ∨
    built.lookup f.name = none ∧ (¬Kept active f ∨
      source = none ∧ f.discriminant = none ∧ entries.lookup f.name = some (complete f.type f.default))

theorem Written.of_ne {active : Option String} {built : List (String × Content)} {f : FieldInfo} {name : String} {set : Content}
    (hne : f.name ≠ name) : Written source active entries ((name, set) :: built) f ↔ Written source active entries built f := by
  unfold Written
  rw [List.lookup_cons, beq_eq_false_iff_ne.mpr hne]

theorem lookup_of_names {built : List (String × Content)} {names : List String} {name : String} (h : ∀ entry ∈ built, entry.1 ∈ names)
    (hname : name ∉ names) : built.lookup name = none := by
  rw [List.lookup_eq_none_iff]
  intro entry hentry
  have hne : name ≠ entry.1 := fun heq => hname (heq ▸ h entry hentry)
  simpa using hne

/-- The fields `rest` of the struct are written after those in `acc`. -/
theorem setDynamicStruct_ok (hwf : WellFormed (.struct structName fields))
    (hs : StandsFor library decoded structName fields source variantName dict entries)
    (hd : DenotesFields library decoded dict entries fields)
    (hstores : ∀ f ∈ fields.toList, ∀ value content, entries.lookup f.name = some content →
      Denotes library decoded f.type value content → Stores library f.type value content)
    (rest : Fields) (hsub : ∀ f ∈ rest.toList, f ∈ fields.toList) (hnodup : rest.names.Nodup) (acc : List (String × Content)) :
    ∃ built, setDynamicStruct library (.object (.struct structName fields) source variantName dict) rest acc =
        .ok (acc ++ built) ∧ (∀ entry ∈ built, entry.1 ∈ rest.names) ∧
      ∀ f ∈ rest.toList, Written source (fields.active entries) entries built f := by
  induction rest using Fields.induct generalizing acc with
  | nil =>
    refine ⟨[], ?_, fun entry h => absurd h List.not_mem_nil, fun f h => absurd h List.not_mem_nil⟩
    rw [setDynamicStruct, List.append_nil]
  | cons name discriminant default type rest ih =>
    rw [Fields.names, List.nodup_cons] at hnodup
    set f : FieldInfo := ⟨name, discriminant, default, type⟩ with hf
    have hfield : f ∈ fields.toList := hsub f List.mem_cons_self
    have hrest : ∀ f' ∈ rest.toList, f' ∈ fields.toList := fun f' hf' => hsub f' (List.mem_cons_of_mem _ hf')
    have hother : ∀ f' ∈ rest.toList, f'.name ≠ name := by
      rintro f' hf' rfl
      rw [Fields.names_eq] at hnodup
      exact hnodup.1 (List.mem_map_of_mem hf')
    rw [setDynamicStruct]
    rcases getAttr_of_standsFor hwf hs hd hfield with ⟨attr, content, hattr, hcontent, hdenotes⟩ | ⟨herror, hskipped⟩
    · obtain ⟨set, hset, hcomplete⟩ := hstores f hfield attr content hcontent hdenotes
      obtain ⟨built, hbuilt, hnames, hwritten⟩ := ih hrest hnodup.2 (acc ++ [(name, set)])
      refine ⟨(name, set) :: built, ?_, fun entry hentry => ?_, fun f' hf' => ?_⟩
      · rw [show getAttr library _ name = .ok attr from hattr]
        dsimp only
        rw [hset]
        change setDynamicStruct library _ rest (acc ++ [(name, set)]) = _
        rw [hbuilt, List.append_assoc]
        rfl
      · rcases List.mem_cons.mp hentry with rfl | hentry
        · exact List.mem_cons_self
        · exact List.mem_cons_of_mem _ (hnames entry hentry)
      · rcases List.mem_cons.mp hf' with rfl | hf'
        · exact .inl ⟨set, content, by rw [List.lookup_cons_self], hcontent, hcomplete⟩
        · exact (Written.of_ne (hother f' hf')).mpr (hwritten f' hf')
    · obtain ⟨built, hbuilt, hnames, hwritten⟩ := ih hrest hnodup.2 acc
      refine ⟨built, ?_, fun entry hentry => List.mem_cons_of_mem _ (hnames entry hentry), fun f' hf' => ?_⟩
      · rw [show getAttr library _ name = .error .attributeError from herror]
        exact hbuilt
      · rcases List.mem_cons.mp hf' with rfl | hf'
        · exact .inr ⟨lookup_of_names hnames hnodup.1, hskipped⟩
        · exact hwritten f' hf'

/-- The member that was written is the one that is active. -/
theorem active_of_written (hwf : WellFormed (.struct structName fields)) (ht : Typed (.struct structName fields) (.struct entries))
    {built : List (String × Content)} (hwritten : ∀ f ∈ fields.toList, Written source (fields.active entries) entries built f) :
    fields.active built = fields.active entries := by
  have hnodup := names_nodup hwf
  have hpresent : ∀ entry ∈ built, entry.1 ∈ fields.members → fields.active entries = some entry.1 := by
    intro entry hentry hmem
    obtain ⟨f, hf, hname, hsome⟩ := Fields.mem_members.mp hmem
    rcases hwritten f hf with ⟨set, content, -, hcontent, -⟩ | ⟨hnone, -⟩
    · rw [← hname]
      exact (exists_lookup_iff_kept hnodup ht hf).mp ⟨content, hcontent⟩ hsome
    · rw [List.lookup_eq_none_iff] at hnone
      have hne := hnone entry hentry
      simp [hname] at hne
  by_cases hmembers : fields.members = []
  · rw [active_eq_none hmembers, active_eq_none hmembers]
  · obtain ⟨name, hactive⟩ : ∃ name, fields.active entries = some name := active_isSome hwf hmembers
    rw [Fields.active]
    cases hfind : built.reverse.find? fun entry => entry.1 ∈ fields.members with
    | some entry =>
      have hmem : entry.1 ∈ fields.members := by simpa using List.find?_some hfind
      exact (hpresent entry (List.mem_reverse.mp (List.mem_of_find?_eq_some hfind)) hmem).symm
    | none =>
      -- the active member has a value, and no default stands for it
      exfalso
      obtain ⟨f, hf, rfl, hsome⟩ := Fields.mem_members.mp (Fields.active_mem hactive)
      have hmem : f.name ∈ fields.members := (Fields.member_iff hnodup hf).mpr hsome
      rcases hwritten f hf with ⟨set, content, hset, -⟩ | ⟨-, hnot | ⟨-, hplain, -⟩⟩
      · obtain ⟨_, _, hsplit, -⟩ := List.lookup_eq_some_iff.mp hset
        have hset' : (f.name, set) ∈ built := hsplit ▸ List.mem_append_right _ List.mem_cons_self
        have hnot := List.find?_eq_none.mp hfind (f.name, set) (List.mem_reverse.mpr hset')
        simp [hmem] at hnot
      · exact hnot fun _ => hactive
      · rw [hplain] at hsome
        cases hsome

/-- Completing what was written gives the entries that the object stands for. -/
theorem complete_written (hwf : WellFormed (.struct structName fields)) (ht : Typed (.struct structName fields) (.struct entries))
    {built : List (String × Content)} (hwritten : ∀ f ∈ fields.toList, Written source (fields.active entries) entries built f) :
    completeFields (fields.active built) built fields = entries := by
  obtain ⟨hcomplete, htyped⟩ := typed_struct.mp ht
  rw [active_of_written hwf ht hwritten]
  conv_rhs => rw [← hcomplete]
  rw [completeFields_eq, completeFields_eq]
  refine List.map_congr_left fun f hf => ?_
  obtain ⟨hf, hkept⟩ := List.mem_filter.mp hf
  obtain ⟨content, hcontent⟩ := (exists_lookup_iff_kept (names_nodup hwf) ht hf).mpr (of_decide_eq_true hkept)
  have hsame : complete f.type content = content := complete_of_typed (htyped f hf content hcontent)
  rcases hwritten f hf with ⟨set, content', hset, hcontent', hset'⟩ | ⟨hnone, hnot | ⟨-, -, hdefault⟩⟩
  · obtain rfl := Option.some.inj (hcontent.symm.trans hcontent')
    rw [hset, hcontent, Option.getD_some, Option.getD_some, hset', hsame]
  · exact absurd (of_decide_eq_true hkept) hnot
  · obtain rfl := Option.some.inj (hcontent.symm.trans hdefault)
    rw [hnone, hcontent, Option.getD_none, Option.getD_some, hsame]

end Struct

theorem setDynamicValue_ok {type : CapnpType} {value : PyValue} {content : Content} (hwf : WellFormed type)
    (hd : Denotes library decoded type value content) (hfits : Fits library type content) :
    Stores library type value content := by
  induction type using CapnpType.induct generalizing value content with
  | void =>
    rw [Denotes] at hd
    obtain ⟨rfl, rfl⟩ := hd
    exact ⟨.void, rfl, rfl⟩
  | bool =>
    rw [Denotes] at hd
    obtain ⟨b, rfl, rfl⟩ := hd
    exact ⟨.bool b, rfl, rfl⟩
  | int bits =>
    rw [Denotes] at hd
    obtain ⟨i, rfl, rfl, ht⟩ := hd
    rw [Typed] at ht
    obtain ⟨_, hi, hlow, hhigh⟩ := ht
    cases hi
    rw [WellFormed] at hwf
    have hle : (2 : Int) ^ (bits - 1) ≤ 2 ^ 63 := pow_le_pow_right₀ (by decide) (by omega)
    refine ⟨.int i, ?_, rfl⟩
    change (if -2 ^ 63 ≤ i ∧ i < 2 ^ 63 then
      if -2 ^ (bits - 1) ≤ i ∧ i < 2 ^ (bits - 1) then Except.ok (Content.int i) else .error PyError.runtimeError
      else .error PyError.overflowError) = _
    rw [if_pos (by omega), if_pos ⟨hlow, hhigh⟩]
  | uint bits =>
    rw [Denotes] at hd
    obtain ⟨i, rfl, rfl, ht⟩ := hd
    rw [Typed] at ht
    obtain ⟨_, hi, hlow, hhigh⟩ := ht
    cases hi
    rw [WellFormed] at hwf
    have hle : (2 : Int) ^ bits ≤ 2 ^ 64 := pow_le_pow_right₀ (by decide) hwf
    refine ⟨.int i, ?_, rfl⟩
    change (if 0 ≤ i ∧ i < 2 ^ 64 then if i < 2 ^ bits then Except.ok (Content.int i) else .error PyError.runtimeError
      else .error PyError.overflowError) = _
    rw [if_pos (by omega), if_pos hhigh]
  | text =>
    rw [Denotes] at hd
    obtain ⟨text, rfl, rfl⟩ := hd
    rw [Fits] at hfits
    exact ⟨.text text, by rw [setDynamicValue, if_pos hfits], rfl⟩
  | data =>
    rw [Denotes] at hd
    obtain ⟨data, rfl, rfl⟩ := hd
    rw [Fits] at hfits
    exact ⟨.data data, by rw [setDynamicValue, if_pos hfits], rfl⟩
  | enum schemaId enumerants =>
    rw [Denotes] at hd
    obtain ⟨raw, rfl, rfl, hraw⟩ := hd
    rw [WellFormed] at hwf
    have hmod : (Int.ofNat raw).toNat % 2 ^ 16 = raw := Nat.mod_eq_of_lt (by simp; omega)
    refine ⟨.enum raw, ?_, rfl⟩
    change (if Int.ofNat raw < 0 ∨ 2 ^ 64 ≤ Int.ofNat raw then Except.error PyError.overflowError
      else if (Int.ofNat raw).toNat % 2 ^ 16 < enumerants then .ok (Content.enum ((Int.ofNat raw).toNat % 2 ^ 16))
        else .error PyError.runtimeError) = _
    rw [if_neg (by simp; omega), hmod, if_pos hraw]
  | list element ih =>
    rw [Denotes] at hd
    obtain ⟨items, contents, rfl, rfl, hitems⟩ := hd
    rw [WellFormed] at hwf
    rw [Fits] at hfits
    obtain ⟨hlength, hroom, hfits⟩ := hfits
    have hstores : List.Forall₂ (fun item content => Stores library element item content) items contents := by
      rw [List.forall₂_iff_zip] at hitems ⊢
      exact ⟨hitems.1, fun hmem => ih hwf (hitems.2 hmem) (hfits _ (List.of_mem_zip hmem).2)⟩
    obtain ⟨sets, hsets, hcomplete⟩ := mapM_ok hstores
    have hsize : items.length % 2 ^ 32 = items.length := by
      rw [hitems.length_eq]
      exact Nat.mod_eq_of_lt hlength
    refine ⟨.list sets, ?_, ?_⟩
    · rw [setDynamicValue, asSequence]
      change (if library.allocates (.list element) (items.length % 2 ^ 32) = true then
        (items.take (items.length % 2 ^ 32)).mapM (setDynamicValue library element) >>= fun contents =>
          Except.ok (Content.list contents)
        else .error PyError.runtimeError) = _
      rw [hsize, hitems.length_eq, if_pos hroom, ← hitems.length_eq, List.take_length, hsets]
      rfl
    · rw [complete, hcomplete]
  | struct structName fields ih =>
    rw [Denotes] at hd
    obtain ⟨source, variantName, dict, entries, rfl, rfl, hs, hfields⟩ := hd
    rw [Fits] at hfits
    have hwf' := hwf
    rw [WellFormed] at hwf'
    have hwfs := wellFormedFields_iff.mp hwf'.2.2.2
    obtain ⟨built, hbuilt, -, hwritten⟩ := setDynamicStruct_ok hwf hs hfields (fun f hf value content hcontent hd =>
      ih f hf (hwfs f hf).1 hd (fitsFields_iff.mp hfits f hf content hcontent))
      fields (fun f hf => hf) (names_nodup hwf) []
    refine ⟨.struct built, ?_, ?_⟩
    · rw [setDynamicValue, hbuilt]
      rfl
    · rw [complete, complete_written hwf hs.typed hwritten]

end Scaler.Capnp
