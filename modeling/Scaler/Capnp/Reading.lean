import Scaler.Capnp.Denotes

/-! Reading an object that was made from bytes. What an access gives is determined by the bytes, whatever
was read before. -/

namespace Scaler.Capnp

/-- What a reader sees of a content of the type. -/
def seen : CapnpType → Content → Observation
  | .enum schemaId _, .enum raw => .enum schemaId raw
  | _, .bool value => .bool value
  | _, .int value => .int value
  | _, .text value => .str value
  | _, .data value => .bytes value
  | _, .list items => .list items.length
  | type, .struct _ => .struct type
  | _, _ => .none

/-- The member of the union that a struct has. -/
def activeMember : CapnpType → Content → Except PyError Observation
  | .struct _ fields, .struct entries =>
    match fields.active entries with
    | some name => .ok (.variant name)
    | none => .error .attributeError
  | _, _ => .error .attributeError

/-- What an access of a content gives. A field that the content does not have is a member of a union that is
not active. -/
def readContent (which : Bool) : List PathItem → CapnpType → Content → Except PyError Observation
  | [], type, content => if which then activeMember type content else .ok (seen type content)
  | .field name :: path, .struct _ fields, .struct entries =>
    match fields.find name, entries.lookup name with
    | some (_, type), some content => readContent which path type content
    | _, _ => .error .attributeError
  | .field _ :: _, _, _ => .error .attributeError
  | .index i :: path, .list element, .list items =>
    match items[i]? with
    | some content => readContent which path element content
    | none => .error .indexError
  | .index _ :: _, _, _ => .error .typeError

/-- The path leads through fields of the structs and items of the lists. -/
def follows : List PathItem → CapnpType → Bool
  | [], _ => true
  | .field name :: path, .struct _ fields =>
    match fields.find name with
    | some (_, type) => follows path type
    | none => false
  | .index _ :: path, .list element => follows path element
  | _ :: _, _ => false

variable {library : Library}

theorem observe_of_denotes {decoded : Bool} {type : CapnpType} {value : PyValue} {content : Content}
    (hd : Denotes library decoded type value content) : observe value = seen type content := by
  cases type with
  | void =>
    rw [Denotes] at hd
    obtain ⟨rfl, rfl⟩ := hd
    rfl
  | bool =>
    rw [Denotes] at hd
    obtain ⟨b, rfl, rfl⟩ := hd
    rfl
  | int bits =>
    rw [Denotes] at hd
    obtain ⟨i, rfl, rfl, -⟩ := hd
    rfl
  | uint bits =>
    rw [Denotes] at hd
    obtain ⟨i, rfl, rfl, -⟩ := hd
    rfl
  | text =>
    rw [Denotes] at hd
    obtain ⟨text, rfl, rfl⟩ := hd
    rfl
  | data =>
    rw [Denotes] at hd
    obtain ⟨data, rfl, rfl⟩ := hd
    rfl
  | enum schemaId enumerants =>
    rw [Denotes] at hd
    obtain ⟨raw, rfl, rfl, -⟩ := hd
    rfl
  | list element =>
    rw [Denotes] at hd
    obtain ⟨items, contents, rfl, rfl, hitems⟩ := hd
    rw [observe, seen, hitems.length_eq]
  | struct structName fields =>
    rw [Denotes] at hd
    obtain ⟨source, variantName, dict, entries, rfl, rfl, -⟩ := hd
    rfl

section Struct

variable {structName : String} {fields : Fields} {source : Option Lazy} {variantName : Option String}
  {dict : List (String × PyValue)} {entries : List (String × Content)}

theorem lookup_keep {name : String} {attr : PyValue} (n : String) :
    ((name, attr) :: dict.filter fun entry => entry.1 ≠ name).lookup n = if n = name then some attr else dict.lookup n := by
  by_cases hn : n = name
  · rw [hn, List.lookup_cons_self, if_pos rfl]
  · rw [List.lookup_cons, beq_eq_false_iff_ne.mpr hn, if_neg hn]
    dsimp only
    induction dict with
    | nil => rfl
    | cons entry dict ih =>
      obtain ⟨key, value⟩ := entry
      by_cases hkey : key = name
      · rw [List.filter_cons_of_neg (by simpa using hkey), ih, List.lookup_cons, beq_eq_false_iff_ne.mpr (hkey ▸ hn)]
      · rw [List.filter_cons_of_pos (by simpa using hkey), List.lookup_cons, List.lookup_cons, ih]

/-- An object with another attribute kept still stands for the same. -/
theorem denotes_keepAttr (hwf : WellFormed (.struct structName fields))
    (hd : Denotes library true (.struct structName fields) (.object (.struct structName fields) source variantName dict)
      (.struct entries)) {f : FieldInfo} (hf : f ∈ fields.toList) {attr : PyValue} {content : Content}
    (hcontent : entries.lookup f.name = some content) (hattr : Denotes library true f.type attr content) :
    Denotes library true (.struct structName fields)
      (keepAttr (.object (.struct structName fields) source variantName dict) f.name attr) (.struct entries) := by
  rw [Denotes] at hd
  obtain ⟨_, _, _, _, hvalue, hentries, hs, hfields⟩ := hd
  cases hvalue
  cases hentries
  have hsource : source.isSome = true := hs.isDecoded rfl
  rw [keepAttr, if_neg fun h => not_classAttribute hwf hf h.2, Denotes]
  refine ⟨source, variantName, _, entries, rfl, rfl, ?_, ?_⟩
  · exact {
      typed := hs.typed
      variant := hs.variant
      fromBytes := hs.fromBytes
      isDecoded := hs.isDecoded
      kept := fun f' hf' hdict => by
        rw [lookup_keep] at hdict
        by_cases hname : f'.name = f.name
        · exact (exists_lookup_iff_kept (names_nodup hwf) hs.typed hf').mp ⟨content, hname ▸ hcontent⟩
        · rw [if_neg hname] at hdict
          exact hs.kept f' hf' hdict
      named := fun h => by simp [h] at hsource
      unset := fun h => by simp [h] at hsource }
  · refine denotesFields_iff.mpr fun f' hf' value' content' hdict hcontent' => ?_
    rw [lookup_keep] at hdict
    by_cases hname : f'.name = f.name
    · rw [if_pos hname] at hdict
      cases hdict
      have hsame : f' = f := by
        have hnodup := names_nodup hwf
        rw [Fields.names_eq] at hnodup
        exact List.inj_on_of_nodup_map hnodup hf' hf hname
      rw [hsame, hcontent] at hcontent'
      cases hcontent'
      rwa [hsame]
    · rw [if_neg hname] at hdict
      exact denotesFields_iff.mp hfields f' hf' value' content' hdict hcontent'

/-- `which()` names the active member, of an object that was constructed too. -/
theorem unionWhich_ok {decoded : Bool} (hwf : WellFormed (.struct structName fields)) (hmembers : fields.members ≠ [])
    (hd : Denotes library decoded (.struct structName fields) (.object (.struct structName fields) source variantName dict)
      (.struct entries)) :
    ∃ name, fields.active entries = some name ∧
      unionWhich library (.object (.struct structName fields) source variantName dict) =
        .ok (name, .object (.struct structName fields) source (some name) dict) ∧
      Denotes library decoded (.struct structName fields) (.object (.struct structName fields) source (some name) dict)
        (.struct entries) := by
  rw [Denotes] at hd
  obtain ⟨_, _, _, _, hvalue, hentries, hs, hfields⟩ := hd
  cases hvalue
  cases hentries
  obtain ⟨name, hactive⟩ : ∃ name, fields.active entries = some name := active_isSome hwf hmembers
  refine ⟨name, hactive, ?_, ?_⟩
  · cases hvariant : variantName with
    | some variant =>
      have hsame := hs.variant variant hvariant
      rw [hactive] at hsame
      cases hsame
      simp only [unionWhich, if_neg hmembers]
    | none =>
      cases hsource : source with
      | none =>
        have hnamed := hs.named hsource hmembers
        rw [hvariant] at hnamed
        cases hnamed
      | some l =>
        have hname : getActiveUnionFieldName library (some l) = .ok name := by
          simp only [getActiveUnionFieldName, hs.fromBytes l hsource, hactive]
        simp only [unionWhich, if_neg hmembers, hname]
        rfl
  · rw [Denotes]
    refine ⟨source, some name, dict, entries, rfl, rfl, ?_, hfields⟩
    exact {
      typed := hs.typed
      variant := fun name' h => by rw [hactive, h]
      fromBytes := hs.fromBytes
      isDecoded := hs.isDecoded
      kept := hs.kept
      named := fun _ _ => rfl
      unset := hs.unset }

end Struct

theorem forall₂_getElem? {α β : Type} {P : α → β → Prop} {xs : List α} {ys : List β} (h : List.Forall₂ P xs ys) {i : Nat} {x : α}
    (hx : xs[i]? = some x) : ∃ y, ys[i]? = some y ∧ P x y := by
  obtain ⟨hi, rfl⟩ := List.getElem?_eq_some_iff.mp hx
  have hi' : i < ys.length := h.length_eq ▸ hi
  exact ⟨ys[i], List.getElem?_eq_getElem hi', (List.forall₂_iff_get.mp h).2 i hi hi'⟩

theorem forall₂_set {α β : Type} {P : α → β → Prop} {xs : List α} {ys : List β} (h : List.Forall₂ P xs ys) {i : Nat} {x : α} {y : β}
    (hy : ys[i]? = some y) (hxy : P x y) : List.Forall₂ P (xs.set i x) ys := by
  induction h generalizing i with
  | nil => exact .nil
  | cons hhead htail ih =>
    cases i with
    | zero =>
      cases hy
      exact .cons hxy htail
    | succ i => exact .cons hhead (ih hy)

/-- At the end of an access. -/
theorem query_ok {which : Bool} {type : CapnpType} {value : PyValue} {content : Content} (hwf : WellFormed type)
    (hd : Denotes library true type value content) :
    (query library which value).1 = readContent which [] type content ∧
      Denotes library true type (query library which value).2 content := by
  have hseen := observe_of_denotes hd
  cases which with
  | false => exact ⟨congrArg Except.ok hseen, hd⟩
  | true =>
    simp only [query, readContent, if_true]
    cases type with
    | struct structName fields =>
      have hd' := hd
      rw [Denotes] at hd'
      obtain ⟨source, variantName, dict, entries, rfl, rfl, -⟩ := hd'
      by_cases hmembers : fields.members = []
      · simp only [unionWhich, if_pos hmembers, activeMember, active_eq_none hmembers]
        exact ⟨trivial, hd⟩
      · obtain ⟨name, hactive, hwhich, hkept⟩ := unionWhich_ok hwf hmembers hd
        simp only [hwhich, activeMember, hactive]
        exact ⟨trivial, hkept⟩
    | _ =>
      have hleaf : ∀ type source variantName dict, value ≠ .object type source variantName dict := by
        rintro type source variantName dict rfl
        simp [Denotes] at hd
      have hwhich : unionWhich library value = .error .attributeError := by
        cases value with
        | object type source variantName dict => exact absurd rfl (hleaf type source variantName dict)
        | _ => rfl
      simp only [hwhich, activeMember]
      exact ⟨trivial, hd⟩

theorem visit_ok {which : Bool} {path : List PathItem} {type : CapnpType} {value : PyValue} {content : Content}
    (hwf : WellFormed type) (hpath : follows path type = true) (hd : Denotes library true type value content) :
    (visit library (query library which) path value).1 = readContent which path type content ∧
      Denotes library true type (visit library (query library which) path value).2 content := by
  induction path generalizing type value content with
  | nil => exact query_ok hwf hd
  | cons item path ih =>
    cases item with
    | field name =>
      cases type with
      | struct structName fields =>
        have hd' := hd
        rw [Denotes] at hd'
        obtain ⟨source, variantName, dict, entries, rfl, rfl, hs, hfields⟩ := hd'
        rw [follows] at hpath
        by_cases hname : name ∈ fields.names
        · obtain ⟨f, hf, rfl⟩ := Fields.exists_field hname
          rw [Fields.find_eq (names_nodup hwf) hf] at hpath
          have hwf' := hwf
          rw [WellFormed] at hwf'
          have hwff := (wellFormedFields_iff.mp hwf'.2.2.2 f hf).1
          rw [visit, readContent, Fields.find_eq (names_nodup hwf) hf]
          rcases getAttr_of_standsFor hwf hs hfields hf with ⟨attr, content, hattr, hcontent, hdenotes⟩ | ⟨herror, hskipped⟩
          · obtain ⟨hread, hafter⟩ := ih hwff hpath hdenotes
            simp only [hattr, hcontent]
            exact ⟨hread, denotes_keepAttr hwf hd hf hcontent hafter⟩
          · have hnone : entries.lookup f.name = none := by
              by_contra hsome
              have hkept := (exists_lookup_iff_kept (names_nodup hwf) hs.typed hf).mp (Option.ne_none_iff_exists'.mp hsome)
              rcases hskipped with hnot | ⟨hsource, -⟩
              · exact hnot hkept
              · have hdecoded := hs.isDecoded rfl
                rw [hsource] at hdecoded
                cases hdecoded
            simp only [herror, hnone]
            exact ⟨trivial, hd⟩
        · rw [Fields.find_eq_none hname] at hpath
          cases hpath
      | _ => cases hpath
    | index i =>
      cases type with
      | list element =>
        have hd' := hd
        rw [Denotes] at hd'
        obtain ⟨items, contents, rfl, rfl, hitems⟩ := hd'
        rw [follows] at hpath
        rw [WellFormed] at hwf
        rw [visit, readContent]
        cases hitem : items[i]? with
        | none =>
          have hnone : contents[i]? = none := by
            rw [List.getElem?_eq_none_iff] at hitem ⊢
            rwa [← hitems.length_eq]
          simp only [hnone]
          exact ⟨trivial, hd⟩
        | some item =>
          obtain ⟨content, hcontent, hdenotes⟩ := forall₂_getElem? hitems hitem
          obtain ⟨hread, hafter⟩ := ih hwf hpath hdenotes
          simp only [hcontent]
          refine ⟨hread, ?_⟩
          rw [Denotes]
          exact ⟨_, contents, rfl, rfl, forall₂_set hitems hcontent hafter⟩
      | _ => cases hpath

/-- The accesses that came before do not change what is read. -/
theorem afterReads_denotes {type : CapnpType} {value : PyValue} {content : Content} {reads : List Access} (hwf : WellFormed type)
    (hreads : ∀ a ∈ reads, follows a.path type = true) (hd : Denotes library true type value content) :
    Denotes library true type (afterReads library value reads) content := by
  induction reads generalizing value with
  | nil => exact hd
  | cons a reads ih =>
    refine ih (fun a' ha' => hreads a' (List.mem_cons_of_mem _ ha')) ?_
    exact (visit_ok hwf (hreads a List.mem_cons_self) hd).2

end Scaler.Capnp
