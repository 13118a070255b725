import Scaler.Capnp.Reading
import Scaler.Capnp.Serializing

/-! Protocol objects over the wire: what is written is read back, and an object that was made from bytes can be
read at will and written again. -/

namespace Scaler.Capnp

/-- The library reads the messages of the type that it built with these contents. -/
structure ReadsBack (library : Library) (type : CapnpType) (limit : Nat) (content : Content) : Prop where
  aligned : ∀ set, complete type set = content → (library.messageToFlatArray type set).length % 8 = 0
  root : ∀ set, complete type set = content →
    library.getRoot type limit (library.messageToFlatArray type set) = some content

/-- The types that can be sent: `Message`, and the structs without a union that have a name of their own. -/
def Registry.Sendable (registry : Registry) (type : CapnpType) : Prop :=
  type = registry.message ∧ registry.messageFields.members ≠ [] ∨
    ∃ name fields, type = .struct name fields ∧ fields.members = [] ∧ registry.topLevel.lookup name = some type

/-- The bytes hold a message with the contents. -/
structure Holds (library : Library) (type : CapnpType) (limit : Nat) (bytes : Bytes) (content : Content) : Prop where
  aligned : bytes.length % 8 = 0
  root : library.getRoot type limit bytes = some content

variable {library : Library} {registry : Registry} {type : CapnpType} {limit : Nat} {content : Content}

theorem ReadsBack.holds (hlib : ReadsBack library type limit content) {set : Content} (hset : complete type set = content) :
    Holds library type limit (library.messageToFlatArray type set) content :=
  ⟨hlib.aligned set hset, hlib.root set hset⟩

theorem typed_of_denotes {decoded : Bool} {value : PyValue} (hd : Denotes library decoded type value content) :
    Typed type content := by
  induction type using CapnpType.induct generalizing value content with
  | void =>
    rw [Denotes] at hd
    rw [Typed]
    exact hd.2
  | bool =>
    rw [Denotes] at hd
    obtain ⟨b, -, rfl⟩ := hd
    rw [Typed]
    exact ⟨b, rfl⟩
  | int bits =>
    rw [Denotes] at hd
    obtain ⟨i, -, rfl, ht⟩ := hd
    exact ht
  | uint bits =>
    rw [Denotes] at hd
    obtain ⟨i, -, rfl, ht⟩ := hd
    exact ht
  | text =>
    rw [Denotes] at hd
    obtain ⟨text, -, rfl⟩ := hd
    rw [Typed]
    exact ⟨text, rfl⟩
  | data =>
    rw [Denotes] at hd
    obtain ⟨data, -, rfl⟩ := hd
    rw [Typed]
    exact ⟨data, rfl⟩
  | enum schemaId enumerants =>
    rw [Denotes] at hd
    obtain ⟨raw, -, rfl, hraw⟩ := hd
    rw [Typed]
    exact ⟨raw, rfl, hraw⟩
  | list element ih =>
    rw [Denotes] at hd
    obtain ⟨items, contents, -, rfl, hitems⟩ := hd
    rw [Typed]
    refine ⟨contents, rfl, fun content hcontent => ?_⟩
    obtain ⟨i, hi⟩ := List.mem_iff_getElem?.mp hcontent
    obtain ⟨item, -, hitem⟩ := forall₂_getElem? hitems.flip hi
    exact ih hitem
  | struct structName fields _ =>
    rw [Denotes] at hd
    obtain ⟨source, variantName, dict, entries, -, rfl, hs, -⟩ := hd
    exact hs.typed

theorem fromBytes_ok (hsend : registry.Sendable type) (ht : Typed type content) {bytes : Bytes}
    (hbytes : Holds library type limit bytes content) :
    ∃ value, fromBytes library registry type bytes limit = .ok value ∧ Denotes library true type value content := by
  have hread : ∃ value, readStructFromBuffer library type bytes limit = .ok value ∧ Denotes library true type value content := by
    have hl : withLazyStructReader library ⟨bytes, limit, type, []⟩ = .ok (type, content) := by
      simp [withLazyStructReader, hbytes.aligned, hbytes.root, walk]
    obtain ⟨value, hvalue, hdenotes⟩ := dynamicValueToPyObject_ok ht hl
    refine ⟨value, ?_, hdenotes⟩
    simp only [readStructFromBuffer, hbytes.aligned, hbytes.root, ne_eq, not_true_eq_false, if_false, hvalue]
  obtain ⟨value, hvalue, hdenotes⟩ := hread
  refine ⟨value, ?_, hdenotes⟩
  rcases hsend with ⟨rfl, hmembers⟩ | ⟨name, fields, rfl, hmembers, hlookup⟩
  · rw [Registry.message, fromBytes, if_neg hmembers]
    exact hvalue
  · rw [fromBytes, if_pos hmembers, hlookup]
    exact hvalue

/-- Of a message only the active member is set. -/
theorem written_member {source : Option Lazy} {entries : List (String × Content)} (hwf : WellFormed registry.message) {f f' : FieldInfo}
    (hf : f ∈ registry.messageFields.toList) (hf' : f' ∈ registry.messageFields.toList)
    (hactive : registry.messageFields.active entries = some f.name) {set content : Content}
    (hcontent : entries.lookup f.name = some content) (hset : complete f.type set = content) :
    Written source (registry.messageFields.active entries) entries [(f.name, set)] f' := by
  by_cases hname : f'.name = f.name
  · obtain rfl : f' = f := by
      have hnodup := names_nodup hwf
      rw [Fields.names_eq] at hnodup
      exact List.inj_on_of_nodup_map hnodup hf' hf hname
    exact .inl ⟨set, content, List.lookup_cons_self, hcontent, hset⟩
  · refine .inr ⟨by rw [List.lookup_cons, beq_eq_false_iff_ne.mpr hname]; rfl, .inl fun hkept => hname ?_⟩
    have hmember : f'.name ∈ registry.messageFields.members := by
      rw [registry.messageUnion, Fields.names_eq]
      exact List.mem_map_of_mem hf'
    have hactive' := hkept ((Fields.member_iff (names_nodup hwf) hf').mp hmember)
    rw [hactive] at hactive'
    exact (Option.some.inj hactive').symm

theorem toBytes_ok {decoded : Bool} {value : PyValue} (hsend : registry.Sendable type) (hwf : WellFormed type)
    (hd : Denotes library decoded type value content) (hfits : Fits library type content) :
    ∃ bytes, toBytes library registry value = .ok bytes ∧
      (ReadsBack library type limit content → Holds library type limit bytes content) := by
  rcases hsend with ⟨rfl, hmembers⟩ | ⟨name, fields, rfl, hmembers, hlookup⟩
  · have hvalue := hd
    rw [Registry.message, Denotes] at hvalue
    obtain ⟨source, variantName, dict, entries, rfl, rfl, -⟩ := hvalue
    obtain ⟨name, hactive, hwhich, hd⟩ := unionWhich_ok hwf hmembers hd
    obtain ⟨f, hf, rfl, hsome⟩ := Fields.mem_members.mp (Fields.active_mem hactive)
    have hvalue := hd
    rw [Denotes] at hvalue
    obtain ⟨_, _, _, _, hobject, hentries, hs, hfields⟩ := hvalue
    cases hobject
    cases hentries
    obtain ⟨payload, content, hpayload, hcontent, hdenotes⟩ | ⟨-, hskipped⟩ := getAttr_of_standsFor hwf hs hfields hf
    · have hwff : WellFormed f.type := by
        rw [Registry.message, WellFormed] at hwf
        exact (wellFormedFields_iff.mp hwf.2.2.2 f hf).1
      rw [Registry.message, Fits] at hfits
      obtain ⟨set, hset, hcomplete⟩ :=
        setDynamicValue_ok hwff hdenotes (fitsFields_iff.mp hfits f hf content hcontent)
      refine ⟨library.messageToFlatArray registry.message (.struct [(f.name, set)]), ?_, fun hlib => hlib.holds ?_⟩
      · simp only [toBytes, if_neg hmembers, hwhich, Except.bind, bind, hpayload, messageToBytes, hset,
          Fields.find_eq (names_nodup hwf) hf]
      · have hwritten : ∀ f' ∈ registry.messageFields.toList,
            Written source (registry.messageFields.active entries) entries [(f.name, set)] f' :=
          fun f' hf' => written_member hwf hf hf' hactive hcontent hcomplete
        rw [Registry.message, complete, complete_written hwf hs.typed hwritten]
    · exfalso
      rcases hskipped with hnot | ⟨-, hplain, -⟩
      · exact hnot fun _ => hactive
      · rw [hplain] at hsome
        cases hsome
  · obtain ⟨set, hset, hcomplete⟩ := setDynamicValue_ok hwf hd hfits
    refine ⟨_, ?_, fun hlib => hlib.holds hcomplete⟩
    rw [Denotes] at hd
    obtain ⟨source, variantName, dict, entries, rfl, -⟩ := hd
    simp only [toBytes, if_pos hmembers, structToBytes, hlookup, hset]
    rfl

/-- Every access that follows the type gives what the content has, whatever was read before. -/
def ReadsAs (library : Library) (type : CapnpType) (value : PyValue) (content : Content) : Prop :=
  ∀ reads : List Access, (∀ r ∈ reads, follows r.path type = true) → ∀ a : Access, follows a.path type = true →
    (access library (afterReads library value reads) a).1 = readContent a.which a.path type content

theorem readsAs_of_denotes {value : PyValue} (hwf : WellFormed type) (hd : Denotes library true type value content) :
    ReadsAs library type value content :=
  fun _ hreads _ ha => (visit_ok hwf ha (afterReads_denotes hwf hreads hd)).1

/-- An object can be written, and what it stands for is what is read of it on the other side. -/
theorem fromBytes_toBytes {decoded : Bool} {value : PyValue} (hsend : registry.Sendable type) (hwf : WellFormed type)
    (hd : Denotes library decoded type value content) (hfits : Fits library type content) :
    ∃ bytes, toBytes library registry value = .ok bytes ∧ (ReadsBack library type limit content →
      ∃ received, fromBytes library registry type bytes limit = .ok received ∧ ReadsAs library type received content) := by
  obtain ⟨bytes, hbytes, hholds⟩ := toBytes_ok hsend hwf hd hfits
  refine ⟨bytes, hbytes, fun hlib => ?_⟩
  obtain ⟨received, hreceived, hdenotes⟩ := fromBytes_ok hsend (typed_of_denotes hd) (hholds hlib)
  exact ⟨received, hreceived, readsAs_of_denotes hwf hdenotes⟩

section TaskMessage

def argumentType : CapnpType :=
  .struct "Argument" <| .cons "type" none (.enum 0) (.enum 1 2) <| .cons "data" none (.data []) .data .nil

def taskCapabilityType : CapnpType :=
  .struct "TaskCapability" <| .cons "name" none (.text "") .text <| .cons "value" none (.int 0) (.int 64) .nil

def taskType : CapnpType :=
  .struct "Task" <| .cons "taskId" none (.data []) .data <| .cons "source" none (.data []) .data <|
    .cons "metadata" none (.data []) .data <| .cons "funcObjectId" none (.data []) .data <|
    .cons "functionArgs" none (.list []) (.list argumentType) <|
    .cons "capabilities" none (.list []) (.list taskCapabilityType) .nil

def taskCancelType : CapnpType :=
  .struct "TaskCancel" <| .cons "taskId" none (.data []) .data <|
    .cons "flags" none (.struct []) (.struct "TaskCancelFlags" (.cons "force" none (.bool false) .bool .nil)) .nil

/-- Two of the messages. -/
def taskRegistry : Registry where
  topLevel := []
  messageName := "Message"
  messageFields := .cons "task" (some 0) (.struct []) taskType <| .cons "taskCancel" (some 1) (.struct []) taskCancelType .nil
  messageUnion := rfl

def taskContent : Content :=
  .struct [("taskId", .data [1]), ("source", .data []), ("metadata", .data []), ("funcObjectId", .data []),
    ("functionArgs", .list [.struct [("type", .enum 1), ("data", .data [2, 3])]]),
    ("capabilities", .list [.struct [("name", .text "gpu"), ("value", .int (-1))]])]

def taskMessage : Content := .struct [("task", taskContent)]

/-- One segment of eighteen words: the pointers of the message and of the task, and what they point to. -/
def taskBytes : Bytes :=
  [0, 0, 0, 0, 18, 0, 0, 0, 0, 0, 0, 0, 1, 0, 1, 0, 0, 0, 0, 0, 0, 0, 0, 0, 0, 0, 0, 0, 0, 0, 6, 0,
    21, 0, 0, 0, 10, 0, 0, 0, 0, 0, 0, 0, 0, 0, 0, 0, 0, 0, 0, 0, 0, 0, 0, 0, 0, 0, 0, 0, 0, 0, 0, 0,
    9, 0, 0, 0, 23, 0, 0, 0, 21, 0, 0, 0, 23, 0, 0, 0, 1, 0, 0, 0, 0, 0, 0, 0,
    4, 0, 0, 0, 1, 0, 1, 0, 1, 0, 0, 0, 0, 0, 0, 0, 1, 0, 0, 0, 18, 0, 0, 0, 2, 3, 0, 0, 0, 0, 0, 0,
    4, 0, 0, 0, 1, 0, 1, 0, 255, 255, 255, 255, 255, 255, 255, 255, 1, 0, 0, 0, 34, 0, 0, 0, 103, 112, 117, 0, 0, 0, 0, 0]

theorem length_taskBytes : taskBytes.length = 152 := by simp [taskBytes]

/-- What the library does with such a task. -/
def taskLibrary : Library where
  allocates := fun _ size => size < 2 ^ 29 - 1
  messageToFlatArray := fun type set =>
    match complete type set with
    | .struct [(_, .struct [(_, .data [1]), (_, .data []), (_, .data []), (_, .data []),
        (_, .list [.struct [(_, .enum 1), (_, .data [2, 3])]]), (_, .list [.struct [(_, .text _), (_, .int (.negSucc 0))]])])] =>
      taskBytes
    | _ => []
  getRoot := fun _ _ bytes => if bytes = taskBytes then some taskMessage else none

@[simp] theorem allocates_task (type : CapnpType) (size : Nat) :
    taskLibrary.allocates type size = decide (size < 2 ^ 29 - 1) := rfl

theorem task_sendable : taskRegistry.Sendable taskRegistry.message := .inl ⟨rfl, by decide⟩

theorem messageToFlatArray_task {type : CapnpType} {set : Content} (hset : complete type set = taskMessage) :
    taskLibrary.messageToFlatArray type set = taskBytes := by
  rw [taskLibrary]
  dsimp only
  rw [hset]
  rfl

theorem getRoot_task (type : CapnpType) (limit : Nat) : taskLibrary.getRoot type limit taskBytes = some taskMessage := by
  rw [taskLibrary]
  dsimp only
  exact if_pos rfl

theorem task_readsBack (limit : Nat) : ReadsBack taskLibrary taskRegistry.message limit taskMessage where
  aligned := fun set hset => by rw [messageToFlatArray_task hset, length_taskBytes]
  root := fun set hset => by
    rw [messageToFlatArray_task hset]
    exact getRoot_task _ _

theorem argument_typed : Typed argumentType (.struct [("type", .enum 1), ("data", .data [2, 3])]) := by
  simp [argumentType, Typed, TypedFields, Fields.active, Fields.members, completeFields, complete, List.lookup_cons]

theorem capability_typed : Typed taskCapabilityType (.struct [("name", .text "gpu"), ("value", .int (-1))]) := by
  simp [taskCapabilityType, Typed, TypedFields, Fields.active, Fields.members, completeFields, complete, List.lookup_cons]

theorem taskContent_typed : Typed taskType taskContent := by
  rw [taskType, taskContent, Typed]
  refine ⟨_, rfl, rfl, ?_⟩
  simp [TypedFields, Typed, List.lookup_cons, argument_typed, capability_typed]

theorem task_typed : Typed taskRegistry.message taskMessage := by
  rw [Registry.message, taskMessage, Typed]
  refine ⟨_, rfl, rfl, ?_⟩
  simp [taskRegistry, TypedFields, List.lookup_cons, taskContent_typed]

theorem argument_wellFormed : WellFormed argumentType := by
  simp [argumentType, WellFormed, WellFormedFields, Fields.names, Fields.members, classAttributes, Typed, complete]

theorem capability_wellFormed : WellFormed taskCapabilityType := by
  simp [taskCapabilityType, WellFormed, WellFormedFields, Fields.names, Fields.members, classAttributes, Typed, complete]

theorem taskType_wellFormed : WellFormed taskType := by
  simp [taskType, WellFormed, WellFormedFields, Fields.names, Fields.members, classAttributes, Typed, complete,
    argument_wellFormed, capability_wellFormed]

theorem taskCancelType_wellFormed : WellFormed taskCancelType := by
  simp [taskCancelType, WellFormed, WellFormedFields, Fields.names, Fields.members, Fields.active, classAttributes, Typed,
    TypedFields, complete, completeFields]

theorem taskDefault_typed : Typed taskType (complete taskType (.struct [])) := by
  rw [taskType, complete, Typed]
  refine ⟨_, rfl, rfl, ?_⟩
  simp [TypedFields, Typed, complete, completeFields, Fields.active, List.lookup_cons]

theorem taskCancelDefault_typed : Typed taskCancelType (complete taskCancelType (.struct [])) := by
  rw [taskCancelType, complete, Typed]
  refine ⟨_, rfl, rfl, ?_⟩
  simp [TypedFields, Typed, complete, completeFields, Fields.active, List.lookup_cons]

theorem task_wellFormed : WellFormed taskRegistry.message := by
  rw [Registry.message, WellFormed]
  refine ⟨?_, ?_, ?_, ?_⟩
  · simp [taskRegistry, Fields.names]
  · simp [taskRegistry, Fields.names, classAttributes, Fields.members]
  · simp [taskRegistry, Fields.firstMember]
  · simp [taskRegistry, WellFormedFields, taskType_wellFormed, taskCancelType_wellFormed, taskDefault_typed,
      taskCancelDefault_typed]

theorem argument_fits : Fits taskLibrary argumentType (.struct [("type", .enum 1), ("data", .data [2, 3])]) := by
  simp [argumentType, Fits, FitsFields, List.lookup_cons]

theorem capability_fits : Fits taskLibrary taskCapabilityType (.struct [("name", .text "gpu"), ("value", .int (-1))]) := by
  simp [taskCapabilityType, Fits, FitsFields, List.lookup_cons]
  decide

theorem taskContent_fits : Fits taskLibrary taskType taskContent := by
  simp [taskType, taskContent, Fits, FitsFields, List.lookup_cons, argument_fits, capability_fits]

theorem task_fits : Fits taskLibrary taskRegistry.message taskMessage := by
  simp [Registry.message, taskRegistry, taskMessage, Fits, FitsFields, List.lookup_cons, taskContent_fits]

theorem standsFor_constructed {library : Library} {structName : String} {fields : Fields} {variantName : Option String}
    {dict : List (String × PyValue)} {entries : List (String × Content)}
    (ht : Typed (.struct structName fields) (.struct entries))
    (hvariant : ∀ name, variantName = some name → fields.active entries = some name)
    (hkept : ∀ f ∈ fields.toList, dict.lookup f.name ≠ none → Kept (fields.active entries) f)
    (hnamed : fields.members ≠ [] → variantName.isSome = true)
    (hunset : ∀ f ∈ fields.toList, dict.lookup f.name = none → Kept (fields.active entries) f →
      f.discriminant = none ∧ entries.lookup f.name = some (complete f.type f.default)) :
    StandsFor library false structName fields none variantName dict entries where
  typed := ht
  variant := hvariant
  fromBytes := fun l h => by cases h
  isDecoded := fun h => by cases h
  kept := hkept
  named := fun _ => hnamed
  unset := fun _ => hunset

theorem argument_denotes : Denotes taskLibrary false argumentType
    (.object argumentType none none [("type", .enum 1 1), ("data", .bytes [2, 3])])
    (.struct [("type", .enum 1), ("data", .data [2, 3])]) := by
  rw [argumentType, Denotes]
  refine ⟨none, none, _, _, rfl, rfl, standsFor_constructed argument_typed ?_ ?_ ?_ ?_, ?_⟩
  · simp
  · simp [Fields.toList, Kept]
  · simp [Fields.members]
  · simp [Fields.toList, List.lookup_cons]
  · simp [DenotesFields, Denotes, List.lookup_cons]

theorem capability_denotes : Denotes taskLibrary false taskCapabilityType
    (.object taskCapabilityType none none [("name", .str "gpu"), ("value", .int (-1))])
    (.struct [("name", .text "gpu"), ("value", .int (-1))]) := by
  rw [taskCapabilityType, Denotes]
  refine ⟨none, none, _, _, rfl, rfl, standsFor_constructed capability_typed ?_ ?_ ?_ ?_, ?_⟩
  · simp
  · simp [Fields.toList, Kept]
  · simp [Fields.members]
  · simp [Fields.toList, List.lookup_cons]
  · simp [DenotesFields, Denotes, Typed, List.lookup_cons]

theorem taskObject_denotes : Denotes taskLibrary false taskType (.object taskType none none
    [("taskId", .bytes [1]),
      ("functionArgs", .list [.object argumentType none none [("type", .enum 1 1), ("data", .bytes [2, 3])]]),
      ("capabilities", .list [.object taskCapabilityType none none [("name", .str "gpu"), ("value", .int (-1))]])])
    taskContent := by
  rw [taskType, Denotes]
  refine ⟨none, none, _, _, rfl, rfl, standsFor_constructed taskContent_typed ?_ ?_ ?_ ?_, ?_⟩
  · simp
  · simp [Fields.toList, Kept]
  · simp [Fields.members]
  · simp [Fields.toList, List.lookup_cons, complete]
  · simp only [DenotesFields, List.lookup_cons]
    simp [Denotes, argument_denotes, capability_denotes]

theorem taskMessage_denotes : Denotes taskLibrary false taskRegistry.message (.object taskRegistry.message none (some "task")
    [("task", .object taskType none none
      [("taskId", .bytes [1]),
        ("functionArgs", .list [.object argumentType none none [("type", .enum 1 1), ("data", .bytes [2, 3])]]),
        ("capabilities", .list [.object taskCapabilityType none none [("name", .str "gpu"), ("value", .int (-1))]])])])
    taskMessage := by
  rw [Registry.message, Denotes]
  refine ⟨none, some "task", _, _, rfl, rfl, standsFor_constructed task_typed ?_ ?_ ?_ ?_, ?_⟩
  · rintro name hname
    cases hname
    rfl
  · rintro f hf hsome -
    simp [taskRegistry, Fields.toList] at hf
    rcases hf with rfl | rfl
    · rfl
    · cases hsome rfl
  · exact fun _ => rfl
  · simp [taskRegistry, Fields.toList, List.lookup_cons, Kept, Fields.active, Fields.members]
  · simp only [taskRegistry, DenotesFields, List.lookup_cons]
    simp [taskObject_denotes]

/-- The arguments and the capabilities are lists of structs, and three fields were left unset. -/
theorem fromBytes_toBytes_task : ∃ bytes,
    toBytes taskLibrary taskRegistry (.object taskRegistry.message none (some "task") [("task", .object taskType none none
      [("taskId", .bytes [1]),
        ("functionArgs", .list [.object argumentType none none [("type", .enum 1 1), ("data", .bytes [2, 3])]]),
        ("capabilities", .list [.object taskCapabilityType none none [("name", .str "gpu"), ("value", .int (-1))]])])]) =
      .ok bytes ∧ (ReadsBack taskLibrary taskRegistry.message (2 ^ 64 - 1) taskMessage →
    ∃ received, fromBytes taskLibrary taskRegistry taskRegistry.message bytes (2 ^ 64 - 1) = .ok received ∧
      ReadsAs taskLibrary taskRegistry.message received taskMessage) :=
  fromBytes_toBytes task_sendable task_wellFormed taskMessage_denotes task_fits

end TaskMessage

/-- A received object can be written again at any time, and what is written reads as what was received. -/
theorem toBytes_afterReads {bytes : Bytes} (hsend : registry.Sendable type) (hwf : WellFormed type) (ht : Typed type content)
    (hbytes : Holds library type limit bytes content) (hfits : Fits library type content)
    (hlib : ReadsBack library type limit content) :
    ∃ received, fromBytes library registry type bytes limit = .ok received ∧ ReadsAs library type received content ∧
      ∀ reads : List Access, (∀ r ∈ reads, follows r.path type = true) →
        ∃ bytes' received', toBytes library registry (afterReads library received reads) = .ok bytes' ∧
          fromBytes library registry type bytes' limit = .ok received' ∧ ReadsAs library type received' content := by
  obtain ⟨received, hreceived, hdenotes⟩ := fromBytes_ok hsend ht hbytes
  refine ⟨received, hreceived, readsAs_of_denotes hwf hdenotes, fun reads hreads => ?_⟩
  obtain ⟨bytes', hbytes', hholds⟩ := toBytes_ok hsend hwf (afterReads_denotes hwf hreads hdenotes) hfits
  obtain ⟨received', hreceived', hdenotes'⟩ := fromBytes_ok hsend ht (hholds hlib)
  exact ⟨bytes', received', hbytes', hreceived', readsAs_of_denotes hwf hdenotes'⟩

/-- A received task: the union, the lists and their structs are read, then the message is written again. -/
theorem toBytes_afterReads_task : ∃ received,
    fromBytes taskLibrary taskRegistry taskRegistry.message taskBytes (2 ^ 64 - 1) = .ok received ∧
      ReadsAs taskLibrary taskRegistry.message received taskMessage ∧
      ∀ reads : List Access, (∀ r ∈ reads, follows r.path taskRegistry.message = true) →
        ∃ bytes' received', toBytes taskLibrary taskRegistry (afterReads taskLibrary received reads) = .ok bytes' ∧
          fromBytes taskLibrary taskRegistry taskRegistry.message bytes' (2 ^ 64 - 1) = .ok received' ∧
            ReadsAs taskLibrary taskRegistry.message received' taskMessage :=
  toBytes_afterReads task_sendable task_wellFormed task_typed
    ⟨congrArg (· % 8) length_taskBytes, getRoot_task _ _⟩ task_fits (task_readsBack _)

end Scaler.Capnp
