import Mathlib.Data.List.Infix
import Scaler.Adapter.Payloads

/-! When the payload of a batch job is what its backend serialised, and the result what its job
stored. The children of an array job get a compressed payload that nobody decompresses. -/

namespace Scaler

open Collections Base64

namespace Adapter

/-- A small payload goes inline: it must not be empty, nor have the letters of "none". -/
def Inlinable (payload : Bytes) : Prop :=
  payload.length ≤ compressionThreshold → payload ≠ [] ∧ isNone (b64encode payload) = false

namespace AWSBatch

/-- A bucket and a prefix that the command line and the placeholder leave alone. -/
structure Config.Plain (config : Config) : Prop where
  bucket : config.s3Bucket ≠ [] ∧ isNone config.s3Bucket = false ∧ config.s3Bucket.head? ≠ some '-'
  keyPrefix : isNone config.s3Prefix = false ∧ config.s3Prefix.head? ≠ some '-'
  noPlaceholder : ¬"ARRAY_INDEX".toList <:+: config.s3Prefix

/-- The job of a task reads its payload, whatever happens to other objects meanwhile. -/
def SingleDelivers (gzip : Gzip) (config : Config) (taskId payload : Bytes) : Prop :=
  ∀ s3 s3' : ObjectStore,
    (∀ compressed, s3'.get? (config.s3Bucket, inputKey config taskId compressed) =
      (submitSingleBatchJob gzip config taskId payload s3).2.get? (config.s3Bucket, inputKey config taskId compressed)) →
    (getPayload gzip s3' (parseArgs (submitSingleBatchJob gzip config taskId payload s3).1) none).map Prod.fst =
      some payload

def ChildDelivers (gzip : Gzip) (config : Config) (arrayId : Text) (payloads : List Bytes) (index : Nat)
    (payload : Bytes) : Prop :=
  ∀ s3 s3' : ObjectStore,
    s3'.get? (config.s3Bucket, childKey config arrayId index) =
      (submitArrayJob gzip config arrayId payloads s3).2.get? (config.s3Bucket, childKey config arrayId index) →
    (getPayload gzip s3' (parseArgs (submitArrayJob gzip config arrayId payloads s3).1) (some (decimal index))).map
      Prod.fst = some payload

/-- The result of a job with these parameters comes back; the identifiers of jobs are new. -/
def Returns (gzip : Gzip) (config : Config) (parameters : JobParameters) (jobId : Text)
    (monitor : ObjectStore → Option Bytes) (result : Bytes) : Prop :=
  ∀ s3 : ObjectStore, s3.get? (config.s3Bucket, resultKey config.s3Prefix jobId) = none →
    ∃ s3', finish gzip s3 (parseArgs parameters) result jobId = some s3' ∧
      ∀ s3'' : ObjectStore,
        (∀ suffix, s3''.get? (config.s3Bucket, resultKey config.s3Prefix jobId ++ suffix) =
          s3'.get? (config.s3Bucket, resultKey config.s3Prefix jobId ++ suffix)) →
        monitor s3'' = some result

end AWSBatch

namespace OCIHPC

structure Config.Plain (config : Config) : Prop where
  ociNamespace : config.objectStorageNamespace ≠ [] ∧ isNone config.objectStorageNamespace = false
  bucket : config.objectStorageBucket ≠ [] ∧ isNone config.objectStorageBucket = false
  keyPrefix : config.objectStoragePrefix ≠ [] ∧ isNone config.objectStoragePrefix = false

def Delivers (gzip : Gzip) (config : Config) (taskId payload : Bytes) : Prop :=
  ∀ store store' : ObjectStore,
    (∀ compressed, store'.get? (config.objectStorageBucket, inputKey config taskId compressed) =
      (createContainerInstance gzip config taskId payload store).2.get?
        (config.objectStorageBucket, inputKey config taskId compressed)) →
    (getPayload gzip store' (createContainerInstance gzip config taskId payload store).1).map Prod.fst = some payload

def Returns (gzip : Gzip) (config : Config) (taskId payload result : Bytes) : Prop :=
  ∀ store before : ObjectStore,
    ∃ store', storeResult gzip before (createContainerInstance gzip config taskId payload store).1 result = some store' ∧
      ∀ store'' : ObjectStore,
        store''.get? (config.objectStorageBucket, resultKey config.objectStoragePrefix (hex taskId)) =
          store'.get? (config.objectStorageBucket, resultKey config.objectStoragePrefix (hex taskId)) →
        monitorContainerInstance gzip config store'' taskId = some result

end OCIHPC

theorem isNone_of_mem {value : Text} {c : Char} (hmem : c ∈ value) (hc : c.toLower ∉ "none".toList) :
    isNone value = false := by
  rw [isNone, decide_eq_false_iff_not]
  intro heq
  exact hc (heq ▸ List.mem_map_of_mem hmem)

theorem hexDigit_of_le {n : Nat} (h : 16 ≤ n) : hexDigit n = '0' := by
  rw [hexDigit, List.getD_eq_getElem?_getD, List.getElem?_eq_none]
  · rfl
  · simpa using h

theorem hexDigit_toLower (n : Nat) : (hexDigit n).toLower ∉ ['n', 'o'] := by
  by_cases h : n < 16
  · have hall : ∀ k : Fin 16, (hexDigit k).toLower ∉ ['n', 'o'] := by decide
    exact hall ⟨n, h⟩
  · rw [hexDigit_of_le (Nat.le_of_not_lt h)]
    decide

theorem isNone_hex (data : Bytes) : isNone (hex data) = false := by
  cases data with
  | nil => rfl
  | cons b rest =>
    rw [isNone, decide_eq_false_iff_not]
    intro heq
    have hhead := congrArg List.head? heq
    have hfirst := hexDigit_toLower (b.toNat / 16)
    simp [hex] at hhead
    simp [hhead] at hfirst

theorem hexDigit_ne_underscore (n : Nat) : hexDigit n ≠ '_' := by
  by_cases h : n < 16
  · have hall : ∀ k : Fin 16, hexDigit k ≠ '_' := by decide
    exact hall ⟨n, h⟩
  · rw [hexDigit_of_le (Nat.le_of_not_lt h)]
    decide

theorem not_placeholder_hex (data : Bytes) : ¬"ARRAY_INDEX".toList <:+: hex data := by
  intro h
  have hmem : '_' ∈ hex data := h.subset (by decide)
  obtain ⟨b, -, hb⟩ := List.mem_flatMap.mp hmem
  rcases List.mem_pair.mp hb with hdigit | hdigit
  · exact hexDigit_ne_underscore _ hdigit.symm
  · exact hexDigit_ne_underscore _ hdigit.symm

theorem b64encode_magic {data : Bytes} (h : [0x1f, 0x8b] <+: data) : ∃ text, b64encode data = 'H' :: text := by
  obtain ⟨rest, rfl⟩ := h
  cases rest with
  | nil => exact ⟨_, rfl⟩
  | cons c rest => exact ⟨_, rfl⟩

theorem b64encode_ne_nil {data : Bytes} (h : data ≠ []) : b64encode data ≠ [] := by
  fun_cases b64encode data with
  | case1 => exact absurd rfl h
  | case2 a => simp
  | case3 a b => simp
  | case4 a b c rest => simp

/-- What is handed over inline is neither empty nor "none". -/
theorem inline_compressed (gzip : Gzip) {payload : Bytes} (h : Inlinable payload) :
    b64encode (compressLarge gzip payload) ≠ [] ∧ isNone (b64encode (compressLarge gzip payload)) = false := by
  rw [compressLarge]
  split
  · obtain ⟨text, htext⟩ := b64encode_magic (gzip.magic payload)
    rw [htext]
    exact ⟨List.cons_ne_nil _ _, isNone_of_mem List.mem_cons_self (by decide)⟩
  · next hsmall =>
    obtain ⟨hne, hnone⟩ := h (Nat.le_of_not_lt hsmall)
    exact ⟨b64encode_ne_nil hne, hnone⟩

theorem restore_compressLarge (gzip : Gzip) (payload : Bytes) :
    (if compressionThreshold < payload.length then gzip.decompress (compressLarge gzip payload)
      else some (compressLarge gzip payload)) = some payload := by
  rw [compressLarge]
  split
  · exact gzip.decompress_compress payload
  · rfl

theorem compressLarge_ne {gzip : Gzip} {payload : Bytes} (hpickled : Pickled payload)
    (hlarge : compressionThreshold < payload.length) : compressLarge gzip payload ≠ payload := by
  rw [compressLarge, if_pos hlarge]
  intro heq
  exact hpickled (heq ▸ gzip.magic payload)

theorem decodeResult_compressLarge (gzip : Gzip) {result : Bytes} (hpickled : Pickled result) :
    decodeResult gzip (compressLarge gzip result) = some result := by
  rw [decodeResult, compressLarge]
  split
  · rw [if_pos (List.isPrefixOf_iff_prefix.mpr (gzip.magic result))]
    exact gzip.decompress_compress result
  · rw [if_neg (fun h => hpickled (List.isPrefixOf_iff_prefix.mp h))]

theorem flag_eq (p : Prop) [Decidable p] : ((if p then "1".toList else "0".toList) = "1".toList) ↔ p := by
  by_cases h : p
  · simp [h]
  · simp [h]

theorem isNone_of_slash {key : Text} (h : '/' ∈ key) : isNone key = false := isNone_of_mem h (by decide)

theorem large_of_not_inline {gzip : Gzip} {payload : Bytes}
    (h : ¬(compressLarge gzip payload).length ≤ maxInlineSize) : compressionThreshold < payload.length := by
  by_contra hsmall
  rw [compressLarge, if_neg hsmall] at h
  simp only [compressionThreshold, maxInlineSize] at h hsmall
  omega

namespace AWSBatch

theorem noneTo_eq {fallback : Option Text} {value : Text} (h : isNone value = false) :
    noneTo fallback value = some value := by
  rw [noneTo, h]
  rfl

theorem getPayload_inline (gzip : Gzip) (s3 : ObjectStore) (arguments : JobArguments) (index : Option Text)
    {body : Bytes} (hpayload : arguments.payload = some (b64encode body)) (hne : b64encode body ≠ []) :
    getPayload gzip s3 arguments index =
      (if arguments.compressed = "1".toList then gzip.decompress body else some body).map fun payload => (payload, s3) := by
  cases htext : b64encode body with
  | nil => exact absurd htext hne
  | cons c text =>
    have hdecode := b64decode_b64encode body
    rw [htext] at hdecode hpayload
    rw [getPayload, hpayload]
    simp [hdecode]

theorem getPayload_none (gzip : Gzip) (s3 : ObjectStore) (arguments : JobArguments) (index : Option Text)
    (hpayload : arguments.payload = none ∨ arguments.payload = some []) (hkey : arguments.s3Key = none) :
    getPayload gzip s3 arguments index = none := by
  obtain h | h := hpayload
  · simp [getPayload, h, hkey]
  · simp [getPayload, h, hkey]

theorem getPayload_stored (gzip : Gzip) (s3 : ObjectStore) (arguments : JobArguments) (index : Option Text)
    {bucket key : Text} {body : Bytes} (hpayload : arguments.payload = none ∨ arguments.payload = some [])
    (hbucket : arguments.s3Bucket = some bucket) (hbucketNe : bucket ≠ []) (hkey : arguments.s3Key = some key)
    (hkeyNe : key ≠ []) (hget : s3.get? (bucket, resolveKey index key) = some body) :
    (getPayload gzip s3 arguments index).map Prod.fst =
      if arguments.compressed = "1".toList ∨ ".gz".toList <:+ resolveKey index key then gzip.decompress body
      else some body := by
  cases bucket with
  | nil => exact absurd rfl hbucketNe
  | cons b bucket =>
    cases key with
    | nil => exact absurd rfl hkeyNe
    | cons k key =>
      obtain h | h := hpayload
      all_goals
        rw [getPayload, h, hbucket, hkey]
        simp only [hget, Option.bind_some, Option.map_map]
        simp [Function.comp_def, List.isSuffixOf_iff_suffix]

theorem singleDelivers_iff (gzip : Gzip) {config : Config} (hconfig : config.Plain) (taskId payload : Bytes) :
    SingleDelivers gzip config taskId payload ↔ Inlinable payload := by
  by_cases hinline : (compressLarge gzip payload).length ≤ maxInlineSize
  · have hsubmit : ∀ s3, submitSingleBatchJob gzip config taskId payload s3 =
        (⟨hex taskId, b64encode (compressLarge gzip payload),
          if decide (compressionThreshold < payload.length) then "1".toList else "0".toList,
          config.s3Bucket, config.s3Prefix, "none".toList⟩, s3) := by
      intro s3
      exact if_pos hinline
    constructor
    · intro hdelivers hsmall
      have hread := hdelivers .empty .empty fun _ => by rw [hsubmit]
      rw [hsubmit] at hread
      have hbody : compressLarge gzip payload = payload := if_neg (Nat.not_lt.mpr hsmall)
      rw [hbody] at hread
      by_contra hnot
      have hmissing : (parseArgs ⟨hex taskId, b64encode payload,
          if decide (compressionThreshold < payload.length) then "1".toList else "0".toList,
          config.s3Bucket, config.s3Prefix, "none".toList⟩).payload = none ∨
          (parseArgs ⟨hex taskId, b64encode payload,
            if decide (compressionThreshold < payload.length) then "1".toList else "0".toList,
            config.s3Bucket, config.s3Prefix, "none".toList⟩).payload = some [] := by
        by_cases hempty : payload = []
        · subst hempty
          exact .inr rfl
        · have hnone : isNone (b64encode payload) = true := by
            by_contra hother
            exact hnot ⟨hempty, Bool.eq_false_iff.mpr hother⟩
          exact .inl (if_pos hnone)
      rw [getPayload_none gzip _ _ _ hmissing rfl] at hread
      cases hread
    · intro hinlinable s3 s3' _
      obtain ⟨hne, hnone⟩ := inline_compressed gzip hinlinable
      rw [hsubmit, getPayload_inline gzip s3' _ none ?_ hne, Option.map_map]
      · have hrestore := restore_compressLarge gzip payload
        simp only [parseArgs, decide_eq_true_eq, flag_eq]
        rw [hrestore]
        rfl
      · exact noneTo_eq hnone
  · have hlarge := large_of_not_inline hinline
    have hsubmit : ∀ s3, submitSingleBatchJob gzip config taskId payload s3 =
        (⟨hex taskId, [], "1".toList, config.s3Bucket, config.s3Prefix, inputKey config taskId true⟩,
          s3.set (config.s3Bucket, inputKey config taskId true) (compressLarge gzip payload)) := by
      intro s3
      rw [submitSingleBatchJob, if_neg hinline, decide_eq_true hlarge]
      rfl
    refine iff_of_true (fun s3 s3' hsame => ?_) fun hsmall => absurd hlarge (Nat.not_lt.mpr hsmall)
    have hslash : '/' ∈ inputKey config taskId true := by simp [inputKey]
    have hget := hsame true
    rw [hsubmit, Dict.get?_set_self] at hget
    rw [hsubmit, getPayload_stored gzip s3' _ none (.inr rfl) ?_ hconfig.bucket.1 ?_ (List.ne_nil_of_mem hslash) hget]
    · rw [if_pos (.inl rfl), compressLarge, if_pos hlarge]
      exact gzip.decompress_compress payload
    · exact noneTo_eq hconfig.bucket.2.1
    · exact noneTo_eq (isNone_of_slash hslash)

theorem decimal_inj {i j : Nat} (h : decimal i = decimal j) : i = j := by
  have hback := congrArg (fun digits => Nat.ofDigitChars 10 digits 0) h
  simpa [decimal, Nat.ofDigitChars_ten_toDigits] using hback

theorem childKey_inj {config : Config} {arrayId : Text} {i j : Nat} (h : childKey config arrayId i = childKey config arrayId j) :
    i = j := by
  simp only [childKey, List.append_assoc] at h
  have hdecimal := List.append_cancel_left (List.append_cancel_left h)
  exact decimal_inj (List.append_cancel_right hdecimal)

/-- The object of a child is the payload of its own task. -/
theorem get?_putPayloads (gzip : Gzip) (config : Config) (arrayId : Text) (payloads : List Bytes)
    (start index : Nat) (s3 : ObjectStore) :
    (putPayloads gzip config arrayId start payloads s3).get? (config.s3Bucket, childKey config arrayId index) =
      if start ≤ index then
        (payloads[index - start]?.map (compressLarge gzip)).or (s3.get? (config.s3Bucket, childKey config arrayId index))
      else s3.get? (config.s3Bucket, childKey config arrayId index) := by
  induction payloads generalizing start s3 with
  | nil => simp [putPayloads]
  | cons payload payloads ih =>
    rw [putPayloads, ih]
    by_cases heq : index = start
    · subst heq
      rw [if_neg (by omega), if_pos (Nat.le_refl index), Nat.sub_self]
      exact Dict.get?_set_self _ _ _
    · have hkey : (config.s3Bucket, childKey config arrayId index) ≠ (config.s3Bucket, childKey config arrayId start) := by
        intro h
        exact heq (childKey_inj (congrArg Prod.snd h))
      rw [Dict.get?_set_ne _ hkey]
      by_cases hle : start ≤ index
      · have hsub : index - start = index - (start + 1) + 1 := by omega
        rw [if_pos hle, if_pos (by omega), hsub, List.getElem?_cons_succ]
      · rw [if_neg hle, if_neg (by omega)]

theorem replaceFrom_append {pattern replacement before rest : Text}
    (h : ∀ tail, tail <:+ before → tail ≠ [] → ¬pattern <+: tail ++ rest) :
    replaceFrom pattern replacement 0 (before ++ rest) = before ++ replaceFrom pattern replacement 0 rest := by
  induction before with
  | nil => rfl
  | cons c before ih =>
    have hnot := h (c :: before) (List.suffix_refl _) (List.cons_ne_nil _ _)
    rw [List.cons_append] at hnot
    rw [List.cons_append, replaceFrom, if_neg (fun hp => hnot (List.isPrefixOf_iff_prefix.mp hp)),
      ih fun tail htail => h tail (htail.trans (List.suffix_cons c before)), List.cons_append]

/-- A pattern without slashes does not begin in front of one and end after it. -/
theorem not_prefix_of_slash {pattern before rest : Text} (hslash : '/' ∉ pattern) (hwithin : ¬pattern <:+: before)
    {tail : Text} (htail : tail <:+ before ++ ['/']) (hne : tail ≠ []) : ¬pattern <+: tail ++ rest := by
  intro hpattern
  obtain hnil | ⟨tail', rfl, htail'⟩ := List.suffix_concat_iff.mp htail
  · exact hne hnil
  · rw [List.append_assoc] at hpattern
    by_cases hlength : pattern.length ≤ tail'.length
    · have hinside := List.prefix_of_prefix_length_le hpattern (List.prefix_append tail' _) hlength
      exact hwithin (hinside.isInfix.trans htail'.isInfix)
    · have hbefore : tail' ++ ['/'] <+: pattern := by
        refine List.prefix_of_prefix_length_le ?_ hpattern (by simp; omega)
        rw [← List.append_assoc]
        exact List.prefix_append _ rest
      exact hslash (hbefore.subset (by simp))

/-- A pattern without slashes is found on one side of a slash. -/
theorem infix_of_slash {pattern before after : Text} (hslash : '/' ∉ pattern) (h : pattern <:+: before ++ '/' :: after) :
    pattern <:+: before ∨ pattern <:+: after := by
  obtain ⟨tail, hpattern, htail⟩ := List.infix_iff_prefix_suffix.mp h
  by_cases hlength : tail.length ≤ after.length
  · have hinside : tail <:+ after := by
      refine List.suffix_of_suffix_length_le htail ?_ hlength
      exact (List.suffix_cons '/' after).trans (List.suffix_append before _)
    exact .inr (hpattern.isInfix.trans hinside.isInfix)
  · have hover : '/' :: after <:+ tail := by
      refine List.suffix_of_suffix_length_le (List.suffix_append before _) htail ?_
      simp only [List.length_cons]
      omega
    obtain ⟨front, rfl⟩ := hover
    by_contra hnot
    have hfront : front ++ ['/'] <:+ before ++ ['/'] := by
      obtain ⟨rest, hrest⟩ := htail
      rw [← List.append_assoc] at hrest
      exact ⟨rest, by rw [← List.append_assoc, List.append_cancel_right hrest]⟩
    have hnotPattern : ¬pattern <+: (front ++ ['/']) ++ after :=
      not_prefix_of_slash hslash (fun h => hnot (.inl h)) hfront (by simp)
    exact hnotPattern (by simpa using hpattern)

/-- The placeholder at the end of the key is the only one. -/
theorem resolveKey_child {config : Config} (hconfig : config.Plain) {arrayId : Text}
    (hid : ¬"ARRAY_INDEX".toList <:+: arrayId) (index : Nat) :
    resolveKey (some (decimal index)) (s3PrefixArray config arrayId ++ "/ARRAY_INDEX.pkl".toList) =
      childKey config arrayId index := by
  have hslash : '/' ∉ "ARRAY_INDEX".toList := by decide
  have hbefore : ¬"ARRAY_INDEX".toList <:+: s3PrefixArray config arrayId := by
    intro hwithin
    have hparts : s3PrefixArray config arrayId = config.s3Prefix ++ '/' :: ("array".toList ++ '/' :: arrayId) := by
      simp [s3PrefixArray]
    rw [hparts] at hwithin
    obtain h | h := infix_of_slash hslash hwithin
    · exact hconfig.noPlaceholder h
    · obtain h | h := infix_of_slash hslash h
      · exact absurd (h.length_le) (by decide)
      · exact hid h
  have hend : replaceFrom "ARRAY_INDEX".toList (decimal index) 0 "ARRAY_INDEX.pkl".toList =
      decimal index ++ ".pkl".toList := rfl
  have hsplit : s3PrefixArray config arrayId ++ "/ARRAY_INDEX.pkl".toList =
      (s3PrefixArray config arrayId ++ ['/']) ++ "ARRAY_INDEX.pkl".toList := by simp
  rw [resolveKey, replace, hsplit,
    replaceFrom_append fun tail htail hne => not_prefix_of_slash hslash hbefore htail hne, hend, childKey]
  simp

theorem not_gz (key : Text) : ¬".gz".toList <:+ key ++ ".pkl".toList := by
  intro h
  have hinside := List.suffix_of_suffix_length_le h (List.suffix_append key ".pkl".toList) (by decide)
  revert hinside
  decide

theorem childDelivers_iff (gzip : Gzip) {config : Config} (hconfig : config.Plain) (uuid : Bytes) {payloads : List Bytes}
    {index : Nat} {payload : Bytes} (hindex : payloads[index]? = some payload) (hpickled : Pickled payload) :
    ChildDelivers gzip config (hex uuid) payloads index payload ↔ payload.length ≤ compressionThreshold := by
  have hkey := resolveKey_child hconfig (not_placeholder_hex uuid) index
  have hread : ∀ s3 s3' : ObjectStore,
      s3'.get? (config.s3Bucket, childKey config (hex uuid) index) =
        (submitArrayJob gzip config (hex uuid) payloads s3).2.get? (config.s3Bucket, childKey config (hex uuid) index) →
      (getPayload gzip s3' (parseArgs (submitArrayJob gzip config (hex uuid) payloads s3).1)
        (some (decimal index))).map Prod.fst = some (compressLarge gzip payload) := by
    intro s3 s3' hsame
    have hstored := get?_putPayloads gzip config (hex uuid) payloads 0 index s3
    rw [if_pos (Nat.zero_le index), Nat.sub_zero, hindex] at hstored
    have hget := hsame.trans hstored
    rw [← hkey] at hget
    have hslash : '/' ∈ s3PrefixArray config (hex uuid) ++ "/ARRAY_INDEX.pkl".toList := by simp
    rw [getPayload_stored gzip s3' _ _ (.inl rfl) (noneTo_eq hconfig.bucket.2.1) hconfig.bucket.1
      (noneTo_eq (isNone_of_slash hslash)) (List.ne_nil_of_mem hslash) hget]
    rw [if_neg]
    rintro (hflag | hgz)
    · have hzero : "0".toList = "1".toList := hflag
      exact absurd hzero (by decide)
    · rw [hkey] at hgz
      exact not_gz _ hgz
  constructor
  · intro hdelivers
    by_contra hlarge
    have hown := hdelivers .empty (submitArrayJob gzip config (hex uuid) payloads .empty).2 rfl
    rw [hread .empty _ rfl] at hown
    exact compressLarge_ne hpickled (Nat.lt_of_not_le hlarge) (Option.some.inj hown)
  · intro hsmall s3 s3' hsame
    rw [hread s3 s3' hsame, compressLarge, if_neg (Nat.not_lt.mpr hsmall)]

/-- The result is under one of its two keys, and the first has no other object. -/
theorem fetch_storeResult (gzip : Gzip) (config : Config) {s3 s3'' : ObjectStore} {jobId : Text} {result : Bytes}
    (hpickled : Pickled result) (hfresh : s3.get? (config.s3Bucket, resultKey config.s3Prefix jobId) = none)
    (hsame : ∀ suffix, s3''.get? (config.s3Bucket, resultKey config.s3Prefix jobId ++ suffix) =
      (storeResult gzip s3 result config.s3Bucket config.s3Prefix jobId).get?
        (config.s3Bucket, resultKey config.s3Prefix jobId ++ suffix)) (more : List Text) :
    fetch gzip config s3''
      (resultKey config.s3Prefix jobId :: (resultKey config.s3Prefix jobId ++ ".gz".toList) :: more) = some result := by
  have hplain := hsame []
  have hgz := hsame ".gz".toList
  rw [List.append_nil] at hplain
  rw [storeResult] at hplain hgz
  rw [fetch, List.findSome?_cons, hplain]
  by_cases hlarge : compressionThreshold < result.length
  · have hne : (config.s3Bucket, resultKey config.s3Prefix jobId) ≠
        (config.s3Bucket, resultKey config.s3Prefix jobId ++ ".gz".toList) := by
      intro h
      have hlength := congrArg List.length (congrArg Prod.snd h)
      simp at hlength
    rw [if_pos hlarge, Dict.get?_set_self] at hgz
    rw [if_pos hlarge, Dict.get?_set_ne _ hne, hfresh, List.findSome?_cons, hgz]
    exact decodeResult_compressLarge gzip hpickled
  · rw [if_neg hlarge, List.append_nil, Dict.get?_set_self]
    exact decodeResult_compressLarge gzip hpickled

theorem finish_eq (gzip : Gzip) {config : Config} (hconfig : config.Plain) {parameters : JobParameters}
    (hbucket : parameters.s3Bucket = config.s3Bucket) (hkeyPrefix : parameters.s3Prefix = config.s3Prefix)
    (s3 : ObjectStore) (result : Bytes) (jobId : Text) :
    finish gzip s3 (parseArgs parameters) result jobId =
      some (storeResult gzip s3 result config.s3Bucket config.s3Prefix jobId) := by
  have hargBucket : (parseArgs parameters).s3Bucket = some config.s3Bucket := by
    rw [parseArgs, hbucket]
    exact noneTo_eq hconfig.bucket.2.1
  have hargPrefix : (parseArgs parameters).s3Prefix = config.s3Prefix := by
    rw [parseArgs, hkeyPrefix, noneTo_eq hconfig.keyPrefix.1]
    rfl
  rw [finish, hargBucket, hargPrefix]
  rfl

theorem singleReturns (gzip : Gzip) {config : Config} (hconfig : config.Plain) {parameters : JobParameters}
    (hbucket : parameters.s3Bucket = config.s3Bucket) (hkeyPrefix : parameters.s3Prefix = config.s3Prefix) (jobId : Text)
    {result : Bytes} (hpickled : Pickled result) :
    Returns gzip config parameters jobId (fun s3 => monitorBatchJob gzip config s3 jobId) result := by
  intro s3 hfresh
  refine ⟨_, finish_eq gzip hconfig hbucket hkeyPrefix s3 result jobId, fun s3'' hsame => ?_⟩
  exact fetch_storeResult gzip config hpickled hfresh hsame []

theorem childReturns (gzip : Gzip) {config : Config} (hconfig : config.Plain) {parameters : JobParameters}
    (hbucket : parameters.s3Bucket = config.s3Bucket) (hkeyPrefix : parameters.s3Prefix = config.s3Prefix)
    (parentJobId : Text) (index : Nat) {result : Bytes} (hpickled : Pickled result) :
    Returns gzip config parameters (childId parentJobId index)
      (fun s3 => monitorArrayJob gzip config s3 parentJobId index) result := by
  intro s3 hfresh
  refine ⟨_, finish_eq gzip hconfig hbucket hkeyPrefix s3 result _, fun s3'' hsame => ?_⟩
  exact fetch_storeResult gzip config hpickled hfresh hsame _

end AWSBatch

namespace OCIHPC

theorem readEnv_some {value : Text} (h : isNone value = false) : readEnv value = some value := by
  rw [readEnv, h]
  rfl

theorem readEnvOr_eq {fallback value : Text} (hne : value ≠ []) (h : isNone value = false) :
    readEnvOr fallback value = value := by
  cases value with
  | nil => exact absurd rfl hne
  | cons c text => rw [readEnvOr, readEnv_some h]

theorem readEnvOr_flag (p : Prop) [Decidable p] :
    (readEnvOr "0".toList (if p then "1".toList else "0".toList) = "1".toList) ↔ p := by
  by_cases h : p
  · simp only [h, if_true]
    decide
  · simp only [h, if_false]
    decide

theorem getPayload_none (gzip : Gzip) (store : ObjectStore) (environment : Environment)
    (hpayload : readEnv environment.payloadB64 = none ∨ readEnv environment.payloadB64 = some [])
    (hkey : readEnv environment.ociObjectKey = none) : getPayload gzip store environment = none := by
  rw [getPayload, hkey]
  cases readEnv environment.ociNamespace with
  | none => rfl
  | some ociNamespace =>
    cases readEnv environment.ociBucket with
    | none => rfl
    | some bucket =>
      obtain h | h := hpayload
      all_goals
        rw [h]
        cases ociNamespace with
        | nil => rfl
        | cons n ociNamespace =>
          cases bucket with
          | nil => rfl
          | cons b bucket => rfl

theorem delivers_iff (gzip : Gzip) {config : Config} (hconfig : config.Plain) (taskId payload : Bytes) :
    Delivers gzip config taskId payload ↔ Inlinable payload := by
  obtain ⟨n, ociNamespace, hnamespace⟩ := List.exists_cons_of_ne_nil hconfig.ociNamespace.1
  obtain ⟨b, bucket, hbucket⟩ := List.exists_cons_of_ne_nil hconfig.bucket.1
  by_cases hinline : (compressLarge gzip payload).length ≤ maxInlineSize
  · have hcreate : ∀ store, createContainerInstance gzip config taskId payload store =
        (⟨hex taskId, config.objectStorageNamespace, config.objectStorageBucket, config.objectStoragePrefix,
          "none".toList, b64encode (compressLarge gzip payload),
          if decide (compressionThreshold < payload.length) then "1".toList else "0".toList⟩, store) := by
      intro store
      exact if_pos hinline
    constructor
    · intro hdelivers hsmall
      have hread := hdelivers .empty .empty fun _ => by rw [hcreate]
      have hbody : compressLarge gzip payload = payload := if_neg (Nat.not_lt.mpr hsmall)
      rw [hcreate, hbody] at hread
      by_contra hnot
      have hmissing : readEnv (b64encode payload) = none ∨ readEnv (b64encode payload) = some [] := by
        by_cases hempty : payload = []
        · subst hempty
          exact .inr rfl
        · have hnone : isNone (b64encode payload) = true := by
            by_contra hother
            exact hnot ⟨hempty, Bool.eq_false_iff.mpr hother⟩
          exact .inl (if_pos hnone)
      rw [getPayload_none gzip _ _ hmissing rfl] at hread
      cases hread
    · intro hinlinable store store' _
      obtain ⟨hne, hnone⟩ := inline_compressed gzip hinlinable
      obtain ⟨c, text, htext⟩ := List.exists_cons_of_ne_nil hne
      have hdecode := b64decode_b64encode (compressLarge gzip payload)
      have hrestore := restore_compressLarge gzip payload
      rw [hcreate, getPayload]
      simp only [readEnv_some hconfig.ociNamespace.2, readEnv_some hconfig.bucket.2, readEnv_some hnone]
      rw [htext] at hdecode ⊢
      simp only [hdecode, Option.bind_some, decide_eq_true_eq, readEnvOr_flag, hrestore]
      rfl
  · have hlarge := large_of_not_inline hinline
    refine iff_of_true (fun store store' hsame => ?_) fun hsmall => absurd hlarge (Nat.not_lt.mpr hsmall)
    have hcreate : ∀ store, createContainerInstance gzip config taskId payload store =
        (⟨hex taskId, config.objectStorageNamespace, config.objectStorageBucket, config.objectStoragePrefix,
          inputKey config taskId true, [], "1".toList⟩,
          store.set (config.objectStorageBucket, inputKey config taskId true) (compressLarge gzip payload)) := by
      intro store
      rw [createContainerInstance, if_neg hinline, decide_eq_true hlarge]
      rfl
    have hslash : '/' ∈ inputKey config taskId true := by simp [inputKey]
    obtain ⟨k, key, hkey⟩ := List.exists_cons_of_ne_nil (List.ne_nil_of_mem hslash)
    have hget := hsame true
    rw [hcreate, Dict.get?_set_self, hbucket, hkey] at hget
    have hempty : readEnv [] = some [] := rfl
    have hflag : readEnvOr "0".toList "1".toList = "1".toList := by decide
    rw [hcreate, getPayload]
    simp only [readEnv_some hconfig.ociNamespace.2, readEnv_some hconfig.bucket.2,
      readEnv_some (isNone_of_slash hslash), hempty, hflag]
    rw [hnamespace, hbucket, hkey]
    simp only [hget, Option.bind_some, decide_true, Bool.true_or, if_true]
    rw [compressLarge, if_pos hlarge, gzip.decompress_compress]
    rfl

theorem returns (gzip : Gzip) {config : Config} (hconfig : config.Plain) {taskId : Bytes} (hid : taskId ≠ [])
    (payload : Bytes) {result : Bytes} (hpickled : Pickled result) :
    Returns gzip config taskId payload result := by
  intro store before
  have hfields : ∃ key payloadB64 flag, (createContainerInstance gzip config taskId payload store).1 =
      ⟨hex taskId, config.objectStorageNamespace, config.objectStorageBucket, config.objectStoragePrefix, key,
        payloadB64, flag⟩ := by
    rw [createContainerInstance]
    split
    · exact ⟨_, _, _, rfl⟩
    · exact ⟨_, _, _, rfl⟩
  obtain ⟨key, payloadB64, flag, henvironment⟩ := hfields
  have hhex : hex taskId ≠ [] := by
    cases taskId with
    | nil => exact absurd rfl hid
    | cons b rest => simp [hex]
  refine ⟨_, by rw [henvironment, storeResult, readEnv_some hconfig.ociNamespace.2, readEnv_some hconfig.bucket.2], ?_⟩
  intro store'' hsame
  rw [readEnvOr_eq hconfig.keyPrefix.1 hconfig.keyPrefix.2, readEnvOr_eq hhex (isNone_hex taskId),
    Dict.get?_set_self] at hsame
  rw [monitorContainerInstance, hsame]
  exact decodeResult_compressLarge gzip hpickled

end OCIHPC

/-- The payloads and results of batch jobs arrive exactly so: a task of its own, and a container,
gets its payload unless this is an inline text that reads as nothing; a child of an array job gets
it unless it is large; every result comes back. -/
theorem payloads_survive_iff (gzip : Gzip) (config : AWSBatch.Config) (hconfig : config.Plain)
    (ociConfig : OCIHPC.Config) (hoci : ociConfig.Plain) :
    (∀ taskId payload, AWSBatch.SingleDelivers gzip config taskId payload ↔ Inlinable payload) ∧
    (∀ uuid (payloads : List Bytes) (index : Nat) payload, payloads[index]? = some payload → Pickled payload →
      (AWSBatch.ChildDelivers gzip config (hex uuid) payloads index payload ↔ payload.length ≤ compressionThreshold)) ∧
    (∀ taskId payload s3 jobId result, Pickled result →
      AWSBatch.Returns gzip config (AWSBatch.submitSingleBatchJob gzip config taskId payload s3).1 jobId
        (fun s3 => AWSBatch.monitorBatchJob gzip config s3 jobId) result) ∧
    (∀ uuid payloads s3 parentJobId index result, Pickled result →
      AWSBatch.Returns gzip config (AWSBatch.submitArrayJob gzip config (hex uuid) payloads s3).1
        (AWSBatch.childId parentJobId index) (fun s3 => AWSBatch.monitorArrayJob gzip config s3 parentJobId index)
        result) ∧
    (∀ taskId payload, OCIHPC.Delivers gzip ociConfig taskId payload ↔ Inlinable payload) ∧
    (∀ taskId payload result, taskId ≠ [] → Pickled result →
      OCIHPC.Returns gzip ociConfig taskId payload result) := by
  refine ⟨AWSBatch.singleDelivers_iff gzip hconfig, fun uuid payloads index payload hindex hpickled =>
    AWSBatch.childDelivers_iff gzip hconfig uuid hindex hpickled, ?_, ?_, OCIHPC.delivers_iff gzip hoci, ?_⟩
  · intro taskId payload s3 jobId result hpickled
    have hfields : (AWSBatch.submitSingleBatchJob gzip config taskId payload s3).1.s3Bucket = config.s3Bucket ∧
        (AWSBatch.submitSingleBatchJob gzip config taskId payload s3).1.s3Prefix = config.s3Prefix := by
      rw [AWSBatch.submitSingleBatchJob]
      split
      · exact ⟨rfl, rfl⟩
      · exact ⟨rfl, rfl⟩
    exact AWSBatch.singleReturns gzip hconfig hfields.1 hfields.2 jobId hpickled
  · intro uuid payloads s3 parentJobId index result hpickled
    exact AWSBatch.childReturns gzip hconfig rfl rfl parentJobId index hpickled
  · intro taskId payload result hid hpickled
    exact OCIHPC.returns gzip hoci hid payload hpickled

/-- A `Gzip` that stores what it is given. -/
def storedGzip : Gzip where
  compress data := 0x1f :: 0x8b :: data
  decompress
    | 0x1f :: 0x8b :: data => some data
    | _ => none
  decompress_compress _ := rfl
  magic data := ⟨data, rfl⟩

theorem payloads_survive_iff_small :
    AWSBatch.SingleDelivers storedGzip ⟨"scaler".toList, "scaler-tasks".toList⟩ [1] [0x80, 5] ∧
    AWSBatch.ChildDelivers storedGzip ⟨"scaler".toList, "scaler-tasks".toList⟩ (hex [7]) [[0x80, 5], [0x80, 4]] 1
      [0x80, 4] ∧
    OCIHPC.Delivers storedGzip ⟨"space".toList, "scaler".toList, "scaler-tasks".toList⟩ [1] [0x80, 5] := by
  obtain ⟨hsingle, hchild, -, -, hdelivers, -⟩ := payloads_survive_iff storedGzip
    ⟨"scaler".toList, "scaler-tasks".toList⟩ ⟨by decide, by decide, by decide⟩
    ⟨"space".toList, "scaler".toList, "scaler-tasks".toList⟩ ⟨by decide, by decide, by decide⟩
  have hinlinable : Inlinable [0x80, 5] := fun _ => by decide
  exact ⟨(hsingle _ _).mpr hinlinable, (hchild _ _ _ _ rfl (by rw [Pickled]; decide)).mpr (by decide),
    (hdelivers _ _).mpr hinlinable⟩

/-- The runner of a child with a large payload gets the compressed bytes. -/
theorem large_child_not_delivered :
    ¬AWSBatch.ChildDelivers storedGzip ⟨"scaler".toList, "scaler-tasks".toList⟩ (hex [7])
      [List.replicate 4097 0x80, [0x80, 4]] 0 (List.replicate 4097 0x80) := by
  have hconfig : AWSBatch.Config.Plain ⟨"scaler".toList, "scaler-tasks".toList⟩ :=
    ⟨by decide, by decide, by decide⟩
  have hpickled : Pickled (List.replicate 4097 0x80) := by
    rintro ⟨rest, hrest⟩
    cases hrest
  rw [AWSBatch.childDelivers_iff storedGzip hconfig [7] rfl hpickled, List.length_replicate]
  decide

end Adapter

end Scaler
