import Scaler.Ymq.FrameReads
import Scaler.Ymq.WebSocketUpgrade

/-! The upgrade of a `WebSocketStream` works however the bytes are cut, as long as the read
that completes the headers does not bring more than the limit. -/

namespace Scaler.Ymq.WebSocket

open Collections

section Find

variable {a : UInt8} {needle s l rest : Bytes}

theorem find_cons (byte : UInt8) (rest : Bytes) :
    find needle (byte :: rest) =
      if needle.isPrefixOf (byte :: rest) then some 0 else (find needle rest).map (· + 1) := rfl

theorem isPrefixOf_cons_ne {b : UInt8} (h : b ≠ a) : (a :: needle).isPrefixOf (b :: rest) = false := by
  simp [List.isPrefixOf, Ne.symm h]

/-- The search passes over bytes that the needle does not begin with. -/
theorem find_append_of_not_mem (h : a ∉ l) :
    find (a :: needle) (l ++ rest) = (find (a :: needle) rest).map (· + l.length) := by
  induction l with
  | nil => simp
  | cons b l ih =>
    have hb : b ≠ a := fun hb => h (hb ▸ List.mem_cons_self)
    rw [List.cons_append, find_cons, isPrefixOf_cons_ne hb, if_neg Bool.false_ne_true,
      ih fun hm => h (List.mem_cons_of_mem _ hm), Option.map_map]
    rfl

theorem find_of_not_mem (h : a ∉ l) : find (a :: needle) l = none := by
  rw [← List.append_nil l, find_append_of_not_mem h]
  rfl

theorem find_prefix (needle rest : Bytes) (h : needle ≠ []) : find needle (needle ++ rest) = some 0 := by
  cases needle with
  | nil => exact absurd rfl h
  | cons a needle =>
    have hp : (a :: needle).isPrefixOf (a :: (needle ++ rest)) = true := by
      rw [List.isPrefixOf_iff_prefix]
      exact ⟨rest, rfl⟩
    rw [List.cons_append, find_cons, if_pos hp]

theorem find_le {i : Nat} (h : find needle s = some i) : i + needle.length ≤ s.length := by
  induction s generalizing i with
  | nil =>
    unfold find at h
    split at h
    · next hn =>
      cases h
      simp [hn]
    · cases h
  | cons b s ih =>
    rw [find_cons] at h
    split at h
    · next hp =>
      cases h
      rw [List.isPrefixOf_iff_prefix] at hp
      simpa using hp.length_le
    · obtain ⟨j, hj, rfl⟩ := Option.map_eq_some_iff.mp h
      have := ih hj
      rw [List.length_cons]
      omega

/-- What is found stays found when more bytes arrive. -/
theorem find_append {i : Nat} (h : find needle s = some i) (rest : Bytes) :
    find needle (s ++ rest) = some i := by
  induction s generalizing i with
  | nil =>
    unfold find at h
    split at h
    · next hn =>
      cases h
      subst hn
      cases rest <;> rfl
    · cases h
  | cons b s ih =>
    rw [find_cons] at h
    rw [List.cons_append, find_cons]
    split at h
    · next hp =>
      have hp' : needle.isPrefixOf (b :: (s ++ rest)) = true := by
        rw [List.isPrefixOf_iff_prefix] at hp ⊢
        exact hp.trans (List.prefix_append (b :: s) rest)
      rw [if_pos hp']
      exact h
    · next hp =>
      obtain ⟨j, hj, rfl⟩ := Option.map_eq_some_iff.mp h
      by_cases hp' : needle.isPrefixOf (b :: (s ++ rest)) = true
      · have hle := find_le hj
        rw [List.isPrefixOf_iff_prefix] at hp hp'
        refine absurd (List.prefix_of_prefix_length_le hp' (List.prefix_append (b :: s) rest) ?_) hp
        rw [List.length_cons]
        omega
      · rw [if_neg hp', ih hj]
        rfl

end Find

section Lines

/-- Lines with line ends between them. -/
def joined : List Bytes → Bytes
  | [] => []
  | [line] => line
  | line :: next :: lines => line ++ crlf ++ joined (next :: lines)

/-- The line is not empty and has no carriage return. -/
structure Plain (line : Bytes) : Prop where
  ne_nil : line ≠ []
  no_return : 13 ∉ line

variable {line : Bytes} {lines : List Bytes}

theorem crlf_eq : crlf = [13, 10] := by decide

theorem blankLine_eq : blankLine = [13, 10, 13, 10] := by decide

theorem joined_cons (hl : Plain line) (lines : List Bytes) :
    ∃ b rest, joined (line :: lines) = b :: rest ∧ b ≠ 13 := by
  obtain ⟨b, l, rfl⟩ := List.exists_cons_of_ne_nil hl.ne_nil
  have hb : b ≠ 13 := fun hb => hl.no_return (hb ▸ List.mem_cons_self)
  cases lines with
  | nil => exact ⟨b, l, rfl, hb⟩
  | cons next lines => exact ⟨b, l ++ crlf ++ joined (next :: lines), rfl, hb⟩

theorem find_blankLine (h : ∀ line ∈ lines, Plain line) (hne : lines ≠ []) (rest : Bytes) :
    find blankLine (joined lines ++ blankLine ++ rest) = some (joined lines).length := by
  induction lines with
  | nil => exact absurd rfl hne
  | cons line lines ih =>
    have hl := (h line List.mem_cons_self).no_return
    cases lines with
    | nil =>
      rw [joined, List.append_assoc, blankLine_eq, find_append_of_not_mem hl, find_prefix _ _ (by decide)]
      simp
    | cons next lines =>
      have hn := ih (fun line hm => h line (List.mem_cons_of_mem _ hm)) (List.cons_ne_nil _ _)
      obtain ⟨b, tail, hb, hne⟩ :=
        joined_cons (h next (List.mem_cons_of_mem _ List.mem_cons_self)) lines
      have hskip : find blankLine (crlf ++ (joined (next :: lines) ++ blankLine ++ rest)) =
          (find blankLine (joined (next :: lines) ++ blankLine ++ rest)).map (· + 2) := by
        rw [hb, crlf_eq, blankLine_eq]
        have h1 : List.isPrefixOf [13, 10, 13, 10] (13 :: 10 :: b :: (tail ++ [13, 10, 13, 10] ++ rest)) = false := by
          simp [List.isPrefixOf, Ne.symm hne]
        have h2 : List.isPrefixOf [13, 10, 13, 10] (10 :: b :: (tail ++ [13, 10, 13, 10] ++ rest)) = false :=
          isPrefixOf_cons_ne (by decide)
        simp only [List.cons_append, List.nil_append] at h1 h2 ⊢
        rw [find_cons, h1, if_neg Bool.false_ne_true, find_cons, h2, if_neg Bool.false_ne_true,
          Option.map_map]
        rfl
      have he : joined (line :: next :: lines) ++ blankLine ++ rest =
          line ++ (crlf ++ (joined (next :: lines) ++ blankLine ++ rest)) := by
        simp [joined]
      rw [he, show blankLine = 13 :: [10, 13, 10] from blankLine_eq, find_append_of_not_mem hl,
        ← show blankLine = 13 :: [10, 13, 10] from blankLine_eq, hskip, hn]
      simp [joined, crlf_eq]
      omega

theorem find_crlf_joined (hl : Plain line) (next : Bytes) (lines : List Bytes) :
    find crlf (joined (line :: next :: lines)) = some line.length := by
  rw [joined, List.append_assoc, crlf_eq, find_append_of_not_mem hl.no_return,
    find_prefix _ _ (by decide)]
  simp

theorem take_joined (line next : Bytes) (lines : List Bytes) :
    (joined (line :: next :: lines)).take line.length = line := by
  rw [joined, List.append_assoc]
  exact List.take_left

theorem drop_joined (line next : Bytes) (lines : List Bytes) :
    (joined (line :: next :: lines)).drop (line.length + 2) = joined (next :: lines) := by
  have hlen : line.length + 2 = (line ++ crlf).length := by simp [crlf_eq]
  rw [joined, hlen]
  exact List.drop_left

theorem extractLines_joined (h : ∀ line ∈ lines, Plain line) {n : Nat} (hn : lines.length ≤ n)
    (result : Dict Bytes Bytes) : extractLines n (joined lines) result = lines.foldl addHeader result := by
  induction lines generalizing n result with
  | nil => cases n <;> rfl
  | cons line lines ih =>
    have hl := h line List.mem_cons_self
    obtain ⟨n, rfl⟩ : ∃ m, n = m + 1 := ⟨n - 1, by rw [List.length_cons] at hn; omega⟩
    obtain ⟨b, tail, hb, _⟩ := joined_cons hl lines
    have hne : joined (line :: lines) ≠ [] := by
      rw [hb]
      exact List.cons_ne_nil _ _
    rw [extractLines, if_neg hne]
    cases lines with
    | nil =>
      rw [joined, crlf_eq, find_of_not_mem hl.no_return]
      rfl
    | cons next lines =>
      rw [find_crlf_joined hl]
      dsimp only
      have hn : (next :: lines).length ≤ n := Nat.le_of_succ_le_succ hn
      rw [drop_joined, take_joined, ih (fun line hm => h line (List.mem_cons_of_mem _ hm)) hn]
      rfl

theorem extractHeaders_joined {first next : Bytes} (h : ∀ line ∈ first :: next :: lines, Plain line) :
    extractHeaders (joined (first :: next :: lines)) = (next :: lines).foldl addHeader Dict.empty := by
  have hlen : ∀ lines : List Bytes, (∀ line ∈ lines, Plain line) → lines.length ≤ (joined lines).length := by
    intro lines
    induction lines with
    | nil => exact fun _ => Nat.zero_le _
    | cons line lines ih =>
      intro h
      have hl := List.length_pos_of_ne_nil (h line List.mem_cons_self).ne_nil
      have hr := ih fun line hm => h line (List.mem_cons_of_mem _ hm)
      cases lines with
      | nil => exact hl
      | cons next lines =>
        rw [joined, List.length_append, List.length_append, List.length_cons]
        omega
  have hn := hlen _ h
  rw [List.length_cons] at hn
  rw [extractHeaders, find_crlf_joined (h first List.mem_cons_self)]
  dsimp only
  rw [drop_joined, extractLines_joined (fun line hm => h line (List.mem_cons_of_mem _ hm)) (by omega)]

theorem addHeader_field {name : Bytes} (h : 58 ∉ name) (value : Bytes) (result : Dict Bytes Bytes) :
    addHeader result (name ++ ascii ": " ++ value) =
      result.set (toLower name) (value.dropWhile fun c => c = 32 ∨ c = 9) := by
  have hc : ascii ":" = 58 :: [] := by decide
  have hs : ascii ": " = [58, 32] := by decide
  have hf : find (58 :: []) (name ++ (58 :: 32 :: value)) = some name.length := by
    rw [find_append_of_not_mem h, show 58 :: 32 :: value = [58] ++ 32 :: value from rfl,
      find_prefix _ _ (by decide)]
    simp
  have hd : (name ++ 58 :: 32 :: value).drop (name.length + 1) = 32 :: value := by
    rw [← List.drop_drop, List.drop_left]
    rfl
  rw [addHeader, hc, hs, List.append_assoc, List.cons_append, List.cons_append, List.nil_append, hf]
  dsimp only
  rw [hd, List.take_left, List.dropWhile_cons_of_pos (by decide)]

end Lines

section Base64

/-- A letter of the alphabet or a filler. -/
def IsLetter (c : UInt8) : Prop := c ∈ alphabet ∨ c = 61

theorem isLetter_letter (val : UInt32) (shift : Nat) : IsLetter (letter val shift) := by
  have hlt : ((val >>> shift.toUInt32) &&& 0x3F).toNat < alphabet.length := by
    rw [UInt32.toNat_and]
    exact Nat.lt_of_le_of_lt Nat.and_le_right (by decide)
  refine .inl ?_
  rw [letter, List.getD_eq_getElem?_getD, List.getElem?_eq_getElem hlt, Option.getD_some]
  exact List.getElem_mem hlt

theorem emitLetters_letters (val : UInt32) (n : Nat) (r : Int × Bytes) (h : ∀ c ∈ r.2, IsLetter c) :
    ∀ c ∈ (emitLetters val n r).2, IsLetter c := by
  induction n generalizing r with
  | zero => exact h
  | succ n ih =>
    obtain ⟨valb, result⟩ := r
    rw [emitLetters]
    split
    · refine ih _ fun c hc => ?_
      rcases List.mem_append.mp hc with hc | hc
      · exact h c hc
      · rw [List.mem_singleton.mp hc]
        exact isLetter_letter _ _
    · exact h

theorem foldl_encodeByte_letters (data : Bytes) (s : UInt32 × Int × Bytes)
    (h : ∀ c ∈ s.2.2, IsLetter c) : ∀ c ∈ (data.foldl encodeByte s).2.2, IsLetter c := by
  induction data generalizing s with
  | nil => exact h
  | cons b data ih => exact ih _ (emitLetters_letters _ _ _ h)

theorem base64Encode_letters (data : Bytes) : ∀ c ∈ base64Encode data, IsLetter c := by
  have hs := foldl_encodeByte_letters data (0, -6, []) (by simp)
  have hadd : ∀ (r : Bytes) (val : UInt32) (valb : Int), (∀ c ∈ r, IsLetter c) →
      ∀ c ∈ if -6 < valb then r ++ [letter (val <<< 8) (valb + 8).toNat] else r, IsLetter c := by
    intro r val valb h c hc
    split at hc
    · rcases List.mem_append.mp hc with hc | hc
      · exact h c hc
      · rw [List.mem_singleton.mp hc]
        exact isLetter_letter _ _
    · exact h c hc
  intro c hc
  unfold base64Encode at hc
  rcases List.mem_append.mp hc with hc | hc
  · exact hadd _ _ _ hs c hc
  · exact .inr (List.eq_of_mem_replicate hc)

theorem IsLetter.ne {c : UInt8} (h : IsLetter c) : c ≠ 13 ∧ c ≠ 32 ∧ c ≠ 9 := by
  have hall : alphabet.all (fun c => c != 13 && c != 32 && c != 9) = true := by decide
  rcases h with h | rfl
  · have hc := List.all_eq_true.mp hall c h
    simpa [and_assoc] using hc
  · decide

/-- No blank stands before an encoded value. -/
theorem dropWhile_base64Encode (data : Bytes) :
    (base64Encode data).dropWhile (fun c => c = 32 ∨ c = 9) = base64Encode data := by
  have h := base64Encode_letters data
  cases he : base64Encode data with
  | nil => rfl
  | cons c l =>
    rw [he] at h
    have hc := (h c List.mem_cons_self).ne.2
    exact List.dropWhile_cons_of_neg (by simp [hc])

theorem no_return_base64Encode (data : Bytes) : 13 ∉ base64Encode data :=
  fun h => (base64Encode_letters data 13 h).ne.1 rfl

theorem no_return_decimal (n : Nat) : 13 ∉ decimal n := by
  unfold decimal
  split
  · decide
  · intro h
    obtain ⟨d, hd, he⟩ := List.mem_map.mp h
    have hlt := Nat.digits_lt_base (by decide) (List.mem_reverse.mp hd)
    have hall : ∀ d : Fin 10, (48 + d.val).toUInt8 ≠ 13 := by decide
    exact hall ⟨d, hlt⟩ he

end Base64

section Messages

variable {host path : Bytes}

/-- The lines of the request. -/
def requestLines (host : Bytes) (port : UInt16) (path key : Bytes) : List Bytes :=
  [ascii "GET " ++ path ++ ascii " HTTP/1.1", ascii "Host" ++ ascii ": " ++ (host ++ ascii ":" ++ decimal port.toNat),
    ascii "Upgrade" ++ ascii ": " ++ ascii "websocket", ascii "Connection" ++ ascii ": " ++ ascii "Upgrade",
    ascii "Sec-WebSocket-Key" ++ ascii ": " ++ key, ascii "Sec-WebSocket-Version" ++ ascii ": " ++ ascii "13"]

def responseLines (accept : Bytes) : List Bytes :=
  [ascii "HTTP/1.1 101 Switching Protocols", ascii "Upgrade" ++ ascii ": " ++ ascii "websocket",
    ascii "Connection" ++ ascii ": " ++ ascii "Upgrade", ascii "Sec-WebSocket-Accept" ++ ascii ": " ++ accept]

theorem request_eq (host : Bytes) (port : UInt16) (path key : Bytes) :
    buildClientUpgradeRequest host port path key = joined (requestLines host port path key) ++ blankLine := by
  simp only [buildClientUpgradeRequest, requestLines, joined, crlf, blankLine, ascii, String.reduceToList,
    List.map_cons, List.map_nil, List.append_assoc, List.cons_append, List.nil_append]

theorem response_eq (key : Bytes) :
    buildServerUpgradeResponse key = joined (responseLines (computeWebSocketAccept key)) ++ blankLine := by
  simp only [buildServerUpgradeResponse, responseLines, joined, crlf, blankLine, ascii, String.reduceToList,
    List.map_cons, List.map_nil, List.append_assoc, List.cons_append, List.nil_append]

theorem plain_requestLines (hh : 13 ∉ host) (hp : 13 ∉ path) (port : UInt16) {key : Bytes} (hk : 13 ∉ key) :
    ∀ line ∈ requestLines host port path key, Plain line := by
  have hd := no_return_decimal port.toNat
  simp only [requestLines, List.mem_cons, List.not_mem_nil, or_false, forall_eq_or_imp, forall_eq]
  refine ⟨⟨?_, ?_⟩, ⟨?_, ?_⟩, ⟨?_, ?_⟩, ⟨?_, ?_⟩, ⟨?_, ?_⟩, ⟨?_, ?_⟩⟩
  all_goals simp [ascii, hh, hp, hk, hd]

theorem plain_responseLines {accept : Bytes} (ha : 13 ∉ accept) :
    ∀ line ∈ responseLines accept, Plain line := by
  simp only [responseLines, List.mem_cons, List.not_mem_nil, or_false, forall_eq_or_imp, forall_eq]
  refine ⟨⟨?_, ?_⟩, ⟨?_, ?_⟩, ⟨?_, ?_⟩, ⟨?_, ?_⟩⟩
  all_goals simp [ascii, ha]

theorem get?_requestLines (port : UInt16) (data : Bytes)
    (h : ∀ line ∈ requestLines host port path (base64Encode data), Plain line) :
    let headers := extractHeaders (joined (requestLines host port path (base64Encode data)))
    headers.get? (ascii "upgrade") = some (ascii "websocket") ∧
      headers.get? (ascii "sec-websocket-key") = some (base64Encode data) ∧
      headers.get? (ascii "connection") = some (ascii "Upgrade") ∧
      headers.get? (ascii "sec-websocket-version") = some (ascii "13") := by
  have hmap : extractHeaders (joined (requestLines host port path (base64Encode data))) = _ :=
    extractHeaders_joined h
  simp only [List.foldl_cons, List.foldl_nil] at hmap
  rw [addHeader_field (by decide), addHeader_field (by decide), addHeader_field (by decide),
    addHeader_field (by decide), addHeader_field (by decide), dropWhile_base64Encode,
    show toLower (ascii "Upgrade") = ascii "upgrade" by decide,
    show toLower (ascii "Connection") = ascii "connection" by decide,
    show toLower (ascii "Sec-WebSocket-Key") = ascii "sec-websocket-key" by decide,
    show toLower (ascii "Sec-WebSocket-Version") = ascii "sec-websocket-version" by decide] at hmap
  dsimp only
  rw [hmap]
  refine ⟨?_, ?_, ?_, Dict.get?_set_self _ _ _⟩
  · rw [Dict.get?_set_ne _ (by decide), Dict.get?_set_ne _ (by decide), Dict.get?_set_ne _ (by decide),
      Dict.get?_set_self]
    rfl
  · rw [Dict.get?_set_ne _ (by decide), Dict.get?_set_self]
  · rw [Dict.get?_set_ne _ (by decide), Dict.get?_set_ne _ (by decide), Dict.get?_set_self]
    rfl

/-- The server finds the key of the client in its request. -/
theorem checkRequest_request (hh : 13 ∉ host) (hp : 13 ∉ path) (port : UInt16) (data after : Bytes) :
    checkRequest (buildClientUpgradeRequest host port path (base64Encode data) ++ after) =
      some (base64Encode data, (joined (requestLines host port path (base64Encode data))).length) := by
  have hplain := plain_requestLines hh hp port (no_return_base64Encode data)
  have hend := find_blankLine hplain (List.cons_ne_nil _ _) after
  have hline : find crlf (joined (requestLines host port path (base64Encode data))) = _ :=
    find_crlf_joined (hplain _ List.mem_cons_self) _ _
  have hpre : (ascii "GET ").isPrefixOf (ascii "GET " ++ path ++ ascii " HTTP/1.1") = true := by
    rw [List.isPrefixOf_iff_prefix, List.append_assoc]
    exact List.prefix_append _ _
  have hsuf : (ascii " HTTP/1.1").isSuffixOf (ascii "GET " ++ path ++ ascii " HTTP/1.1") = true := by
    rw [List.isSuffixOf_iff_suffix]
    exact List.suffix_append _ _
  have hfirst : (joined (requestLines host port path (base64Encode data))).take
      (ascii "GET " ++ path ++ ascii " HTTP/1.1").length = ascii "GET " ++ path ++ ascii " HTTP/1.1" :=
    take_joined _ _ _
  obtain ⟨hupgrade, hkey, hconnection, hversion⟩ :=
    get?_requestLines port data hplain
  rw [request_eq, checkRequest, hend]
  simp only [Option.bind_eq_bind, Option.bind_some]
  rw [List.append_assoc, List.take_left, hline]
  simp only [Option.bind_some, hfirst, hpre, hsuf, and_self, hupgrade, hkey, hconnection, hversion]
  rfl

/-- The client finds the answer to its key in the response. -/
theorem checkResponse_response (key after : Bytes) :
    checkResponse (buildServerUpgradeResponse key ++ after) key =
      some (joined (responseLines (computeWebSocketAccept key))).length := by
  have hreturn : 13 ∉ computeWebSocketAccept key := no_return_base64Encode _
  have hdrop : (computeWebSocketAccept key).dropWhile (fun c => c = 32 ∨ c = 9) = computeWebSocketAccept key :=
    dropWhile_base64Encode _
  have hplain := plain_responseLines hreturn
  have hend := find_blankLine hplain (List.cons_ne_nil _ _) after
  have hpre : (ascii "HTTP/1.1 101").isPrefixOf (joined (responseLines (computeWebSocketAccept key))) = true := by
    rw [List.isPrefixOf_iff_prefix, responseLines, joined,
      show ascii "HTTP/1.1 101 Switching Protocols" = ascii "HTTP/1.1 101" ++ ascii " Switching Protocols" by decide,
      List.append_assoc, List.append_assoc]
    exact List.prefix_append _ _
  have hmap : extractHeaders (joined (responseLines (computeWebSocketAccept key))) = _ :=
    extractHeaders_joined hplain
  simp only [List.foldl_cons, List.foldl_nil] at hmap
  rw [addHeader_field (by decide), addHeader_field (by decide), addHeader_field (by decide),
    hdrop, show toLower (ascii "Sec-WebSocket-Accept") = ascii "sec-websocket-accept" by decide] at hmap
  have haccept : (extractHeaders (joined (responseLines (computeWebSocketAccept key)))).get?
      (ascii "sec-websocket-accept") = some (computeWebSocketAccept key) := by
    rw [hmap]
    exact Dict.get?_set_self _ _ _
  rw [response_eq, checkResponse, hend]
  simp only [Option.bind_eq_bind, Option.bind_some]
  rw [List.append_assoc, List.take_left]
  simp only [hpre, haccept, Option.bind_some]
  rfl

/-- Nothing is found before the blank line is complete. -/
theorem find_blankLine_part {lines : List Bytes} (h : ∀ line ∈ lines, Plain line) (hne : lines ≠ []) {part : Bytes}
    (hp : part <+: joined lines ++ blankLine) (hl : part.length < (joined lines ++ blankLine).length) :
    find blankLine part = none := by
  cases hf : find blankLine part with
  | none => rfl
  | some i =>
    obtain ⟨rest, hr⟩ := hp
    have hi := find_append hf rest
    have hle := find_le hf
    have hend := find_blankLine h hne []
    rw [List.append_nil, ← hr, hi] at hend
    cases hend
    rw [List.length_append] at hl
    omega

end Messages

section Reads

/-- How many bytes have arrived when the first `size` ones have. -/
def arrived (size : Nat) : List Bytes → Nat
  | [] => 0
  | data :: pieces =>
    if size ≤ data.length then data.length else data.length + arrived (size - data.length) pieces

/-- The headers are complete. -/
def Upgrade.finish (s : Upgrade) : Option Upgrade :=
  if s.role = .server then s.finishServerUpgrade none else s.finishClientUpgrade

variable {lines : List Bytes} {s : Upgrade} {after : Bytes} {pieces : List Bytes}

variable (s) in
/-- Reads go on until the blank line has come, or too much. -/
theorem readPieces_headers (h : ∀ line ∈ lines, Plain line) (hne : lines ≠ []) (hs : s.reading = true)
    (hb : s.recvBuffer.length < (joined lines ++ blankLine).length)
    (hp : s.recvBuffer ++ pieces.flatten = joined lines ++ blankLine ++ after) :
    if s.recvBuffer.length + arrived ((joined lines ++ blankLine).length - s.recvBuffer.length) pieces ≤
        maxUpgradeHeaderSize then
      ∃ leftover rest, leftover ++ rest.flatten = after ∧
        s.readPieces pieces = (Upgrade.finish { s with
          recvBuffer := joined lines ++ blankLine ++ leftover }).bind fun s' => s'.readPieces rest
    else
      ∃ buffer rest, s.readPieces pieces = (Upgrade.completeUpgrade { s with
        recvBuffer := buffer, reading := false } (.error .eproto)).bind fun s' => s'.readPieces rest := by
  induction pieces generalizing s with
  | nil =>
    have hlen := congrArg List.length hp
    simp only [List.flatten_nil, List.append_nil, List.length_append] at hlen hb
    omega
  | cons data pieces ih =>
    rw [List.flatten_cons, ← List.append_assoc] at hp
    have hrun : s.readPieces (data :: pieces) = (s.onRead (.ok data) none).bind fun s' => s'.readPieces pieces := by
      rw [Upgrade.readPieces, if_pos hs]
      rfl
    have hstep : s.onRead (.ok data) none =
        if maxUpgradeHeaderSize < (s.recvBuffer ++ data).length then
          Upgrade.completeUpgrade { s with recvBuffer := s.recvBuffer ++ data, reading := false } (.error .eproto)
        else if (find blankLine (s.recvBuffer ++ data)).isSome then
          Upgrade.finish { s with recvBuffer := s.recvBuffer ++ data }
        else some { s with recvBuffer := s.recvBuffer ++ data } := rfl
    have hlen : (s.recvBuffer ++ data).length = s.recvBuffer.length + data.length := List.length_append
    rw [hrun, hstep]
    by_cases hmax : maxUpgradeHeaderSize < (s.recvBuffer ++ data).length
    · -- Whether or not the headers are complete, too much has come.
      have hover : ¬ s.recvBuffer.length +
          arrived ((joined lines ++ blankLine).length - s.recvBuffer.length) (data :: pieces) ≤
            maxUpgradeHeaderSize := by
        rw [arrived]
        split <;> omega
      rw [if_neg hover, if_pos hmax]
      exact ⟨_, pieces, rfl⟩
    · rw [if_neg hmax]
      by_cases hfull : (joined lines ++ blankLine).length ≤ (s.recvBuffer ++ data).length
      · have hpre : joined lines ++ blankLine <+: s.recvBuffer ++ data := by
          refine List.prefix_of_prefix_length_le ?_ (List.prefix_append _ pieces.flatten) hfull
          rw [hp]
          exact List.prefix_append _ _
        obtain ⟨leftover, hl⟩ := hpre
        have hfound : (find blankLine (s.recvBuffer ++ data)).isSome = true := by
          rw [← hl, find_blankLine h hne]
          rfl
        have hfit : s.recvBuffer.length +
            arrived ((joined lines ++ blankLine).length - s.recvBuffer.length) (data :: pieces) ≤
              maxUpgradeHeaderSize := by
          rw [arrived, if_pos (by omega)]
          omega
        rw [if_pos hfit, if_pos hfound, ← hl]
        refine ⟨leftover, pieces, ?_, rfl⟩
        rw [← hl, List.append_assoc] at hp
        exact List.append_cancel_left hp
      · have hpart : s.recvBuffer ++ data <+: joined lines ++ blankLine := by
          refine List.prefix_of_prefix_length_le (List.prefix_append _ pieces.flatten) ?_ (by omega)
          rw [hp]
          exact List.prefix_append _ _
        have hnone := find_blankLine_part h hne hpart (by omega)
        have hnext : arrived ((joined lines ++ blankLine).length - s.recvBuffer.length) (data :: pieces) =
            data.length + arrived ((joined lines ++ blankLine).length - (s.recvBuffer ++ data).length) pieces := by
          rw [arrived, if_neg (by omega), hlen, Nat.sub_sub]
        have hi := @ih { s with recvBuffer := s.recvBuffer ++ data } hs (Nat.not_le.mp hfull) hp
        rw [hnone, hnext, ← Nat.add_assoc, ← hlen]
        exact hi

theorem readPieces_stopped (hs : s.reading = false) (pieces : List Bytes) :
    s.readPieces pieces = some (s, pieces) := by
  cases pieces with
  | nil => rfl
  | cons data pieces =>
    rw [Upgrade.readPieces, if_neg]
    rw [hs]
    exact Bool.false_ne_true

end Reads

section Sides

variable {host path after : Bytes} {pieces : List Bytes}

/-- The bytes `after` the headers are in the buffer or not read yet. A frame decoder that is started here does with
them what it does with all of `after` in one read, whatever reads the transport makes at its start. -/
def HandsOver (s : Upgrade) (rest : List Bytes) (after : Bytes) : Prop :=
  s.recvBuffer ++ rest.flatten = after ∧ ∀ keys early later, rest = early ++ later →
    WebSocketStream.Agree ((s.stream.readStart keys early).bind fun t => t.reads keys later)
      ((WebSocketStream.opened s.role).onRead keys after)

theorem handsOver {s : Upgrade} {rest : List Bytes} (h : s.recvBuffer ++ rest.flatten = after) :
    HandsOver s rest after := by
  refine ⟨h, fun keys early later he => ?_⟩
  rw [← h, he]
  exact WebSocketStream.readStart_agree s.role s.recvBuffer early later

/-- The frames behind the headers are handled one after the other, and nothing of them is left over. -/
theorem HandsOver.frames {s : Upgrade} {rest : List Bytes} {frames : List WireFrame}
    (h : HandsOver s rest (frames.flatMap WireFrame.encode))
    (hf : ∀ w ∈ frames, w.Fits ∧ w.frame.opcode ≠ opcodeClose) (keys : Nat → MaskKey) :
    (s.stream.readStart keys []).bind (fun t => t.reads keys rest) =
      some ((frames.foldl (WebSocketStream.onFrame keys) (.opened s.role)).holding []) :=
  (h.2 keys [] rest rfl).frames hf rfl rfl rfl

/-- The server reads the pieces, answers, and is told once that the upgrade worked; the bytes
`after` the request are what its frame decoder gets. -/
def ServerUpgrades (response : Bytes) (pieces : List Bytes) (after : Bytes) : Prop :=
  ∃ s s' rest, Upgrade.accept.readPieces pieces = some (s, rest) ∧ s.written = [response] ∧
    s.onWritten (.ok ()) = some s' ∧ s'.results = [.ok ()] ∧ HandsOver s' rest after

/-- The client sends its request, reads the pieces, and is told once that the upgrade worked. -/
def ClientUpgrades (host : Bytes) (port : UInt16) (path key : Bytes) (pieces : List Bytes) (after : Bytes) : Prop :=
  ∃ s s' s'' rest, Upgrade.upgradeAsClient host port path key none = some s ∧
    s.written = [buildClientUpgradeRequest host port path key] ∧ s.onWritten (.ok ()) = some s' ∧
    s'.readPieces pieces = some (s'', rest) ∧ s''.results = [.ok ()] ∧ HandsOver s'' rest after

theorem drop_headers (lines : List Bytes) (leftover : Bytes) :
    (joined lines ++ blankLine ++ leftover).drop ((joined lines).length + 4) = leftover := by
  have hlen : (joined lines).length + 4 = (joined lines ++ blankLine).length := by simp [blankLine_eq]
  rw [hlen]
  exact List.drop_left

theorem completeUpgrade_failed (s : Upgrade) (hr : s.reading = false) {pieces rest : List Bytes} {e : UvError}
    {s' : Upgrade} (h : ((s.completeUpgrade (.error e)).bind fun s => s.readPieces pieces) = some (s', rest)) :
    s'.results = s.results ++ [Except.error e] ∧ s'.written = s.written := by
  unfold Upgrade.completeUpgrade at h
  split at h
  · have hstop := readPieces_stopped (s := { s with
      upgradeCallback := false, results := s.results ++ [Except.error e] }) hr pieces
    cases hstop.symm.trans h
    exact ⟨rfl, rfl⟩
  · cases h

theorem serverUpgrades_iff (hh : 13 ∉ host) (hp : 13 ∉ path) (port : UInt16) (data : Bytes)
    (hpieces : pieces.flatten = buildClientUpgradeRequest host port path (base64Encode data) ++ after) :
    ServerUpgrades (buildServerUpgradeResponse (base64Encode data)) pieces after ↔
      arrived (buildClientUpgradeRequest host port path (base64Encode data)).length pieces ≤
        maxUpgradeHeaderSize := by
  have hplain := plain_requestLines hh hp port (no_return_base64Encode data)
  have hcheck := fun leftover => checkRequest_request hh hp port data leftover
  rw [request_eq] at hpieces hcheck ⊢
  have hpos : ([] : Bytes).length < (joined (requestLines host port path (base64Encode data)) ++ blankLine).length := by
    simp [blankLine_eq]
  have hread := readPieces_headers .accept hplain (List.cons_ne_nil _ _) rfl hpos hpieces
  simp only [show Upgrade.accept.recvBuffer = [] from rfl, List.length_nil, Nat.zero_add, Nat.sub_zero] at hread
  split at hread
  · next hfit =>
    refine iff_of_true ?_ hfit
    obtain ⟨leftover, rest, he, hrun⟩ := hread
    have hfinish : Upgrade.finish { Upgrade.accept with
        recvBuffer := joined (requestLines host port path (base64Encode data)) ++ blankLine ++ leftover } =
          some ⟨.server, [], leftover, false, true, true, [], [buildServerUpgradeResponse (base64Encode data)]⟩ := by
      simp only [Upgrade.finish, Upgrade.accept, if_true, Upgrade.finishServerUpgrade, hcheck leftover,
        drop_headers]
      rfl
    rw [hfinish] at hrun
    exact ⟨_, _, rest, hrun.trans (readPieces_stopped rfl rest), rfl, rfl, rfl, handsOver he⟩
  · next hover =>
    refine iff_of_false ?_ hover
    obtain ⟨buffer, rest, hrun⟩ := hread
    rintro ⟨s, s', rest', hs, hw, _⟩
    rw [hrun] at hs
    have hw' := (completeUpgrade_failed _ rfl hs).2
    rw [hw] at hw'
    cases hw'

theorem clientUpgrades_iff (host : Bytes) (port : UInt16) (path key : Bytes)
    (hpieces : pieces.flatten = buildServerUpgradeResponse key ++ after) :
    ClientUpgrades host port path key pieces after ↔
      arrived (buildServerUpgradeResponse key).length pieces ≤ maxUpgradeHeaderSize := by
  have hreturn : 13 ∉ computeWebSocketAccept key := no_return_base64Encode _
  have hplain := plain_responseLines hreturn
  have hcheck := fun leftover => checkResponse_response key leftover
  rw [response_eq] at hpieces hcheck ⊢
  let started : Upgrade :=
    ⟨.client, key, [], true, false, true, [], [buildClientUpgradeRequest host port path key]⟩
  have hpos : ([] : Bytes).length < (joined (responseLines (computeWebSocketAccept key)) ++ blankLine).length := by
    simp [blankLine_eq]
  have hread := readPieces_headers started hplain (List.cons_ne_nil _ _) rfl hpos hpieces
  simp only [show started.recvBuffer = [] from rfl, List.length_nil, Nat.zero_add, Nat.sub_zero] at hread
  split at hread
  · next hfit =>
    refine iff_of_true ?_ hfit
    obtain ⟨leftover, rest, he, hrun⟩ := hread
    have hfinish : Upgrade.finish { started with
        recvBuffer := joined (responseLines (computeWebSocketAccept key)) ++ blankLine ++ leftover } =
          some { started with
            recvBuffer := leftover, reading := false, upgradeCallback := false, results := [.ok ()] } := by
      simp only [Upgrade.finish, started, reduceCtorEq, if_false, Upgrade.finishClientUpgrade, hcheck leftover,
        drop_headers]
      rfl
    rw [hfinish] at hrun
    exact ⟨_, _, _, rest, rfl, rfl, rfl, hrun.trans (readPieces_stopped rfl rest), rfl, handsOver he⟩
  · next hover =>
    refine iff_of_false ?_ hover
    obtain ⟨buffer, rest, hrun⟩ := hread
    rintro ⟨s, s', s'', rest', hs, _, hs', hs'', hr, _⟩
    cases hs
    cases hs'
    have hr' := (completeUpgrade_failed _ rfl (hrun.symm.trans hs'')).1
    rw [hr] at hr'
    cases hr'

end Sides

section Upgrades

variable (host path : Bytes) (hh : 13 ∉ host ∧ 10 ∉ host) (hp : 13 ∉ path ∧ 10 ∉ path) (port : UInt16)
  (keyBytes : { bytes : Bytes // bytes.length = 16 }) (afterRequest afterResponse : Bytes)
  (requestPieces responsePieces : List Bytes)
  (hrequest : requestPieces.flatten =
    buildClientUpgradeRequest host port path (generateWebSocketKey keyBytes) ++ afterRequest)
  (hresponse : responsePieces.flatten =
    buildServerUpgradeResponse (generateWebSocketKey keyBytes) ++ afterResponse)

/-- Both sides upgrade: the server takes the request that arrives in pieces, the client the
response; each is told so once, and the bytes behind the headers are left for its frame
decoder. -/
def Upgrades : Prop :=
  ServerUpgrades (buildServerUpgradeResponse (generateWebSocketKey keyBytes)) requestPieces afterRequest ∧
    ClientUpgrades host port path (generateWebSocketKey keyBytes) responsePieces afterResponse

include hh hp hrequest hresponse

theorem upgrades_iff :
    Upgrades host path port keyBytes afterRequest afterResponse requestPieces responsePieces ↔
      arrived (buildClientUpgradeRequest host port path (generateWebSocketKey keyBytes)).length requestPieces ≤
          maxUpgradeHeaderSize ∧
        arrived (buildServerUpgradeResponse (generateWebSocketKey keyBytes)).length responsePieces ≤
          maxUpgradeHeaderSize :=
  and_congr (serverUpgrades_iff hh.1 hp.1 port keyBytes.val hrequest) (clientUpgrades_iff host port path _ hresponse)

/-- The upgrade works for every cutting in which the read that completes the headers of the
other side does not bring more than the limit. -/
theorem upgrades_within_limit
    (hserver : arrived (buildClientUpgradeRequest host port path (generateWebSocketKey keyBytes)).length
      requestPieces ≤ maxUpgradeHeaderSize)
    (hclient : arrived (buildServerUpgradeResponse (generateWebSocketKey keyBytes)).length responsePieces ≤
      maxUpgradeHeaderSize) :
    Upgrades host path port keyBytes afterRequest afterResponse requestPieces responsePieces :=
  (upgrades_iff host path hh hp port keyBytes afterRequest afterResponse requestPieces responsePieces hrequest
    hresponse).mpr ⟨hserver, hclient⟩

end Upgrades

/-- Sixteen zero bytes, a request in two reads and frames in the read that ends the response. -/
theorem upgrades_within_limit_localhost :
    Upgrades (ascii "localhost") (ascii "/") 8080 ⟨List.replicate 16 0, rfl⟩ [] [130, 0]
      [(buildClientUpgradeRequest (ascii "localhost") 8080 (ascii "/") (base64Encode (List.replicate 16 0))).take 20,
        (buildClientUpgradeRequest (ascii "localhost") 8080 (ascii "/") (base64Encode (List.replicate 16 0))).drop 20]
      [buildServerUpgradeResponse (base64Encode (List.replicate 16 0)) ++ [130, 0]] := by
  refine upgrades_within_limit _ _ ?_ ?_ _ _ _ _ _ _ ?_ ?_ ?_ ?_
  · decide
  · decide
  · simp [generateWebSocketKey]
  · simp [generateWebSocketKey]
  · decide +kernel
  · decide +kernel

/-- A request that is longer than the limit is refused. -/
theorem long_path_not_upgraded :
    ¬ Upgrades (ascii "localhost") (List.replicate 65536 97) 8080 ⟨List.replicate 16 0, rfl⟩ [] []
      [buildClientUpgradeRequest (ascii "localhost") 8080 (List.replicate 65536 97)
        (base64Encode (List.replicate 16 0))]
      [buildServerUpgradeResponse (base64Encode (List.replicate 16 0))] := by
  have hpath : ∀ c : UInt8, c ≠ 97 → c ∉ List.replicate 65536 97 :=
    fun c hc hm => hc (List.eq_of_mem_replicate hm)
  rw [upgrades_iff _ _ (by decide) ⟨hpath 13 (by decide), hpath 10 (by decide)⟩]
  · rintro ⟨hserver, _⟩
    rw [generateWebSocketKey, arrived, if_pos le_rfl, buildClientUpgradeRequest] at hserver
    simp only [List.length_append, List.length_replicate, maxUpgradeHeaderSize] at hserver
    have hget : (ascii "GET ").length = 4 := by decide
    omega
  · exact List.flatten_cons
  · exact List.flatten_cons

end Scaler.Ymq.WebSocket
