import Scaler.Ymq.WebSocketRoundTrip

/-! However the bytes behind the upgrade are cut into reads, and whatever they are, the frame decoder does what it
does when it gets them in one piece. -/

namespace Scaler.Ymq

open Collections WebSocket

namespace WebSocket

variable {buffer rest : Bytes} {frame : DecodedFrame} {payloadLen size : Nat} (more : Bytes)

theorem getD_append {i : Nat} (h : i < buffer.length) : (buffer ++ more).getD i 0 = buffer.getD i 0 := by
  rw [List.getD_eq_getElem?_getD, List.getD_eq_getElem?_getD, List.getElem?_append_left h]

theorem take_drop_append {i n : Nat} (h : i + n ≤ buffer.length) :
    ((buffer ++ more).drop i).take n = (buffer.drop i).take n := by
  have hdrop : n ≤ (buffer.drop i).length := by
    rw [List.length_drop]
    omega
  rw [List.drop_append_of_le_length (by omega), List.take_append_of_le_length hdrop]

/-- A length that can be read stays what it is when more bytes come. -/
theorem announcedLength_append (hsize : baseHeaderSize ≤ buffer.length)
    (h : announcedLength buffer = some (payloadLen, size)) :
    announcedLength (buffer ++ more) = some (payloadLen, size) ∧ baseHeaderSize ≤ size ∧ size ≤ header64BitSize := by
  have hbyte : (buffer ++ more).getD 1 0 = buffer.getD 1 0 :=
    getD_append more (Nat.lt_of_lt_of_le (by decide) hsize)
  unfold announcedLength at h ⊢
  simp only [hbyte, List.length_append] at h ⊢
  split at h
  · next h16 =>
    split at h
    · cases h
    · next hlong =>
      rw [if_pos h16, if_neg (by omega), take_drop_append more (by unfold header16BitSize at hlong; omega)]
      cases h
      exact ⟨rfl, by decide, by decide⟩
  · next h16 =>
    split at h
    · next h64 =>
      split at h
      · cases h
      · next hlong =>
        rw [if_neg h16, if_pos h64, if_neg (by omega),
          take_drop_append more (by unfold header64BitSize at hlong; omega)]
        cases h
        exact ⟨rfl, by decide, by decide⟩
    · next h64 =>
      rw [if_neg h16, if_neg h64]
      cases h
      exact ⟨rfl, by decide, by decide⟩

/-- The size of a frame does not wrap around. -/
theorem frameSize_mod {header : Nat} (hsize : size ≤ header64BitSize) (hheader : header ≤ size + maskKeySize)
    (hfits : ¬maxVectorSize < payloadLen) : (header + payloadLen) % 2 ^ 64 = header + payloadLen := by
  have hsmall : header ≤ 14 := Nat.le_trans hheader (Nat.add_le_add_right hsize 4)
  unfold maxVectorSize at hfits
  omega

/-- What can be said of a buffer stays what it is when more bytes come behind it. -/
theorem tryDecodeFrame_append (h : tryDecodeFrame buffer ≠ some none) :
    tryDecodeFrame (buffer ++ more) = (tryDecodeFrame buffer).map (Option.map (Prod.map id (· ++ more))) := by
  by_cases hshort : buffer.length < baseHeaderSize
  · rw [tryDecodeFrame, if_pos hshort] at h
    exact absurd rfl h
  have hbase : baseHeaderSize ≤ buffer.length := Nat.le_of_not_lt hshort
  cases hlength : announcedLength buffer with
  | none =>
    rw [tryDecodeFrame, if_neg hshort, hlength] at h
    exact absurd rfl h
  | some announced =>
    obtain ⟨payloadLen, size⟩ := announced
    obtain ⟨hlength', hlow, hhigh⟩ := announcedLength_append more hbase hlength
    have hbyte : ∀ i < 2, (buffer ++ more).getD i 0 = buffer.getD i 0 := fun i hi =>
      getD_append more (Nat.lt_of_lt_of_le hi hbase)
    unfold tryDecodeFrame at h ⊢
    rw [if_neg hshort, hlength] at h
    rw [if_neg hshort, hlength, if_neg (by rw [List.length_append]; omega), hlength']
    simp only [hbyte 0 (by decide), hbyte 1 (by decide), List.length_append] at h ⊢
    generalize hheader : (if buffer.getD 1 0 &&& flagMasked ≠ 0 then size + maskKeySize else size) = header at h ⊢
    split at h
    · exact absurd rfl h
    · next hlong =>
      rw [if_neg (by omega), if_neg hlong]
      split
      · rfl
      · next hfits =>
        have hheader' : header ≤ size + maskKeySize := by
          subst hheader
          split <;> omega
        rw [frameSize_mod hhigh hheader' hfits] at hlong ⊢
        have hbody : ((buffer ++ more).drop header).take payloadLen = (buffer.drop header).take payloadLen :=
          take_drop_append more (Nat.le_of_not_lt hlong)
        rw [hbody, List.drop_append_of_le_length (Nat.le_of_not_lt hlong)]
        split
        · next hmasked =>
          rw [if_pos hmasked] at hheader
          rw [take_drop_append more (by omega)]
          rfl
        · rfl

theorem tryDecodeFrame_length (h : tryDecodeFrame buffer = some (some (frame, rest))) :
    rest.length < buffer.length := by
  unfold tryDecodeFrame at h
  split at h
  · cases h
  · next hbase =>
    split at h
    · cases h
    · next payloadLen size hlength =>
      obtain ⟨-, hlow, hhigh⟩ := announcedLength_append [] (Nat.le_of_not_lt hbase) hlength
      simp only [] at h
      generalize hheader : (if buffer.getD 1 0 &&& flagMasked ≠ 0 then size + maskKeySize else size) = header at h
      have hheader' : size ≤ header ∧ header ≤ size + maskKeySize := by
        subst hheader
        split <;> omega
      split at h
      · cases h
      · split at h
        · cases h
        · next hfits =>
          rw [frameSize_mod hhigh hheader'.2 hfits] at h
          cases h
          have hpos : 0 < header := Nat.lt_of_lt_of_le (by decide : 0 < baseHeaderSize) (Nat.le_trans hlow hheader'.1)
          rw [List.length_drop]
          unfold baseHeaderSize at hbase
          omega

end WebSocket

namespace WebSocketStream

variable {keys : Nat → MaskKey} {s t : WebSocketStream} {buffer rest : Bytes} {frame : DecodedFrame} {n m : Nat}

theorem onFrame_ended (w : WireFrame) : (onFrame keys s w).ended = s.ended := by
  unfold onFrame writeControlFrame transportWrite onDataFrame readCallback ended
  dsimp only
  repeat' split
  all_goals simp [Except.isOk, Except.toBool]

/-- What the loop does when the peer closes. -/
def onClose (keys : Nat → MaskKey) (s : WebSocketStream) : WebSocketStream :=
  (s.writeControlFrame keys opcodeClose []).readCallback (.error .eof)

theorem onClose_ended : (onClose keys s).ended = true := by
  simp [onClose, readCallback, ended, Except.isOk, Except.toBool]

theorem recvLoop_close (hd : tryDecodeFrame buffer = some (some (frame, rest))) (hc : frame.opcode = opcodeClose)
    (ha : s.readActive = true) (n : Nat) :
    recvLoop keys (n + 1) (s.holding buffer) = some ((onClose keys s).holding rest) := by
  have hbuffer : buffer ≠ [] := by
    rintro rfl
    cases hd
  have hne : ¬ ((s.holding buffer).readActive = false ∨ (s.holding buffer).recvBuffer = []) := by
    simp [holding, ha, hbuffer]
  rw [recvLoop, if_neg hne, show (s.holding buffer).recvBuffer = buffer from rfl, hd]
  dsimp only
  rw [if_pos hc]
  rfl

theorem recvLoop_refused (hd : tryDecodeFrame buffer = none) (ha : s.readActive = true) (n : Nat) :
    recvLoop keys (n + 1) (s.holding buffer) = none := by
  have hbuffer : buffer ≠ [] := by
    rintro rfl
    cases hd
  have hne : ¬ ((s.holding buffer).readActive = false ∨ (s.holding buffer).recvBuffer = []) := by
    simp [holding, ha, hbuffer]
  rw [recvLoop, if_neg hne, show (s.holding buffer).recvBuffer = buffer from rfl, hd]

/-- Rounds behind the last frame do nothing. -/
theorem recvLoop_fuel (ha : s.readActive = true) (hn : buffer.length ≤ n) (hm : buffer.length ≤ m) :
    recvLoop keys n (s.holding buffer) = recvLoop keys m (s.holding buffer) := by
  induction n generalizing s buffer m with
  | zero =>
    have hbuffer : buffer = [] := List.eq_nil_of_length_eq_zero (Nat.le_zero.mp hn)
    subst hbuffer
    rw [recvLoop_part rfl, recvLoop_part rfl]
  | succ n ih =>
    rcases hd : tryDecodeFrame buffer with _ | _ | ⟨frame, rest⟩
    · cases m with
      | zero =>
        rw [List.eq_nil_of_length_eq_zero (Nat.le_zero.mp hm)] at hd
        cases hd
      | succ m => rw [recvLoop_refused hd ha, recvLoop_refused hd ha]
    · rw [recvLoop_part hd, recvLoop_part hd]
    · have hshort := tryDecodeFrame_length hd
      obtain ⟨m, rfl⟩ : ∃ k, m = k + 1 := ⟨m - 1, by omega⟩
      by_cases hc : frame.opcode = opcodeClose
      · rw [recvLoop_close hd hc ha, recvLoop_close hd hc ha]
      · rw [recvLoop_taken hd hc ha, recvLoop_taken hd hc ha]
        exact ih ((onFrame_readActive keys s _).trans ha) (by omega) (by omega)

/-- A stream that gets more bytes: it goes on with them, unless its owner has stopped it. -/
def more (keys : Nat → MaskKey) (s : WebSocketStream) (data : Bytes) : Option WebSocketStream :=
  if s.ended then some (s.holding (s.recvBuffer ++ data)) else s.onRead keys data

theorem more_holding (ha : s.readActive = true) (he : s.ended = false) (data : Bytes)
    (hn : (buffer ++ data).length ≤ n) :
    (s.holding buffer).more keys data = recvLoop keys n (s.holding (buffer ++ data)) :=
  (if_neg (ne_true_of_eq_false he)).trans (recvLoop_fuel ha (Nat.le_refl _) hn)

/-- The loop over two pieces at once is the loop over the one and then over the other. -/
theorem recvLoop_append (ha : s.readActive = true) (he : s.ended = false) (data : Bytes)
    (hn : (buffer ++ data).length ≤ n) (hm : buffer.length ≤ m) :
    recvLoop keys n (s.holding (buffer ++ data)) =
      (recvLoop keys m (s.holding buffer)).bind fun t => t.more keys data := by
  induction m generalizing s buffer n with
  | zero =>
    rw [show recvLoop keys 0 (s.holding buffer) = some (s.holding buffer) from rfl, Option.bind_some,
      more_holding ha he data hn]
  | succ m ih =>
    rcases hd : tryDecodeFrame buffer with _ | _ | ⟨frame, rest⟩
    · have happend : tryDecodeFrame (buffer ++ data) = none := by
        rw [tryDecodeFrame_append data (by rw [hd]; simp), hd]
        rfl
      have hpos : (buffer ++ data).length ≠ 0 := fun h => by
        rw [List.eq_nil_of_length_eq_zero h] at happend
        cases happend
      obtain ⟨n, rfl⟩ : ∃ k, n = k + 1 := ⟨n - 1, by omega⟩
      rw [recvLoop_refused happend ha, recvLoop_refused hd ha]
      rfl
    · rw [recvLoop_part hd, Option.bind_some, more_holding ha he data hn]
    · have happend : tryDecodeFrame (buffer ++ data) = some (some (frame, rest ++ data)) := by
        rw [tryDecodeFrame_append data (by rw [hd]; simp), hd]
        rfl
      have hshort := tryDecodeFrame_length happend
      have hshort' := tryDecodeFrame_length hd
      obtain ⟨n, rfl⟩ : ∃ k, n = k + 1 := ⟨n - 1, by omega⟩
      by_cases hc : frame.opcode = opcodeClose
      · rw [recvLoop_close happend hc ha, recvLoop_close hd hc ha, Option.bind_some, more]
        exact (if_pos onClose_ended).symm
      · rw [recvLoop_taken happend hc ha, recvLoop_taken hd hc ha]
        have ha' := (onFrame_readActive keys s ⟨none, frame⟩).trans ha
        have he' : (onFrame keys s ⟨none, frame⟩).ended = false := (onFrame_ended _).trans he
        exact ih ha' he' (by omega) (by omega)

theorem recvLoop_readActive (ha : s.readActive = true) (h : recvLoop keys n s = some t) : t.readActive = true := by
  induction n generalizing s with
  | zero =>
    cases h
    exact ha
  | succ n ih =>
    change recvLoop keys (n + 1) (s.holding s.recvBuffer) = some t at h
    rcases hd : tryDecodeFrame s.recvBuffer with _ | _ | ⟨frame, rest⟩
    · rw [recvLoop_refused hd ha] at h
      cases h
    · rw [recvLoop_part hd] at h
      cases h
      exact ha
    · by_cases hc : frame.opcode = opcodeClose
      · rw [recvLoop_close hd hc ha] at h
        cases h
        exact ha
      · rw [recvLoop_taken hd hc ha] at h
        have ha' := (onFrame_readActive keys s ⟨none, frame⟩).trans ha
        exact ih (s := (onFrame keys s ⟨none, frame⟩).holding rest) ha' h

/-- Two runs that hand the same to their owner. Once it is told of an error it looks at neither buffer. -/
def Agree : Option WebSocketStream → Option WebSocketStream → Prop
  | none, none => True
  | some s, some t => s.holding [] = t.holding [] ∧ (t.ended = false → s = t)
  | _, _ => False

theorem Agree.rfl : ∀ {run : Option WebSocketStream}, Agree run run
  | none => trivial
  | some _ => ⟨Eq.refl _, fun _ => Eq.refl _⟩

theorem foldl_onFrame_ended (frames : List WireFrame) (s : WebSocketStream) :
    (frames.foldl (onFrame keys) s).ended = s.ended := by
  induction frames generalizing s with
  | nil => rfl
  | cons w frames ih => rw [List.foldl_cons, ih, onFrame_ended]

/-- A run that agrees with the read of frames in one piece has handled them all. -/
theorem Agree.frames {run : Option WebSocketStream} {frames : List WireFrame}
    (h : Agree run (s.onRead keys (frames.flatMap WireFrame.encode)))
    (hf : ∀ w ∈ frames, w.Fits ∧ w.frame.opcode ≠ opcodeClose) (ha : s.readActive = true)
    (hb : s.recvBuffer = []) (he : s.ended = false) : run = some ((frames.foldl (onFrame keys) s).holding []) := by
  have hone : s.onRead keys (frames.flatMap WireFrame.encode) = some ((frames.foldl (onFrame keys) s).holding []) := by
    have hall : [frames.flatMap WireFrame.encode].foldlM (fun s data => s.onRead keys data) s =
        some ((frames.foldl (onFrame keys) s).holding []) :=
      foldlM_onRead_all hf ha hb List.flatten_singleton
    rw [List.foldlM_cons] at hall
    exact (Option.bind_fun_some _).symm.trans hall
  rw [hone] at h
  cases run with
  | none => exact h.elim
  | some t => exact congrArg some (h.2 ((foldl_onFrame_ended frames s).trans he))

theorem reads_cons (he : s.ended = false) (piece : Bytes) (pieces : List Bytes) :
    s.reads keys (piece :: pieces) = (s.onRead keys piece).bind fun t => t.reads keys pieces := by
  rw [reads, List.foldlM_cons, if_neg (ne_true_of_eq_false he)]
  rfl

theorem reads_ended (he : s.ended = true) (pieces : List Bytes) : s.reads keys pieces = some s := by
  induction pieces with
  | nil => rfl
  | cons piece pieces ih =>
    rw [reads, List.foldlM_cons, if_pos he]
    exact ih

theorem reads_append (pieces pieces' : List Bytes) :
    s.reads keys (pieces ++ pieces') = (s.reads keys pieces).bind fun t => t.reads keys pieces' :=
  List.foldlM_append

/-- What the owner is told does not depend on how the bytes are cut. -/
theorem reads_agree (ha : s.readActive = true) (he : s.ended = false) (piece : Bytes) (pieces : List Bytes) :
    Agree (s.reads keys (piece :: pieces)) (s.onRead keys (piece ++ pieces.flatten)) := by
  induction pieces generalizing s piece with
  | nil =>
    rw [reads_cons he, List.flatten_nil, List.append_nil]
    have hnil : ((s.onRead keys piece).bind fun t => t.reads keys []) = s.onRead keys piece :=
      Option.bind_fun_some _
    rw [hnil]
    exact .rfl
  | cons next pieces ih =>
    have happend : s.onRead keys (piece ++ (next ++ pieces.flatten)) =
        (s.onRead keys piece).bind fun t => t.more keys (next ++ pieces.flatten) := by
      change recvLoop keys _ (s.holding (s.recvBuffer ++ (piece ++ (next ++ pieces.flatten)))) = _
      rw [← List.append_assoc]
      exact recvLoop_append ha he _ (Nat.le_refl _) (Nat.le_refl _)
    rw [reads_cons he, List.flatten_cons, happend]
    cases hread : s.onRead keys piece with
    | none => trivial
    | some t =>
      rw [Option.bind_some, Option.bind_some, more]
      cases hended : t.ended with
      | true =>
        rw [reads_ended hended]
        exact ⟨Eq.refl _, fun h => absurd hended (ne_true_of_eq_false h)⟩
      | false =>
        have hactive : t.readActive = true := recvLoop_readActive (s := s.holding (s.recvBuffer ++ piece)) ha hread
        exact ih hactive hended next

/-- The drain of `readStart` is a read of nothing. -/
theorem readStart_eq (early : List Bytes) :
    s.readStart keys early = { s with readActive := true }.reads keys (early ++ [[]]) := by
  rw [readStart, reads_append]
  refine congrArg _ (funext fun t => ?_)
  cases hended : t.ended with
  | true => rw [if_pos rfl, reads_ended hended]
  | false =>
    rw [if_neg (by simp), reads_cons hended]
    have hnil : t.onRead keys [] = t.processRecvBuffer keys := by rw [onRead, List.append_nil]
    rw [hnil]
    exact (Option.bind_fun_some _).symm

/-- What the frame decoder does with the bytes left from the upgrade, the reads that the transport makes at
once and the later ones is what it does with all these bytes in one piece. -/
theorem readStart_agree (role : Role) (left : Bytes) (early later : List Bytes) :
    Agree (((⟨role, left, [], false, [], []⟩ : WebSocketStream).readStart keys early).bind fun s => s.reads keys later)
      ((opened role).onRead keys (left ++ (early ++ later).flatten)) := by
  rw [readStart_eq, ← reads_append]
  have hone : ∀ data : Bytes, (opened role).onRead keys (left ++ data) =
      ((opened role).holding left).onRead keys data := fun _ => rfl
  rw [hone]
  cases early with
  | nil => exact reads_agree rfl rfl [] later
  | cons piece early =>
    have hpieces : piece :: early ++ [[]] ++ later = piece :: (early ++ [] :: later) := by simp
    have hbytes : (piece :: early ++ later).flatten = piece ++ (early ++ [] :: later).flatten := by simp
    rw [hpieces, hbytes]
    exact reads_agree (s := (opened role).holding left) rfl rfl piece (early ++ [] :: later)

end WebSocketStream

end Scaler.Ymq
