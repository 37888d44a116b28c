import AgzRustMcp.Lsp.Frames

/-!
# What the frame decoder makes of a stream of messages

`find_header_end` finds the end of a written header as soon as it is there, and
`parse_content_length` returns the length that was written.  `Stands` says which messages of a
stream are still to come; `decodeAvailable` returns the results that are due, as many as there is
room for.
-/

namespace AgzRustMcp.Lsp

open Utf8Text

/-! ## Headers -/

def headerLine (length : ℕ) : List UInt8 := bytesOf s!"Content-Length: {length}"

lemma bytesOf_eq (text : String) : bytesOf text = text.toList.flatMap String.utf8EncodeChar := by
  have hencode : (String.ofList text.toList).toByteArray = text.toList.utf8Encode :=
    String.toByteArray_ofList
  rw [String.ofList_toList] at hencode
  rw [bytesOf, hencode, List.utf8Encode]
  exact List.toList_data_toByteArray

lemma frameHeader_eq (length : ℕ) : frameHeader length = headerLine length ++ headerEnd := by
  simp only [frameHeader, headerLine, bytesOf_eq, String.toList_append, List.flatMap_append]
  congr 1

lemma toList_headerLine (length : ℕ) :
    (s!"Content-Length: {length}").toList = "Content-Length: ".toList ++ Nat.toDigits 10 length := by
  simp [toString, Nat.repr]

lemma notMem_headerLine (length : ℕ) : (13 : UInt8) ∉ headerLine length := by
  rw [headerLine, bytesOf_eq, toList_headerLine, List.flatMap_append, List.mem_append, not_or]
  refine ⟨by decide, fun hmem => ?_⟩
  obtain ⟨c, hc, hbyte⟩ := List.mem_flatMap.mp hmem
  obtain ⟨d, hd, rfl⟩ := Numerals.exists_of_mem_toDigits (by norm_num) (by norm_num) hc
  interval_cases d <;> exact absurd hbyte (by decide)

lemma length_frameHeader_le {length : ℕ} (h : length < 2 ^ 63) : (frameHeader length).length ≤ 40 := by
  have hdigits : ((Nat.toDigits 10 length).flatMap String.utf8EncodeChar).length ≤ 20 := by
    have hone : ∀ c ∈ Nat.toDigits 10 length, (String.utf8EncodeChar c).length ≤ 1 := by
      intro c hc
      obtain ⟨d, hd, rfl⟩ := Numerals.exists_of_mem_toDigits (by norm_num) (by norm_num) hc
      interval_cases d <;> decide
    have hcount : (Nat.toDigits 10 length).length ≤ 20 :=
      (Nat.length_toDigits_le_iff (by norm_num) (by norm_num)).mpr (h.trans (by norm_num))
    calc ((Nat.toDigits 10 length).flatMap String.utf8EncodeChar).length
        ≤ (Nat.toDigits 10 length).length * 1 := by
          rw [List.length_flatMap]
          have hsum := List.sum_le_card_nsmul
            ((Nat.toDigits 10 length).map fun c => (String.utf8EncodeChar c).length) 1
            (by simpa using hone)
          simpa using hsum
      _ ≤ 20 := by omega
  have hstem : ("Content-Length: ".toList.flatMap String.utf8EncodeChar).length = 16 := by decide
  rw [frameHeader_eq, headerLine, bytesOf_eq, toList_headerLine, List.flatMap_append]
  simp only [List.length_append, hstem, headerEnd, List.length_cons, List.length_nil]
  omega

lemma isPrefixOf_headerEnd_cons {b : UInt8} (h : ¬ 13 = b) (rest : List UInt8) :
    headerEnd.isPrefixOf (b :: rest) = false := by
  have hne : ((13 : UInt8) == b) = false := by simpa using h
  rw [headerEnd, List.isPrefixOf_cons_cons, hne, Bool.false_and]

lemma findHeaderEnd_append {line : List UInt8} (h : 13 ∉ line) (rest : List UInt8) :
    findHeaderEnd (line ++ headerEnd ++ rest) = some line.length := by
  induction line with
  | nil => simp [findHeaderEnd, findWindow, headerEnd]
  | cons b line ih =>
    simp only [List.mem_cons, not_or] at h
    have hnot := isPrefixOf_headerEnd_cons h.1 (line ++ headerEnd ++ rest)
    have hrec := ih h.2
    simp only [findHeaderEnd] at hrec
    simp only [List.cons_append, findHeaderEnd, findWindow, hnot, hrec]
    simp

lemma findHeaderEnd_eq_none {line buffer rest : List UInt8} (h : 13 ∉ line)
    (heq : buffer ++ rest = line ++ headerEnd) (hrest : rest ≠ []) : findHeaderEnd buffer = none := by
  induction line generalizing buffer with
  | nil =>
    have hlen := congrArg List.length heq
    have hpos : 0 < rest.length := List.length_pos_iff.mpr hrest
    have hshort : buffer.length < 4 := by
      simp only [List.length_append, headerEnd, List.length_nil, List.length_cons] at hlen
      omega
    have hwindow : ∀ b : List UInt8, b.length < 4 → findHeaderEnd b = none := by
      intro b hb
      match b, hb with
      | [], _ => rfl
      | [_], _ => simp [findHeaderEnd, findWindow, headerEnd]
      | [_, _], _ => simp [findHeaderEnd, findWindow, headerEnd]
      | [_, _, _], _ => simp [findHeaderEnd, findWindow, headerEnd]
    exact hwindow buffer hshort
  | cons b line ih =>
    simp only [List.mem_cons, not_or] at h
    cases buffer with
    | nil => rfl
    | cons c buffer =>
      simp only [List.cons_append, List.cons.injEq] at heq
      obtain ⟨rfl, heq⟩ := heq
      have hnot := isPrefixOf_headerEnd_cons h.1 buffer
      have hrec := ih h.2 heq
      simp only [findHeaderEnd] at hrec ⊢
      simp [findWindow, hnot, hrec]

lemma splitCrlf_eq_singleton {text : Text} (h : '\r' ∉ text) : splitCrlf text = [text] := by
  induction text with
  | nil => rfl
  | cons c text ih =>
    simp only [List.mem_cons, not_or] at h
    rw [splitCrlf.eq_3 _ _ fun _ hc _ => h.1 hc.symm, ih h.2]

lemma splitOnce_append {c : Char} {name : Text} (h : c ∉ name) (value : Text) :
    splitOnce c (name ++ c :: value) = some (name, value) := by
  have hname : ∀ d ∈ name, (decide (d ≠ c)) = true :=
    fun d hd => decide_eq_true fun heq => h (heq ▸ hd)
  rw [splitOnce, if_pos (by simp), List.takeWhile_append_of_pos hname, List.dropWhile_append_of_pos hname]
  simp

lemma trim_space_toDigits (n : ℕ) : trim (' ' :: Nat.toDigits 10 n) = Nat.toDigits 10 n := by
  have hdigit : ∀ c ∈ Nat.toDigits 10 n, isWhitespace c = false := by
    intro c hc
    obtain ⟨d, hd, rfl⟩ := Numerals.exists_of_mem_toDigits (by norm_num) (by norm_num) hc
    interval_cases d <;> decide
  have hkeep : ∀ t : Text, (∀ c ∈ t, isWhitespace c = false) → t.dropWhile isWhitespace = t := by
    intro t ht
    cases t with
    | nil => rfl
    | cons c t => simp [List.dropWhile, ht c List.mem_cons_self]
  have hspace : isWhitespace ' ' = true := by decide
  rw [trim, List.dropWhile_cons_of_pos hspace, hkeep _ hdigit,
    hkeep _ fun c hc => hdigit c (List.mem_reverse.mp hc), List.reverse_reverse]

lemma parseContentLength_headerLine {length : ℕ} (h : length < 2 ^ 63) :
    parseContentLength (headerLine length) = .ok length := by
  have htext : decodeUtf8? ⟨(headerLine length).toArray⟩ =
      some ("Content-Length: ".toList ++ Nat.toDigits 10 length) := by
    have hencode : (⟨(headerLine length).toArray⟩ : ByteArray) =
        encodeUtf8 (s!"Content-Length: {length}").toList := by
      rw [encodeUtf8, String.ofList_toList, headerLine, bytesOf, Array.toArray_toList]
    rw [hencode, decodeUtf8?_encodeUtf8, toList_headerLine]
  have hsplit : splitCrlf ("Content-Length: ".toList ++ Nat.toDigits 10 length) =
      ["Content-Length: ".toList ++ Nat.toDigits 10 length] := by
    refine splitCrlf_eq_singleton fun hmem => ?_
    rcases List.mem_append.mp hmem with hmem | hmem
    · exact absurd hmem (by decide)
    · exact absurd (Nat.isDigit_of_mem_toDigits (by norm_num) (by norm_num) hmem) (by decide)
  have hvalue : contentLengthValue (' ' :: Nat.toDigits 10 length) = .ok length := by
    have hall : (Nat.toDigits 10 length).all (·.isDigit) = true :=
      List.all_eq_true.mpr fun c hc => Nat.isDigit_of_mem_toDigits (by norm_num) (by norm_num) hc
    have hle : length ≤ u64Max := by
      have := h.trans (by norm_num : (2 : ℕ) ^ 63 < 2 ^ 64)
      unfold u64Max
      omega
    simp only [contentLengthValue, trim_space_toDigits, Nat.toDigits_ne_nil, hall,
      Nat.ofDigitChars_ten_toDigits, not_true_eq_false, or_self, if_false, if_neg (not_lt.mpr hle)]
  have hline : "Content-Length: ".toList ++ Nat.toDigits 10 length =
      "Content-Length".toList ++ ':' :: ' ' :: Nat.toDigits 10 length := rfl
  have hname : "Content-Length".toList.map Char.toLower = "content-length".toList := by decide
  have honce : splitOnce ':' ("Content-Length: ".toList ++ Nat.toDigits 10 length) =
      some ("Content-Length".toList, ' ' :: Nat.toDigits 10 length) := by
    rw [hline]
    exact splitOnce_append (by decide) _
  rw [parseContentLength, htext]
  dsimp only
  rw [hsplit]
  simp only [contentLengthFrom, honce, hname, hvalue]
  simp

/-! ## Messages in a stream -/

variable {V : Type} {fromStr : Text → Except String V} {m : ℕ}

/-- The number of bytes of a message in the stream. -/
def Message.size (message : Message fromStr) : ℕ := (encodeFrame message.body).length

def Message.IsOver (message : Message fromStr) (m : ℕ) : Prop := message.body.length > max m 1

instance (message : Message fromStr) (m : ℕ) : Decidable (message.IsOver m) :=
  inferInstanceAs (Decidable (_ > _))

/-- The number of bytes of a message after which its result is due. -/
def Message.point (message : Message fromStr) (m : ℕ) : ℕ :=
  if message.IsOver m then (frameHeader message.body.length).length else message.size

/-- The number of results that are due after a number of bytes. -/
def due (m : ℕ) : List (Message fromStr) → ℕ → ℕ
  | [], _ => 0
  | message :: messages, bytes =>
    if bytes < message.point m then 0 else due m messages (bytes - message.size) + 1

def bufferBytes (m : ℕ) : ℕ := (FrameLimits.new m).maxBufferBytes

lemma Message.size_eq (message : Message fromStr) :
    message.size = (frameHeader message.body.length).length + message.body.length :=
  List.length_append

lemma Message.header_le_point (message : Message fromStr) :
    (frameHeader message.body.length).length ≤ message.point m := by
  unfold point
  split
  · exact le_rfl
  · rw [message.size_eq]
    exact Nat.le_add_right _ _

lemma frameHeader_pos (length : ℕ) : 0 < (frameHeader length).length := by
  rw [frameHeader_eq, List.length_append, headerEnd]
  simp

lemma Message.point_add_le (message : Message fromStr) : message.point m + 8152 ≤ bufferBytes m := by
  have hheader := length_frameHeader_le message.length_lt
  have hlt := message.length_lt
  have hu : u64Max = 18446744073709551615 := by norm_num [u64Max]
  have hsize := message.size_eq
  norm_num at hlt
  simp only [bufferBytes, FrameLimits.new, saturatingAdd, defaultMaxHeaderBytes, hu]
  by_cases hover : message.IsOver m
  · rw [point, if_pos hover]
    omega
  · rw [point, if_neg hover]
    unfold IsOver at hover
    omega

@[simp] lemma due_zero (messages : List (Message fromStr)) : due m messages 0 = 0 := by
  cases messages with
  | nil => rfl
  | cons message messages =>
    have hpos := (frameHeader_pos message.body.length).trans_le (message.header_le_point (m := m))
    rw [due, if_pos hpos]

lemma due_mono (messages : List (Message fromStr)) {a b : ℕ} (h : a ≤ b) : due m messages a ≤ due m messages b := by
  induction messages generalizing a b with
  | nil => exact le_rfl
  | cons message messages ih =>
    unfold due
    split
    · exact Nat.zero_le _
    · rw [if_neg (by omega)]
      exact Nat.succ_le_succ (ih (Nat.sub_le_sub_right h _))

lemma due_le_length (messages : List (Message fromStr)) (a : ℕ) : due m messages a ≤ messages.length := by
  induction messages generalizing a with
  | nil => exact le_rfl
  | cons message messages ih =>
    unfold due
    split
    · exact Nat.zero_le _
    · exact Nat.succ_le_succ (ih _)

@[simp] lemma streamOf_cons (message : Message fromStr) (messages : List (Message fromStr)) :
    streamOf (message :: messages) = encodeFrame message.body ++ streamOf messages := rfl

lemma streamOf_append (messages more : List (Message fromStr)) :
    streamOf (messages ++ more) = streamOf messages ++ streamOf more := List.flatMap_append

lemma due_drop {messages : List (Message fromStr)} {n a : ℕ} (h : n ≤ due m messages a) :
    due m (messages.drop n) (a - (streamOf (messages.take n)).length) = due m messages a - n := by
  induction n generalizing messages a with
  | zero => simp [streamOf]
  | succ n ih =>
    cases messages with
    | nil => simp [due] at h
    | cons message messages =>
      unfold due at h
      split at h
      · simp at h
      next hlt =>
        have hrec := ih (Nat.le_of_succ_le_succ h)
        rw [due, if_neg hlt, List.drop_succ_cons, List.take_succ_cons, streamOf_cons,
          List.length_append, Nat.add_sub_add_right, ← hrec, Nat.sub_sub]
        rfl

lemma due_streamOf (messages : List (Message fromStr)) :
    due m messages (streamOf messages).length = messages.length := by
  induction messages with
  | nil => rfl
  | cons message messages ih =>
    have hpoint : message.point m ≤ message.size := by
      unfold Message.point
      split
      · rw [message.size_eq]
        exact Nat.le_add_right _ _
      · exact le_rfl
    have hlen : (streamOf (message :: messages)).length = message.size + (streamOf messages).length := by
      rw [streamOf_cons, List.length_append]
      rfl
    rw [due, hlen, if_neg (by omega), Nat.add_sub_cancel_left, ih, List.length_cons]

/-! ## Where a decoder stands -/

/-- What is buffered or to come: the rest of a body, and the messages. -/
def Stands (m : ℕ) (decoder : FrameDecoder) (future : List UInt8) (messages : List (Message fromStr)) : Prop :=
  decoder.toFrameLimits = FrameLimits.new m ∧ ∃ gap : List UInt8, decoder.discardBody.getD 0 = gap.length ∧
      decoder.buffer ++ future = gap ++ streamOf messages

/-- Nothing is buffered of a body to skip. -/
def FrameDecoder.Settled (decoder : FrameDecoder) : Prop :=
  decoder.discardBody.getD 0 = 0 ∨ decoder.buffer = []

variable {decoder : FrameDecoder} {future : List UInt8} {messages : List (Message fromStr)}

lemma Stands.length_eq (h : Stands m decoder future messages) :
    decoder.buffer.length + future.length = decoder.discardBody.getD 0 + (streamOf messages).length := by
  obtain ⟨-, gap, hgap, heq⟩ := h
  simpa [hgap] using congrArg List.length heq

lemma Stands.discard (h : Stands m decoder future messages) : Stands m decoder.discard future messages := by
  obtain ⟨hlimits, gap, hgap, heq⟩ := h
  unfold FrameDecoder.discard
  split
  · exact ⟨hlimits, gap, hgap, heq⟩
  next remaining hsome =>
    rw [hsome, Option.getD_some] at hgap
    refine ⟨hlimits, gap.drop (min remaining decoder.buffer.length), ?_, ?_⟩
    · rw [List.length_drop, ← hgap]
      dsimp only
      split
      · rfl
      · simp only [Option.getD_none]
        omega
    · have hdrop := congrArg (List.drop (min remaining decoder.buffer.length)) heq
      rwa [List.drop_append_of_le_length (Nat.min_le_right _ _), List.drop_append_of_le_length (by omega)] at hdrop

lemma settled_discard (decoder : FrameDecoder) : decoder.discard.Settled := by
  unfold FrameDecoder.discard FrameDecoder.Settled
  split
  next hnone => exact Or.inl (by simp [hnone])
  next remaining hsome =>
    by_cases hle : remaining ≤ decoder.buffer.length
    · left
      simp [min_eq_left hle]
    · right
      simp [min_eq_right (by omega : decoder.buffer.length ≤ remaining)]

lemma buffer_of_discard_isSome (h : decoder.discard.discardBody.isSome = true) : decoder.discard.buffer = [] := by
  unfold FrameDecoder.discard at h ⊢
  split at h
  next hnone => simp [hnone] at h
  next remaining hsome =>
    by_cases hle : remaining ≤ decoder.buffer.length
    · simp [min_eq_left hle] at h
    · simp [min_eq_right (by omega : decoder.buffer.length ≤ remaining)]

lemma buffer_cases {message : Message fromStr} {buffer : List UInt8}
    (h : buffer ++ future = encodeFrame message.body ++ streamOf messages) :
    (∃ rest ≠ [], buffer ++ rest = frameHeader message.body.length) ∨
      ∃ tail, buffer = frameHeader message.body.length ++ tail ∧
        tail ++ future = message.body ++ streamOf messages := by
  rw [encodeFrame, List.append_assoc] at h
  rcases List.append_eq_append_iff.mp h with ⟨rest, hheader, hfuture⟩ | ⟨tail, hbuffer, hrest⟩
  · cases rest with
    | nil =>
      refine Or.inr ⟨[], ?_, ?_⟩
      · simpa using hheader.symm
      · simpa using hfuture
    | cons b rest => exact Or.inl ⟨b :: rest, List.cons_ne_nil _ _, hheader.symm⟩
  · exact Or.inr ⟨tail, hbuffer, hrest.symm⟩

lemma decodeNext_of_header {message : Message fromStr}
    (hlimits : decoder.toFrameLimits = FrameLimits.new m) {rest : List UInt8} (hrest : rest ≠ [])
    (h : decoder.buffer ++ rest = frameHeader message.body.length) : decoder.decodeNext fromStr = none := by
  have hnone : findHeaderEnd decoder.buffer = none :=
    findHeaderEnd_eq_none (notMem_headerLine _) (h.trans (frameHeader_eq _)) hrest
  have hlen := congrArg List.length h
  rw [List.length_append] at hlen
  have hheader := length_frameHeader_le message.length_lt
  have hmax : decoder.maxHeaderBytes = 8192 := by rw [hlimits]; rfl
  rw [FrameDecoder.decodeNext, hnone]
  dsimp only
  rw [if_neg (by omega)]

lemma decodeNext_of_append {message : Message fromStr} {tail : List UInt8}
    (hlimits : decoder.toFrameLimits = FrameLimits.new m)
    (hbuffer : decoder.buffer = frameHeader message.body.length ++ tail) : decoder.decodeNext fromStr =
      if message.IsOver m then
        some (if message.body.length ≤ tail.length then
            { decoder with buffer := tail.drop message.body.length, discardBody := none }
          else
            { decoder with buffer := [], discardBody := some (message.body.length - tail.length) },
          .error .bodyTooLarge)
      else if tail.length < message.body.length then none
      else some ({ decoder with buffer := tail.drop message.body.length },
        decodeBody fromStr (tail.take message.body.length)) := by
  have hlt := message.length_lt
  have hheader := length_frameHeader_le hlt
  have hline : (headerLine message.body.length).length + 4 = (frameHeader message.body.length).length := by
    rw [frameHeader_eq, List.length_append]
    rfl
  have hu : u64Max = 18446744073709551615 := by norm_num [u64Max]
  have hmax : decoder.maxHeaderBytes = 8192 := by rw [hlimits]; rfl
  have hbound : decoder.maxBodyBytes = max m 1 := by rw [hlimits]; rfl
  have hfind : findHeaderEnd decoder.buffer = some (headerLine message.body.length).length := by
    rw [hbuffer, frameHeader_eq]
    exact findHeaderEnd_append (notMem_headerLine _) tail
  have htake : decoder.buffer.take (headerLine message.body.length).length = headerLine message.body.length := by
    rw [hbuffer, frameHeader_eq, List.append_assoc, List.take_left]
  have hdrop : ∀ k, decoder.buffer.drop ((frameHeader message.body.length).length + k) =
      tail.drop k := fun k => by rw [hbuffer, List.drop_length_add_append]
  have hlen : decoder.buffer.length = (frameHeader message.body.length).length + tail.length := by
    rw [hbuffer, List.length_append]
  norm_num at hlt
  rw [FrameDecoder.decodeNext, hfind]
  dsimp only
  rw [if_neg (by omega), htake, parseContentLength_headerLine message.length_lt]
  dsimp only
  have hdrop0 := hdrop 0
  rw [Nat.add_zero, List.drop_zero] at hdrop0
  rw [hline, hbound, hlen, hdrop, hdrop0, Nat.add_sub_cancel_left]
  by_cases hover : message.IsOver m
  · have hgt : message.body.length > max m 1 := hover
    rw [if_pos hover, if_pos hgt]
    by_cases hle : message.body.length ≤ tail.length
    · rw [if_pos hle, if_pos hle, if_pos (by omega)]
    · rw [if_neg hle, if_neg hle]
  · have hgt : ¬ message.body.length > max m 1 := hover
    rw [if_neg hover, if_neg hgt, if_neg (by omega)]
    by_cases hshort : tail.length < message.body.length
    · rw [if_pos hshort, if_pos (by omega)]
    · rw [if_neg hshort, if_neg (by omega)]

lemma Stands.decodeNext {message : Message fromStr}
    (h : Stands m decoder future (message :: messages)) (hnone : decoder.discardBody = none) :
    (decoder.buffer.length < message.point m ∧ decoder.decodeNext fromStr = none) ∨
      message.point m ≤ decoder.buffer.length ∧ ∃ next, decoder.decodeNext fromStr = some (next, message.result m) ∧
          Stands m next future messages ∧ next.Settled := by
  obtain ⟨hlimits, gap, hgap, heq⟩ := h
  obtain rfl : gap = [] := List.length_eq_zero_iff.mp (by rw [← hgap, hnone]; rfl)
  rw [List.nil_append, streamOf_cons] at heq
  have hpoint := message.header_le_point (m := m)
  rcases buffer_cases heq with ⟨rest, hrest, hheader⟩ | ⟨tail, hbuffer, htail⟩
  · left
    have hlen := congrArg List.length hheader
    have hpos := List.length_pos_iff.mpr hrest
    rw [List.length_append] at hlen
    exact ⟨by omega, decodeNext_of_header hlimits hrest hheader⟩
  have hnext := decodeNext_of_append hlimits hbuffer
  have hlen : decoder.buffer.length = (frameHeader message.body.length).length + tail.length := by
    rw [hbuffer, List.length_append]
  by_cases hover : message.IsOver m
  · right
    have hresult : message.result m = .error .bodyTooLarge := if_pos hover
    rw [if_pos hover] at hnext
    refine ⟨by rw [Message.point, if_pos hover]; omega, _, hnext.trans (by rw [hresult]), ?_⟩
    by_cases hle : message.body.length ≤ tail.length
    · rw [if_pos hle]
      refine ⟨⟨hlimits, [], rfl, ?_⟩, Or.inl rfl⟩
      have hdrop := congrArg (List.drop message.body.length) htail
      rwa [List.drop_append_of_le_length hle, List.drop_left] at hdrop
    · rw [if_neg hle]
      refine ⟨⟨hlimits, message.body.drop tail.length, ?_, ?_⟩, Or.inr rfl⟩
      · exact (List.length_drop).symm
      · have hdrop := congrArg (List.drop tail.length) htail
        rwa [List.drop_left, List.drop_append_of_le_length (by omega)] at hdrop
  · have hsize : message.point m = message.size := by rw [Message.point, if_neg hover]
    have hsum := message.size_eq
    rw [if_neg hover] at hnext
    by_cases hshort : tail.length < message.body.length
    · left
      rw [if_pos hshort] at hnext
      exact ⟨by omega, hnext⟩
    · right
      rw [if_neg hshort] at hnext
      have hbody : tail.take message.body.length = message.body := by
        have htake := congrArg (List.take message.body.length) htail
        rwa [List.take_append_of_le_length (by omega), List.take_left] at htake
      have hresult : message.result m = .ok message.value := if_neg hover
      rw [hbody, message.parses, ← hresult] at hnext
      refine ⟨by omega, _, hnext, ⟨hlimits, [], ?_, ?_⟩, ?_⟩
      · rw [show ({ decoder with buffer := tail.drop message.body.length } :
          FrameDecoder).discardBody = none from hnone]
        rfl
      · have hdrop := congrArg (List.drop message.body.length) htail
        rwa [List.drop_append_of_le_length (by omega), List.drop_left] at hdrop
      · exact Or.inl (by simp [hnone])

lemma Stands.decodeNext_nil (h : Stands m decoder future ([] : List (Message fromStr)))
    (hnone : decoder.discardBody = none) : decoder.decodeNext fromStr = none := by
  obtain ⟨hlimits, gap, hgap, heq⟩ := h
  obtain rfl : gap = [] := List.length_eq_zero_iff.mp (by rw [← hgap, hnone]; rfl)
  have hbuffer : decoder.buffer = [] := (List.append_eq_nil_iff.mp heq).1
  simp [FrameDecoder.decodeNext, hbuffer, findHeaderEnd, findWindow]

/-- The number of results that are due before what is still to come. -/
def dueBefore (m : ℕ) (messages : List (Message fromStr)) (future : List UInt8) : ℕ :=
  due m messages ((streamOf messages).length - future.length)

lemma Stands.decodeAvailable (h : Stands m decoder future messages) (slots : ℕ) :
    let n := min slots (dueBefore m messages future)
    let out := decoder.decodeAvailable fromStr slots
    out.2.1 = (messages.take n).map (·.result m) ∧ Stands m out.1 future (messages.drop n) ∧
      (0 < slots → out.1.Settled) := by
  induction slots generalizing decoder messages with
  | zero => simpa [FrameDecoder.decodeAvailable] using h
  | succ slots ih =>
    have hdiscard := h.discard
    have hlen := hdiscard.length_eq
    intro n out
    by_cases hsome : decoder.discard.discardBody.isSome = true
    · -- All that is there is skipped, so nothing is due.
      have hempty := buffer_of_discard_isSome hsome
      have hn : n = 0 := by
        have hzero : (streamOf messages).length - future.length = 0 := by
          rw [hempty, List.length_nil] at hlen
          omega
        simp [n, dueBefore, hzero]
      have hout : out.1 = decoder.discard ∧ out.2.1 = [] := by
        simp only [out, FrameDecoder.decodeAvailable, if_pos hsome, and_self]
      rw [hout.1, hout.2, hn]
      exact ⟨rfl, hdiscard, fun _ => Or.inr hempty⟩
    · have hnone : decoder.discard.discardBody = none := by simpa using hsome
      have hbytes : (streamOf messages).length - future.length = decoder.discard.buffer.length := by
        rw [hnone, Option.getD_none] at hlen
        omega
      have hstop : decoder.discard.decodeNext fromStr = none → n = 0 → out.2.1 = (messages.take n).map (·.result m) ∧
            Stands m out.1 future (messages.drop n) ∧ (0 < slots + 1 → out.1.Settled) := by
        intro hnext hn
        have hout : out.1 = decoder.discard ∧ out.2.1 = [] := by
          simp only [out, FrameDecoder.decodeAvailable, if_neg hsome, hnext, and_self]
        rw [hout.1, hout.2, hn]
        exact ⟨rfl, hdiscard, fun _ => settled_discard decoder⟩
      cases messages with
      | nil => exact hstop (hdiscard.decodeNext_nil hnone) (by simp [n, dueBefore, due])
      | cons message messages =>
        rcases hdiscard.decodeNext hnone with ⟨hshort, hnext⟩ | ⟨hpoint, next, hnext, hnextStands, hnextSettled⟩
        · exact hstop hnext (by simp only [n, dueBefore, hbytes, due, if_pos hshort]; simp)
        · have hdue : dueBefore m (message :: messages) future = dueBefore m messages future + 1 := by
            have hrest : (streamOf (message :: messages)).length - future.length - message.size =
                (streamOf messages).length - future.length := by
              rw [streamOf_cons, List.length_append]
              simp only [Message.size]
              omega
            rw [dueBefore, due, if_neg (by omega), hrest]
            rfl
          obtain ⟨hresults, hstands, hsettled⟩ := ih hnextStands
          have hout : out = ((next.decodeAvailable fromStr slots).1,
              message.result m :: (next.decodeAvailable fromStr slots).2.1, true) := by
            simp only [out, FrameDecoder.decodeAvailable, if_neg hsome, hnext]
          have hn : n = min slots (dueBefore m messages future) + 1 := by
            simp only [n, hdue]
            omega
          rw [hout, hn]
          refine ⟨by simp [hresults], by simpa using hstands, fun _ => ?_⟩
          rcases Nat.eq_zero_or_pos slots with rfl | hpos
          · exact hnextSettled
          · exact hsettled hpos

end AgzRustMcp.Lsp
