import AgzRustMcp.Process.Output

/-!
# Output does not depend on where it was read

The decoder keeps what it cannot read yet, the sanitizer keeps its state, and a tail is cut again
when more text comes.  `Collected` says what a collector holds after some events in terms of the
whole streams, wherever the reads were cut.
-/

namespace AgzRustMcp.Output

open String (utf8Len)
open Utf8Text

/-! ## The stages -/

lemma decodeLoop_eq (input : List UInt8) : decodeLoop input = some (readable input) := by
  induction hn : input.length using Nat.strong_induction_on generalizing input with
  | _ n ih =>
    rcases eq_or_ne input [] with rfl | hne
    · simp [decodeLoop, readable]
    have hlen : input.length ≠ 0 := fun h0 => hne (List.eq_nil_of_length_eq_zero h0)
    cases hread : fromUtf8 input with
    | ok text => rw [decodeLoop, if_neg hlen, hread, readable_of_fromUtf8 hread]
    | error error =>
      obtain ⟨⟨text, htext⟩, first, rest, hdrop, herror⟩ := spec_of_fromUtf8_error hread
      have hvalid : (if 0 < error.validUpTo then (fromUtf8 (input.take error.validUpTo)).toOption
          else some []) = some text := by
        split_ifs with hpos
        · rw [htext]
          rfl
        · rw [Nat.eq_zero_of_not_pos hpos, List.take_zero, fromUtf8] at htext
          exact congrArg some (Except.ok.inj htext)
      have hwhole : readable input = (text ++ (readable (first :: rest)).1, (readable (first :: rest)).2) := by
        rw [← List.take_append_drop error.validUpTo input, readable_append, readable_of_fromUtf8 htext, hdrop]
        rfl
      rw [decodeLoop, if_neg hlen, hread]
      dsimp only
      rw [hvalid, hwhole, hdrop]
      split
      next length hlength =>
        obtain ⟨extra, hextra, hscan⟩ : ∃ extra, length = extra + 1 ∧ scan first rest = .invalid extra := by
          rcases herror with ⟨hnone, -⟩ | ⟨extra, hsome, hscan⟩
          · rw [hlength] at hnone
            simp at hnone
          · rw [hlength] at hsome
            exact ⟨extra, Option.some.inj hsome, hscan⟩
        have hshort : ((first :: rest).drop length).length < n := by
          rw [← hdrop, ← hn, List.drop_drop, List.length_drop]
          omega
        rw [Option.bind_some, ih _ hshort _ rfl, hextra, readable, hscan]
        rfl
      next hlength =>
        have hscan : scan first rest = .incomplete := by
          rcases herror with ⟨-, hscan⟩ | ⟨extra, hsome, -⟩
          · exact hscan
          · rw [hlength] at hsome
            simp at hsome
        rw [readable, hscan]
        simp

lemma EscapeState.push_append (state : EscapeState) (text more : Text) : state.push (text ++ more) =
      ((state.push text).1 ++ ((state.push text).2.push more).1, ((state.push text).2.push more).2) := by
  induction text generalizing state with
  | nil => rfl
  | cons character text ih =>
    rw [List.cons_append, EscapeState.push, EscapeState.push]
    dsimp only
    rw [ih, List.append_assoc]

/-- A buffer holds the end of a text, and knows whether there was more. -/
structure TailBuffer.Holds (buffer : TailBuffer) (maxBytes : ℕ) (text : Text) : Prop where
  maxBytes_eq : buffer.maxBytes = maxBytes
  bytes_eq : buffer.bytes = utf8Bytes (tailOf maxBytes text)
  truncated_iff : buffer.truncated = true ↔ maxBytes < utf8Len text

variable {maxBytes : ℕ} {buffer : TailBuffer} {text more : Text}

lemma TailBuffer.holds_new (maxBytes : ℕ) : (TailBuffer.new maxBytes).Holds maxBytes [] :=
  ⟨rfl, rfl, by simp [TailBuffer.new]⟩

lemma utf8TailBytes_utf8Bytes (text : Text) (maxBytes : ℕ) :
    utf8TailBytes (utf8Bytes text) maxBytes = utf8Bytes (tailOf maxBytes text) := by
  unfold utf8TailBytes
  rw [length_utf8Bytes]
  split_ifs with hlen
  · rw [tailOf_of_le hlen]
  · exact dropWhile_drop_utf8Bytes (Nat.lt_of_not_le hlen)

lemma TailBuffer.Holds.push (h : buffer.Holds maxBytes text) (more : Text) :
    (buffer.push (utf8Bytes more)).Holds maxBytes (text ++ more) := by
  by_cases hempty : more = []
  · subst hempty
    rw [List.append_nil]
    exact h
  have hmax := h.maxBytes_eq
  have hlen : utf8Len more ≠ 0 := fun h0 => hempty (String.utf8Len_eq_zero.mp h0)
  have hne : (utf8Bytes more).isEmpty = false := by
    rw [List.isEmpty_eq_false_iff, ← List.length_pos_iff, length_utf8Bytes]
    omega
  have htotal : utf8Len (text ++ more) = utf8Len text + utf8Len more := String.utf8Len_append _ _
  unfold TailBuffer.push
  rw [hne, if_neg Bool.false_ne_true]
  by_cases hzero : buffer.maxBytes = 0
  · -- Nothing fits.
    rw [if_pos hzero]
    have hnone : tailOf maxBytes (text ++ more) = [] := by
      have := utf8Len_tailOf_le maxBytes (text ++ more)
      exact String.utf8Len_eq_zero.mp (by omega)
    refine ⟨hmax, ?_, ?_⟩
    · rw [hnone]
      rfl
    · exact iff_of_true rfl (by omega)
  have hbytes : buffer.bytes ++ utf8Bytes more = utf8Bytes (tailOf maxBytes text ++ more) := by
    rw [h.bytes_eq, utf8Bytes_append]
  have hkept : buffer.bytes.length = utf8Len (tailOf maxBytes text) := by
    rw [h.bytes_eq, length_utf8Bytes]
  rw [if_neg hzero]
  dsimp only
  rw [hbytes, length_utf8Bytes, length_utf8Bytes, hmax]
  refine ⟨rfl, ?_, ?_⟩
  · split_ifs with hlong
    · rw [utf8TailBytes_utf8Bytes, tailOf_append]
    · rw [← tailOf_append, tailOf_of_le (Nat.le_of_not_lt hlong)]
  · rw [Bool.or_eq_true, decide_eq_true_eq, h.truncated_iff, hkept]
    rcases Nat.lt_or_ge maxBytes (utf8Len text) with hover | hfits
    · exact iff_of_true (Or.inl hover) (by omega)
    · rw [tailOf_of_le hfits]
      omega

lemma TailBuffer.Holds.asString (h : buffer.Holds maxBytes text) : buffer.asString = some (tailOf maxBytes text) := by
  unfold TailBuffer.asString
  rw [h.bytes_eq, fromUtf8_utf8Bytes]
  rfl

/-! ## The collector -/

/-- The bytes a decoder keeps of a stream. -/
def pendingOf (bytes : List UInt8) (ended : Bool) : List UInt8 := if ended then [] else (readable bytes).2

/-- The clean text of a stream so far, and the state behind it. -/
def cleaned (bytes : List UInt8) (ended : Bool) : Text × EscapeState :=
  if ended then (sanitizeTerminalText (fromUtf8Lossy bytes), .normal)
  else EscapeState.push .normal (readable bytes).1

structure HoldsText (maxBytes : ℕ) (collector : OutputCollector) (bytes : StreamKind → List UInt8)
    (ended : StreamKind → Bool) : Prop where
  decoders : ∀ stream, (collector.decoders.get stream).pending = pendingOf (bytes stream) (ended stream)
  sanitizers : ∀ stream, collector.sanitizers.get stream = (cleaned (bytes stream) (ended stream)).2
  tails : ∀ stream, (collector.tails.get stream).Holds maxBytes (cleaned (bytes stream) (ended stream)).1
  combined : ∃ all, collector.combined.Holds maxBytes all ∧
    utf8Len all = utf8Len (cleaned (bytes .stdout) (ended .stdout)).1 +
      utf8Len (cleaned (bytes .stderr) (ended .stderr)).1

/-- What a collector holds of the bytes of the first stream. -/
structure HoldsRaw (maxBytes : ℕ) (capture : Bool) (collector : OutputCollector) (bytes : List UInt8) : Prop where
  maxBytes_eq : collector.maxBytes = maxBytes
  raw_eq : collector.rawStdout = if capture then some (bytes.take maxBytes) else none
  truncated_iff : collector.rawStdoutTruncated = true ↔ capture = true ∧ maxBytes < bytes.length

variable {capture : Bool} {collector : OutputCollector} {bytes : StreamKind → List UInt8} {ended : StreamKind → Bool}

lemma appendClean_eq (collector : OutputCollector) (stream : StreamKind) (text : Text) :
    collector.appendClean stream text = { collector with
      combined := collector.combined.push (utf8Bytes text)
      tails := collector.tails.set stream ((collector.tails.get stream).push (utf8Bytes text)) } := by
  unfold OutputCollector.appendClean
  split_ifs with hempty
  · obtain rfl := List.isEmpty_iff.mp hempty
    have hpush : ∀ buffer : TailBuffer, buffer.push (utf8Bytes []) = buffer := fun buffer => rfl
    have hset : collector.tails.set stream (collector.tails.get stream) = collector.tails := by
      cases stream <;> rfl
    rw [hpush, hpush, hset]
  · rfl

lemma HoldsText.append (h : HoldsText maxBytes collector bytes ended) (stream : StreamKind)
    (decoder : Utf8Decoder) (sanitizer : EscapeState) {bytes' : StreamKind → List UInt8}
    {ended' : StreamKind → Bool} (hbytes : ∀ other, other ≠ stream → bytes' other = bytes other)
    (hended : ∀ other, other ≠ stream → ended' other = ended other)
    (hdecoder : decoder.pending = pendingOf (bytes' stream) (ended' stream))
    (hclean : cleaned (bytes' stream) (ended' stream) =
      ((cleaned (bytes stream) (ended stream)).1 ++ text, sanitizer)) : HoldsText maxBytes
      (OutputCollector.appendClean { collector with
        decoders := collector.decoders.set stream decoder
        sanitizers := collector.sanitizers.set stream sanitizer } stream text) bytes' ended' := by
  rw [appendClean_eq]
  refine ⟨fun other => ?_, fun other => ?_, fun other => ?_, ?_⟩
  · rcases eq_or_ne other stream with rfl | hne
    · rw [PerStream.get_set_self, hdecoder]
    · rw [PerStream.get_set_of_ne _ hne, h.decoders, hbytes other hne, hended other hne]
  · rcases eq_or_ne other stream with rfl | hne
    · rw [PerStream.get_set_self, hclean]
    · rw [PerStream.get_set_of_ne _ hne, h.sanitizers, hbytes other hne, hended other hne]
  · rcases eq_or_ne other stream with rfl | hne
    · rw [PerStream.get_set_self, hclean]
      exact (h.tails other).push text
    · rw [PerStream.get_set_of_ne _ hne, hbytes other hne, hended other hne]
      exact h.tails other
  · obtain ⟨all, hall, hlen⟩ := h.combined
    refine ⟨all ++ text, hall.push text, ?_⟩
    rw [String.utf8Len_append, hlen]
    cases stream with
    | stdout =>
      rw [hclean, hbytes .stderr (by simp), hended .stderr (by simp), String.utf8Len_append]
      omega
    | stderr =>
      rw [hclean, hbytes .stdout (by simp), hended .stdout (by simp), String.utf8Len_append]
      omega

lemma HoldsRaw.captureRaw {old : List UInt8} (h : HoldsRaw maxBytes capture collector old)
    (new : List UInt8) : HoldsRaw maxBytes capture (collector.captureRaw new) (old ++ new) := by
  have hraw := h.raw_eq
  unfold OutputCollector.captureRaw
  cases capture with
  | false =>
    rw [if_neg Bool.false_ne_true] at hraw
    rw [hraw]
    refine ⟨h.maxBytes_eq, hraw, ?_⟩
    rw [h.truncated_iff]
    simp
  | true =>
    rw [if_pos rfl] at hraw
    rw [hraw]
    refine ⟨h.maxBytes_eq, ?_, ?_⟩
    · dsimp only
      rw [if_pos rfl, h.maxBytes_eq, List.length_take, List.take_append]
      congr 2
      rcases Nat.le_total maxBytes old.length with hfull | hroom
      · rw [Nat.min_eq_left hfull, Nat.sub_self, Nat.sub_eq_zero_of_le hfull, Nat.min_zero]
      · rw [Nat.min_eq_right hroom]
        rcases Nat.le_total new.length (maxBytes - old.length) with hfits | hlong
        · rw [Nat.min_eq_left hfits, List.take_length, List.take_of_length_le hfits]
        · rw [Nat.min_eq_right hlong]
    · dsimp only
      rw [Bool.or_eq_true, decide_eq_true_eq, h.truncated_iff, h.maxBytes_eq, List.length_take, List.length_append]
      simp only [true_and]
      omega

/-! ## The events -/

lemma push_decoder {decoder : Utf8Decoder} (old new : List UInt8) (h : decoder.pending = (readable old).2) :
    decoder.push new = some ((readable (decoder.pending ++ new)).1, ⟨(readable (old ++ new)).2⟩) := by
  have hpending : (readable (decoder.pending ++ new)).2 = (readable (old ++ new)).2 := by
    rw [readable_append old new, h]
  unfold Utf8Decoder.push
  split_ifs with hempty
  · rw [Bool.and_eq_true, List.isEmpty_iff, List.isEmpty_iff] at hempty
    obtain ⟨rfl, hnone⟩ := hempty
    rw [← hpending, hnone, List.append_nil, readable, ← hnone]
  · rw [decodeLoop_eq, Option.map_some, ← hpending]

/-- What a collector holds after some events. -/
structure Collected (maxBytes : ℕ) (capture : Bool) (collector : OutputCollector)
    (bytes : StreamKind → List UInt8) (ended : StreamKind → Bool) : Prop where
  text : HoldsText maxBytes collector bytes ended
  raw : HoldsRaw maxBytes capture collector (bytes .stdout)

lemma collected_new (maxBytes : ℕ) (capture : Bool) :
    Collected maxBytes capture (OutputCollector.new maxBytes capture) (fun _ => []) (fun _ => false) := by
  have hcleaned : cleaned [] false = ([], .normal) := by
    rw [cleaned, if_neg Bool.false_ne_true, readable, EscapeState.push]
  have hpending : pendingOf [] false = [] := by
    rw [pendingOf, if_neg Bool.false_ne_true, readable]
  refine ⟨⟨fun stream => ?_, fun stream => ?_, fun stream => ?_, [], TailBuffer.holds_new maxBytes, ?_⟩,
    ⟨rfl, ?_, ?_⟩⟩
  · rw [hpending]
    cases stream <;> rfl
  · rw [hcleaned]
    cases stream <;> rfl
  · rw [hcleaned]
    cases stream <;> exact TailBuffer.holds_new maxBytes
  · rw [hcleaned]
    rfl
  · rw [List.take_nil]
    rfl
  · simp [OutputCollector.new]

lemma Collected.push (h : Collected maxBytes capture collector bytes ended) {stream : StreamKind}
    (hopen : ended stream = false) (new : List UInt8) : ∃ next, collector.push stream new = some next ∧
      Collected maxBytes capture next (Function.update bytes stream (bytes stream ++ new)) ended := by
  obtain ⟨middle, hmiddle⟩ : ∃ middle, middle =
      if stream = .stdout then collector.captureRaw new else collector := ⟨_, rfl⟩
  -- Capturing the raw bytes leaves the text alone.
  have htext : HoldsText maxBytes middle bytes ended := by
    have hfields : middle.decoders = collector.decoders ∧ middle.sanitizers = collector.sanitizers ∧
        middle.tails = collector.tails ∧ middle.combined = collector.combined := by
      rw [hmiddle]
      unfold OutputCollector.captureRaw
      split_ifs
      · split <;> exact ⟨rfl, rfl, rfl, rfl⟩
      · exact ⟨rfl, rfl, rfl, rfl⟩
    obtain ⟨hdecoders, hsanitizers, htails, hcombined⟩ := hfields
    refine ⟨?_, ?_, ?_, ?_⟩
    · rw [hdecoders]
      exact h.text.decoders
    · rw [hsanitizers]
      exact h.text.sanitizers
    · rw [htails]
      exact h.text.tails
    · rw [hcombined]
      exact h.text.combined
  have hraw : HoldsRaw maxBytes capture middle
      (Function.update bytes stream (bytes stream ++ new) .stdout) := by
    rw [hmiddle]
    cases stream with
    | stdout =>
      rw [if_pos rfl, Function.update_self]
      exact h.raw.captureRaw new
    | stderr =>
      rw [if_neg (by simp), Function.update_of_ne (by simp)]
      exact h.raw
  -- The decoder and the sanitizer go on where they stopped.
  have hpending : (middle.decoders.get stream).pending = (readable (bytes stream)).2 := by
    rw [htext.decoders, hopen, pendingOf, if_neg Bool.false_ne_true]
  have hstate : middle.sanitizers.get stream = (EscapeState.push .normal (readable (bytes stream)).1).2 := by
    rw [htext.sanitizers, hopen, cleaned, if_neg Bool.false_ne_true]
  obtain ⟨more, hmore⟩ : ∃ more, more = (readable ((middle.decoders.get stream).pending ++ new)).1 := ⟨_, rfl⟩
  have hread : (readable (bytes stream ++ new)).1 = (readable (bytes stream)).1 ++ more := by
    rw [readable_append, hmore, hpending]
  have hpending' : (readable (bytes stream ++ new)).2 =
      pendingOf (Function.update bytes stream (bytes stream ++ new) stream) (ended stream) := by
    rw [Function.update_self, hopen, pendingOf, if_neg Bool.false_ne_true]
  have hclean : cleaned (Function.update bytes stream (bytes stream ++ new) stream) (ended stream) =
      ((cleaned (bytes stream) (ended stream)).1 ++ ((middle.sanitizers.get stream).push more).1,
        ((middle.sanitizers.get stream).push more).2) := by
    rw [Function.update_self, hopen, cleaned, cleaned, if_neg Bool.false_ne_true,
      if_neg Bool.false_ne_true, hread, EscapeState.push_append, hstate]
  have hnext := htext.append stream ⟨_⟩ _ (fun other hne => Function.update_of_ne hne _ _)
    (fun _ _ => rfl) hpending' hclean
  refine ⟨_, ?_, hnext, ?_⟩
  · unfold OutputCollector.push
    rw [← hmiddle]
    dsimp only
    rw [push_decoder (bytes stream) new hpending, ← hmore]
    rfl
  · rw [appendClean_eq]
    exact ⟨hraw.maxBytes_eq, hraw.raw_eq, hraw.truncated_iff⟩

lemma finish_decoder (decoder : Utf8Decoder) : decoder.finish = (fromUtf8Lossy decoder.pending, ⟨[]⟩) := by
  obtain ⟨pending⟩ := decoder
  unfold Utf8Decoder.finish
  split_ifs with hempty
  · obtain rfl : pending = [] := List.isEmpty_iff.mp hempty
    rw [fromUtf8Lossy]
  · rfl

lemma Collected.finishStream (h : Collected maxBytes capture collector bytes ended) (stream : StreamKind) :
    Collected maxBytes capture (collector.finishStream stream) bytes (Function.update ended stream true) := by
  obtain ⟨more, hmore⟩ : ∃ more, more = fromUtf8Lossy (collector.decoders.get stream).pending := ⟨_, rfl⟩
  have hpending : ([] : List UInt8) = pendingOf (bytes stream) (Function.update ended stream true stream) := by
    rw [Function.update_self, pendingOf, if_pos rfl]
  have hclean : cleaned (bytes stream) (Function.update ended stream true stream) =
      ((cleaned (bytes stream) (ended stream)).1 ++ ((collector.sanitizers.get stream).push more).1, .normal) := by
    rw [Function.update_self, hmore, h.text.decoders, h.text.sanitizers]
    cases hended : ended stream with
    | true =>
      have hnone : fromUtf8Lossy (pendingOf (bytes stream) true) = [] := by
        rw [pendingOf, if_pos rfl, fromUtf8Lossy]
      rw [hnone, EscapeState.push, List.append_nil]
      rfl
    | false =>
      simp only [cleaned, pendingOf, if_pos, Bool.false_eq_true, if_false]
      rw [sanitizeTerminalText, fromUtf8Lossy_eq_readable, EscapeState.push_append]
  have hnext := h.text.append stream ⟨[]⟩ .normal (fun _ _ => rfl)
    (fun other hne => Function.update_of_ne hne _ _) hpending hclean
  have hfinish : collector.finishStream stream = OutputCollector.appendClean { collector with
      decoders := collector.decoders.set stream ⟨[]⟩
      sanitizers := collector.sanitizers.set stream .normal } stream
      ((collector.sanitizers.get stream).push more).1 := by
    unfold OutputCollector.finishStream
    rw [finish_decoder, ← hmore]
  rw [hfinish]
  refine ⟨hnext, ?_⟩
  rw [appendClean_eq]
  exact ⟨h.raw.maxBytes_eq, h.raw.raw_eq, h.raw.truncated_iff⟩

lemma Collected.pushError (h : Collected maxBytes capture collector bytes ended) (stream : StreamKind)
    (error : String) : Collected maxBytes capture (collector.pushError stream error) bytes ended := by
  unfold OutputCollector.pushError
  split_ifs
  · exact ⟨⟨h.text.decoders, h.text.sanitizers, h.text.tails, h.text.combined⟩,
      ⟨h.raw.maxBytes_eq, h.raw.raw_eq, h.raw.truncated_iff⟩⟩
  · exact h

lemma Collected.run {events : List OutputEvent} (h : Collected maxBytes capture collector bytes ended)
    (horder : ReaderOrder events)
    (hopen : ∀ stream new, ended stream = true → OutputEvent.chunk stream new ∉ events) :
    ∃ last lastEnded, events.foldlM OutputCollector.handleEvent collector = some last ∧
      Collected maxBytes capture last (fun stream => bytes stream ++ streamBytes stream events) lastEnded := by
  induction events generalizing collector bytes ended with
  | nil => exact ⟨collector, ended, rfl, by simpa [streamBytes] using h⟩
  | cons event events ih =>
    obtain ⟨hfirst, hrest⟩ := List.pairwise_cons.mp horder
    have hlater : ∀ stream new, ended stream = true → OutputEvent.chunk stream new ∉ events :=
      fun stream new hended hmem => hopen stream new hended (List.mem_cons_of_mem _ hmem)
    rw [List.foldlM_cons]
    cases event with
    | chunk stream new =>
      have hnot : ended stream = false :=
        Bool.eq_false_iff.mpr fun hended => hopen stream new hended List.mem_cons_self
      obtain ⟨next, hpush, hnext⟩ := h.push hnot new
      obtain ⟨last, lastEnded, hrun, hlast⟩ := ih hnext hrest hlater
      refine ⟨last, lastEnded, ?_, ?_⟩
      · rw [OutputCollector.handleEvent, hpush]
        exact hrun
      · convert hlast using 2 with other
        rcases eq_or_ne other stream with rfl | hne
        · rw [Function.update_self, List.append_assoc]
          simp [streamBytes]
        · rw [Function.update_of_ne hne]
          simp [streamBytes, hne.symm]
    | eof stream =>
      have hend : ∀ other new, Function.update ended stream true other = true →
          OutputEvent.chunk other new ∉ events := by
        intro other new hended
        rcases eq_or_ne other stream with rfl | hne
        · exact fun hmem => hfirst _ hmem other new rfl rfl
        · rw [Function.update_of_ne hne] at hended
          exact hlater other new hended
      obtain ⟨last, lastEnded, hrun, hlast⟩ := ih (h.finishStream stream) hrest hend
      exact ⟨last, lastEnded, hrun, hlast⟩
    | error stream error =>
      obtain ⟨last, lastEnded, hrun, hlast⟩ := ih (h.pushError stream error) hrest hlater
      exact ⟨last, lastEnded, hrun, hlast⟩

/-- The reported text of each stream is the end of its clean text, however the streams were cut and
mixed, and a truncated output is one with more than fits. -/
theorem collect_read_boundaries (maxBytes : ℕ) (capture : Bool) (events : List OutputEvent)
    (horder : ReaderOrder events) :
    ∃ snapshot, collect maxBytes capture events = some snapshot ∧
      IsTail maxBytes (sanitizeTerminalText (fromUtf8Lossy (streamBytes .stdout events)))
        snapshot.stdout ∧
      IsTail maxBytes (sanitizeTerminalText (fromUtf8Lossy (streamBytes .stderr events)))
        snapshot.stderr ∧
      snapshot.rawStdout = (if capture then some ((streamBytes .stdout events).take maxBytes) else none) ∧
      (snapshot.outputTruncated = true ↔
        maxBytes < utf8Len (sanitizeTerminalText (fromUtf8Lossy (streamBytes .stdout events))) +
            utf8Len (sanitizeTerminalText (fromUtf8Lossy (streamBytes .stderr events))) ∨
          ∃ raw, snapshot.rawStdout = some raw ∧ raw ≠ streamBytes .stdout events) := by
  obtain ⟨last, ended, hrun, hlast⟩ := (collected_new maxBytes capture).run horder (by simp)
  have hend := (hlast.finishStream .stdout).finishStream .stderr
  obtain ⟨all, hall, hlen⟩ := hend.text.combined
  have hstdout := hend.text.tails .stdout
  have hstderr := hend.text.tails .stderr
  have hraw := hend.raw
  simp only [List.nil_append, Function.update_self, ne_eq, reduceCtorEq, not_false_eq_true,
    Function.update_of_ne, cleaned, if_true] at hlen hstdout hstderr hraw
  obtain ⟨final, hfinal⟩ : ∃ final, final = (last.finishStream .stdout).finishStream .stderr := ⟨_, rfl⟩
  rw [← hfinal] at hall hstdout hstderr hraw
  refine ⟨⟨tailOf maxBytes all, _, _, final.rawStdout,
    final.combined.truncated || final.rawStdoutTruncated, final.readErrors⟩, ?_, isTail_tailOf _ _,
    isTail_tailOf _ _, hraw.raw_eq, ?_⟩
  · have hout : final.tails.stdout.asString = _ := hstdout.asString
    have herr : final.tails.stderr.asString = _ := hstderr.asString
    unfold collect
    rw [hrun, Option.bind_eq_bind, Option.bind_some, OutputCollector.finish, ← hfinal]
    rw [hall.asString, hout, herr]
    rfl
  · rw [Bool.or_eq_true, hall.truncated_iff, hraw.truncated_iff, hlen]
    refine or_congr Iff.rfl ?_
    -- A captured beginning differs from the whole exactly when it is shorter.
    cases capture with
    | false => simp [hraw.raw_eq]
    | true => simp [hraw.raw_eq, List.take_eq_self_iff]

/-- A character and a sequence are cut, and a stream ends within one. -/
theorem collect_read_boundaries_split :
    let events : List OutputEvent :=
      [.chunk .stdout [0x61, 0xE2, 0x82], .chunk .stderr [0x1B], .chunk .stdout [0xAC, 0xF0],
        .chunk .stderr [0x5B, 0x6D, 0x62], .eof .stdout, .eof .stderr]
    ∃ snapshot, collect 3 true events = some snapshot ∧
      IsTail 3 (sanitizeTerminalText (fromUtf8Lossy [0x61, 0xE2, 0x82, 0xAC, 0xF0])) snapshot.stdout ∧
      IsTail 3 (sanitizeTerminalText (fromUtf8Lossy [0x1B, 0x5B, 0x6D, 0x62])) snapshot.stderr := by
  intro events
  have horder : ReaderOrder events := by simp [ReaderOrder, events]
  obtain ⟨snapshot, hcollect, hstdout, hstderr, -⟩ := collect_read_boundaries 3 true events horder
  exact ⟨snapshot, hcollect, hstdout, hstderr⟩

end AgzRustMcp.Output
