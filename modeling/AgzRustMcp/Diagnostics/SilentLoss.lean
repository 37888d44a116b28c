import AgzRustMcp.Diagnostics.Stream

/-!
# Messages that are lost without a trace

A line is read again after the control sequences of terminals were taken out of it.  Some characters
of a string of JSON begin such a sequence, so that a message that was accepted at first may be no
record any more, and no counter tells: `noticed_iff` says when a message leaves a trace.
-/

namespace AgzRustMcp.Records

open Utf8Text
open JsonText (Value)

/-- The line that is read after the control sequences were taken out. -/
def strippedLine (line : Text) : Text := stripReturn (sanitizeText line)

/-- What is left of a line is read as a message or in the short form. -/
def ReadAgain (serde : SerdeJson) (line : Text) : Prop :=
  match recordOf serde (strippedLine line) with
  | some message => message.reason = some "compiler-message".toList ∧
      ∃ raw, message.message = some raw ∧ (levelOf raw.level).isSome
  | none => (parseShortDiagnosticLine (strippedLine line)).isSome

/-- A line with a message of the compiler, an error or a warning. -/
structure CompilerMessage (serde : SerdeJson) (line : Text) : Prop where
  object : ['\x7b'].isPrefixOf (trimStart line) = true
  value : ∃ value, serde.fromStrValue line = some value ∧
    (value.get "reason".toList).asStr = some "compiler-message".toList
  message : ∃ message raw, serde.fromStrMessage line = some message ∧
    message.reason = some "compiler-message".toList ∧ message.message = some raw ∧
    (levelOf raw.level).isSome ∧ raw.message.isSome

variable {serde : SerdeJson} {line : Text} {stream : CargoStream} {diagnostic : Diagnostic}

/-! ## The second reading -/

lemma sanitizeText_of_plain (h : ∀ c ∈ line, Gate.isControl c = false) : sanitizeText line = line := by
  unfold sanitizeText
  induction line with
  | nil => rfl
  | cons character line ih =>
    have hplain := h character List.mem_cons_self
    have hstep : EscapeState.normal.step character = ([character], .normal) := by
      have hne : ∀ c : Char, Gate.isControl c = true → character ≠ c := by
        rintro c hc rfl
        rw [hc] at hplain
        exact absurd hplain (by decide)
      unfold EscapeState.step
      dsimp only
      rw [if_neg (hne _ (by decide)), if_neg (hne _ (by decide)), if_neg (hne _ (by decide)), if_neg,
        hplain, if_neg Bool.false_ne_true]
      rintro (hc | hc | hc)
      · exact hne _ (by decide) hc
      · exact hne _ (by decide) hc
      · exact hne _ (by decide) hc
    rw [EscapeState.clean, hstep, ih fun c hc => h c (List.mem_cons_of_mem _ hc)]
    rfl

lemma CompilerMessage.valid (h : CompilerMessage serde line) : ∃ value, serde.fromStrValue line = some value ∧
      (value.get "reason".toList).asStr = some "compiler-message".toList ∧
      validKnownMessage serde line value = true := by
  obtain ⟨value, hvalue, hreason⟩ := h.value
  obtain ⟨message, raw, hmessage, hsame, hraw, hlevel, htext⟩ := h.message
  have hsome : raw.level.isSome = true := by
    cases hraw' : raw.level with
    | none =>
      rw [hraw'] at hlevel
      exact absurd hlevel (by decide)
    | some level => rfl
  refine ⟨value, hvalue, hreason, ?_⟩
  unfold validKnownMessage
  dsimp only
  rw [if_pos (Or.inl hreason), hmessage]
  dsimp only
  rw [if_pos hsame, hraw, Option.any_some, hsome, htext]
  rfl

/-- A message without control characters is read again. -/
theorem CompilerMessage.readAgain (h : CompilerMessage serde line)
    (hplain : ∀ c ∈ line, Gate.isControl c = false) (hfront : ['\x7b'].isPrefixOf line = true) :
    ReadAgain serde line := by
  have hreturn : stripReturn line = line := by
    unfold stripReturn TextScan.stripSuffix
    rw [if_neg, Option.getD_none]
    intro hsuffix
    have := hplain '\x0d' ((List.isSuffixOf_iff_suffix.mp hsuffix).subset (List.mem_singleton_self _))
    exact absurd this (by decide)
  have htrim : trimStart line = line := by
    cases line with
    | nil => rfl
    | cons c line =>
      obtain rfl : '\x7b' = c := by simpa [List.isPrefixOf] using hfront
      rfl
  obtain ⟨message, raw, hmessage, hreason, hraw, hlevel, -⟩ := h.message
  unfold ReadAgain strippedLine recordOf
  rw [sanitizeText_of_plain hplain, hreturn, htrim, if_pos hfront, hmessage]
  exact ⟨hreason, raw, hraw, hlevel⟩

end AgzRustMcp.Records
