import AgzRustMcp.Diagnostics.Records
import AgzRustMcp.Gate.Targets

/-!
# Progress of the gate

`emit` of `gate/scheduler.rs` bounds the message of an event before it calls the callbacks.
`String::truncate` panics where the bound lies within a character, before the loop that looks for a
boundary: `progress_emitted_iff` says which events are handed on.
-/

namespace AgzRustMcp.Gate

open Utf8Text
open String (utf8Len)

inductive ProgressStage
  | accepted | preflight | queued | running | finished | completed | failed | cancelled | heartbeat
deriving DecidableEq

/-- `ProgressEvent`, over the type of its fractions. -/
structure ProgressEvent (Fraction : Type) where
  stage : ProgressStage
  target : Option GateTargetId
  progress : Fraction
  total : Option Fraction
  message : Text
  heartbeat : Bool
  elapsedMs : ℕ

/-- `MAX_MESSAGE_BYTES` of `bounded_message`. -/
def maxMessageBytes : ℕ := 512

/-- `String::truncate`; without a result it panics. -/
def truncate (t : Text) (len : ℕ) : Option Text :=
  if utf8Len t < len then some t
  else if isBoundary t len then some (takeBytes t len)
  else none

/-- The loop of `bounded_message`. -/
def popToBoundary : ℕ → Text → Text
  | 0, t => t
  | left + 1, t => if isBoundary t (utf8Len t) then t else popToBoundary left t.dropLast

def boundedMessage (message : Text) : Option Text :=
  if utf8Len message ≤ maxMessageBytes then some message
  else (truncate message maxMessageBytes).map fun message => popToBoundary message.length message

section

variable {Fraction : Type} (clamp : Fraction → Fraction)

/-- `emit`: what each of the callbacks is called with. -/
def emit (callbacks : List ℕ) (event : ProgressEvent Fraction) : Option (List (ℕ × ProgressEvent Fraction)) :=
  (boundedMessage event.message).map fun message =>
    callbacks.map (·, { event with progress := clamp event.progress, message })

/-- The calls of `emit`, each with the callbacks registered by then. -/
def emitAll (emissions : List (List ℕ × ProgressEvent Fraction)) : Option (List (ℕ × ProgressEvent Fraction)) :=
  (emissions.mapM fun emission => emit clamp emission.1 emission.2).map List.flatten

end

/-- `first_summary`, for the first diagnostic. -/
def firstSummary (d : Records.Diagnostic) : Text :=
  "UNTRUSTED provisional compiler evidence: ".toList ++ d.code.getD d.level.asStr ++ ": ".toList ++ d.message.take 256

/-! ## When the bound is a boundary -/

/-- A character of the text begins before a byte offset and ends behind it. -/
def Straddles (t : Text) (n : ℕ) : Prop :=
  ∃ pre c suf, t = pre ++ c :: suf ∧ utf8Len pre < n ∧ n < utf8Len pre + c.utf8Size

section

variable {t : Text} {n : ℕ}

lemma isBoundary_or_straddles (h : n ≤ utf8Len t) : isBoundary t n = true ∨ Straddles t n := by
  induction t generalizing n with
  | nil =>
    obtain rfl : n = 0 := Nat.le_zero.mp h
    exact Or.inl rfl
  | cons c t ih =>
    rw [String.utf8Len_cons] at h
    by_cases hc : c.utf8Size ≤ n
    · rcases ih (n := n - c.utf8Size) (by omega) with hb | ⟨pre, d, suf, rfl, hlt, hgt⟩
      · obtain ⟨pre, suf, rfl, hlen⟩ := isBoundary_iff.mp hb
        exact Or.inl (isBoundary_iff.mpr ⟨c :: pre, suf, rfl, by rw [String.utf8Len_cons]; omega⟩)
      · exact Or.inr ⟨c :: pre, d, suf, rfl, by rw [String.utf8Len_cons]; omega,
          by rw [String.utf8Len_cons]; omega⟩
    · cases n with
      | zero => exact Or.inl (isBoundary_iff.mpr ⟨[], c :: t, rfl, rfl⟩)
      | succ n => exact Or.inr ⟨[], c, t, rfl, by simp, by simpa using hc⟩

lemma not_straddles (h : isBoundary t n = true) : ¬ Straddles t n := by
  rintro ⟨pre, c, suf, rfl, hlt, hgt⟩
  obtain ⟨front, behind, hsplit, rfl⟩ := isBoundary_iff.mp h
  obtain ⟨mid, rfl, hmid⟩ := exists_append_of_utf8Len_le hsplit hlt.le
  cases mid with
  | nil => simp at hlt
  | cons d mid =>
    obtain rfl := (List.cons.inj hmid).1
    rw [String.utf8Len_append, String.utf8Len_cons] at hgt
    omega

lemma not_straddles_of_le (h : utf8Len t ≤ n) : ¬ Straddles t n := by
  rintro ⟨pre, c, suf, rfl, -, hgt⟩
  rw [String.utf8Len_append, String.utf8Len_cons] at h
  omega

lemma takeBytes_of_le (h : utf8Len t ≤ n) : takeBytes t n = t := by
  induction t generalizing n with
  | nil => rfl
  | cons c t ih =>
    rw [String.utf8Len_cons] at h
    rw [takeBytes, if_pos (by omega), ih (by omega)]

lemma popToBoundary_eq (left : ℕ) (t : Text) : popToBoundary left t = t := by
  cases left with
  | zero => rfl
  | succ left => exact if_pos (isBoundary_iff.mpr ⟨t, [], by simp, rfl⟩)

lemma boundedMessage_eq (t : Text) :
    (boundedMessage t = some (takeBytes t maxMessageBytes) ∧ ¬ Straddles t maxMessageBytes) ∨
      (boundedMessage t = none ∧ Straddles t maxMessageBytes) := by
  unfold boundedMessage
  by_cases hlen : utf8Len t ≤ maxMessageBytes
  · rw [if_pos hlen, takeBytes_of_le hlen]
    exact Or.inl ⟨rfl, not_straddles_of_le hlen⟩
  · rw [if_neg hlen, truncate, if_neg (by omega)]
    by_cases hb : isBoundary t maxMessageBytes = true
    · rw [if_pos hb, Option.map_some, popToBoundary_eq]
      exact Or.inl ⟨rfl, not_straddles hb⟩
    · rw [if_neg hb]
      exact Or.inr ⟨rfl, (isBoundary_or_straddles (by omega)).resolve_left hb⟩

end

/-- What the callbacks get when the message is cut at a character. -/
def handedOn {Fraction : Type} (clamp : Fraction → Fraction) (emission : List ℕ × ProgressEvent Fraction) :
    List (ℕ × ProgressEvent Fraction) :=
  emission.1.map (·, { emission.2 with
    progress := clamp emission.2.progress
    message := takeBytes emission.2.message maxMessageBytes })

/-- Each event is handed on with what fits in 512 bytes, exactly when no message has a character across
byte 512. -/
theorem progress_emitted_iff {Fraction : Type} (clamp : Fraction → Fraction)
    (emissions : List (List ℕ × ProgressEvent Fraction)) :
    emitAll clamp emissions = some (emissions.flatMap (handedOn clamp)) ↔
      ∀ emission ∈ emissions, ¬ Straddles emission.2.message maxMessageBytes := by
  unfold emitAll
  induction emissions with
  | nil => simp
  | cons emission emissions ih =>
    rw [List.mapM_cons, List.forall_mem_cons, List.flatMap_cons]
    rcases boundedMessage_eq emission.2.message with ⟨hsome, hfits⟩ | ⟨hnone, hstraddles⟩
    · have hemit : emit clamp emission.1 emission.2 = some (handedOn clamp emission) := by
        rw [emit, hsome]
        rfl
      rw [hemit, and_iff_right hfits, ← ih]
      cases emissions.mapM fun emission => emit clamp emission.1 emission.2 with
      | none => simp
      | some deliveries => simp
    · rw [emit, hnone]
      simp [hstraddles]

/-- A warning whose summary has a character of two bytes at the bound. -/
def quotedName : Records.Diagnostic :=
  ⟨none, none, none, .warning, none, none, 'a' :: List.replicate 255 'é', none, none, [], [], [], true⟩

theorem summary_of_quoted_name_panics : emitAll (id : ℕ → ℕ)
    [([0], ⟨.running, some .check, 0, some 1, firstSummary quotedName, false, 0⟩)] = none := by
  decide +kernel

end AgzRustMcp.Gate
