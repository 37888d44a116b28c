import AgzRustMcp.Foundation.Loops
import AgzRustMcp.Lsp.Reads

/-!
# The frame decoder on hostile output

The two loops of `FrameDecoder`, turn by turn, so that a turn that neither takes input nor ends
would be a loop that does not end.  Whatever bytes are pushed, both loops end, and the buffer and
the results of one push stay bounded (`push_ends`).
-/

namespace AgzRustMcp.Lsp

open Loops Utf8Text

def FrameDecoder.withLimits (maxBodyBytes maxHeaderBytes maxBufferBytes maxFramesPerPush : ℕ) : FrameDecoder where
  maxBodyBytes := max maxBodyBytes 1
  maxHeaderBytes := max maxHeaderBytes 1
  maxBufferBytes := max maxBufferBytes (saturatingAdd (max maxHeaderBytes 1) 1)
  maxFramesPerPush := max maxFramesPerPush 1

/-- A decoder as `new` or `with_limits` builds it. -/
inductive FrameDecoder.IsBuilt : FrameDecoder → Prop
  | new (maxBodyBytes : ℕ) : IsBuilt (.new maxBodyBytes)
  | withLimits (maxBodyBytes maxHeaderBytes maxBufferBytes maxFramesPerPush : ℕ) :
      IsBuilt (.withLimits maxBodyBytes maxHeaderBytes maxBufferBytes maxFramesPerPush)

/-! ## The loops, turn by turn -/

variable {V : Type} (fromStr : Text → Except String V)

/-- The variables of `decode_available`. -/
structure Decoding (V : Type) where
  decoder : FrameDecoder
  frames : List (Except FrameError V)
  progressed : Bool

/-- One turn of the loop of `decode_available`. -/
def decodeTurn (state : Decoding V) : Decoding V ⊕ Decoding V :=
  if state.frames.length < state.decoder.maxFramesPerPush then
    match state.decoder.discardBody with
    | some remaining =>
      let discarded := min remaining state.decoder.buffer.length
      let progressed := state.progressed || discarded ≠ 0
      let decoder := { state.decoder with buffer := state.decoder.buffer.drop discarded }
      if remaining - discarded ≠ 0 then
        .inl ⟨{ decoder with discardBody := some (remaining - discarded) }, state.frames, progressed⟩
      else .inr ⟨{ decoder with discardBody := none }, state.frames, progressed⟩
    | none =>
      match state.decoder.decodeNext fromStr with
      | none => .inl state
      | some (next, frame) =>
        let decoded : Decoding V := ⟨next, state.frames ++ [frame], true⟩
        -- Without the end of a header the loop ends, whether or not the buffer was given up.
        if findHeaderEnd state.decoder.buffer = none then .inl decoded else .inr decoded
  else .inl state

/-- `decode_available`. -/
def decodeLoop : Decoding V →. Decoding V :=
  PFun.fix fun state => (Part.some (decodeTurn fromStr state) : Part (Decoding V ⊕ Decoding V))

/-- The variables of `push`; the chunk is what is left of it. -/
structure Pushing (V : Type) where
  decoder : FrameDecoder
  frames : List (Except FrameError V)
  chunk : List UInt8

/-- One turn of the loop of `push`, behind its first `decode_available`. -/
def pushTurnFrom (decoded : Decoding V) (chunk : List UInt8) :
    Part ((FrameDecoder × List (Except FrameError V)) ⊕ Pushing V) :=
  let decoder := decoded.decoder
  if chunk = [] then Part.some (.inl (decoder, decoded.frames))
  else if decoded.frames.length ≥ decoder.maxFramesPerPush then
    Part.some (.inl (
      if chunk.length > decoder.available then
        ({ decoder with buffer := [] }, decoded.frames ++ [.error .bufferTooLarge])
      else ({ decoder with buffer := decoder.buffer ++ chunk }, decoded.frames)))
  else if decoder.available = 0 then
    (decodeLoop fromStr ⟨decoder, decoded.frames, false⟩).map fun again =>
      if again.progressed then .inr ⟨again.decoder, again.frames, chunk⟩
      else .inl ({ again.decoder with buffer := [] }, again.frames ++ [.error .bufferTooLarge])
  else
    let take := min decoder.available chunk.length
    Part.some (.inr ⟨{ decoder with buffer := decoder.buffer ++ chunk.take take }, decoded.frames, chunk.drop take⟩)

/-- One turn of the loop of `push`. -/
def pushTurn : Pushing V →. (FrameDecoder × List (Except FrameError V)) ⊕ Pushing V := fun state =>
  (decodeLoop fromStr ⟨state.decoder, state.frames, false⟩).bind fun decoded =>
    pushTurnFrom fromStr decoded state.chunk

/-- `push`, as the source runs it. -/
def runPush (decoder : FrameDecoder) (chunk : List UInt8) : Part (FrameDecoder × List (Except FrameError V)) :=
  PFun.fix (pushTurn fromStr) ⟨decoder, [], chunk⟩

/-- The decoder after one push after another. -/
def runPushes (decoder : FrameDecoder) : List (List UInt8) → Part FrameDecoder
  | [] => Part.some decoder
  | chunk :: chunks =>
    (runPush fromStr decoder chunk).bind fun pushed => runPushes pushed.1 chunks

section

variable {fromStr} {decoder : FrameDecoder}

/-! ## The inner loop -/

variable {state : Decoding V} {limits : FrameLimits}

lemma decodeTurn_of_discard {remaining : ℕ} (hroom : state.frames.length < state.decoder.maxFramesPerPush)
    (h : state.decoder.discardBody = some remaining) : decodeTurn fromStr state =
      if state.decoder.discard.discardBody.isSome then
        .inl ⟨state.decoder.discard, state.frames, state.progressed ||
          state.decoder.discard.buffer.length < state.decoder.buffer.length⟩
      else
        .inr ⟨state.decoder.discard, state.frames, state.progressed ||
          state.decoder.discard.buffer.length < state.decoder.buffer.length⟩ := by
  have hflag : (state.decoder.buffer.length - min remaining state.decoder.buffer.length <
      state.decoder.buffer.length) ↔ min remaining state.decoder.buffer.length ≠ 0 := by
    omega
  unfold decodeTurn
  rw [if_pos hroom, h]
  unfold FrameDecoder.discard
  rw [h]
  dsimp only
  by_cases hleft : remaining - min remaining state.decoder.buffer.length ≠ 0
  · simp [hleft, List.length_drop, hflag]
  · simp [hleft, List.length_drop, hflag]

lemma decodeTurn_of_decodeNext (hroom : state.frames.length < state.decoder.maxFramesPerPush)
    (h : state.decoder.discardBody = none) : decodeTurn fromStr state =
      match state.decoder.decodeNext fromStr with
      | none => .inl state
      | some (next, frame) =>
        if findHeaderEnd state.decoder.buffer = none then .inl ⟨next, state.frames ++ [frame], true⟩
        else .inr ⟨next, state.frames ++ [frame], true⟩ := by
  unfold decodeTurn
  rw [if_pos hroom, h]

lemma discard_of_none (h : decoder.discardBody = none) : decoder.discard = decoder := by
  unfold FrameDecoder.discard
  rw [h]

lemma decodeNext_nil (hbuffer : decoder.buffer = []) : decoder.decodeNext fromStr = none := by
  unfold FrameDecoder.decodeNext
  rw [hbuffer]
  simp [findHeaderEnd, findWindow]

lemma decodeAvailable_of_nil (slots : ℕ) (hdiscard : decoder.discardBody = none) (hbuffer : decoder.buffer = []) :
    decoder.decodeAvailable fromStr slots = (decoder, [], false) := by
  cases slots with
  | zero => rfl
  | succ slots =>
    unfold FrameDecoder.decodeAvailable
    simp [discard_of_none hdiscard, hdiscard, decodeNext_nil hbuffer]

lemma decodeNext_of_noHeader {next : FrameDecoder} {frame : Except FrameError V}
    (hheader : findHeaderEnd decoder.buffer = none) (h : decoder.decodeNext fromStr = some (next, frame)) :
    next.buffer = [] ∧ next.discardBody = decoder.discardBody := by
  unfold FrameDecoder.decodeNext at h
  rw [hheader] at h
  dsimp only at h
  split_ifs at h
  obtain ⟨rfl, -⟩ := Prod.mk.inj (Option.some.inj h)
  exact ⟨rfl, rfl⟩

lemma mem_decodeLoop_of_inl {result : Decoding V} (h : decodeTurn fromStr state = .inl result) :
    result ∈ decodeLoop fromStr state := by
  apply PFun.fix_stop
  rw [h]
  exact Part.mem_some _

lemma decodeLoop_of_inr {next : Decoding V} (h : decodeTurn fromStr state = .inr next) :
    decodeLoop fromStr state = decodeLoop fromStr next := by
  apply PFun.fix_fwd_eq
  rw [h]
  exact Part.mem_some _

variable (fromStr) in
/-- The variables of `decode_available` when it ends. -/
def Decoding.ended (state : Decoding V) : Decoding V :=
  let result := state.decoder.decodeAvailable fromStr
    (state.decoder.maxFramesPerPush - state.frames.length)
  ⟨result.1, state.frames ++ result.2.1, state.progressed || result.2.2⟩

lemma ended_of_full (h : ¬ state.frames.length < state.decoder.maxFramesPerPush) : state.ended fromStr = state := by
  have hslots : state.decoder.maxFramesPerPush - state.frames.length = 0 := by omega
  simp [Decoding.ended, hslots, FrameDecoder.decodeAvailable]

lemma ended_of_none (hroom : state.frames.length < state.decoder.maxFramesPerPush)
    (hdiscard : state.decoder.discardBody = none) : state.ended fromStr =
      match state.decoder.decodeNext fromStr with
      | none => state
      | some (next, frame) => Decoding.ended fromStr ⟨next, state.frames ++ [frame], true⟩ := by
  obtain ⟨slots, hslots⟩ : ∃ slots, state.decoder.maxFramesPerPush - state.frames.length = slots + 1 :=
    ⟨state.decoder.maxFramesPerPush - state.frames.length - 1, by omega⟩
  unfold Decoding.ended
  rw [hslots, FrameDecoder.decodeAvailable]
  simp only [discard_of_none hdiscard, hdiscard, Option.isSome_none, Bool.false_eq_true, if_false,
    lt_self_iff_false, decide_false]
  cases hdecode : state.decoder.decodeNext fromStr with
  | none => simp
  | some decoded =>
    obtain ⟨next, frame⟩ := decoded
    have hlimits := congrArg FrameLimits.maxFramesPerPush (decodeNext_limits hdecode)
    have hrest : next.maxFramesPerPush - (state.frames ++ [frame]).length = slots := by
      rw [List.length_append, List.length_singleton, hlimits]
      omega
    dsimp only
    rw [hrest]
    simp

lemma ended_mem_decodeLoop_of_none (hdiscard : state.decoder.discardBody = none)
    (ih : ∀ next : Decoding V, next.decoder.maxFramesPerPush - next.frames.length <
        state.decoder.maxFramesPerPush - state.frames.length → next.ended fromStr ∈ decodeLoop fromStr next) :
    state.ended fromStr ∈ decodeLoop fromStr state := by
  by_cases hroom : state.frames.length < state.decoder.maxFramesPerPush
  · have hturn : decodeTurn fromStr state = _ := decodeTurn_of_decodeNext hroom hdiscard
    rw [ended_of_none hroom hdiscard]
    cases hdecode : state.decoder.decodeNext fromStr with
    | none =>
      rw [hdecode] at hturn
      exact mem_decodeLoop_of_inl hturn
    | some decoded =>
      obtain ⟨next, frame⟩ := decoded
      rw [hdecode] at hturn
      dsimp only at hturn ⊢
      by_cases hheader : findHeaderEnd state.decoder.buffer = none
      · rw [if_pos hheader] at hturn
        obtain ⟨hbuffer, hskips⟩ := decodeNext_of_noHeader hheader hdecode
        rw [hdiscard] at hskips
        have hended : Decoding.ended fromStr ⟨next, state.frames ++ [frame], true⟩ =
            ⟨next, state.frames ++ [frame], true⟩ := by
          simp [Decoding.ended, decodeAvailable_of_nil _ hskips hbuffer]
        rw [hended]
        exact mem_decodeLoop_of_inl hturn
      · rw [if_neg hheader] at hturn
        rw [decodeLoop_of_inr hturn]
        apply ih
        have hlimits := congrArg FrameLimits.maxFramesPerPush (decodeNext_limits hdecode)
        dsimp only
        rw [List.length_append, List.length_singleton, hlimits]
        omega
  · rw [ended_of_full hroom]
    apply mem_decodeLoop_of_inl
    unfold decodeTurn
    rw [if_neg hroom]

lemma discard_limits (decoder : FrameDecoder) : decoder.discard.toFrameLimits = decoder.toFrameLimits := by
  unfold FrameDecoder.discard
  split <;> rfl

lemma ended_of_discard (hroom : state.frames.length < state.decoder.maxFramesPerPush)
    (hskipped : state.decoder.discard.discardBody = none) :
    state.ended fromStr = Decoding.ended fromStr ⟨state.decoder.discard, state.frames,
      state.progressed || state.decoder.discard.buffer.length < state.decoder.buffer.length⟩ := by
  have hlimits := congrArg FrameLimits.maxFramesPerPush (discard_limits state.decoder)
  obtain ⟨slots, hslots⟩ : ∃ slots, state.decoder.maxFramesPerPush - state.frames.length = slots + 1 :=
    ⟨state.decoder.maxFramesPerPush - state.frames.length - 1, by omega⟩
  unfold Decoding.ended
  dsimp only
  rw [hlimits, hslots, FrameDecoder.decodeAvailable, FrameDecoder.decodeAvailable]
  simp only [discard_of_none hskipped, hskipped, Option.isSome_none, Bool.false_eq_true, if_false,
    lt_self_iff_false, decide_false]
  cases state.decoder.discard.decodeNext fromStr with
  | none => simp
  | some decoded => simp

lemma ended_mem_decodeLoop (state : Decoding V) : state.ended fromStr ∈ decodeLoop fromStr state := by
  induction hslots : state.decoder.maxFramesPerPush - state.frames.length
    using Nat.strong_induction_on generalizing state with
  | _ slots ih =>
    have hnext : ∀ next : Decoding V, next.decoder.maxFramesPerPush - next.frames.length < slots →
          next.ended fromStr ∈ decodeLoop fromStr next :=
      fun next hless => ih _ hless next rfl
    cases hdiscard : state.decoder.discardBody with
    | none => exact ended_mem_decodeLoop_of_none hdiscard (by rwa [hslots])
    | some remaining =>
      by_cases hroom : state.frames.length < state.decoder.maxFramesPerPush
      · have hturn : decodeTurn fromStr state = _ := decodeTurn_of_discard hroom hdiscard
        have hlimits := congrArg FrameLimits.maxFramesPerPush (discard_limits state.decoder)
        by_cases hskips : state.decoder.discard.discardBody.isSome = true
        · rw [if_pos hskips] at hturn
          have hended : state.ended fromStr = ⟨state.decoder.discard, state.frames, state.progressed ||
              state.decoder.discard.buffer.length < state.decoder.buffer.length⟩ := by
            obtain ⟨k, hk⟩ : ∃ k, state.decoder.maxFramesPerPush - state.frames.length = k + 1 :=
              ⟨state.decoder.maxFramesPerPush - state.frames.length - 1, by omega⟩
            unfold Decoding.ended
            rw [hk, FrameDecoder.decodeAvailable]
            simp [hskips]
          rw [hended]
          exact mem_decodeLoop_of_inl hturn
        · rw [if_neg hskips] at hturn
          have hskipped : state.decoder.discard.discardBody = none := by simpa using hskips
          rw [ended_of_discard hroom hskipped, decodeLoop_of_inr hturn]
          apply ended_mem_decodeLoop_of_none hskipped
          intro next hless
          apply hnext
          dsimp only at hless
          rw [hlimits, hslots] at hless
          exact hless
      · rw [ended_of_full hroom]
        apply mem_decodeLoop_of_inl
        unfold decodeTurn
        rw [if_neg hroom]

lemma decodeLoop_eq (state : Decoding V) : decodeLoop fromStr state = Part.some (state.ended fromStr) :=
  Part.eq_some_iff.mpr (ended_mem_decodeLoop state)

/-! ## Where decoding stops -/

lemma length_drop_le (n : ℕ) (buffer : List UInt8) : (buffer.drop n).length ≤ buffer.length := by
  rw [List.length_drop]
  exact Nat.sub_le _ _

lemma length_discard_le (decoder : FrameDecoder) : decoder.discard.buffer.length ≤ decoder.buffer.length := by
  unfold FrameDecoder.discard
  split
  · exact le_rfl
  · exact length_drop_le _ _

lemma discard_discard (decoder : FrameDecoder) : decoder.discard.discard = decoder.discard := by
  cases hdiscard : decoder.discardBody with
  | none => rw [discard_of_none hdiscard, discard_of_none hdiscard]
  | some remaining =>
    by_cases hleft : remaining - min remaining decoder.buffer.length = 0
    · apply discard_of_none
      simp [FrameDecoder.discard, hdiscard, hleft]
    · have hall : min remaining decoder.buffer.length = decoder.buffer.length := by omega
      rw [hall] at hleft
      simp [FrameDecoder.discard, hdiscard, hall, hleft]

lemma length_resyncHeader_le (buffer : List UInt8) : (resyncHeader buffer).length ≤ buffer.length := by
  unfold resyncHeader
  split
  · exact le_rfl
  · exact length_drop_le _ _

lemma length_decodeNext_le {next : FrameDecoder} {frame : Except FrameError V}
    (h : decoder.decodeNext fromStr = some (next, frame)) : next.buffer.length ≤ decoder.buffer.length := by
  have hresync : ∀ n, (resyncHeader (decoder.buffer.drop n)).length ≤ decoder.buffer.length :=
    fun n => (length_resyncHeader_le _).trans (length_drop_le _ _)
  unfold FrameDecoder.decodeNext at h
  split at h
  · split_ifs at h
    obtain ⟨rfl, -⟩ := Prod.mk.inj (Option.some.inj h)
    exact Nat.zero_le _
  dsimp only at h
  split at h
  · obtain ⟨rfl, -⟩ := Prod.mk.inj (Option.some.inj h)
    exact hresync _
  split at h
  · obtain ⟨rfl, -⟩ := Prod.mk.inj (Option.some.inj h)
    exact hresync _
  split at h
  · split at h
    · obtain ⟨rfl, -⟩ := Prod.mk.inj (Option.some.inj h)
      dsimp only
      split
      · exact length_drop_le _ _
      · exact Nat.zero_le _
    · obtain ⟨rfl, -⟩ := Prod.mk.inj (Option.some.inj h)
      exact Nat.zero_le _
  split at h
  · obtain ⟨rfl, -⟩ := Prod.mk.inj (Option.some.inj h)
    exact Nat.zero_le _
  split at h
  · simp at h
  · obtain ⟨rfl, -⟩ := Prod.mk.inj (Option.some.inj h)
    exact length_drop_le _ _

lemma decodeAvailable_succ (fromStr : Text → Except String V) (decoder : FrameDecoder) (slots : ℕ) :
    decoder.decodeAvailable fromStr (slots + 1) =
      if decoder.discard.discardBody.isSome then
        (decoder.discard, [], decide (decoder.discard.buffer.length < decoder.buffer.length)) else
        match decoder.discard.decodeNext fromStr with
        | none => (decoder.discard, [], decide (decoder.discard.buffer.length < decoder.buffer.length))
        | some (next, frame) =>
          ((next.decodeAvailable fromStr slots).1, frame :: (next.decodeAvailable fromStr slots).2.1, true) := rfl

lemma length_decodeAvailable_le (fromStr : Text → Except String V) (decoder : FrameDecoder) (slots : ℕ) :
    (decoder.decodeAvailable fromStr slots).1.buffer.length ≤ decoder.buffer.length := by
  induction slots generalizing decoder with
  | zero => exact le_rfl
  | succ slots ih =>
    have hdiscard := length_discard_le decoder
    rw [decodeAvailable_succ]
    split
    · exact hdiscard
    split
    · exact hdiscard
    next next frame hnext =>
      exact (ih next).trans ((length_decodeNext_le hnext).trans hdiscard)

lemma decodeAvailable_stops (fromStr : Text → Except String V) (decoder : FrameDecoder)
    {slots : ℕ} (k : ℕ) (h : (decoder.decodeAvailable fromStr slots).2.1.length < slots) :
    ((decoder.decodeAvailable fromStr slots).1.decodeAvailable fromStr k).2 = ([], false) := by
  induction slots generalizing decoder with
  | zero => exact absurd h (Nat.not_lt_zero _)
  | succ slots ih =>
    rw [decodeAvailable_succ fromStr decoder] at h ⊢
    cases k with
    | zero => rfl
    | succ k =>
      by_cases hskips : decoder.discard.discardBody.isSome = true
      · rw [if_pos hskips, decodeAvailable_succ, discard_discard]
        simp [hskips]
      · rw [if_neg hskips] at h ⊢
        cases hnext : decoder.discard.decodeNext fromStr with
        | none =>
          dsimp only
          rw [decodeAvailable_succ, discard_discard, if_neg hskips, hnext]
          simp
        | some decoded =>
          obtain ⟨next, frame⟩ := decoded
          rw [hnext] at h
          exact ih next (by simpa using h)

/-! ## The outer loop -/

/-- What a push keeps: the limits, the bound of the buffer and the number of frames. -/
structure Bounded (limits : FrameLimits) (decoder : FrameDecoder) : Prop where
  limits_eq : decoder.toFrameLimits = limits
  buffer_le : decoder.buffer.length ≤ limits.maxBufferBytes

lemma bounded_ended (fromStr : Text → Except String V) (state : Decoding V)
    (h : Bounded limits state.decoder) (hframes : state.frames.length ≤ limits.maxFramesPerPush) :
    Bounded limits (state.ended fromStr).decoder ∧ (state.ended fromStr).frames.length ≤ limits.maxFramesPerPush := by
  have hmax := congrArg FrameLimits.maxFramesPerPush h.limits_eq
  obtain ⟨hkept, hlength⟩ := decodeAvailable_limits fromStr state.decoder
    (state.decoder.maxFramesPerPush - state.frames.length)
  constructor
  · constructor
    · exact hkept.trans h.limits_eq
    · exact (length_decodeAvailable_le _ _ _).trans h.buffer_le
  · unfold Decoding.ended
    dsimp only
    rw [List.length_append]
    omega

lemma progressed_ended_again (fromStr : Text → Except String V) (state : Decoding V)
    (hroom : (state.ended fromStr).frames.length < (state.ended fromStr).decoder.maxFramesPerPush) :
    (Decoding.ended fromStr ⟨(state.ended fromStr).decoder, (state.ended fromStr).frames, false⟩).progressed
      = false := by
  have hmax := congrArg FrameLimits.maxFramesPerPush (decodeAvailable_limits fromStr state.decoder
    (state.decoder.maxFramesPerPush - state.frames.length)).1
  have hless : (state.decoder.decodeAvailable fromStr
      (state.decoder.maxFramesPerPush - state.frames.length)).2.1.length <
        state.decoder.maxFramesPerPush - state.frames.length := by
    unfold Decoding.ended at hroom
    dsimp only at hroom
    rw [List.length_append, hmax] at hroom
    omega
  have hstops := decodeAvailable_stops fromStr state.decoder
    ((state.ended fromStr).decoder.maxFramesPerPush - (state.ended fromStr).frames.length) hless
  unfold Decoding.ended at hstops ⊢
  dsimp only at hstops ⊢
  rw [hstops]
  rfl

/-- What the variables of `push` satisfy at each turn. -/
def PushInv (limits : FrameLimits) (state : Pushing V) : Prop :=
  Bounded limits state.decoder ∧ state.frames.length ≤ limits.maxFramesPerPush

def PushEnd (limits : FrameLimits) (result : FrameDecoder × List (Except FrameError V)) : Prop :=
  Bounded limits result.1 ∧ result.2.length ≤ limits.maxFramesPerPush + 1

lemma goodTurn_pushTurn (fromStr : Text → Except String V) {state : Pushing V} (h : PushInv limits state) :
    GoodTurn (pushTurn fromStr) (PushInv limits) (PushEnd limits) (fun state => state.chunk.length) state := by
  obtain ⟨hbounded, hframes⟩ := h
  let decoding : Decoding V := ⟨state.decoder, state.frames, false⟩
  obtain ⟨hdecoder, hlength⟩ := bounded_ended fromStr decoding hbounded hframes
  have hmax := congrArg FrameLimits.maxFramesPerPush hdecoder.limits_eq
  have hbuffer := congrArg FrameLimits.maxBufferBytes hdecoder.limits_eq
  have hturn : pushTurn fromStr state = pushTurnFrom fromStr (decoding.ended fromStr) state.chunk := by
    unfold pushTurn
    rw [decodeLoop_eq, Part.bind_some]
  have hagain := progressed_ended_again fromStr decoding
  unfold GoodTurn
  rw [hturn]
  generalize decoding.ended fromStr = decoded at *
  unfold pushTurnFrom
  dsimp only
  split_ifs with hempty hfull hover hnone
  · exact Or.inl ⟨_, Part.mem_some _, hdecoder, Nat.le_succ_of_le hlength⟩
  · refine Or.inl ⟨_, Part.mem_some _, ⟨hdecoder.limits_eq, Nat.zero_le _⟩, ?_⟩
    simpa using hlength
  · refine Or.inl ⟨_, Part.mem_some _, ⟨hdecoder.limits_eq, ?_⟩, Nat.le_succ_of_le hlength⟩
    have hroom := hdecoder.buffer_le
    unfold FrameDecoder.available at hover
    rw [List.length_append]
    omega
  · -- The buffer is full and nothing in it can be decoded.
    have hstops := hagain (by omega)
    obtain ⟨hkept, hkeptLength⟩ :=
      bounded_ended fromStr ⟨decoded.decoder, decoded.frames, false⟩ hdecoder hlength
    rw [decodeLoop_eq, Part.map_some, if_neg (by rw [hstops]; decide)]
    exact Or.inl ⟨_, Part.mem_some _, ⟨hkept.limits_eq, Nat.zero_le _⟩, by simpa using hkeptLength⟩
  · refine Or.inr ⟨_, Part.mem_some _, ⟨⟨hdecoder.limits_eq, ?_⟩, hlength⟩, ?_⟩
    · have hroom := hdecoder.buffer_le
      unfold FrameDecoder.available
      dsimp only
      rw [List.length_append, List.length_take]
      omega
    · have hpositive : 0 < state.chunk.length := List.length_pos_iff.mpr hempty
      dsimp only
      rw [List.length_drop]
      omega

lemma exists_mem_runPush (fromStr : Text → Except String V) (h : Bounded limits decoder) (chunk : List UInt8) :
    ∃ result ∈ runPush fromStr decoder chunk, PushEnd limits result := by
  have hstart : PushInv limits (⟨decoder, [], chunk⟩ : Pushing V) := ⟨h, Nat.zero_le _⟩
  exact exists_mem_fix (I := PushInv limits) (fun state => state.chunk.length)
    (fun _ hstate => goodTurn_pushTurn fromStr hstate) hstart

lemma exists_mem_runPushes (fromStr : Text → Except String V)
    (h : Bounded limits decoder) (chunks : List (List UInt8)) :
    ∃ reached ∈ runPushes fromStr decoder chunks, Bounded limits reached := by
  induction chunks generalizing decoder with
  | nil => exact ⟨decoder, Part.mem_some _, h⟩
  | cons chunk chunks ih =>
    obtain ⟨pushed, hpushed, hbounded, -⟩ := exists_mem_runPush fromStr h chunk
    obtain ⟨reached, hreached, hend⟩ := ih hbounded
    exact ⟨reached, Part.mem_bind hpushed hreached, hend⟩

end

/-- Every push ends within the bound of the buffer, with at most one result too many. -/
theorem push_ends (fromStr : Text → Except String V) (decoder : FrameDecoder)
    (hbuilt : decoder.IsBuilt) (chunks : List (List UInt8)) (chunk : List UInt8) :
    ∃ reached ∈ runPushes fromStr decoder chunks, ∃ result ∈ runPush fromStr reached chunk,
      result.1.buffer.length ≤ decoder.maxBufferBytes ∧ result.2.length ≤ decoder.maxFramesPerPush + 1 := by
  have hstart : Bounded decoder.toFrameLimits decoder := by
    cases hbuilt with
    | new maxBodyBytes => exact ⟨rfl, Nat.zero_le _⟩
    | withLimits maxBodyBytes maxHeaderBytes maxBufferBytes maxFramesPerPush =>
      exact ⟨rfl, Nat.zero_le _⟩
  obtain ⟨reached, hreached, hbounded⟩ := exists_mem_runPushes fromStr hstart chunks
  obtain ⟨result, hresult, hend, hlength⟩ := exists_mem_runPush fromStr hbounded chunk
  exact ⟨reached, hreached, result, hresult, hend.buffer_le, hlength⟩

/-- Small limits, the end of a header without a length, and garbage. -/
theorem push_ends_garbage :
    ∃ reached ∈ runPushes (fun text => .ok text) (.withLimits 4 4 5 1) [[13, 10, 13, 10]],
      ∃ result ∈ runPush (fun text => .ok text) reached (List.replicate 40 65),
        result.1.buffer.length ≤ 5 ∧ result.2.length ≤ 2 :=
  push_ends (fun text => .ok text) _ (.withLimits 4 4 5 1) [[13, 10, 13, 10]] (List.replicate 40 65)

end AgzRustMcp.Lsp
