import AgzRustMcp.Lsp.Framing

/-!
# Reads of the frame decoder

A push returns at most `max_frames_per_push` results, and what is left over waits in the buffer for
the next read, which may never come.  After every read exactly the results that are due have been
returned if and only if no read completes more of them than a push returns (`prompt_iff_light`).
-/

namespace AgzRustMcp.Lsp

open Utf8Text

variable {V : Type} {fromStr : Text → Except String V} {m : ℕ} {decoder : FrameDecoder}
  {frames : List (Except FrameError V)} {chunk future : List UInt8} {messages : List (Message fromStr)}

/-! ## Turns of a push -/

/-- The push is full in the middle of a body, and the chunk is larger than the buffer. -/
def Overfull (m : ℕ) (frames : List (Except FrameError V)) (messages : List (Message fromStr))
    (chunk future : List UInt8) : Prop :=
  defaultMaxFramesPerRead ≤ frames.length + dueBefore m messages (chunk ++ future) ∧
    (streamOf (messages.drop (dueBefore m messages (chunk ++ future)))).length < (chunk ++ future).length ∧
    bufferBytes m < chunk.length

lemma dueBefore_mono (messages : List (Message fromStr)) (chunk future : List UInt8) :
    dueBefore m messages (chunk ++ future) ≤ dueBefore m messages future := by
  refine due_mono messages ?_
  rw [List.length_append]
  omega

lemma dueBefore_drop {n : ℕ} (h : n ≤ dueBefore m messages (chunk ++ future)) :
    dueBefore m (messages.drop n) future = dueBefore m messages future - n := by
  have hle := h.trans (dueBefore_mono messages chunk future)
  rw [dueBefore, dueBefore, ← due_drop hle]
  have hlen : (streamOf messages).length =
      (streamOf (messages.take n)).length + (streamOf (messages.drop n)).length := by
    rw [← List.length_append, ← streamOf_append, List.take_append_drop]
  rw [hlen]
  congr 1
  omega

lemma dueBefore_drop_self (messages : List (Message fromStr)) (future : List UInt8) :
    dueBefore m (messages.drop (dueBefore m messages future)) future = 0 := by
  have hle : dueBefore m messages future ≤ dueBefore m messages (([] : List UInt8) ++ future) := le_rfl
  have hdrop := dueBefore_drop hle
  rw [Nat.sub_self] at hdrop
  exact hdrop

lemma Stands.limits (h : Stands m decoder future messages) :
    decoder.maxFramesPerPush = defaultMaxFramesPerRead ∧ decoder.maxBufferBytes = bufferBytes m := by
  rw [h.1]
  exact ⟨rfl, rfl⟩

lemma Stands.length_add_le (h : Stands m decoder future messages)
    (hgap : decoder.discardBody.getD 0 = 0) (hdue : dueBefore m messages future = 0) :
    decoder.buffer.length + 8152 ≤ bufferBytes m := by
  have hlen := h.length_eq
  cases messages with
  | nil =>
    have hbuffer : bufferBytes m ≥ 8152 := by
      simp only [bufferBytes, FrameLimits.new, saturatingAdd, defaultMaxHeaderBytes, u64Max]
      omega
    simp only [streamOf, List.flatMap_nil, List.length_nil] at hlen
    omega
  | cons message messages =>
    have hpoint := message.point_add_le (m := m)
    rw [dueBefore, due] at hdue
    split at hdue
    · omega
    · omega

lemma le_bufferBytes (m : ℕ) : 8152 ≤ bufferBytes m := by
  simp only [bufferBytes, FrameLimits.new, saturatingAdd, defaultMaxHeaderBytes, u64Max]
  omega

lemma Stands.buffer_length (h : Stands m decoder future messages) (hsettled : decoder.Settled) :
    decoder.buffer.length = (streamOf messages).length - future.length := by
  have hlen := h.length_eq
  rcases hsettled with hgap | hempty
  · omega
  · rw [hempty, List.length_nil] at hlen ⊢
    omega

lemma Stands.pushLoop_of_lt (frames : List (Except FrameError V))
    (h : Stands m decoder (chunk ++ future) messages) (hchunk : chunk ≠ [])
    (hcount : frames.length + dueBefore m messages (chunk ++ future) < defaultMaxFramesPerRead)
    (fuel : ℕ) : let n := dueBefore m messages (chunk ++ future)
    let k := min (bufferBytes m - ((streamOf (messages.drop n)).length - (chunk ++ future).length))
      chunk.length
    ∃ next, decoder.pushLoop fromStr (fuel + 1) frames chunk =
        next.pushLoop fromStr fuel (frames ++ (messages.take n).map (·.result m)) (chunk.drop k) ∧
      Stands m next (chunk.drop k ++ future) (messages.drop n) ∧ min 8152 chunk.length ≤ k := by
  intro n k
  obtain ⟨hresults, hstands, hsettled⟩ :=
    h.decodeAvailable (defaultMaxFramesPerRead - frames.length)
  have hmin : min (defaultMaxFramesPerRead - frames.length)
      (dueBefore m messages (chunk ++ future)) = n := by omega
  rw [hmin] at hresults hstands
  generalize hout : decoder.decodeAvailable fromStr (defaultMaxFramesPerRead - frames.length) = out
    at hresults hstands hsettled
  have hbuffer := hstands.buffer_length (hsettled (by omega))
  have hnone : dueBefore m (messages.drop n) (chunk ++ future) = 0 := dueBefore_drop_self _ _
  have hroom : out.1.buffer.length + 8152 ≤ bufferBytes m := by
    rcases hsettled (by omega) with hgap | hempty
    · exact hstands.length_add_le hgap hnone
    · rw [hempty]
      have := le_bufferBytes m
      simpa using this
  have hk : k = min out.1.available chunk.length := by
    rw [FrameDecoder.available, hstands.limits.2, hbuffer]
  refine ⟨{ out.1 with buffer := out.1.buffer ++ chunk.take k }, ?_, ?_, by omega⟩
  · have hlength : (frames ++ (messages.take n).map (·.result m)).length < defaultMaxFramesPerRead := by
      simp only [List.length_append, List.length_map, List.length_take]
      omega
    have havailable : out.1.available ≠ 0 := by
      rw [FrameDecoder.available, hstands.limits.2]
      omega
    rw [FrameDecoder.pushLoop, h.limits.1, hout]
    dsimp only
    rw [hresults, hstands.limits.1, if_neg hchunk, if_neg (by omega), if_neg havailable, hk]
  · obtain ⟨hlimits, gap, hgap, heq⟩ := hstands
    refine ⟨hlimits, gap, hgap, ?_⟩
    rw [← heq, ← List.append_assoc, List.append_assoc out.1.buffer, List.take_append_drop, List.append_assoc]

lemma Stands.pushLoop_of_eq (h : Stands m decoder (chunk ++ future) messages) (hchunk : chunk ≠ [])
    (hframes : frames.length < defaultMaxFramesPerRead)
    (hcount : frames.length + dueBefore m messages future = defaultMaxFramesPerRead)
    (hall : dueBefore m messages (chunk ++ future) = dueBefore m messages future) (fuel : ℕ) :
    let n := dueBefore m messages future
    let out := decoder.pushLoop fromStr (fuel + 1) frames chunk
    (Overfull m frames messages chunk future → .error .bufferTooLarge ∈ out.2) ∧
      (¬ Overfull m frames messages chunk future → out.2 = frames ++ (messages.take n).map (·.result m) ∧
          Stands m out.1 future (messages.drop n)) := by
  intro n out
  obtain ⟨hresults, hstands, hsettled⟩ :=
    h.decodeAvailable (defaultMaxFramesPerRead - frames.length)
  have hmin : min (defaultMaxFramesPerRead - frames.length)
      (dueBefore m messages (chunk ++ future)) = n := by omega
  rw [hmin] at hresults hstands
  generalize hdecoded :
    decoder.decodeAvailable fromStr (defaultMaxFramesPerRead - frames.length) = decoded
    at hresults hstands hsettled
  have hlimits := hstands.limits
  have hlength : (frames ++ (messages.take n).map (·.result m)).length ≥
      defaultMaxFramesPerRead := by
    have hle : n ≤ messages.length := due_le_length messages _
    simp only [List.length_append, List.length_map, List.length_take]
    omega
  have hstream := hstands.length_eq
  have hout : out = if chunk.length > decoded.1.available then
        ({ decoded.1 with buffer := [] }, frames ++ (messages.take n).map (·.result m) ++ [.error .bufferTooLarge])
      else ({ decoded.1 with buffer := decoded.1.buffer ++ chunk },
        frames ++ (messages.take n).map (·.result m)) := by
    simp only [out]
    rw [FrameDecoder.pushLoop, h.limits.1, hdecoded]
    dsimp only
    rw [hresults, hlimits.1, if_neg hchunk, if_pos hlength]
  -- When nothing is to be skipped, the buffer and the chunk are a part of one message.
  have hfit : decoded.1.discardBody.getD 0 = 0 → chunk.length ≤ decoded.1.available := by
    intro hgap
    have hnone : dueBefore m (messages.drop n) future = 0 := dueBefore_drop_self _ _
    have hjoined : Stands m { decoded.1 with buffer := decoded.1.buffer ++ chunk } future
        (messages.drop n) := by
      obtain ⟨hl, gap, hg, heq⟩ := hstands
      exact ⟨hl, gap, hg, by rw [← heq, List.append_assoc]⟩
    have hsmall := hjoined.length_add_le hgap hnone
    rw [FrameDecoder.available, hlimits.2]
    rw [List.length_append] at hsmall
    omega
  constructor
  · rintro ⟨-, hinside, hlarge⟩
    have hover : chunk.length > decoded.1.available := by
      rw [FrameDecoder.available, hlimits.2]
      omega
    rw [hout, if_pos hover]
    simp
  · intro hnot
    have hle : chunk.length ≤ decoded.1.available := by
      rcases Nat.eq_zero_or_pos (decoded.1.discardBody.getD 0) with hgap | hpos
      · exact hfit hgap
      · have hempty := (hsettled (by omega)).resolve_left (by omega)
        rw [hempty, List.length_nil] at hstream
        have hinside : (streamOf (messages.drop n)).length < (chunk ++ future).length := by omega
        rw [FrameDecoder.available, hlimits.2, hempty, List.length_nil]
        by_contra hlarge
        exact hnot ⟨by omega, by rw [hall]; exact hinside, by omega⟩
    rw [hout, if_neg (by omega)]
    refine ⟨rfl, ?_⟩
    obtain ⟨hl, gap, hg, heq⟩ := hstands
    exact ⟨hl, gap, hg, by rw [← heq, List.append_assoc]⟩

lemma Stands.pushLoop_nil (h : Stands m decoder future messages)
    (hcount : frames.length + dueBefore m messages future ≤ defaultMaxFramesPerRead) (fuel : ℕ) :
    let n := dueBefore m messages future
    let out := decoder.pushLoop fromStr (fuel + 1) frames []
    out.2 = frames ++ (messages.take n).map (·.result m) ∧ Stands m out.1 future (messages.drop n) := by
  intro n out
  obtain ⟨hresults, hstands, -⟩ := h.decodeAvailable (defaultMaxFramesPerRead - frames.length)
  have hmin : min (defaultMaxFramesPerRead - frames.length) (dueBefore m messages future) = n := by
    omega
  rw [hmin] at hresults hstands
  have hout : out = ((decoder.decodeAvailable fromStr
      (defaultMaxFramesPerRead - frames.length)).1, frames ++ (decoder.decodeAvailable fromStr
      (defaultMaxFramesPerRead - frames.length)).2.1) := by
    simp only [out]
    rw [FrameDecoder.pushLoop, h.limits.1]
    exact if_pos rfl
  rw [hout]
  exact ⟨by rw [hresults], hstands⟩

lemma Stands.pushLoop_exact (frames : List (Except FrameError V)) (fuel : ℕ)
    (h : Stands m decoder (chunk ++ future) messages) (hframes : frames.length < defaultMaxFramesPerRead)
    (hcount : frames.length + dueBefore m messages future ≤ defaultMaxFramesPerRead)
    (hfuel : chunk.length < fuel) (hchunk : chunk.length ≤ bufferBytes m + 8152)
    (hsafe : ¬ Overfull m frames messages chunk future) : let n := dueBefore m messages future
    let out := decoder.pushLoop fromStr fuel frames chunk
    out.2 = frames ++ (messages.take n).map (·.result m) ∧ Stands m out.1 future (messages.drop n) := by
  -- The induction is on the number of turns; after the first one the chunk fits in the buffer.
  induction fuel generalizing decoder frames chunk messages with
  | zero => omega
  | succ fuel ih =>
    intro n out
    by_cases hempty : chunk = []
    · subst hempty
      exact Stands.pushLoop_nil (by simpa using h) hcount fuel
    have hpos := List.length_pos_iff.mpr hempty
    have hmono := dueBefore_mono messages chunk future (m := m)
    by_cases hlt : frames.length + dueBefore m messages (chunk ++ future) < defaultMaxFramesPerRead
    · obtain ⟨next, hturn, hstands, hk⟩ := h.pushLoop_of_lt frames hempty hlt fuel
      generalize hcut : min (bufferBytes m - ((streamOf (messages.drop (dueBefore m messages
        (chunk ++ future)))).length - (chunk ++ future).length)) chunk.length = k
        at hturn hstands hk
      have hdrop := dueBefore_drop (le_refl (dueBefore m messages (chunk ++ future)))
      have hle : dueBefore m messages (chunk ++ future) ≤ messages.length :=
        due_le_length messages _
      have hlength : (frames ++ (messages.take (dueBefore m messages (chunk ++ future))).map
          (·.result m)).length = frames.length + dueBefore m messages (chunk ++ future) := by
        simp [hle]
      have hrest : (chunk.drop k).length ≤ bufferBytes m := by
        rw [List.length_drop]
        omega
      have hnext : (frames ++ (messages.take (dueBefore m messages (chunk ++ future))).map
          (·.result m)).length < defaultMaxFramesPerRead := hlength ▸ hlt
      obtain ⟨hresults, hend⟩ := ih _ hstands hnext (by rw [hlength, hdrop]; omega)
        (by rw [List.length_drop]; omega) (by omega) fun hover => by
          have hlarge := hover.2.2
          omega
      have htake : messages.take n = messages.take (dueBefore m messages (chunk ++ future)) ++
          (messages.drop (dueBefore m messages (chunk ++ future))).take
            (n - dueBefore m messages (chunk ++ future)) := by
        rw [← List.take_add]
        congr 1
        omega
      rw [hdrop] at hresults hend
      refine ⟨?_, ?_⟩
      · rw [show out = _ from hturn, hresults, htake, List.map_append, List.append_assoc]
      · rw [show out = _ from hturn]
        rw [List.drop_drop] at hend
        rwa [show dueBefore m messages (chunk ++ future) +
          (dueBefore m messages future - dueBefore m messages (chunk ++ future)) = n by omega] at hend
    · exact (h.pushLoop_of_eq hempty hframes (by omega) (by omega) fuel).2 hsafe

/-- How much of a read the first turn takes. -/
def firstTake (m : ℕ) (messages : List (Message fromStr)) (chunk future : List UInt8) : ℕ :=
  min (bufferBytes m - ((streamOf messages).length - (chunk ++ future).length)) chunk.length

lemma Stands.push_eq (h : Stands m decoder (chunk ++ future) messages) (hchunk : chunk ≠ [])
    (hnone : dueBefore m messages (chunk ++ future) = 0) :
    ∃ next, decoder.push fromStr chunk = next.pushLoop fromStr chunk.length []
        (chunk.drop (firstTake m messages chunk future)) ∧
      Stands m next (chunk.drop (firstTake m messages chunk future) ++ future) messages ∧
      min 8152 chunk.length ≤ firstTake m messages chunk future := by
  obtain ⟨next, hturn, hstands, hk⟩ := h.pushLoop_of_lt [] hchunk
    (by rw [hnone]; simp [defaultMaxFramesPerRead]) chunk.length
  rw [hnone, List.drop_zero] at hturn hstands hk
  exact ⟨next, hturn, hstands, hk⟩

lemma Stands.push_exact (h : Stands m decoder (chunk ++ future) messages)
    (hnone : dueBefore m messages (chunk ++ future) = 0)
    (hcount : dueBefore m messages future ≤ defaultMaxFramesPerRead) (hread : chunk.length ≤ 16 * 1024)
    (hsafe : ¬ Overfull m ([] : List (Except FrameError V)) messages
      (chunk.drop (firstTake m messages chunk future)) future) : let n := dueBefore m messages future
    let out := decoder.push fromStr chunk
    out.2 = (messages.take n).map (·.result m) ∧ Stands m out.1 future (messages.drop n) := by
  intro n out
  by_cases hempty : chunk = []
  · subst hempty
    exact Stands.pushLoop_nil (by simpa using h) (by simpa using hcount) 0
  have hpos := List.length_pos_iff.mpr hempty
  obtain ⟨next, hturn, hstands, hk⟩ := h.push_eq hempty hnone
  have hbuffer := le_bufferBytes m
  have hexact := hstands.pushLoop_exact [] chunk.length
    (by simp [defaultMaxFramesPerRead]) (by simpa using hcount) (by rw [List.length_drop]; omega)
    (by rw [List.length_drop]; omega) hsafe
  rw [← hturn] at hexact
  exact hexact

lemma Stands.push_overfull (h : Stands m decoder (chunk ++ future) messages)
    (hnone : dueBefore m messages (chunk ++ future) = 0)
    (hcount : dueBefore m messages future ≤ defaultMaxFramesPerRead)
    (hover : Overfull m ([] : List (Except FrameError V)) messages
      (chunk.drop (firstTake m messages chunk future)) future) :
    .error .bufferTooLarge ∈ (decoder.push fromStr chunk).2 := by
  have hlarge := hover.2.2
  have hrest : chunk.drop (firstTake m messages chunk future) ≠ [] := by
    intro hnil
    rw [hnil, List.length_nil] at hlarge
    omega
  have hchunk : chunk ≠ [] := fun hnil => hrest (by rw [hnil, List.drop_nil])
  have hpos := List.length_pos_iff.mpr hchunk
  obtain ⟨next, hturn, hstands, -⟩ := h.push_eq hchunk hnone
  obtain ⟨fuel, hfuel⟩ : ∃ fuel, chunk.length = fuel + 1 := ⟨chunk.length - 1, by omega⟩
  have hmono := dueBefore_mono messages (chunk.drop (firstTake m messages chunk future)) future
    (m := m)
  have hfull := hover.1
  rw [List.length_nil] at hfull
  rw [hturn, hfuel]
  exact (hstands.pushLoop_of_eq hrest (by simp [defaultMaxFramesPerRead]) (by rw [List.length_nil]; omega) (by omega)
    fuel).1 hover

lemma decodeNext_limits {next : FrameDecoder} {frame : Except FrameError V}
    (h : decoder.decodeNext fromStr = some (next, frame)) : next.toFrameLimits = decoder.toFrameLimits := by
  unfold FrameDecoder.decodeNext at h
  split at h
  · split at h
    · obtain ⟨rfl, -⟩ := Prod.mk.inj (Option.some.inj h)
      rfl
    · simp at h
  dsimp only at h
  split at h
  · obtain ⟨rfl, -⟩ := Prod.mk.inj (Option.some.inj h)
    rfl
  split at h
  · obtain ⟨rfl, -⟩ := Prod.mk.inj (Option.some.inj h)
    rfl
  split at h
  · split at h
    all_goals
      obtain ⟨rfl, -⟩ := Prod.mk.inj (Option.some.inj h)
      rfl
  split at h
  · obtain ⟨rfl, -⟩ := Prod.mk.inj (Option.some.inj h)
    rfl
  split at h
  · simp at h
  · obtain ⟨rfl, -⟩ := Prod.mk.inj (Option.some.inj h)
    rfl

lemma decodeAvailable_limits (fromStr : Text → Except String V) (decoder : FrameDecoder) (slots : ℕ) :
    (decoder.decodeAvailable fromStr slots).1.toFrameLimits = decoder.toFrameLimits ∧
      (decoder.decodeAvailable fromStr slots).2.1.length ≤ slots := by
  induction slots generalizing decoder with
  | zero => exact ⟨rfl, le_rfl⟩
  | succ slots ih =>
    have hdiscard : decoder.discard.toFrameLimits = decoder.toFrameLimits := by
      unfold FrameDecoder.discard
      split <;> rfl
    unfold FrameDecoder.decodeAvailable
    dsimp only
    split
    · exact ⟨hdiscard, Nat.zero_le _⟩
    split
    · exact ⟨hdiscard, Nat.zero_le _⟩
    next next frame hnext =>
      have hrec := ih next
      exact ⟨hrec.1.trans ((decodeNext_limits hnext).trans hdiscard), Nat.succ_le_succ hrec.2⟩

lemma length_pushLoop_le (fromStr : Text → Except String V) (chunk : List UInt8) (fuel : ℕ) {k : ℕ}
    (hmax : decoder.maxFramesPerPush = k) (hframes : frames.length ≤ k) :
    (decoder.pushLoop fromStr fuel frames chunk).2.length ≤ k ∨
      .error .bufferTooLarge ∈ (decoder.pushLoop fromStr fuel frames chunk).2 := by
  induction fuel generalizing decoder frames chunk with
  | zero => exact Or.inl hframes
  | succ fuel ih =>
    have hstep : ∀ (d : FrameDecoder) (fs : List (Except FrameError V)), d.maxFramesPerPush = k → fs.length ≤ k →
        (d.decodeAvailable fromStr (d.maxFramesPerPush - fs.length)).1.maxFramesPerPush = k ∧
          (fs ++ (d.decodeAvailable fromStr (d.maxFramesPerPush - fs.length)).2.1).length ≤ k := by
      intro d fs hd hfs
      obtain ⟨hlimits, hlen⟩ := decodeAvailable_limits fromStr d
        (d.maxFramesPerPush - fs.length)
      refine ⟨(congrArg FrameLimits.maxFramesPerPush hlimits).trans hd, ?_⟩
      rw [List.length_append]
      omega
    obtain ⟨hmax', hlen⟩ := hstep decoder frames hmax hframes
    unfold FrameDecoder.pushLoop
    dsimp only
    split
    · exact Or.inl hlen
    split
    · split
      · exact Or.inr (by simp)
      · exact Or.inl hlen
    split
    · split
      · obtain ⟨hagain, hagainLen⟩ := hstep _ _ hmax' hlen
        exact ih _ hagain hagainLen
      · exact Or.inr (by simp)
    · exact ih _ hmax' hlen

/-! ## All reads -/

def bytesRead (reads : List (List UInt8)) (j : ℕ) : ℕ := (reads.take j).flatten.length

/-- The first turn of the push fills the buffer with as many results as a push returns, ends inside
a body to skip, and leaves more than a buffer of the read. -/
def Spilling (m : ℕ) (messages : List (Message fromStr)) (start stop : ℕ) : Prop :=
  let filled := start + (bufferBytes m - (start - (streamOf (messages.take (due m messages start))).length))
  due m messages start + defaultMaxFramesPerRead ≤ due m messages filled ∧
    filled < (streamOf (messages.take (due m messages filled))).length ∧
    filled + bufferBytes m < stop

/-- Between reads: no more results than a push returns, and no spill. -/
def Light (m : ℕ) (messages : List (Message fromStr)) (start stop : ℕ) : Prop :=
  due m messages stop ≤ due m messages start + defaultMaxFramesPerRead ∧ ¬ Spilling m messages start stop

instance (m : ℕ) (messages : List (Message fromStr)) (start stop : ℕ) : Decidable (Light m messages start stop) :=
  inferInstanceAs (Decidable (_ ≤ _ ∧ ¬ (_ ≤ _ ∧ _ < _ ∧ _ < _)))

def dueResults (m : ℕ) (messages : List (Message fromStr)) (bytes : ℕ) : List (Except FrameError V) :=
  (messages.take (due m messages bytes)).map (·.result m)

/-- After every read exactly the results that are due have been returned. -/
def Prompt (m : ℕ) (messages : List (Message fromStr)) (reads : List (List UInt8)) : Prop :=
  ∀ j ≤ reads.length, ((FrameDecoder.new m).pushAll fromStr (reads.take j)).2 =
    dueResults m messages (bytesRead reads j)

lemma streamOf_drop_sub (messages : List (Message fromStr)) (n a rest : ℕ)
    (h : a + rest = (streamOf messages).length) :
    (streamOf (messages.drop n)).length - rest = a - (streamOf (messages.take n)).length := by
  have hlen : (streamOf messages).length =
      (streamOf (messages.take n)).length + (streamOf (messages.drop n)).length := by
    rw [← List.length_append, ← streamOf_append, List.take_append_drop]
  omega

lemma dueBefore_drop_eq {messages : List (Message fromStr)} {n a : ℕ} {future : List UInt8}
    (h : a + future.length = (streamOf messages).length) (hn : n ≤ due m messages a) :
    dueBefore m (messages.drop n) future = due m messages a - n := by
  rw [dueBefore, streamOf_drop_sub messages n a _ h]
  exact due_drop hn

lemma overfull_iff_spilling {start : ℕ} (h : start + (chunk ++ future).length = (streamOf messages).length) :
    Overfull m ([] : List (Except FrameError V)) (messages.drop (due m messages start))
        (chunk.drop (firstTake m (messages.drop (due m messages start)) chunk future)) future ↔
      Spilling m messages start (start + chunk.length) := by
  have hroom : (streamOf (messages.drop (due m messages start))).length -
      (chunk ++ future).length = start - (streamOf (messages.take (due m messages start))).length :=
    streamOf_drop_sub messages _ start _ h
  generalize hfirst : firstTake m (messages.drop (due m messages start)) chunk future = k
  rw [firstTake, hroom] at hfirst
  rw [List.length_append] at h
  -- The two conditions are about the same offset unless the first turn takes the whole read.
  by_cases hwhole : chunk.length ≤ bufferBytes m - (start - (streamOf (messages.take (due m messages start))).length)
  · rw [min_eq_right hwhole] at hfirst
    constructor
    · rintro ⟨-, -, hlarge⟩
      rw [List.length_drop] at hlarge
      omega
    · rintro ⟨-, -, hlarge⟩
      omega
  · rw [min_eq_left (by omega)] at hfirst
    subst hfirst
    generalize hk : bufferBytes m -
      (start - (streamOf (messages.take (due m messages start))).length) = k at hwhole ⊢
    have hrest : start + k + (chunk.drop k ++ future).length = (streamOf messages).length := by
      rw [List.length_append, List.length_drop]
      omega
    have hmono : due m messages start ≤ due m messages (start + k) :=
      due_mono messages (Nat.le_add_right _ _)
    have hdue := dueBefore_drop_eq hrest hmono
    have htotal : (streamOf messages).length = (streamOf (messages.take (due m messages (start + k)))).length +
          (streamOf (messages.drop (due m messages (start + k)))).length := by
      rw [← List.length_append, ← streamOf_append, List.take_append_drop]
    have hsum : due m messages start + (due m messages (start + k) - due m messages start) =
        due m messages (start + k) := by omega
    unfold Overfull Spilling
    simp only [hdue, hk, List.drop_drop, hsum, List.length_nil, List.length_drop]
    constructor
    · rintro ⟨hmany, hinside, hlarge⟩
      exact ⟨by omega, by omega, by omega⟩
    · rintro ⟨hmany, hinside, hlarge⟩
      exact ⟨by omega, by omega, by omega⟩

lemma bufferTooLarge_notMem (messages : List (Message fromStr)) :
    Except.error FrameError.bufferTooLarge ∉ messages.map (·.result m) := by
  intro hmem
  obtain ⟨message, -, hresult⟩ := List.mem_map.mp hmem
  unfold Message.result at hresult
  split at hresult
  · cases hresult
  · cases hresult

lemma Stands.read {start : ℕ} (h : Stands m decoder (chunk ++ future) (messages.drop (due m messages start)))
    (hstart : start + (chunk ++ future).length = (streamOf messages).length) (hread : chunk.length ≤ 16 * 1024) :
    ((decoder.push fromStr chunk).2 = ((messages.drop (due m messages start)).take
        (due m messages (start + chunk.length) - due m messages start)).map (·.result m) ↔
      Light m messages start (start + chunk.length)) ∧
    (Light m messages start (start + chunk.length) → Stands m (decoder.push fromStr chunk).1 future
        (messages.drop (due m messages (start + chunk.length)))) := by
  have hmono : due m messages start ≤ due m messages (start + chunk.length) :=
    due_mono messages (Nat.le_add_right _ _)
  have hnone : dueBefore m (messages.drop (due m messages start)) (chunk ++ future) = 0 := by
    rw [dueBefore_drop_eq hstart le_rfl, Nat.sub_self]
  have hdue : dueBefore m (messages.drop (due m messages start)) future =
      due m messages (start + chunk.length) - due m messages start := by
    rw [List.length_append] at hstart
    exact dueBefore_drop_eq (by omega) hmono
  have hspill := overfull_iff_spilling (m := m) hstart
  have hexact : Light m messages start (start + chunk.length) → _ := fun hlight =>
    h.push_exact hnone (by rw [hdue]; have := hlight.1; omega) hread (mt hspill.mp hlight.2)
  refine ⟨⟨fun heq => ?_, fun hlight => ?_⟩, fun hlight => ?_⟩
  · have hcount : due m messages (start + chunk.length) ≤ due m messages start + defaultMaxFramesPerRead := by
      have hbound : ([] : List (Except FrameError V)).length ≤ defaultMaxFramesPerRead := Nat.zero_le _
      rcases length_pushLoop_le fromStr chunk (chunk.length + 1) h.limits.1 hbound with hlen | hmem
      · have hle := due_le_length messages (m := m) (start + chunk.length)
        have hlength := congrArg List.length heq
        rw [List.length_map, List.length_take, List.length_drop] at hlength
        have hpush : (decoder.push fromStr chunk).2.length ≤ defaultMaxFramesPerRead := hlen
        omega
      · have hpush : .error .bufferTooLarge ∈ (decoder.push fromStr chunk).2 := hmem
        rw [heq] at hpush
        exact absurd hpush (bufferTooLarge_notMem _)
    refine ⟨hcount, fun hspilling => ?_⟩
    have hpush := h.push_overfull hnone (by rw [hdue]; omega) (hspill.mpr hspilling)
    rw [heq] at hpush
    exact bufferTooLarge_notMem _ hpush
  · have hresults := (hexact hlight).1
    rwa [hdue] at hresults
  · have hstands := (hexact hlight).2
    rw [hdue, List.drop_drop] at hstands
    rwa [show due m messages start + (due m messages (start + chunk.length) - due m messages start) =
        due m messages (start + chunk.length) by omega] at hstands

lemma pushAll_append (decoder : FrameDecoder) (reads : List (List UInt8)) (chunk : List UInt8) :
    decoder.pushAll fromStr (reads ++ [chunk]) = (((decoder.pushAll fromStr reads).1.push fromStr chunk).1,
        (decoder.pushAll fromStr reads).2 ++ ((decoder.pushAll fromStr reads).1.push fromStr chunk).2) := by
  rw [FrameDecoder.pushAll, List.foldl_append]
  rfl

lemma stands_new (m : ℕ) (messages : List (Message fromStr)) :
    Stands m (FrameDecoder.new m) (streamOf messages) messages :=
  ⟨rfl, [], rfl, rfl⟩

section Reads

variable {reads : List (List UInt8)}

lemma bytesRead_succ {j : ℕ} (hj : j < reads.length) :
    bytesRead reads (j + 1) = bytesRead reads j + reads[j].length := by
  rw [bytesRead, List.take_succ_eq_append_getElem hj, List.flatten_append, List.length_append]
  simp [bytesRead]

lemma flatten_drop {j : ℕ} (hj : j < reads.length) :
    (reads.drop j).flatten = reads[j] ++ (reads.drop (j + 1)).flatten := by
  rw [List.drop_eq_getElem_cons hj, List.flatten_cons]

lemma bytesRead_add (hstream : reads.flatten = streamOf messages) (j : ℕ) :
    bytesRead reads j + (reads.drop j).flatten.length = (streamOf messages).length := by
  rw [← hstream, bytesRead, ← List.length_append, ← List.flatten_append, List.take_append_drop]

lemma stands_of_light (hstream : reads.flatten = streamOf messages)
    (hreads : ∀ chunk ∈ reads, chunk.length ≤ 16 * 1024) {j : ℕ} (hj : j ≤ reads.length)
    (hlight : ∀ i < j, Light m messages (bytesRead reads i) (bytesRead reads (i + 1))) :
    ((FrameDecoder.new m).pushAll fromStr (reads.take j)).2 = dueResults m messages (bytesRead reads j) ∧
      Stands m ((FrameDecoder.new m).pushAll fromStr (reads.take j)).1 (reads.drop j).flatten
        (messages.drop (due m messages (bytesRead reads j))) := by
  induction j with
  | zero =>
    have hstands := stands_new m messages
    rw [← hstream] at hstands
    simpa [bytesRead, dueResults, FrameDecoder.pushAll] using hstands
  | succ j ih =>
    obtain ⟨hresults, hstands⟩ := ih (by omega) fun i hi => hlight i (by omega)
    rw [flatten_drop hj] at hstands
    have htotal := bytesRead_add hstream j
    rw [flatten_drop hj] at htotal
    have hnow := hlight j (Nat.lt_succ_self j)
    rw [bytesRead_succ hj] at hnow ⊢
    obtain ⟨hiff, hnext⟩ := hstands.read htotal (hreads _ (List.getElem_mem hj))
    have hmono : due m messages (bytesRead reads j) ≤ due m messages (bytesRead reads j + reads[j].length) :=
      due_mono messages (Nat.le_add_right _ _)
    have hsum : due m messages (bytesRead reads j + reads[j].length) =
        due m messages (bytesRead reads j) + (due m messages (bytesRead reads j + reads[j].length) -
          due m messages (bytesRead reads j)) := by omega
    rw [List.take_succ_eq_append_getElem hj, pushAll_append]
    refine ⟨?_, hnext hnow⟩
    rw [hresults, hiff.mpr hnow, dueResults, dueResults, ← List.map_append, ← List.take_add, ← hsum]

end Reads

/-- Let a stream of messages arrive in reads of at most 16 KiB.  After every read exactly the
results that are due have been returned, in order, if and only if every read is light; then the last
byte has brought exactly one result for each message. -/
theorem prompt_iff_light (m : ℕ) (messages : List (Message fromStr)) (reads : List (List UInt8))
    (hstream : reads.flatten = streamOf messages)
    (hreads : ∀ chunk ∈ reads, chunk.length ≤ 16 * 1024) :
    (Prompt m messages reads ↔ ∀ j < reads.length, Light m messages (bytesRead reads j) (bytesRead reads (j + 1))) ∧
    ((∀ j < reads.length, Light m messages (bytesRead reads j) (bytesRead reads (j + 1))) →
      ((FrameDecoder.new m).pushAll fromStr reads).2 = messages.map (·.result m)) := by
  refine ⟨⟨fun hprompt => ?_, fun hlight j hj => ?_⟩, fun hlight => ?_⟩
  · -- The first read that is not light would return something else.
    intro j
    induction j using Nat.strong_induction_on with
    | _ j ih =>
      intro hj
      obtain ⟨hresults, hstands⟩ :=
        stands_of_light hstream hreads hj.le fun i hi => ih i hi (hi.trans hj)
      have hnow := hprompt (j + 1) hj
      have htotal := bytesRead_add hstream j
      rw [flatten_drop hj] at hstands htotal
      have hiff := (hstands.read htotal (hreads _ (List.getElem_mem hj))).1
      rw [List.take_succ_eq_append_getElem hj, pushAll_append, hresults] at hnow
      rw [bytesRead_succ hj] at hnow ⊢
      have hmono : due m messages (bytesRead reads j) ≤ due m messages (bytesRead reads j + reads[j].length) :=
        due_mono messages (Nat.le_add_right _ _)
      refine hiff.mp ?_
      dsimp only at hnow
      refine (List.append_right_inj (dueResults m messages (bytesRead reads j))).mp ?_
      rw [hnow, dueResults, dueResults, ← List.map_append, ← List.take_add]
      congr 2
      omega
  · exact (stands_of_light hstream hreads hj fun i hi => hlight i (by omega)).1
  · have hend := (stands_of_light hstream hreads le_rfl hlight).1
    have hbytes : bytesRead reads reads.length = (streamOf messages).length := by
      rw [bytesRead, List.take_length, hstream]
    rwa [List.take_length, hbytes, dueResults, due_streamOf, List.take_length] at hend

/-- A text that stands for the value it denotes. -/
def asValue (text : Text) : Except String Text := .ok text

/-- A notification as a server sends it. -/
def smallNotification : Message asValue where
  value := "\x7b\"jsonrpc\":\"2.0\",\"method\":\"a\"\x7d".toList
  body := bytesOf "\x7b\"jsonrpc\":\"2.0\",\"method\":\"a\"\x7d"
  length_lt := by decide
  parses := by decide +kernel

/-- Two notifications in two reads that cut the second one. -/
theorem prompt_iff_light_two_reads :
    ((FrameDecoder.new 1024).pushAll asValue
        [(streamOf [smallNotification, smallNotification]).take 60,
          (streamOf [smallNotification, smallNotification]).drop 60]).2 =
      [smallNotification, smallNotification].map (·.result 1024) :=
  (prompt_iff_light 1024 [smallNotification, smallNotification]
    [(streamOf [smallNotification, smallNotification]).take 60,
      (streamOf [smallNotification, smallNotification]).drop 60]
    (by decide +kernel) (by decide +kernel)).2 (by decide +kernel)

lemma length_pushAll_streamOf (messages : List (Message fromStr)) (hsome : streamOf messages ≠ [])
    (hfits : (streamOf messages).length ≤ bufferBytes m) :
    ((FrameDecoder.new m).pushAll fromStr [streamOf messages]).2.length =
      min defaultMaxFramesPerRead messages.length := by
  have hall : ∀ future, future = [] →
      dueBefore m messages (streamOf messages ++ future) = 0 ∧ dueBefore m messages future = messages.length := by
    rintro _ rfl
    rw [List.append_nil, dueBefore, dueBefore, Nat.sub_self, List.length_nil, Nat.sub_zero, due_streamOf]
    exact ⟨due_zero messages, rfl⟩
  have hnew : Stands m (FrameDecoder.new m) (streamOf messages ++ []) messages := by
    rw [List.append_nil]
    exact stands_new m messages
  obtain ⟨next, hturn, hstands, -⟩ := hnew.push_eq hsome (hall [] rfl).1
  have hfirst : firstTake m messages (streamOf messages) [] = (streamOf messages).length := by
    rw [firstTake, List.append_nil, Nat.sub_self]
    omega
  rw [hfirst, List.drop_length] at hturn hstands
  obtain ⟨hresults, -, -⟩ := hstands.decodeAvailable defaultMaxFramesPerRead
  obtain ⟨fuel, hfuel⟩ := Nat.exists_eq_succ_of_ne_zero (List.length_pos_iff.mpr hsome).ne'
  have hpush : (next.pushLoop fromStr (fuel + 1) [] []).2 =
      (next.decodeAvailable fromStr defaultMaxFramesPerRead).2.1 := by
    rw [FrameDecoder.pushLoop, hstands.limits.1, if_pos rfl]
    rfl
  rw [FrameDecoder.pushAll, List.foldl_cons, List.foldl_nil]
  dsimp only
  rw [List.nil_append, hturn, hfuel, hpush, hresults, List.length_map, List.length_take, List.append_nil,
    (hall [] rfl).2]
  omega

/-- Of 257 small notifications a read returns 256. -/
theorem flooded_read_keeps_last :
    let messages := List.replicate 257 smallNotification
    (streamOf messages).length ≤ 16 * 1024 ∧
      ((FrameDecoder.new (16 * 1024 * 1024)).pushAll asValue [streamOf messages]).2.length = 256 ∧
      ((FrameDecoder.new (16 * 1024 * 1024)).pushAll asValue [streamOf messages]).2 ≠
        messages.map (·.result (16 * 1024 * 1024)) := by
  intro messages
  have hlen : (streamOf messages).length ≤ 16 * 1024 := by decide +kernel
  have hroom : 16 * 1024 ≤ bufferBytes (16 * 1024 * 1024) := by decide
  have hcount := length_pushAll_streamOf messages (by decide +kernel) (hlen.trans hroom)
  rw [List.length_replicate] at hcount
  refine ⟨hlen, hcount.trans (by decide), fun heq => ?_⟩
  have hlength := congrArg List.length heq
  rw [hcount, List.length_map, List.length_replicate] at hlength
  exact absurd hlength (by decide)

end AgzRustMcp.Lsp
