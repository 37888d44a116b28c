import AgzRustMcp.Lsp.Documents

/-!
# The server mirrors the recorded documents

A call writes its notification first and records the snapshot afterwards.  `MirrorInv` says how the
two sides agree meanwhile; `documents_mirrored` is about runs in which no call is cancelled between
the two and texts are short enough for positions of 32 bits.
-/

namespace AgzRustMcp.Lsp

open Std (ExtTreeMap)
open Utf8Text Utf16Position

/-! ## Incremental changes -/

lemma exists_commonPrefix (old new : Text) :
    ∃ pre oldRest newRest, old = pre ++ oldRest ∧ new = pre ++ newRest ∧ pre.length = commonPrefix old new := by
  induction old generalizing new with
  | nil => exact ⟨[], [], new, rfl, rfl, rfl⟩
  | cons c old ih =>
    cases new with
    | nil => exact ⟨[], c :: old, [], rfl, rfl, rfl⟩
    | cons d new =>
      by_cases hcd : c = d
      · obtain ⟨pre, oldRest, newRest, hold, hnew, hlen⟩ := ih new
        refine ⟨c :: pre, oldRest, newRest, by rw [hold]; rfl, by rw [hnew, hcd]; rfl, ?_⟩
        rw [commonPrefix, if_pos hcd, List.length_cons, hlen]
      · exact ⟨[], c :: old, d :: new, rfl, rfl, by rw [commonPrefix, if_neg hcd]; rfl⟩

lemma exists_common (old new : Text) :
    ∃ pre oldMid newMid suf, old = pre ++ oldMid ++ suf ∧ new = pre ++ newMid ++ suf ∧
      pre.length = commonPrefix old new ∧ suf.length = commonSuffix old new (commonPrefix old new) := by
  obtain ⟨pre, oldRest, newRest, hold, hnew, hlen⟩ := exists_commonPrefix old new
  obtain ⟨suf, oldMid, newMid, holdRev, hnewRev, hsuf⟩ :=
    exists_commonPrefix oldRest.reverse newRest.reverse
  have hback : ∀ rest mid : Text, rest.reverse = suf ++ mid → rest = mid.reverse ++ suf.reverse :=
    fun rest mid h => by rw [← List.reverse_append, ← h, List.reverse_reverse]
  refine ⟨pre, oldMid.reverse, newMid.reverse, suf.reverse, ?_, ?_, hlen, ?_⟩
  · rw [hold, hback _ _ holdRev, List.append_assoc]
  · rw [hnew, hback _ _ hnewRev, List.append_assoc]
  · have hdrop : ∀ rest : Text, (pre ++ rest).drop (commonPrefix old new) = rest :=
      fun rest => by rw [← hlen, List.drop_left]
    rw [List.length_reverse, hsuf, commonSuffix]
    rw [show old.drop (commonPrefix old new) = oldRest by rw [← hdrop oldRest, ← hold],
      show new.drop (commonPrefix old new) = newRest by rw [← hdrop newRest, ← hnew]]

lemma foldl_advanceSaturating {text : Text} {p : Position}
    (hline : p.line + utf16Len text ≤ u32Max) (hcol : p.character + utf16Len text ≤ u32Max) :
    text.foldl advanceSaturating p = positionFrom p text := by
  induction text generalizing p with
  | nil => rfl
  | cons c text ih =>
    have hsize := utf16Size_pos c
    rw [utf16Len_cons] at hline hcol
    have hadvance : advanceSaturating p c = advance p c := by
      unfold advanceSaturating advance
      split
      · rw [min_eq_left (by omega)]
      · rw [min_eq_left (by omega)]
    rw [List.foldl_cons, positionFrom_cons, hadvance]
    refine ih ?_ ?_
    · unfold advance
      split
      · dsimp only
        omega
      · dsimp only
        omega
    · unfold advance
      split
      · dsimp only
        omega
      · dsimp only
        omega

lemma positionAtByte_append {pre : Text} (h : utf16Len pre ≤ u32Max) (post : Text) :
    positionAtByte (pre ++ post) (String.utf8Len pre) = positionOf pre := by
  rw [positionAtByte, takeBytes_append_left]
  exact foldl_advanceSaturating (by simpa using h) (by simpa using h)

lemma apply_incrementalChange {previous : Text} (h : utf16Len previous ≤ u32Max) (next : Text) :
    ContentChange.apply previous (.incremental (incrementalChange previous next)) = next := by
  obtain ⟨pre, oldMid, newMid, suf, hold, hnew, hpre, hsuf⟩ := exists_common previous next
  have hstart : charIndexToByte previous (commonPrefix previous next) = String.utf8Len pre := by
    rw [charIndexToByte, ← hpre, hold, List.append_assoc, List.take_left]
  have hstop : charIndexToByte previous
      (previous.length - commonSuffix previous next (commonPrefix previous next)) =
        String.utf8Len (pre ++ oldMid) := by
    rw [charIndexToByte, ← hsuf]
    conv_lhs => rw [hold, List.length_append, Nat.add_sub_cancel, List.take_left]
  have hnewStart : charIndexToByte next (commonPrefix previous next) = String.utf8Len pre := by
    rw [charIndexToByte, ← hpre, hnew, List.append_assoc, List.take_left]
  have hnewStop : charIndexToByte next
      (next.length - commonSuffix previous next (commonPrefix previous next)) = String.utf8Len (pre ++ newMid) := by
    rw [charIndexToByte, ← hsuf]
    conv_lhs => rw [hnew, List.length_append, Nat.add_sub_cancel, List.take_left]
  have hlen : utf16Len pre + utf16Len oldMid + utf16Len suf ≤ u32Max := by
    rwa [hold, utf16Len_append, utf16Len_append] at h
  have hfirst : positionAtByte previous (String.utf8Len pre) = positionOf pre := by
    rw [hold, List.append_assoc]
    exact positionAtByte_append (by omega) _
  have hlast : positionAtByte previous (String.utf8Len (pre ++ oldMid)) = positionOf (pre ++ oldMid) := by
    rw [hold]
    exact positionAtByte_append (by rw [utf16Len_append]; omega) _
  have htext : takeBytes (dropBytes next (String.utf8Len pre))
      (String.utf8Len (pre ++ newMid) - String.utf8Len pre) = newMid := by
    rw [hnew, List.append_assoc, dropBytes_append_left, String.utf8Len_append,
      Nat.add_sub_cancel_left, takeBytes_append_left]
  rw [ContentChange.apply, incrementalChange]
  dsimp only
  rw [hstart, hstop, hnewStart, hnewStop, hfirst, hlast, htext, hold, replaceBetween_positionOf, hnew]

/-- The one change between two texts gives the second one. -/
theorem incremental_change_gives_next (previous next : Text) (h : utf16Len previous < 2 ^ 32) :
    replaceBetween previous (incrementalChange previous next).range.start
      (incrementalChange previous next).range.stop (incrementalChange previous next).text = next := by
  have hfits : utf16Len previous ≤ u32Max := by
    unfold u32Max
    omega
  exact apply_incrementalChange hfits next

/-- The common ends of `aaa` and `aa` overlap, behind a surrogate pair. -/
theorem incremental_change_gives_next_repetitive :
    replaceBetween "\n😀aaa\n".toList
      (incrementalChange "\n😀aaa\n".toList "\n😀aa\n".toList).range.start
      (incrementalChange "\n😀aaa\n".toList "\n😀aa\n".toList).range.stop
      (incrementalChange "\n😀aaa\n".toList "\n😀aa\n".toList).text = "\n😀aa\n".toList :=
  incremental_change_gives_next "\n😀aaa\n".toList "\n😀aa\n".toList (by decide)

/-! ## The invariant -/

variable {mirror : DocumentMirror} {call call' : DocumentCall} {c : ℕ}

def DocumentMirror.recordedText (mirror : DocumentMirror) (uri : String) : Option Text :=
  mirror.documents[uri]?.map DocumentSnapshot.text

/-- A text is short enough for positions of 32 bits. -/
def FitsPositions (text : Text) : Prop := utf16Len text ≤ u32Max

/-- The text that a call is to leave, `none` for closing. -/
def DocumentOperation.text : DocumentOperation → Option Text
  | .synchronize _ text | .begin _ text => some text
  | .close => none

/-- The call is between its notification and its record. -/
def DocumentPhase.isRecording : DocumentPhase → Bool
  | .recording _ _ _ => true
  | _ => false

/-- A notification leads from the recorded text to that of the call, and opens only a document that
is not recorded; when the call is about to record, the server has its text. -/
structure CallInv (recorded server : Option Text) (call : DocumentCall) : Prop where
  notifying : ∀ lock notification outcome, call.phase = .notifying lock notification outcome →
    notification.uri = call.uri ∧ outcome.map (·.text) = call.operation.text ∧
      notification.apply recorded = call.operation.text ∧
      ∀ uri languageId version text, notification = .didOpen uri languageId version text → recorded = none
  recording : ∀ lock written outcome, call.phase = .recording lock written outcome →
    outcome.map (·.text) = call.operation.text ∧ server = call.operation.text ∧ (written = false → server = recorded)
  fits : ∀ text ∈ call.operation.text, FitsPositions text

/-- The server mirrors what is recorded except where a call is about to record. -/
structure MirrorInv (mirror : DocumentMirror) : Prop where
  sync : mirror.sync = ⟨true, 2⟩
  calls : ∀ call ∈ mirror.calls, CallInv (mirror.recordedText call.uri) mirror.server[call.uri]? call
  locked : ∀ call ∈ mirror.calls, ∀ lock, call.phase.lock = some lock → mirror.documentLocks[call.uri]? = some lock
  exclusive : ∀ (c c' : ℕ) (call call' : DocumentCall), mirror.calls[c]? = some call → mirror.calls[c']? = some call' →
    call.phase.holds = true → call'.phase.holds = true → call.uri = call'.uri → c = c'
  mirrored : ∀ uri : String, (∀ call ∈ mirror.calls, call.uri = uri → call.phase.isRecording = false) →
      mirror.server[uri]? = mirror.recordedText uri
  fits : ∀ uri : String, ∀ text ∈ mirror.recordedText uri, FitsPositions text
  reopened : mirror.reopened = false

lemma CallInv.of_not_holds {recorded server : Option Text} (hholds : call.phase.holds = false)
    (hfits : ∀ text ∈ call.operation.text, FitsPositions text) : CallInv recorded server call where
  notifying lock notification outcome hphase := by simp [hphase, DocumentPhase.holds] at hholds
  recording lock written outcome hphase := by simp [hphase, DocumentPhase.holds] at hholds
  fits := hfits

lemma holds_of_isRecording {phase : DocumentPhase} (h : phase.isRecording = true) : phase.holds = true := by
  cases phase <;> first | rfl | simp [DocumentPhase.isRecording] at h

lemma MirrorInv.update (h : MirrorInv mirror) (hget : mirror.calls[c]? = some call)
    {mirror' : DocumentMirror} (hcalls : mirror'.calls = mirror.calls.set c call')
    (huri : call'.uri = call.uri) (hsync : mirror'.sync = mirror.sync)
    (hframe : ∀ uri ≠ call.uri, mirror'.recordedText uri = mirror.recordedText uri ∧
      mirror'.server[uri]? = mirror.server[uri]?)
    (hsame : call.phase.holds = true ∨ mirror'.recordedText call.uri = mirror.recordedText call.uri ∧
        mirror'.server[call.uri]? = mirror.server[call.uri]?)
    (hinv : CallInv (mirror'.recordedText call.uri) mirror'.server[call.uri]? call')
    (hothers : ∀ c' ≠ c, ∀ other, mirror.calls[c']? = some other → ∀ lock,
      other.phase.lock = some lock → mirror'.documentLocks[other.uri]? = some lock)
    (hlock : ∀ lock, call'.phase.lock = some lock → mirror'.documentLocks[call.uri]? = some lock)
    (hholds : call'.phase.holds = true → call.phase.holds = true ∨
      ∀ c' ≠ c, ∀ other, mirror.calls[c']? = some other → other.uri = call.uri → other.phase.holds = false)
    (hmirrored : call'.phase.isRecording = false → mirror'.server[call.uri]? = mirror'.recordedText call.uri ∨
        call.phase.isRecording = false ∧ mirror'.recordedText call.uri = mirror.recordedText call.uri ∧
          mirror'.server[call.uri]? = mirror.server[call.uri]?)
    (hfits : ∀ text ∈ mirror'.recordedText call.uri, FitsPositions text)
    (hreopened : mirror'.reopened = false) : MirrorInv mirror' := by
  obtain ⟨hlt, hcall⟩ := List.getElem?_eq_some_iff.mp hget
  -- A call afterwards is the call of the step or another one that was there before.
  have hcases : ∀ other ∈ mirror'.calls, other = call' ∨ ∃ c' ≠ c, mirror.calls[c']? = some other := by
    intro other hother
    rw [hcalls] at hother
    obtain ⟨c', hc', rfl⟩ := List.mem_iff_getElem.mp hother
    rw [List.length_set] at hc'
    rcases eq_or_ne c c' with rfl | hne
    · exact Or.inl (by simp)
    · refine Or.inr ⟨c', hne.symm, ?_⟩
      rw [List.getElem_set_ne hne]
      exact List.getElem?_eq_getElem hc'
  have hindex : ∀ c' other, mirror'.calls[c']? = some other →
      c' = c ∧ other = call' ∨ c' ≠ c ∧ mirror.calls[c']? = some other := by
    intro c' other hother
    rw [hcalls] at hother
    rcases eq_or_ne c c' with rfl | hne
    · rw [List.getElem?_set_self hlt] at hother
      exact Or.inl ⟨rfl, (Option.some.inj hother).symm⟩
    · rw [List.getElem?_set_ne hne] at hother
      exact Or.inr ⟨hne.symm, hother⟩
  refine ⟨hsync.trans h.sync, fun other hother => ?_, fun other hother lock hl => ?_,
    fun a b first second ha hb hfirst hsecond hsameUri => ?_, fun uri hnone => ?_,
    fun uri text htext => ?_, hreopened⟩
  · rcases hcases other hother with rfl | ⟨c', hne, hother⟩
    · rwa [huri]
    · have hold := h.calls other (List.mem_of_getElem? hother)
      rcases eq_or_ne other.uri call.uri with hsameUri | hdiff
      · rcases hsame with hhold | ⟨hrecorded, hserver⟩
        · refine CallInv.of_not_holds ?_ hold.fits
          by_contra hnot
          exact hne (h.exclusive c' c other call hother hget (by simpa using hnot) hhold hsameUri)
        · rwa [hsameUri, hrecorded, hserver, ← hsameUri]
      · rwa [(hframe _ hdiff).1, (hframe _ hdiff).2]
  · rcases hcases other hother with rfl | ⟨c', hne, hother⟩
    · rw [huri]
      exact hlock lock hl
    · exact hothers c' hne other hother lock hl
  · -- Two calls that hold the lock of one URI are the same call.
    rcases hindex a first ha with ⟨rfl, rfl⟩ | ⟨hane, ha⟩
    · rcases hindex b second hb with ⟨rfl, -⟩ | ⟨hbne, hb⟩
      · rfl
      · rcases hholds hfirst with hold | hfree
        · exact h.exclusive a b call second hget hb hold hsecond (huri.symm.trans hsameUri)
        · rw [hfree b hbne second hb (hsameUri.symm.trans huri)] at hsecond
          exact absurd hsecond Bool.false_ne_true
    · rcases hindex b second hb with ⟨rfl, rfl⟩ | ⟨hbne, hb⟩
      · rcases hholds hsecond with hold | hfree
        · exact h.exclusive a b first call ha hget hfirst hold (hsameUri.trans huri)
        · rw [hfree a hane first ha (hsameUri.trans huri)] at hfirst
          exact absurd hfirst Bool.false_ne_true
      · exact h.exclusive a b first second ha hb hfirst hsecond hsameUri
  · have hmem : call' ∈ mirror'.calls := by
      rw [hcalls]
      exact List.mem_set hlt _
    have hkeep : ∀ c' ≠ c, ∀ other, mirror.calls[c']? = some other → other ∈ mirror'.calls := by
      intro c' hne other hother
      rw [hcalls]
      exact List.mem_of_getElem? (i := c') (by rwa [List.getElem?_set_ne hne.symm])
    rcases eq_or_ne uri call.uri with rfl | hdiff
    · rcases hmirrored (hnone call' hmem huri) with hnow | ⟨hbefore, hrecorded, hserver⟩
      · exact hnow
      · rw [hserver, hrecorded]
        refine h.mirrored call.uri fun other hother hu => ?_
        obtain ⟨c', hc', rfl⟩ := List.mem_iff_getElem.mp hother
        rcases eq_or_ne c' c with rfl | hne
        · rwa [hcall]
        · exact hnone _ (hkeep c' hne _ (List.getElem?_eq_getElem hc')) hu
    · rw [(hframe uri hdiff).1, (hframe uri hdiff).2]
      refine h.mirrored uri fun other hother hu => ?_
      obtain ⟨c', hc', rfl⟩ := List.mem_iff_getElem.mp hother
      rcases eq_or_ne c' c with rfl | hne
      · rw [hcall] at hu
        exact absurd hu.symm hdiff
      · exact hnone _ (hkeep c' hne _ (List.getElem?_eq_getElem hc')) hu
  · rcases eq_or_ne uri call.uri with rfl | hdiff
    · exact hfits text htext
    · rw [(hframe uri hdiff).1] at htext
      exact h.fits uri text htext

lemma MirrorInv.setCall (h : MirrorInv mirror) (hget : mirror.calls[c]? = some call) (huri : call'.uri = call.uri)
    (hinv : CallInv (mirror.recordedText call.uri) mirror.server[call.uri]? call')
    (hlock : ∀ lock, call'.phase.lock = some lock → mirror.documentLocks[call.uri]? = some lock)
    (hholds : call'.phase.holds = true → call.phase.holds = true ∨
      ∀ c' ≠ c, ∀ other, mirror.calls[c']? = some other → other.uri = call.uri → other.phase.holds = false)
    (hrecording : call'.phase.isRecording = false → call.phase.isRecording = false ∨
      mirror.server[call.uri]? = mirror.recordedText call.uri) : MirrorInv (mirror.setCall c call') := by
  refine h.update hget rfl huri rfl (fun uri _ => ⟨rfl, rfl⟩) (Or.inr ⟨rfl, rfl⟩) hinv
    (fun c' _ other hother lock hl => h.locked other (List.mem_of_getElem? hother) lock hl) hlock
    hholds (fun hnot => ?_) (h.fits call.uri) h.reopened
  rcases hrecording hnot with hbefore | hequal
  · exact Or.inr ⟨hbefore, rfl, rfl⟩
  · exact Or.inl hequal

lemma MirrorInv.returned (h : MirrorInv mirror) (hget : mirror.calls[c]? = some call)
    (huri : call'.uri = call.uri) (hoperation : call'.operation = call.operation) (hphase : call'.phase = .returned)
    (hrecording : call.phase.isRecording = false ∨ mirror.server[call.uri]? = mirror.recordedText call.uri) :
    MirrorInv (mirror.setCall c call') := by
  have hfits := (h.calls call (List.mem_of_getElem? hget)).fits
  refine h.setCall hget huri (CallInv.of_not_holds (by rw [hphase]; rfl) (hoperation ▸ hfits))
    (fun lock hl => ?_) (fun hh => ?_) fun _ => hrecording
  · simp [hphase, DocumentPhase.lock] at hl
  · simp [hphase, DocumentPhase.holds] at hh

lemma MirrorInv.server_eq (h : MirrorInv mirror) (hget : mirror.calls[c]? = some call)
    (hholds : call.phase.holds = true) (hnot : call.phase.isRecording = false) :
    mirror.server[call.uri]? = mirror.recordedText call.uri := by
  refine h.mirrored call.uri fun other hother huri => ?_
  obtain ⟨c', hc', rfl⟩ := List.mem_iff_getElem.mp hother
  have hother' := List.getElem?_eq_getElem hc'
  by_contra hrecording
  have hholds' := holds_of_isRecording (by simpa using hrecording)
  obtain rfl := h.exclusive c' c _ call hother' hget hholds' hholds huri
  obtain rfl := Option.some.inj (hother'.symm.trans hget)
  exact hrecording hnot

lemma MirrorInv.obtain (h : MirrorInv mirror) (hget : mirror.calls[c]? = some call)
    (hphase : call.phase = .obtaining) : MirrorInv (mirror.obtain c call) := by
  have hfits := (h.calls call (List.mem_of_getElem? hget)).fits
  have hnot : call.phase.isRecording = false := by rw [hphase]; rfl
  unfold DocumentMirror.obtain
  split
  · exact h.returned hget rfl rfl rfl (Or.inl hnot)
  split
  next lock hlock =>
    refine h.setCall hget rfl (CallInv.of_not_holds rfl hfits) (fun l hl => ?_)
      (fun hh => absurd hh Bool.false_ne_true) fun _ => Or.inl hnot
    rwa [← Option.some.inj hl]
  next hnone =>
    split
    · exact h.returned hget rfl rfl rfl (Or.inl hnot)
    · refine h.update hget rfl rfl rfl (fun uri _ => ⟨rfl, rfl⟩) (Or.inr ⟨rfl, rfl⟩)
        (CallInv.of_not_holds rfl hfits) (fun c' _ other hother lock hl => ?_) (fun l hl => ?_)
        (fun hh => absurd hh Bool.false_ne_true) (fun _ => Or.inr ⟨hnot, rfl, rfl⟩)
        (h.fits call.uri) h.reopened
      · -- The lock that is inserted is of a URI that had none.
        have hold := h.locked other (List.mem_of_getElem? hother) lock hl
        have hne : call.uri ≠ other.uri := fun heq => by simp [← heq, hnone] at hold
        simpa [ExtTreeMap.getElem?_insert, hne] using hold
      · rw [← Option.some.inj hl]
        simp

lemma MirrorInv.acquire (h : MirrorInv mirror) (hget : mirror.calls[c]? = some call) {lock : ℕ}
    (hphase : call.phase = .locking lock) (hfree : mirror.isFree lock = true) :
    MirrorInv (mirror.setCall c { call with phase := .reading lock }) := by
  have hmem := List.mem_of_getElem? hget
  have hlock := h.locked call hmem lock (by rw [hphase]; rfl)
  have hinv : CallInv (mirror.recordedText call.uri) mirror.server[call.uri]?
      { call with phase := .reading lock } := {
    notifying := by simp
    recording := by simp
    fits := (h.calls call hmem).fits }
  refine h.setCall hget rfl hinv (fun l hl => ?_) (fun _ => Or.inr fun c' _ other hother huri => ?_)
    fun _ => Or.inl (by rw [hphase]; rfl)
  · rwa [← Option.some.inj hl]
  · -- Another call that holds the lock of the URI would hold this lock.
    by_contra hholds
    have hmem' := List.mem_of_getElem? hother
    have hnot := List.all_eq_true.mp hfree other hmem'
    cases hl : other.phase.lock with
    | none =>
      cases hp : other.phase <;> simp [hp, DocumentPhase.lock, DocumentPhase.holds] at hl hholds
    | some l =>
      have hold := h.locked other hmem' l hl
      rw [huri, hlock] at hold
      obtain rfl := Option.some.inj hold
      simp [hl] at hnot
      exact hholds hnot

lemma callInv_synchronizePhase (lock : ℕ) (languageId : String) {text : Text}
    {previous : Option DocumentSnapshot} (htext : call.operation.text = some text)
    (hfits : ∀ text ∈ call.operation.text, FitsPositions text)
    (hshort : ∀ snapshot ∈ previous, FitsPositions snapshot.text) :
    CallInv (previous.map (·.text)) (previous.map (·.text)) { call with
        phase := synchronizePhase ⟨true, 2⟩ lock call.uri languageId text previous } := by
  cases previous with
  | none =>
    refine ⟨fun l notification outcome hp => ?_, fun l written outcome hp => ?_, hfits⟩
    · simp only [synchronizePhase, if_true, DocumentPhase.notifying.injEq] at hp
      obtain ⟨-, rfl, rfl⟩ := hp
      exact ⟨rfl, htext.symm, htext.symm, fun _ _ _ _ _ => rfl⟩
    · simp [synchronizePhase] at hp
  | some snapshot =>
    by_cases hsame : snapshot.text = text
    · refine ⟨fun l notification outcome hp => ?_, fun l written outcome hp => ?_, hfits⟩
      · simp [synchronizePhase, hsame] at hp
      · simp only [synchronizePhase, hsame, ne_eq, not_true_eq_false, false_and, if_false,
          DocumentPhase.recording.injEq] at hp
        obtain ⟨-, rfl, rfl⟩ := hp
        exact ⟨htext.symm, by rw [htext, ← hsame]; rfl, fun _ => rfl⟩
    · have hchange : snapshot.text ≠ text ∧ (2 : ℕ) ≠ 0 := ⟨hsame, by decide⟩
      refine ⟨fun l notification outcome hp => ?_, fun l written outcome hp => ?_, hfits⟩
      · simp only [synchronizePhase, if_pos hchange, if_true, DocumentPhase.notifying.injEq] at hp
        obtain ⟨-, rfl, rfl⟩ := hp
        refine ⟨rfl, htext.symm, ?_, fun _ _ _ _ hopen => by cases hopen⟩
        rw [htext]
        exact congrArg some (apply_incrementalChange (hshort snapshot rfl) text)
      · simp [synchronizePhase, hchange] at hp

lemma callInv_closePhase (lock : ℕ) (previous : Option DocumentSnapshot) (htext : call.operation.text = none) :
    CallInv (previous.map (·.text)) (previous.map (·.text))
      { call with phase := closePhase ⟨true, 2⟩ lock call.uri previous } := by
  have hfits : ∀ text ∈ call.operation.text, FitsPositions text := by simp [htext]
  cases previous with
  | none =>
    refine ⟨fun l notification outcome hp => ?_, fun l written outcome hp => ?_, hfits⟩
    · simp [closePhase] at hp
    · simp only [closePhase, Option.isSome_none, Bool.and_false, Bool.false_eq_true, if_false,
        DocumentPhase.recording.injEq] at hp
      obtain ⟨-, rfl, rfl⟩ := hp
      exact ⟨htext.symm, htext.symm, fun _ => rfl⟩
  | some snapshot =>
    refine ⟨fun l notification outcome hp => ?_, fun l written outcome hp => ?_, hfits⟩
    · simp only [closePhase, Option.isSome_some, Bool.and_true, if_true, DocumentPhase.notifying.injEq] at hp
      obtain ⟨-, rfl, rfl⟩ := hp
      exact ⟨rfl, htext.symm, htext.symm, fun _ _ _ _ hopen => by cases hopen⟩
    · simp [closePhase] at hp

lemma MirrorInv.read (h : MirrorInv mirror) (hget : mirror.calls[c]? = some call) {lock : ℕ}
    (hphase : call.phase = .reading lock) :
    MirrorInv (mirror.setCall c { call with phase := mirror.readPhase call lock }) := by
  have hmem := List.mem_of_getElem? hget
  have hfits := (h.calls call hmem).fits
  have hholds : call.phase.holds = true := by rw [hphase]; rfl
  have hnot : call.phase.isRecording = false := by rw [hphase]; rfl
  have hlock := h.locked call hmem lock (by rw [hphase]; rfl)
  have hserver := h.server_eq hget hholds hnot
  have hinv : CallInv (mirror.recordedText call.uri) mirror.server[call.uri]?
      { call with phase := mirror.readPhase call lock } := by
    have hshort : ∀ snapshot ∈ mirror.documents[call.uri]?, FitsPositions snapshot.text :=
      fun snapshot hs => h.fits call.uri snapshot.text (Option.mem_map_of_mem _ hs)
    rw [hserver, DocumentMirror.recordedText]
    have hcases : (∃ languageId text, call.operation.text = some text ∧
        mirror.readPhase call lock = synchronizePhase mirror.sync lock call.uri languageId text
          mirror.documents[call.uri]?) ∨ call.operation.text = none ∧
        mirror.readPhase call lock = closePhase mirror.sync lock call.uri mirror.documents[call.uri]? := by
      unfold DocumentMirror.readPhase
      cases call.operation with
      | synchronize languageId text => exact Or.inl ⟨languageId, text, rfl, rfl⟩
      | begin languageId text => exact Or.inl ⟨languageId, text, rfl, rfl⟩
      | close => exact Or.inr ⟨rfl, rfl⟩
    rcases hcases with ⟨languageId, text, htext, hread⟩ | ⟨htext, hread⟩
    · rw [hread, h.sync]
      exact callInv_synchronizePhase lock languageId htext hfits hshort
    · rw [hread, h.sync]
      exact callInv_closePhase lock _ htext
  have hkeeps : (mirror.readPhase call lock).lock = some lock := by
    have hsync : ∀ languageId text previous, (synchronizePhase mirror.sync lock call.uri languageId
        text previous).lock = some lock := by
      intro languageId text previous
      unfold synchronizePhase
      split
      · split <;> rfl
      · split <;> rfl
    unfold DocumentMirror.readPhase
    split
    · exact hsync _ _ _
    · exact hsync _ _ _
    · unfold closePhase
      split <;> rfl
  refine h.setCall hget rfl hinv (fun l hl => ?_) (fun _ => Or.inl hholds) fun _ => Or.inl hnot
  rwa [← Option.some.inj (hkeeps.symm.trans hl)]

lemma getElem?_putAt {α : Type} (map : ExtTreeMap String α) (key other : String)
    (value : Option α) : (putAt map key value)[other]? = if key = other then value else map[other]? := by
  cases value with
  | none => simp [putAt, ExtTreeMap.getElem?_erase]
  | some value => simp [putAt, ExtTreeMap.getElem?_insert]

lemma MirrorInv.write (h : MirrorInv mirror) (hget : mirror.calls[c]? = some call) {lock : ℕ}
    {notification : DocumentNotification} {outcome : Option DocumentSnapshot}
    (hphase : call.phase = .notifying lock notification outcome) :
    MirrorInv ((mirror.receive notification).setCall c { call with phase := .recording lock true outcome }) := by
  have hmem := List.mem_of_getElem? hget
  have hcall := h.calls call hmem
  obtain ⟨huri, houtcome, happly, hopens⟩ := hcall.notifying lock notification outcome hphase
  have hholds : call.phase.holds = true := by rw [hphase]; rfl
  have hserver := h.server_eq hget hholds (by rw [hphase]; rfl)
  have hlock := h.locked call hmem lock (by rw [hphase]; rfl)
  have hafter : ∀ uri : String, (mirror.receive notification).server[uri]? =
      if call.uri = uri then call.operation.text else mirror.server[uri]? := by
    intro uri
    change (putAt mirror.server notification.uri
      (notification.apply mirror.server[notification.uri]?))[uri]? = _
    rw [getElem?_putAt, huri, hserver, happly]
  have hinv : CallInv (mirror.recordedText call.uri) call.operation.text
      { call with phase := .recording lock true outcome } := {
    notifying := by simp
    recording := fun l written o hp => by
      obtain ⟨-, rfl, rfl⟩ := (DocumentPhase.recording.injEq _ _ _ _ _ _ ▸ hp)
      exact ⟨houtcome, rfl, fun hw => absurd hw.symm Bool.false_ne_true⟩
    fits := hcall.fits }
  refine h.update hget rfl rfl rfl (fun uri hne => ⟨rfl, ?_⟩) (Or.inl hholds) ?_
    (fun c' _ other hother l hl => h.locked other (List.mem_of_getElem? hother) l hl)
    (fun l hl => ?_) (fun _ => Or.inl hholds) (fun hnot => absurd hnot.symm Bool.false_ne_true)
    (h.fits call.uri) ?_
  · exact (hafter uri).trans (if_neg hne.symm)
  · have hnow := (hafter call.uri).trans (if_pos rfl)
    change CallInv (mirror.recordedText call.uri) (mirror.receive notification).server[call.uri]? _
    rwa [hnow]
  · rwa [← Option.some.inj hl]
  · -- A document that is opened was not recorded, so the server did not have it.
    change (mirror.receive notification).reopened = false
    unfold DocumentMirror.receive
    cases notification with
    | didOpen uri languageId version text =>
      have hnone := hopens uri languageId version text rfl
      obtain rfl : uri = call.uri := huri
      simp [h.reopened, hserver, hnone]
    | didChange uri version change => simp [h.reopened]
    | didClose uri => simp [h.reopened]

lemma MirrorInv.record (h : MirrorInv mirror) (hget : mirror.calls[c]? = some call) {lock : ℕ}
    {written : Bool} {outcome : Option DocumentSnapshot} (hphase : call.phase = .recording lock written outcome) :
    MirrorInv { mirror.setCall c (call.recorded lock outcome) with
      documents := putAt mirror.documents call.uri outcome } := by
  have hmem := List.mem_of_getElem? hget
  have hcall := h.calls call hmem
  obtain ⟨houtcome, hserver, -⟩ := hcall.recording lock written outcome hphase
  have hholds : call.phase.holds = true := by rw [hphase]; rfl
  have hlock := h.locked call hmem lock (by rw [hphase]; rfl)
  have hafter : ∀ uri : String, ((putAt mirror.documents call.uri outcome)[uri]?).map
      DocumentSnapshot.text = if call.uri = uri then call.operation.text
        else mirror.recordedText uri := by
    intro uri
    rw [getElem?_putAt]
    split
    · exact houtcome
    · rfl
  have hcases : (call.recorded lock outcome).uri = call.uri ∧
      (call.recorded lock outcome).operation = call.operation ∧
      ((call.recorded lock outcome).phase = .returned ∨ (call.recorded lock outcome).phase = .guarded lock ∨
          (call.recorded lock outcome).phase = .unlinking lock) := by
    unfold DocumentCall.recorded
    split
    · exact ⟨rfl, rfl, Or.inl rfl⟩
    · exact ⟨rfl, rfl, Or.inr (Or.inl rfl)⟩
    · exact ⟨rfl, rfl, Or.inr (Or.inr rfl)⟩
  obtain ⟨huri, hoperation, hend⟩ := hcases
  generalize hrecorded : call.recorded lock outcome = call' at huri hoperation hend
  have hfits : ∀ text ∈ call'.operation.text, FitsPositions text := hoperation ▸ hcall.fits
  have hinv : ∀ recorded server, CallInv recorded server call' := by
    intro recorded server
    refine ⟨fun l notification o hp => ?_, fun l w o hp => ?_, hfits⟩
    · rcases hend with hend | hend | hend <;> simp [hend] at hp
    · rcases hend with hend | hend | hend <;> simp [hend] at hp
  refine h.update hget rfl huri rfl (fun uri hne => ⟨(hafter uri).trans (if_neg hne.symm), rfl⟩)
    (Or.inl hholds) (hinv _ _)
    (fun c' _ other hother l hl => h.locked other (List.mem_of_getElem? hother) l hl)
    (fun l hl => ?_) (fun _ => Or.inl hholds) (fun _ => Or.inl ?_) (fun text htext => ?_)
    h.reopened
  · rcases hend with hend | hend | hend
    · simp [hend, DocumentPhase.lock] at hl
    · simp only [hend, DocumentPhase.lock, Option.some.injEq] at hl
      exact hl ▸ hlock
    · simp only [hend, DocumentPhase.lock, Option.some.injEq] at hl
      exact hl ▸ hlock
  · exact hserver.trans ((hafter call.uri).trans (if_pos rfl)).symm
  · have hnow := (hafter call.uri).trans (if_pos rfl)
    exact hcall.fits text (hnow ▸ htext)

lemma two_le_countP {α : Type} {p : α → Bool} {l : List α} {i j : ℕ} {a b : α} (hne : i ≠ j)
    (hi : l[i]? = some a) (hj : l[j]? = some b) (ha : p a = true) (hb : p b = true) : 2 ≤ l.countP p := by
  wlog hlt : i < j generalizing i j a b
  · exact this hne.symm hj hi hb ha (by omega)
  obtain ⟨hjl, rfl⟩ := List.getElem?_eq_some_iff.mp hj
  obtain ⟨hil, rfl⟩ := List.getElem?_eq_some_iff.mp hi
  have hsplit : l.countP p = (l.take j).countP p + (l.drop j).countP p := by
    rw [← List.countP_append, List.take_append_drop]
  have hfirst : 0 < (l.take j).countP p := by
    refine List.countP_pos_iff.mpr ⟨l[i], ?_, ha⟩
    exact List.mem_take_iff_getElem.mpr ⟨i, by omega, rfl⟩
  have hsecond : 0 < (l.drop j).countP p := by
    refine List.countP_pos_iff.mpr ⟨l[j], ?_, hb⟩
    exact List.mem_drop_iff_getElem.mpr ⟨0, by omega, by simp⟩
  omega

lemma MirrorInv.unlink (h : MirrorInv mirror) (hget : mirror.calls[c]? = some call) {lock : ℕ}
    (hphase : call.phase = .unlinking lock) : MirrorInv (mirror.unlink c call lock) := by
  have hmem := List.mem_of_getElem? hget
  have hfits := (h.calls call hmem).fits
  have hnot : call.phase.isRecording = false := by rw [hphase]; rfl
  unfold DocumentMirror.unlink
  dsimp only
  split
  next hlast =>
    obtain ⟨hlock, hcount⟩ := hlast
    refine h.update hget rfl rfl rfl (fun uri _ => ⟨rfl, rfl⟩) (Or.inr ⟨rfl, rfl⟩)
      (CallInv.of_not_holds rfl hfits) (fun c' hne other hother l hl => ?_)
      (fun l hl => absurd hl (by simp [DocumentCall.finish, DocumentPhase.lock]))
      (fun hh => absurd hh Bool.false_ne_true) (fun _ => Or.inr ⟨hnot, rfl, rfl⟩)
      (h.fits call.uri) h.reopened
    have hold := h.locked other (List.mem_of_getElem? hother) l hl
    have hdiff : call.uri ≠ other.uri := by
      intro hsame
      rw [← hsame, hlock] at hold
      obtain rfl := Option.some.inj hold
      have htwo := two_le_countP (p := fun call => decide (call.phase.lock = some lock)) hne
        hother hget (by simpa using hl) (by simp [hphase, DocumentPhase.lock])
      rw [DocumentMirror.strongCount] at hcount
      omega
    simpa [ExtTreeMap.getElem?_erase, hdiff] using hold
  · exact h.returned hget rfl rfl rfl (Or.inl hnot)

lemma MirrorInv.addCall (h : MirrorInv mirror) (operation : DocumentOperation) (uri : String)
    (hfits : ∀ text ∈ operation.text, FitsPositions text) :
    MirrorInv { mirror with calls := mirror.calls ++ [{ operation, uri }] } := by
  have hindex : ∀ (c : ℕ) (call : DocumentCall),
      (mirror.calls ++ [({ operation, uri } : DocumentCall)])[c]? = some call → call.phase.holds = true →
        mirror.calls[c]? = some call := by
    intro c call hcall hholds
    rcases lt_or_ge c mirror.calls.length with hlt | hge
    · rwa [List.getElem?_append_left hlt] at hcall
    · rw [List.getElem?_append_right hge] at hcall
      have hnew := List.mem_of_getElem? hcall
      rw [List.mem_singleton] at hnew
      rw [hnew] at hholds
      exact absurd hholds Bool.false_ne_true
  refine ⟨h.sync, fun call hcall => ?_, fun call hcall lock hl => ?_,
    fun c c' first second hfirst hsecond hf hs huri => ?_, fun uri' hnone => ?_, h.fits, h.reopened⟩
  · rcases List.mem_append.mp hcall with hold | hnew
    · exact h.calls call hold
    · obtain rfl := List.mem_singleton.mp hnew
      exact CallInv.of_not_holds rfl hfits
  · rcases List.mem_append.mp hcall with hold | hnew
    · exact h.locked call hold lock hl
    · obtain rfl := List.mem_singleton.mp hnew
      simp [DocumentPhase.lock] at hl
  · exact h.exclusive c c' first second (hindex c first hfirst hf) (hindex c' second hsecond hs) hf hs
      huri
  · exact h.mirrored uri' fun call hcall hu => hnone call (List.mem_append_left _ hcall) hu

/-! ## The result -/

/-- The call has written a notification and not recorded it yet. -/
def DocumentPhase.isUnrecorded : DocumentPhase → Bool
  | .recording _ written _ => written
  | _ => false

/-- No call is cancelled before its record, and texts are short enough. -/
def DocumentMirror.InTime (mirror : DocumentMirror) : MirrorStep → Prop
  | .call operation _ => ∀ text ∈ operation.text, FitsPositions text
  | .act c .cancel => ∀ call ∈ mirror.calls[c]?, call.phase.isUnrecorded = false
  | .act _ _ => True

instance (text : Text) : Decidable (FitsPositions text) := inferInstanceAs (Decidable (_ ≤ _))

instance (mirror : DocumentMirror) : (step : MirrorStep) → Decidable (mirror.InTime step)
  | .call operation _ =>
    inferInstanceAs (Decidable (∀ text ∈ operation.text, FitsPositions text))
  | .act c .cancel =>
    inferInstanceAs (Decidable (∀ call ∈ mirror.calls[c]?, call.phase.isUnrecorded = false))
  | .act _ .obtain | .act _ .acquire | .act _ .read | .act _ (.write _) | .act _ .record
  | .act _ .unlink => .isTrue trivial

lemma MirrorInv.cancel (h : MirrorInv mirror) (hget : mirror.calls[c]? = some call)
    (htime : call.phase.isUnrecorded = false) : MirrorInv (mirror.stepCall c call .cancel) := by
  have hcall := h.calls call (List.mem_of_getElem? hget)
  have hends : call.phase.isRecording = false ∨ mirror.server[call.uri]? = mirror.recordedText call.uri := by
    cases hphase : call.phase with
    | recording lock written outcome =>
      rw [hphase] at htime
      exact Or.inr ((hcall.recording lock written outcome hphase).2.2 htime)
    | _ => exact Or.inl rfl
  unfold DocumentMirror.stepCall
  cases hphase : call.phase with
  | returned => exact h
  | guarded lock => exact h.returned hget rfl rfl rfl hends
  | _ => exact h.returned hget rfl rfl rfl hends

lemma MirrorInv.step (h : MirrorInv mirror) {step : MirrorStep} (htime : mirror.InTime step) :
    MirrorInv (mirror.step step) := by
  cases step with
  | call operation uri => exact h.addCall operation uri htime
  | act c step =>
    simp only [DocumentMirror.step]
    split
    · exact h
    next call hget =>
      cases step with
      | cancel => exact h.cancel hget (htime call hget)
      | obtain =>
        cases hphase : call.phase with
        | obtaining => simpa only [DocumentMirror.stepCall, hphase] using h.obtain hget hphase
        | _ => simpa only [DocumentMirror.stepCall, hphase] using h
      | acquire =>
        cases hphase : call.phase with
        | locking lock =>
          simp only [DocumentMirror.stepCall, hphase]
          split
          next hfree => exact h.acquire hget hphase hfree
          next => exact h
        | _ => simpa only [DocumentMirror.stepCall, hphase] using h
      | read =>
        cases hphase : call.phase with
        | reading lock => simpa only [DocumentMirror.stepCall, hphase] using h.read hget hphase
        | _ => simpa only [DocumentMirror.stepCall, hphase] using h
      | write failure =>
        cases hphase : call.phase with
        | notifying lock notification outcome =>
          cases failure with
          | none => simpa only [DocumentMirror.stepCall, hphase] using h.write hget hphase
          | some error =>
            have hend : MirrorInv (mirror.setCall c (call.finish (.error error))) :=
              h.returned hget rfl rfl rfl (Or.inl (by rw [hphase]; rfl))
            simpa only [DocumentMirror.stepCall, hphase] using hend
        | _ => simpa only [DocumentMirror.stepCall, hphase] using h
      | record =>
        cases hphase : call.phase with
        | recording lock written outcome =>
          simpa only [DocumentMirror.stepCall, hphase] using h.record hget hphase
        | _ => simpa only [DocumentMirror.stepCall, hphase] using h
      | unlink =>
        cases hphase : call.phase with
        | unlinking lock => simpa only [DocumentMirror.stepCall, hphase] using h.unlink hget hphase
        | _ => simpa only [DocumentMirror.stepCall, hphase] using h

/-- A server that advertises open/close and incremental sync. -/
def incrementalSync : DocumentSyncOptions := ⟨true, 2⟩

lemma mirrorInv_init (maxDocuments : ℕ) : MirrorInv { sync := incrementalSync, maxDocuments } where
  sync := rfl
  calls := by simp
  locked := by simp
  exclusive := by simp
  mirrored := by simp [DocumentMirror.recordedText]
  fits := by simp [DocumentMirror.recordedText]
  reopened := rfl

/-- Along a run in which no call is cancelled between its notification and its record and texts are
short enough, no document is opened twice, and the server has the recorded documents whenever no
call is in progress. -/
theorem documents_mirrored (maxDocuments : ℕ) (steps : List MirrorStep)
    (h : Runs.Along DocumentMirror.step DocumentMirror.InTime
      { sync := incrementalSync, maxDocuments } steps) :
    let mirror := DocumentMirror.run { sync := incrementalSync, maxDocuments } steps
    mirror.reopened = false ∧ ((∀ call ∈ mirror.calls, call.phase.isOver = true) →
        ∀ uri : String, mirror.server[uri]? = mirror.documents[uri]?.map (·.text)) := by
  intro mirror
  have hinv : MirrorInv mirror :=
    h.invariant (fun _ _ ht htime => ht.step htime) (mirrorInv_init maxDocuments)
  refine ⟨hinv.reopened, fun hover uri => hinv.mirrored uri fun call hcall _ => ?_⟩
  have hend := hover call hcall
  cases hphase : call.phase <;> simp [hphase, DocumentPhase.isOver, DocumentPhase.isRecording] at *

/-- The steps of a call that runs to its end. -/
def wholeCall (c : ℕ) : List MirrorStep :=
  [.act c .obtain, .act c .acquire, .act c .read, .act c (.write none), .act c .record]

/-- A document is opened, changed and closed. -/
theorem documents_mirrored_open_change_close :
    let steps : List MirrorStep :=
      .call (.synchronize "rust" "a\nb".toList) "file:///a.rs" :: wholeCall 0 ++
        .call (.synchronize "rust" "a\ncb".toList) "file:///a.rs" :: wholeCall 1 ++
        .call .close "file:///a.rs" :: wholeCall 2 ++ [.act 2 .unlink]
    let mirror := DocumentMirror.run { sync := incrementalSync, maxDocuments := 512 } steps
    mirror.reopened = false ∧ ∀ uri : String, mirror.server[uri]? = mirror.documents[uri]?.map (·.text) := by
  intro steps mirror
  have hmirrored := documents_mirrored 512 steps (by decide +kernel)
  exact ⟨hmirrored.1, hmirrored.2 (by decide +kernel)⟩

/-- The server has an unrecorded document, which is opened again. -/
theorem cancelled_open_is_opened_twice :
    let cancelled : List MirrorStep :=
      [.call (.synchronize "rust" "a".toList) "file:///a.rs", .act 0 .obtain, .act 0 .acquire,
        .act 0 .read, .act 0 (.write none), .act 0 .cancel]
    let again : List MirrorStep :=
      .call (.synchronize "rust" "a".toList) "file:///a.rs" :: wholeCall 1
    let start : DocumentMirror := { sync := incrementalSync, maxDocuments := 512 }
    (∀ call ∈ (start.run cancelled).calls, call.phase.isOver = true) ∧
      (start.run cancelled).server["file:///a.rs"]? = some "a".toList ∧
      (start.run cancelled).documents["file:///a.rs"]? = none ∧
      (start.run (cancelled ++ again)).reopened = true := by
  decide +kernel

end AgzRustMcp.Lsp
