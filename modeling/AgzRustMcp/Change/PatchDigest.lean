import AgzRustMcp.Foundation.Sha256
import AgzRustMcp.Change.Stage

/-!
# What the digest of a patch log determines

`compute_patch_hash` hashes the fields of the recorded patches and new files, each followed by a
zero byte, but neither the number of patches nor the length of a field.  `digest_determines_iff`
says which logs are the only ones with their digest.
-/

namespace AgzRustMcp

open Utf8Text Delimited

/-! ## The printed log -/

/-- The byte that ends a field. -/
def nul : Char := '\x00'

def patchFields (patch : StoredPatch) : List Text :=
  [patch.file.toList, patch.oldString.toList, patch.newString.toList]

def newFileFields (file : StoredNewFile) : List Text :=
  [file.file.toList, file.sha256.toList, (toString file.bytes).toList]

def logFields (patches : List StoredPatch) (newFiles : List StoredNewFile) : List Text :=
  patches.flatMap patchFields ++ newFiles.flatMap newFileFields

def logText (revision : ℕ) (patches : List StoredPatch) (newFiles : List StoredNewFile) : Text :=
  terminated nul ("agz-rust-mcp-change-patches".toList :: (toString revision).toList :: logFields patches newFiles)

lemma computePatchHash_eq (sha : ByteArray → String) (revision : ℕ) (patches : List StoredPatch)
    (newFiles : List StoredNewFile) :
    computePatchHash sha revision patches newFiles = sha (encodeUtf8 (logText revision patches newFiles)) := by
  have hpatches : (patches.map fun patch => patch.file ++ "\x00" ++ patch.oldString ++ "\x00" ++
      patch.newString ++ "\x00").flatMap String.toList =
      terminated nul (patches.flatMap patchFields) := by
    induction patches with
    | nil => rfl
    | cons patch patches ih =>
      simp only [List.map_cons, List.flatMap_cons, terminated_append, ih]
      simp [patchFields, nul]
  have hfiles : (newFiles.map fun file => file.file ++ "\x00" ++ file.sha256 ++ "\x00" ++
      toString file.bytes ++ "\x00").flatMap String.toList =
      terminated nul (newFiles.flatMap newFileFields) := by
    induction newFiles with
    | nil => rfl
    | cons file newFiles ih =>
      simp only [List.map_cons, List.flatMap_cons, terminated_append, ih]
      simp [newFileFields, nul]
  unfold computePatchHash encodeUtf8
  dsimp only
  congr 2
  rw [← String.toList_inj]
  simp only [String.toList_append, String.toList_join, hpatches, hfiles, String.toList_ofList]
  simp [logText, logFields, nul]

/-! ## Logs -/

/-- The patches and new files of a record, these with hash and length. -/
@[ext]
structure PatchLog (sha : ByteArray → String) where
  patches : List StoredPatch
  newFiles : List StoredNewFile
  recorded : ∀ file ∈ newFiles, file.sha256 = sha file.content.toByteArray ∧ file.bytes = textBytes file.content

def PatchLog.digest {sha : ByteArray → String} (log : PatchLog sha) (revision : ℕ) : String :=
  computePatchHash sha revision log.patches log.newFiles

/-- No field of the log contains a zero byte, apart from the hashes. -/
def PatchLog.Clean {sha : ByteArray → String} (log : PatchLog sha) : Prop :=
  (∀ patch ∈ log.patches, ∀ field ∈ patchFields patch, nul ∉ field) ∧ ∀ file ∈ log.newFiles, nul ∉ file.file.toList

/-- The log is empty, or one patch unlike a new file and without zero bytes. -/
def PatchLog.Alone {sha : ByteArray → String} (log : PatchLog sha) : Prop :=
  log.newFiles = [] ∧ (log.patches = [] ∨ ∃ patch, log.patches = [patch] ∧
    (∀ field ∈ patchFields patch, nul ∉ field) ∧
    ∀ content : String, patch.oldString = sha content.toByteArray → patch.newString ≠ toString (textBytes content))

section

variable {sha : ByteArray → String}

lemma nul_notMem_toString (n : ℕ) : nul ∉ (toString n).toList := by
  intro h
  have hdigits : nul ∈ Nat.toDigits 10 n := by simpa using h
  obtain ⟨d, hd, heq⟩ := Numerals.exists_of_mem_toDigits (by norm_num) (by norm_num) hdigits
  revert heq
  interval_cases d <;> decide

lemma toString_nat_inj {m n : ℕ} (h : toString m = toString n) : m = n := by
  have hdigits : Nat.toDigits 10 m = Nat.toDigits 10 n := by
    have hlist := congrArg String.toList h
    simpa using hlist
  exact Numerals.toDigits_inj (by norm_num) (by norm_num) hdigits

variable {log other : PatchLog sha} {revision revision' : ℕ}

lemma fields_of_digest_eq (hsha : Function.Injective sha) (h : other.digest revision' = log.digest revision) :
    terminated nul (logFields other.patches other.newFiles) =
      terminated nul (logFields log.patches log.newFiles) := by
  unfold PatchLog.digest at h
  rw [computePatchHash_eq, computePatchHash_eq] at h
  have htext := encodeUtf8_injective (hsha h)
  simp only [logText, terminated_cons] at htext
  have hheader : nul ∉ "agz-rust-mcp-change-patches".toList := by decide
  obtain ⟨-, hrest⟩ := Numerals.append_cons_inj hheader hheader htext
  exact (Numerals.append_cons_inj (nul_notMem_toString _) (nul_notMem_toString _) hrest).2

lemma digest_eq_of_fields (h : terminated nul (logFields other.patches other.newFiles) =
      terminated nul (logFields log.patches log.newFiles)) (revision : ℕ) :
    other.digest revision = log.digest revision := by
  unfold PatchLog.digest
  rw [computePatchHash_eq, computePatchHash_eq]
  simp only [logText, terminated_cons, h]

lemma length_logFields (patches : List StoredPatch) (newFiles : List StoredNewFile) :
    (logFields patches newFiles).length = 3 * (patches.length + newFiles.length) := by
  have hpatches : (patches.flatMap patchFields).length = patches.length * 3 := by
    simp [List.length_flatMap, patchFields]
  have hfiles : (newFiles.flatMap newFileFields).length = newFiles.length * 3 := by
    simp [List.length_flatMap, newFileFields]
  rw [logFields, List.length_append, hpatches, hfiles]
  omega

lemma patchFields_injective : Function.Injective patchFields := by
  intro patch patch' h
  simp only [patchFields, List.cons.injEq, String.toList_inj, and_true] at h
  cases patch
  cases patch'
  simpa using h

lemma eq_of_newFileFields (hsha : Function.Injective sha) {file file' : StoredNewFile}
    (hfile : file.sha256 = sha file.content.toByteArray ∧ file.bytes = textBytes file.content)
    (hfile' : file'.sha256 = sha file'.content.toByteArray ∧ file'.bytes = textBytes file'.content)
    (h : newFileFields file = newFileFields file') : file = file' := by
  simp only [newFileFields, List.cons.injEq, String.toList_inj, and_true] at h
  obtain ⟨hpath, hhash, hbytes⟩ := h
  have hcontent : file.content = file'.content := by
    rw [hfile.1, hfile'.1] at hhash
    exact String.toByteArray_inj.mp (hsha hhash)
  have hnumber := toString_nat_inj hbytes
  cases file
  cases file'
  simp_all

lemma PatchLog.Clean.notMem (h : log.Clean) (hhex : ∀ bytes, nul ∉ (sha bytes).toList) :
    ∀ field ∈ logFields log.patches log.newFiles, nul ∉ field := by
  intro field hfield
  rcases List.mem_append.mp hfield with hfield | hfield
  · obtain ⟨patch, hpatch, hmem⟩ := List.mem_flatMap.mp hfield
    exact h.1 patch hpatch field hmem
  · obtain ⟨file, hfile, hmem⟩ := List.mem_flatMap.mp hfield
    simp only [newFileFields, List.mem_cons, List.not_mem_nil, or_false] at hmem
    rcases hmem with rfl | rfl | rfl
    · exact h.2 file hfile
    · rw [(log.recorded file hfile).1]
      exact hhex _
    · exact nul_notMem_toString _

lemma PatchLog.Clean.eq_of_digest (hsha : Function.Injective sha)
    (hhex : ∀ bytes, nul ∉ (sha bytes).toList) (hlog : log.Clean)
    (hother : other.Clean) (hlen : other.patches.length = log.patches.length)
    (h : other.digest revision' = log.digest revision) : other = log := by
  have hfields := eq_of_terminated_eq (hother.notMem hhex) (hlog.notMem hhex)
    (fields_of_digest_eq hsha h)
  obtain ⟨hpatches, hfiles⟩ := List.append_inj hfields
    (by simp [List.length_flatMap, patchFields, hlen])
  apply PatchLog.ext
  · exact eq_of_flatMap_eq (by norm_num : 0 < 3) (fun _ => rfl)
      (fun _ _ _ _ heq => patchFields_injective heq) hpatches
  · exact eq_of_flatMap_eq (by norm_num : 0 < 3) (fun _ => rfl)
      (fun file hfile file' hfile' heq => eq_of_newFileFields hsha (other.recorded file hfile)
        (log.recorded file' hfile') heq) hfiles

def PatchLog.ofPatch (sha : ByteArray → String) (patch : StoredPatch) : PatchLog sha :=
  ⟨[patch], [], by simp⟩

def PatchLog.ofNewFile (sha : ByteArray → String) (path content : String) : PatchLog sha :=
  ⟨[], [⟨path, content, sha content.toByteArray, textBytes content⟩], by simp⟩

lemma PatchLog.exists_ofPatch (log : PatchLog sha) (h : ¬ (log.patches = [] ∧ log.newFiles = [])) :
    ∃ patch, ∀ revision, (PatchLog.ofPatch sha patch).digest revision = log.digest revision := by
  have hlen := length_logFields log.patches log.newFiles
  have hpos : 0 < log.patches.length + log.newFiles.length := by
    rcases Nat.eq_zero_or_pos (log.patches.length + log.newFiles.length) with hzero | hpos
    · refine absurd ⟨List.eq_nil_of_length_eq_zero (by omega), List.eq_nil_of_length_eq_zero (by omega)⟩ h
    · exact hpos
  obtain ⟨x, y, z, rest, hfields⟩ : ∃ x y z rest, logFields log.patches log.newFiles = x :: y :: z :: rest := by
    match hmatch : logFields log.patches log.newFiles with
    | [] | [_] | [_, _] =>
      rw [hmatch] at hlen
      simp only [List.length_cons, List.length_nil] at hlen
      omega
    | x :: y :: z :: rest => exact ⟨x, y, z, rest, rfl⟩
  obtain ⟨last, hlast⟩ := exists_terminated_eq (d := nul) z rest
  refine ⟨⟨String.ofList x, String.ofList y, String.ofList last⟩, fun revision => ?_⟩
  apply digest_eq_of_fields
  rw [hfields]
  simp only [PatchLog.ofPatch, logFields, List.flatMap_cons, List.flatMap_nil, List.append_nil,
    patchFields, String.toList_ofList, terminated_cons x, terminated_cons y, hlast]

lemma exists_patch_of_nul_mem {patch : StoredPatch} {field : Text} (hfield : field ∈ patchFields patch)
    (hnul : nul ∈ field) : ∃ other, other ≠ patch ∧ ∀ revision, (PatchLog.ofPatch sha other).digest revision =
        (PatchLog.ofPatch sha patch).digest revision := by
  obtain ⟨before, after, rfl⟩ := List.append_of_mem hnul
  simp only [patchFields, List.mem_cons, List.not_mem_nil, or_false] at hfield
  -- the zero byte ends the field, and the rest goes to the field after it or before it
  rcases hfield with hfile | hold | hnew
  · refine ⟨⟨String.ofList before, String.ofList (after ++ nul :: patch.oldString.toList),
      patch.newString⟩, fun heq => ?_, fun revision => digest_eq_of_fields ?_ revision⟩
    · have hlen := congrArg (fun p => p.file.toList.length) heq
      simp only [← hfile, String.toList_ofList, List.length_append, List.length_cons] at hlen
      omega
    · simp [PatchLog.ofPatch, logFields, patchFields, ← hfile]
  · refine ⟨⟨patch.file, String.ofList before, String.ofList (after ++ nul :: patch.newString.toList)⟩,
      fun heq => ?_, fun revision => digest_eq_of_fields ?_ revision⟩
    · have hlen := congrArg (fun p => p.oldString.toList.length) heq
      simp only [← hold, String.toList_ofList, List.length_append, List.length_cons] at hlen
      omega
    · simp [PatchLog.ofPatch, logFields, patchFields, ← hold]
  · refine ⟨⟨patch.file, String.ofList (patch.oldString.toList ++ nul :: before), String.ofList after⟩,
      fun heq => ?_, fun revision => digest_eq_of_fields ?_ revision⟩
    · have hlen := congrArg (fun p => p.newString.toList.length) heq
      simp only [← hnew, String.toList_ofList, List.length_append, List.length_cons] at hlen
      omega
    · simp [PatchLog.ofPatch, logFields, patchFields, ← hnew]

/-! ## The logs that are determined -/

lemma PatchLog.Alone.eq_of_digest (hsha : Function.Injective sha) (h : log.Alone)
    (hdigest : other.digest revision' = log.digest revision) : other = log := by
  have hfields := fields_of_digest_eq hsha hdigest
  have hother := length_logFields other.patches other.newFiles
  have hcount := length_le_count_terminated (d := nul) (logFields other.patches other.newFiles)
  obtain ⟨hfiles, hnone | ⟨patch, hpatches, hclean, hunlike⟩⟩ := h
  · have hzero : (terminated nul (logFields log.patches log.newFiles)).count nul = 0 := by
      simp [hnone, hfiles, logFields]
    rw [hfields, hzero, hother] at hcount
    apply PatchLog.ext
    · rw [hnone]
      exact List.eq_nil_of_length_eq_zero (by omega)
    · rw [hfiles]
      exact List.eq_nil_of_length_eq_zero (by omega)
  · have hlog : logFields log.patches log.newFiles = patchFields patch := by
      simp [hpatches, hfiles, logFields]
    rw [hlog] at hfields
    have hthree : (terminated nul (patchFields patch)).count nul = 3 :=
      count_terminated_of_notMem hclean
    have hone : other.patches.length + other.newFiles.length = 1 := by
      rw [hfields, hthree, hother] at hcount
      rcases Nat.eq_zero_or_pos (other.patches.length + other.newFiles.length) with hzero | hpos
      · have hnil : logFields other.patches other.newFiles = [] :=
          List.eq_nil_of_length_eq_zero (by rw [hother, hzero])
        rw [hnil] at hfields
        simp [← hfields] at hthree
      · omega
    have hothers : ∀ field ∈ logFields other.patches other.newFiles, nul ∉ field :=
      notMem_of_count_terminated (by rw [hfields, hthree, hother, hone])
    have heq := eq_of_terminated_eq hothers hclean hfields
    match hmatch : other.patches, hmatch' : other.newFiles with
    | [single], [] =>
      rw [hmatch, hmatch'] at heq
      apply PatchLog.ext
      · rw [hpatches, hmatch]
        have hsingle : patchFields single = patchFields patch := by simpa [logFields] using heq
        rw [patchFields_injective hsingle]
      · rw [hfiles, hmatch']
    | [], [single] =>
      rw [hmatch, hmatch'] at heq
      have hsingle : newFileFields single = patchFields patch := by simpa [logFields] using heq
      simp only [newFileFields, patchFields, List.cons.injEq, String.toList_inj, and_true] at hsingle
      obtain ⟨hhash, hbytes⟩ := other.recorded single (by simp [hmatch'])
      exact absurd (by rw [← hsingle.2.2, hbytes])
        (hunlike single.content (by rw [← hsingle.2.1, hhash]))
    | [], [] => simp [hmatch, hmatch'] at hone
    | _ :: _ :: _, _ => simp [hmatch] at hone; omega
    | [_], _ :: _ => simp [hmatch, hmatch'] at hone
    | [], _ :: _ :: _ => simp [hmatch, hmatch'] at hone

lemma PatchLog.alone_of_unique
    (h : ∀ other : PatchLog sha, other.digest revision = log.digest revision → other = log) : log.Alone := by
  by_cases hempty : log.patches = [] ∧ log.newFiles = []
  · exact ⟨hempty.2, Or.inl hempty.1⟩
  obtain ⟨patch, hpatch⟩ := log.exists_ofPatch hempty
  obtain rfl := h _ (hpatch revision)
  refine ⟨rfl, Or.inr ⟨patch, rfl, ?_, ?_⟩⟩
  · intro field hfield hnul
    obtain ⟨other, hne, hother⟩ := exists_patch_of_nul_mem hfield hnul
    have heq := congrArg PatchLog.patches (h _ (hother revision))
    exact hne (List.cons.inj heq).1
  · intro content hold hnew
    have hfile := h (PatchLog.ofNewFile sha patch.file content) (digest_eq_of_fields (by
      simp [PatchLog.ofPatch, PatchLog.ofNewFile, logFields, patchFields, newFileFields, hold, hnew]) revision)
    exact absurd (congrArg PatchLog.newFiles hfile) (by simp [PatchLog.ofPatch, PatchLog.ofNewFile])

end

/-- The digest determines just the empty log and one patch without a zero byte that does not look like a
new file. -/
theorem digest_determines_iff (sha : ByteArray → String) (hsha : Function.Injective sha)
    (hhex : ∀ bytes, nul ∉ (sha bytes).toList) (log : PatchLog sha) (revision : ℕ) :
    ((∀ (other : PatchLog sha) (revision' : ℕ),
      other.digest revision' = log.digest revision → other = log) ↔ log.Alone) ∧
    (log.Clean → ∀ (other : PatchLog sha) (revision' : ℕ), other.Clean → other.patches.length = log.patches.length →
      other.digest revision' = log.digest revision → other = log) := by
  constructor
  · constructor
    · intro h
      exact PatchLog.alone_of_unique fun other => h other revision
    · intro halone other revision' hdigest
      exact halone.eq_of_digest hsha hdigest
  · intro hclean other revision' hother hlen hdigest
    exact hclean.eq_of_digest hsha hhex hother hlen hdigest

/-- A patch of a small source file. -/
def renamePatch : StoredPatch := ⟨"src/lib.rs", "fn a() {}", "fn b() {}"⟩

/-- A function without collisions that is the hash at the log of the patch. -/
def renameSha : ByteArray → String :=
  Sha256.exactAt (encodeUtf8 (logText 1 [renamePatch] []))

/-- The log of one patch is the only one with its digest. -/
theorem digest_determines_one_patch :
    (PatchLog.ofPatch renameSha renamePatch).Alone ∧ ∀ (other : PatchLog renameSha) (revision' : ℕ),
        other.digest revision' = (PatchLog.ofPatch renameSha renamePatch).digest 1 →
        other = PatchLog.ofPatch renameSha renamePatch := by
  have halone : (PatchLog.ofPatch renameSha renamePatch).Alone := by
    refine ⟨rfl, Or.inr ⟨renamePatch, rfl, by decide, fun content _ hnew => ?_⟩⟩
    have hdigit : 'f' ∈ (toString (textBytes content)).toList := by
      rw [← hnew]
      decide
    have hdigits : 'f' ∈ Nat.toDigits 10 (textBytes content) := by simpa using hdigit
    exact absurd (Nat.isDigit_of_mem_toDigits (by norm_num) (by norm_num) hdigits) (by decide)
  exact ⟨halone, ((digest_determines_iff renameSha (Sha256.exactAt_injective _)
    (Sha256.nul_notMem_exactAt _) (PatchLog.ofPatch renameSha renamePatch) 1).1).mpr halone⟩

/-- A patch that turns the hash of a file into its length. -/
theorem patch_reads_as_new_file :
    (∀ sha : ByteArray → String, (PatchLog.ofPatch sha ⟨"sums.txt", sha "abc".toByteArray, "3"⟩).digest 1 =
        (PatchLog.ofNewFile sha "sums.txt" "abc").digest 1) ∧
    ¬ ∀ sha : ByteArray → String, Function.Injective sha → ∀ (log other : PatchLog sha)
      (revision : ℕ), other.digest revision = log.digest revision → other = log := by
  have hsame : ∀ sha : ByteArray → String, (PatchLog.ofPatch sha ⟨"sums.txt", sha "abc".toByteArray, "3"⟩).digest 1 =
        (PatchLog.ofNewFile sha "sums.txt" "abc").digest 1 := by
    intro sha
    have hbytes : toString (textBytes "abc") = "3" := by decide +kernel
    apply digest_eq_of_fields
    simp [PatchLog.ofPatch, PatchLog.ofNewFile, logFields, patchFields, newFileFields, hbytes]
  refine ⟨hsame, fun h => ?_⟩
  have heq := h renameSha (Sha256.exactAt_injective _) _ _ 1 (hsame renameSha)
  exact absurd (congrArg PatchLog.newFiles heq) (by simp [PatchLog.ofPatch, PatchLog.ofNewFile])

end AgzRustMcp
