import AgzRustMcp.Change.Stage

/-!
# Re-reading the recorded files

`verifyCandidateBytes_eq_ok_iff` says what `verify_candidate_bytes` of `change/service.rs` accepts:
under every recorded path, after another pass of `normalize_relative`, stands a regular file with
the recorded hash and size.
-/

namespace AgzRustMcp

open Checked
open Std (ExtTreeMap)

/-- One turn of `verify_candidate_bytes`. -/
def verifyRecordedFile (sha : ByteArray → String) (tree : Tree) (file : String)
    (recorded : StoredHash) : Except String Unit :=
  match normalizeRelative file with
  | .error error => .error ("recorded candidate path " ++ file ++ " is invalid: " ++ error)
  | .ok relative =>
    match tree.lookup relative with
    | none => .error ("recorded candidate file " ++ file ++ " is unavailable: " ++ notFoundText)
    | some (.file bytes) =>
      if sha bytes ≠ recorded.sha256 ∨ bytes.size ≠ recorded.bytes then
        .error ("candidate file " ++ file ++ " does not match the recorded revision bytes")
      else .ok ()
    | some _ => .error ("recorded candidate file " ++ file ++ " is not a regular file")

def verifyCandidateBytes (sha : ByteArray → String) (tree : Tree) (record : ChangeRecord) : Except String Unit :=
  record.sourceHashes.toList.foldlM (fun _ entry => verifyRecordedFile sha tree entry.1 entry.2) ()

lemma verifyRecordedFile_eq_ok_iff {sha : ByteArray → String} {tree : Tree} {file : String}
    {recorded : StoredHash} : verifyRecordedFile sha tree file recorded = .ok () ↔
      ∃ path contents, normalizeRelative file = .ok path ∧ fileAt tree path = some contents ∧
        recorded = ⟨sha contents, contents.size⟩ := by
  unfold verifyRecordedFile fileAt
  cases hpath : normalizeRelative file with
  | error e => simp
  | ok path =>
    simp only [Except.ok.injEq]
    constructor
    · intro h
      refine ⟨path, ?_⟩
      cases hlookup : tree.lookup path with
      | none => simp [hlookup] at h
      | some node =>
        rw [hlookup] at h
        cases node with
        | dir => simp at h
        | symlink => simp at h
        | file contents =>
          dsimp only at h
          split_ifs at h with hsame
          rw [not_or, not_not, not_not] at hsame
          exact ⟨contents, rfl, rfl, by rw [hsame.1, hsame.2]⟩
    · rintro ⟨path', contents, rfl, hlookup, rfl⟩
      cases hnode : tree.lookup path with
      | none => simp [hnode] at hlookup
      | some node =>
        rw [hnode] at hlookup
        cases node with
        | dir => simp at hlookup
        | symlink => simp at hlookup
        | file bytes =>
          obtain rfl := Option.some.inj hlookup
          simp

lemma foldlM_unit_eq_ok_iff {α : Type} {f : α → Except String Unit} {l : List α} :
    l.foldlM (fun _ a => f a) () = .ok () ↔ ∀ a ∈ l, f a = .ok () := by
  induction l with
  | nil => simp [pure, Except.pure]
  | cons a l ih =>
    rw [List.foldlM_cons, bind_eq_ok_iff]
    constructor
    · rintro ⟨_, hturn, hrest⟩
      exact List.forall_mem_cons.mpr ⟨hturn, ih.mp hrest⟩
    · intro h
      obtain ⟨hturn, hrest⟩ := List.forall_mem_cons.mp h
      exact ⟨(), hturn, ih.mpr hrest⟩

/-- A candidate is accepted exactly when every recorded hash is that of its file. -/
theorem verifyCandidateBytes_eq_ok_iff {sha : ByteArray → String} {tree : Tree} {record : ChangeRecord} :
    verifyCandidateBytes sha tree record = .ok () ↔ ∀ file recorded, record.sourceHashes[file]? = some recorded →
        ∃ path contents, normalizeRelative file = .ok path ∧ fileAt tree path = some contents ∧
          recorded = ⟨sha contents, contents.size⟩ := by
  unfold verifyCandidateBytes
  rw [foldlM_unit_eq_ok_iff]
  simp only [Prod.forall, ExtTreeMap.mem_toList_iff_getElem?_eq_some, verifyRecordedFile_eq_ok_iff]

end AgzRustMcp
