import AgzRustMcp.Workspace.Paths
import AgzRustMcp.Foundation.CharAt

/-!
# File URIs

`path_to_file_uri` of `lsp/normalize.rs` writes every byte that is not plain as a percent sign and
two digits; `parse_file_uri` of `workspace/roots.rs` reads such a URI, and some others.
`file_uri_round_trip` says what it accepts and returns.
-/

namespace AgzRustMcp.Workspace

open Utf8Text

/-- `NormalizeError`, as far as paths come to it. -/
inductive NormalizeError where
  | relativePath (path : List UInt8)
  | nonUtf8Path (path : List UInt8)
  deriving DecidableEq

def hexDigit (value : UInt8) : Char :=
  if value ≤ 9 then Char.ofNat (48 + value.toNat) else Char.ofNat (97 + (value.toNat - 10))

/-- A byte that is written as it is. -/
def isPlainByte (byte : UInt8) : Bool :=
  (48 ≤ byte && byte ≤ 57) || (65 ≤ byte && byte ≤ 90) || (97 ≤ byte && byte ≤ 122) ||
    byte == 45 || byte == 46 || byte == 95 || byte == 126 || byte == 47

def uriByte (byte : UInt8) : Text :=
  if isPlainByte byte then [Char.ofNat byte.toNat]
  else ['%', hexDigit (byte >>> 4), hexDigit (byte &&& 15)]

def pathToFileUri (path : List UInt8) : Except NormalizeError Text :=
  if path.head? ≠ some 47 then .error (.relativePath path)
  else
    match decodeUtf8? path.toByteArray with
    | none => .error (.nonUtf8Path path)
    | some raw => .ok ("file://".toList ++ (utf8Bytes raw).flatMap uriByte)

def hexValue (value : UInt8) : Option UInt8 :=
  if 48 ≤ value ∧ value ≤ 57 then some (value - 48)
  else if 97 ≤ value ∧ value ≤ 102 then some (value - 97 + 10)
  else if 65 ≤ value ∧ value ≤ 70 then some (value - 65 + 10)
  else none

def percentDecode : List UInt8 → Option (List UInt8)
  | [] => some []
  | byte :: rest =>
    if byte ≠ 37 then (percentDecode rest).map (byte :: ·)
    else
      match rest with
      | high :: low :: behind =>
        match hexValue high, hexValue low with
        | some h, some l => (percentDecode behind).map ((h <<< 4 ||| l) :: ·)
        | _, _ => none
      | _ => none

/-- `str::eq_ignore_ascii_case` with a name in lower case. -/
def eqIgnoreAsciiCase (text lower : Text) : Bool := text.map Char.toLower == lower

def parseFileUri (uri : Text) : Except RootError Text :=
  if "file://".toList.isPrefixOf uri then
    let rest := uri.drop 7
    if rest.contains '?' || rest.contains '#' then .error (.invalidFileUri uri)
    else
      let authority := rest.takeWhile (· ≠ '/')
      let path := rest.dropWhile (· ≠ '/')
      if path = [] then .error (.invalidFileUri uri)
      else if authority ≠ [] ∧ eqIgnoreAsciiCase authority "localhost".toList = false then
        .error (.invalidFileUri uri)
      else
        match percentDecode (utf8Bytes path) with
        | none => .error (.invalidFileUri uri)
        | some bytes =>
          match decodeUtf8? bytes.toByteArray with
          | none => .error (.invalidFileUri uri)
          | some decoded =>
            if isAbsolute decoded then
              match normalizePath decoded with
              | .error _ => .error (.invalidFileUri uri)
              | .ok normalized => .ok normalized
            else .error (.invalidFileUri uri)
  else .error (.invalidFileUri uri)

lemma decodeUtf8?_utf8Bytes (t : Text) : decodeUtf8? (utf8Bytes t).toByteArray = some t :=
  decodeUtf8?_encodeUtf8 t

lemma eq_utf8Bytes_of_decodeUtf8? {bytes : List UInt8} {t : Text}
    (h : decodeUtf8? bytes.toByteArray = some t) : bytes = utf8Bytes t := by
  have hencode : (utf8Bytes t).toByteArray = bytes.toByteArray := encodeUtf8_of_decodeUtf8? h
  have hlist := congrArg (fun array : ByteArray => array.data.toList) hencode
  simpa using hlist.symm

/-- What is written for a byte: itself, or percent and two digits. -/
inductive Written (byte : UInt8) : List UInt8 → Prop
  | plain (h : byte ≠ 37) : Written byte [byte]
  | digits {high low h l : UInt8} (hhigh : hexValue high = some h) (hlow : hexValue low = some l)
      (hbyte : h <<< 4 ||| l = byte) : Written byte [37, high, low]

lemma hexValue_hexDigit (byte : UInt8) : utf8Bytes [hexDigit (byte >>> 4)] = [(hexDigit (byte >>> 4)).toUInt8] ∧
      utf8Bytes [hexDigit (byte &&& 15)] = [(hexDigit (byte &&& 15)).toUInt8] ∧
      hexValue (hexDigit (byte >>> 4)).toUInt8 = some (byte >>> 4) ∧
      hexValue (hexDigit (byte &&& 15)).toUInt8 = some (byte &&& 15) ∧
      (byte >>> 4) <<< 4 ||| (byte &&& 15) = byte := by
  revert byte
  exact forall_byte (by decide +kernel)

lemma written_uriByte (byte : UInt8) : Written byte (utf8Bytes (uriByte byte)) := by
  unfold uriByte
  split
  next hplain =>
    have hbytes : isPlainByte byte = true → utf8Bytes [Char.ofNat byte.toNat] = [byte] ∧ byte ≠ 37 :=
      @forall_byte (fun byte => isPlainByte byte = true →
        utf8Bytes [Char.ofNat byte.toNat] = [byte] ∧ byte ≠ 37) (by decide +kernel) byte
    rw [(hbytes hplain).1]
    exact .plain (hbytes hplain).2
  next hplain =>
    obtain ⟨hhigh, hlow, hvalueHigh, hvalueLow, hhalves⟩ := hexValue_hexDigit byte
    have hbytes : utf8Bytes ['%', hexDigit (byte >>> 4), hexDigit (byte &&& 15)] =
        [(37 : UInt8), (hexDigit (byte >>> 4)).toUInt8, (hexDigit (byte &&& 15)).toUInt8] := by
      have hsplit : ['%', hexDigit (byte >>> 4), hexDigit (byte &&& 15)] =
          ['%'] ++ ([hexDigit (byte >>> 4)] ++ [hexDigit (byte &&& 15)]) := rfl
      rw [hsplit, utf8Bytes_append, utf8Bytes_append, hhigh, hlow]
      rfl
    rw [hbytes]
    exact .digits hvalueHigh hvalueLow hhalves

lemma notMem_uriByte (byte : UInt8) : '?' ∉ uriByte byte ∧ '#' ∉ uriByte byte := by
  revert byte
  exact forall_byte (by decide +kernel)

lemma percentDecode_written {byte : UInt8} {written : List UInt8} (h : Written byte written) (rest : List UInt8) :
    percentDecode (written ++ rest) = (percentDecode rest).map (byte :: ·) := by
  cases h with
  | plain hne =>
    rw [List.singleton_append, percentDecode.eq_def]
    exact if_pos hne
  | digits hhigh hlow hbyte =>
    rw [List.cons_append, List.cons_append, List.singleton_append, percentDecode, if_neg (not_not.mpr rfl)]
    simp only [hhigh, hlow, hbyte]

lemma percentDecode_flatMap (bytes : List UInt8) :
    percentDecode (utf8Bytes (bytes.flatMap uriByte)) = some bytes := by
  induction bytes with
  | nil => rfl
  | cons byte bytes ih =>
    rw [List.flatMap_cons, utf8Bytes_append, percentDecode_written (written_uriByte byte), ih]
    rfl

lemma parseFileUri_of_written {path encoded : Text} (hhead : encoded.head? = some '/')
    (hquery : '?' ∉ encoded) (hfragment : '#' ∉ encoded)
    (hdecode : percentDecode (utf8Bytes encoded) = some (utf8Bytes path))
    (habsolute : isAbsolute path = true) (hnormal : normalizePath path = .ok path) :
    parseFileUri ("file://".toList ++ encoded) = .ok path := by
  obtain ⟨rest, rfl⟩ : ∃ rest, encoded = '/' :: rest := by
    cases encoded with
    | nil => simp at hhead
    | cons c rest =>
      obtain rfl := Option.some.inj hhead
      exact ⟨rest, rfl⟩
  have hdrop : ("file://".toList ++ '/' :: rest).drop 7 = '/' :: rest := rfl
  have hprefix : "file://".toList.isPrefixOf ("file://".toList ++ '/' :: rest) = true := by
    rw [List.isPrefixOf_iff_prefix]
    exact List.prefix_append _ _
  unfold parseFileUri
  rw [if_pos hprefix, hdrop]
  dsimp only
  have hmarks : ¬ (('/' :: rest).contains '?' || ('/' :: rest).contains '#') = true := by
    rw [Bool.or_eq_true, List.contains_iff_mem, List.contains_iff_mem, not_or]
    exact ⟨hquery, hfragment⟩
  rw [if_neg hmarks]
  have htake : ('/' :: rest).takeWhile (fun c => decide (c ≠ '/')) = [] := by
    simp
  have hpath : ('/' :: rest).dropWhile (fun c => decide (c ≠ '/')) = '/' :: rest := by
    simp
  rw [htake, hpath, if_neg (by simp), if_neg (by simp), hdecode]
  dsimp only
  rw [decodeUtf8?_utf8Bytes]
  dsimp only
  rw [if_pos habsolute, hnormal]

lemma parseFileUri_pathToFileUri {path : Text} (h : NormalizedAbsolute path) :
    ∃ uri, pathToFileUri (utf8Bytes path) = .ok uri ∧ parseFileUri uri = .ok path := by
  obtain ⟨names, hnames, rfl⟩ := h
  have hhead : (utf8Bytes (absoluteOf names)).head? = some 47 := rfl
  have hfirst : ((utf8Bytes (absoluteOf names)).flatMap uriByte).head? = some '/' := rfl
  have hmarks : ∀ c : Char, (∀ byte, c ∉ uriByte byte) → c ∉ (utf8Bytes (absoluteOf names)).flatMap uriByte := by
    intro c hc hmem
    obtain ⟨byte, -, hbyte⟩ := List.mem_flatMap.mp hmem
    exact hc byte hbyte
  refine ⟨_, ?_, parseFileUri_of_written hfirst (hmarks '?' fun byte => (notMem_uriByte byte).1)
    (hmarks '#' fun byte => (notMem_uriByte byte).2) (percentDecode_flatMap _)
    (isAbsolute_absoluteOf names) (normalizePath_absoluteOf hnames)⟩
  unfold pathToFileUri
  rw [if_neg (not_not.mpr hhead), decodeUtf8?_utf8Bytes]

/-! ## What is read -/

lemma notMem_parentDir_of_normalizeFrom {done normalized : Text} {parts : List Component}
    (h : normalizeFrom done parts = .ok normalized) : .parentDir ∉ parts := by
  induction parts generalizing done with
  | nil => exact List.not_mem_nil
  | cons part parts ih =>
    cases part with
    | parentDir => simp [normalizeFrom] at h
    | rootDir => simpa using ih h
    | curDir => simpa using ih h
    | normal name => simpa using ih h

lemma notMem_parentDir_of_normalizePath {path normalized : Text} (hne : path ≠ [])
    (h : normalizePath path = .ok normalized) : .parentDir ∉ components path := by
  unfold normalizePath at h
  rw [if_neg hne] at h
  split at h
  · simp at h
  next loop hloop => exact notMem_parentDir_of_normalizeFrom hloop

lemma spec_of_parseFileUri {uri path : Text} (h : parseFileUri uri = .ok path) :
    ∃ authority encoded decoded, uri = "file://".toList ++ authority ++ encoded ∧ '/' ∉ authority ∧
      (authority = [] ∨ eqIgnoreAsciiCase authority "localhost".toList = true) ∧
      encoded.head? = some '/' ∧ '?' ∉ authority ++ encoded ∧ '#' ∉ authority ++ encoded ∧
      percentDecode (utf8Bytes encoded) = some (utf8Bytes decoded) ∧
      isAbsolute decoded = true ∧ .parentDir ∉ components decoded ∧ normalizePath decoded = .ok path := by
  unfold parseFileUri at h
  split at h
  next hprefix =>
    obtain ⟨rest, rfl⟩ := List.isPrefixOf_iff_prefix.mp hprefix
    rw [show ("file://".toList ++ rest).drop 7 = rest from rfl] at h
    dsimp only at h
    split at h
    · simp at h
    next hmarks =>
    split at h
    · simp at h
    next hpath =>
    split at h
    · simp at h
    next hauthority =>
    split at h
    · simp at h
    next bytes hbytes =>
    split at h
    · simp at h
    next decoded hdecoded =>
    split at h
    next habsolute =>
      split at h
      · simp at h
      next normalized hnormal =>
      obtain rfl := Except.ok.inj h
      have hsplit := List.takeWhile_append_dropWhile (p := fun c => decide (c ≠ '/')) (l := rest)
      refine ⟨rest.takeWhile fun c => decide (c ≠ '/'), rest.dropWhile fun c => decide (c ≠ '/'),
        decoded, ?_, ?_, ?_, ?_, ?_, ?_, ?_, habsolute, ?_, hnormal⟩
      · rw [List.append_assoc, hsplit]
      · intro hmem
        simpa using List.mem_takeWhile_imp hmem
      · rw [not_and, Bool.not_eq_false] at hauthority
        exact or_iff_not_imp_left.mpr hauthority
      · have hhead := List.head?_dropWhile_not (fun c => decide (c ≠ '/')) rest
        cases hdrop : rest.dropWhile fun c => decide (c ≠ '/') with
        | nil => exact absurd hdrop hpath
        | cons c behind =>
          rw [hdrop] at hhead
          simpa using hhead
      · rw [hsplit]
        exact fun hmem => hmarks (by simp [hmem])
      · rw [hsplit]
        exact fun hmem => hmarks (by simp [hmem])
      · rw [hbytes, eq_utf8Bytes_of_decodeUtf8? hdecoded]
      · refine notMem_parentDir_of_normalizePath ?_ hnormal
        rintro rfl
        simp [isAbsolute] at habsolute
    · simp at h
  · simp at h

/-- A normalized absolute path is read back from its URI, and a URI is read only when its decoded
path is absolute, valid UTF-8 and free of parent components. -/
theorem file_uri_round_trip :
    (∀ path, NormalizedAbsolute path →
      ∃ uri, pathToFileUri (utf8Bytes path) = .ok uri ∧ parseFileUri uri = .ok path) ∧
    ∀ uri path, parseFileUri uri = .ok path →
      ∃ authority encoded decoded, uri = "file://".toList ++ authority ++ encoded ∧ '/' ∉ authority ∧
        (authority = [] ∨ eqIgnoreAsciiCase authority "localhost".toList = true) ∧
        encoded.head? = some '/' ∧ '?' ∉ authority ++ encoded ∧ '#' ∉ authority ++ encoded ∧
        percentDecode (utf8Bytes encoded) = some (utf8Bytes decoded) ∧
        isAbsolute decoded = true ∧ .parentDir ∉ components decoded ∧
        normalizePath decoded = .ok path :=
  ⟨fun _ h => parseFileUri_pathToFileUri h, fun _ _ h => spec_of_parseFileUri h⟩

/-- A path with reserved and non-ASCII characters. -/
theorem file_uri_round_trip_reserved :
    ∃ uri, pathToFileUri (utf8Bytes "/a b/50%/é?#".toList) = .ok uri ∧ parseFileUri uri = .ok "/a b/50%/é?#".toList :=
  file_uri_round_trip.1 "/a b/50%/é?#".toList
    ⟨["a b".toList, "50%".toList, "é?#".toList], by
      intro name hname
      simp only [List.mem_cons, List.not_mem_nil, or_false] at hname
      rcases hname with rfl | rfl | rfl <;>
        exact ⟨by decide, by decide, by decide, by decide⟩, by decide⟩

end AgzRustMcp.Workspace
