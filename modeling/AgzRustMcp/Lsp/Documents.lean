import AgzRustMcp.Foundation.Utf16Position
import AgzRustMcp.Lsp.Requests

/-!
# Documents of the LSP client

`synchronize_document`, `begin_document` and `close_document` of `lsp/client.rs` as a machine whose
steps are what happens between two await points.  A call takes the lock of its URI, writes a
notification when one is needed, and records the new snapshot; it may be dropped at every await
point.

The server counts lines by line feeds and columns in UTF-16 code units; a frame is written whole or
not at all.
-/

namespace AgzRustMcp.Lsp

open Std (ExtTreeMap)
open Utf8Text Utf16Position

/-! ## Changes -/

/-- `u32::MAX`. -/
def u32Max : ℕ := 2 ^ 32 - 1

/-- `i64::MAX`. -/
def i64Max : ℕ := 2 ^ 63 - 1

structure Range where
  start : Position
  stop : Position
  deriving DecidableEq

structure TextDocumentChange where
  range : Range
  text : Text
  deriving DecidableEq

/-- The loop of `position_at_byte`, whose counters are `u32` and saturate. -/
def advanceSaturating (p : Position) (c : Char) : Position :=
  if c = '\n' then ⟨min (p.line + 1) u32Max, 0⟩
  else ⟨p.line, min (p.character + utf16Size c) u32Max⟩

def positionAtByte (text : Text) (byte : ℕ) : Position :=
  (takeBytes text byte).foldl advanceSaturating ⟨0, 0⟩

def charIndexToByte (text : Text) (index : ℕ) : ℕ := String.utf8Len (text.take index)

/-- The common prefix that the first loop of `incremental_change` counts. -/
def commonPrefix : Text → Text → ℕ
  | c :: old, d :: new => if c = d then commonPrefix old new + 1 else 0
  | _, _ => 0

/-- What the second loop of `incremental_change` takes off both ends. -/
def commonSuffix (old new : Text) (before : ℕ) : ℕ :=
  commonPrefix (old.drop before).reverse (new.drop before).reverse

def incrementalChange (previous next : Text) : TextDocumentChange :=
  let before := commonPrefix previous next
  let after := commonSuffix previous next before
  let oldStartByte := charIndexToByte previous before
  let oldEndByte := charIndexToByte previous (previous.length - after)
  let newStartByte := charIndexToByte next before
  let newEndByte := charIndexToByte next (next.length - after)
  { range := ⟨positionAtByte previous oldStartByte, positionAtByte previous oldEndByte⟩
    text := takeBytes (dropBytes next newStartByte) (newEndByte - newStartByte) }

/-! ## Notifications -/

structure DocumentSnapshot where
  version : ℕ
  text : Text
  deriving DecidableEq

structure DocumentSyncOptions where
  openClose : Bool
  change : ℕ
  deriving DecidableEq

/-- The entry of `contentChanges`: without a range it replaces the whole text. -/
inductive ContentChange where
  | full (text : Text)
  | incremental (change : TextDocumentChange)
  deriving DecidableEq

/-- `textDocument/didOpen`, `textDocument/didChange` and `textDocument/didClose`. -/
inductive DocumentNotification where
  | didOpen (uri languageId : String) (version : ℕ) (text : Text)
  | didChange (uri : String) (version : ℕ) (change : ContentChange)
  | didClose (uri : String)
  deriving DecidableEq

def DocumentNotification.uri : DocumentNotification → String
  | .didOpen uri _ _ _ | .didChange uri _ _ | .didClose uri => uri

/-- What the server makes of one change. -/
def ContentChange.apply (text : Text) : ContentChange → Text
  | .full new => new
  | .incremental change =>
    replaceBetween text change.range.start change.range.stop change.text

/-- What the server makes of a document, `none` when it is not open. -/
def DocumentNotification.apply (document : Option Text) : DocumentNotification → Option Text
  | .didOpen _ _ _ text => some text
  | .didChange _ _ change => document.map fun text => change.apply text
  | .didClose _ => none

/-! ## Calls -/

/-- Which function a call is of. -/
inductive DocumentOperation where
  | synchronize (languageId : String) (text : Text)
  | begin (languageId : String) (text : Text)
  | close
  deriving DecidableEq

/-- Where a call stands.  `lock` is the lock of the URI that the call has a reference to, and `outcome`
the snapshot that the call is going to leave.
* `obtaining`: about to look up the lock.
* `locking`: waiting for the lock.
* `reading`: holds the lock and has not read the recorded snapshot.
* `notifying`: about to write a notification.
* `recording`: about to record; `written` says whether a notification was written.
* `guarded`: `begin_document` has returned and its guard is alive.
* `unlinking`: `close_document` about to look whether the lock is still needed.
* `returned`: at its end. -/
inductive DocumentPhase where
  | obtaining
  | locking (lock : ℕ)
  | reading (lock : ℕ)
  | notifying (lock : ℕ) (notification : DocumentNotification) (outcome : Option DocumentSnapshot)
  | recording (lock : ℕ) (written : Bool) (outcome : Option DocumentSnapshot)
  | guarded (lock : ℕ)
  | unlinking (lock : ℕ)
  | returned
  deriving DecidableEq

/-- The lock that a call has a reference to. -/
def DocumentPhase.lock : DocumentPhase → Option ℕ
  | .obtaining | .returned => none
  | .locking lock | .reading lock | .notifying lock _ _ | .recording lock _ _ | .guarded lock
  | .unlinking lock => some lock

/-- The call holds its lock. -/
def DocumentPhase.holds : DocumentPhase → Bool
  | .reading _ | .notifying _ _ _ | .recording _ _ _ | .guarded _ => true
  | .obtaining | .locking _ | .unlinking _ | .returned => false

/-- The call has come to its end; a guard may be alive. -/
def DocumentPhase.isOver : DocumentPhase → Bool
  | .guarded _ | .returned => true
  | _ => false

abbrev DocumentError := LspError Empty

structure DocumentCall where
  uri : String
  operation : DocumentOperation
  phase : DocumentPhase := .obtaining
  result : Option (Except DocumentError (Option ℕ)) := none

/-- The documents of client and server; `reopened`: one was opened twice. -/
structure DocumentMirror where
  sync : DocumentSyncOptions
  maxDocuments : ℕ
  documents : ExtTreeMap String DocumentSnapshot := ∅
  documentLocks : ExtTreeMap String ℕ := ∅
  nextLock : ℕ := 0
  calls : List DocumentCall := []
  server : ExtTreeMap String Text := ∅
  reopened : Bool := false

def DocumentCall.finish (call : DocumentCall) (result : Except DocumentError (Option ℕ)) : DocumentCall :=
  { call with phase := .returned, result := some result }

/-- Puts a call back. -/
def DocumentMirror.setCall (mirror : DocumentMirror) (c : ℕ) (call : DocumentCall) : DocumentMirror :=
  { mirror with calls := mirror.calls.set c call }

/-- `document_lock_with_cancellation`. -/
def DocumentMirror.obtain (mirror : DocumentMirror) (c : ℕ) (call : DocumentCall) : DocumentMirror :=
  if trim call.uri.toList = [] then
    mirror.setCall c (call.finish (.error (.invalidInput "document URI cannot be empty")))
  else
    match mirror.documentLocks[call.uri]? with
    | some lock => mirror.setCall c { call with phase := .locking lock }
    | none =>
      if mirror.documentLocks.size ≥ mirror.maxDocuments then
        mirror.setCall c (call.finish (.error (.invalidInput "document lock limit exceeded")))
      else
        { mirror.setCall c { call with phase := .locking mirror.nextLock } with
          documentLocks := mirror.documentLocks.insert call.uri mirror.nextLock
          nextLock := mirror.nextLock + 1 }

def DocumentMirror.isFree (mirror : DocumentMirror) (lock : ℕ) : Bool :=
  mirror.calls.all fun call => !(call.phase.holds && call.phase.lock = some lock)

def nextVersion (previous : Option DocumentSnapshot) (text : Text) : ℕ :=
  match previous with
  | none => 1
  | some snapshot =>
    if snapshot.text = text then snapshot.version else min (snapshot.version + 1) i64Max

/-- `synchronize_document_locked` up to the notification. -/
def synchronizePhase (sync : DocumentSyncOptions) (lock : ℕ) (uri languageId : String) (text : Text)
    (previous : Option DocumentSnapshot) : DocumentPhase :=
  let version := nextVersion previous text
  let outcome : Option DocumentSnapshot := some ⟨version, text⟩
  match previous with
  | none =>
    if sync.openClose then .notifying lock (.didOpen uri languageId version text) outcome
    else .recording lock false outcome
  | some snapshot =>
    if snapshot.text ≠ text ∧ sync.change ≠ 0 then
      let change : ContentChange :=
        if sync.change = 2 then .incremental (incrementalChange snapshot.text text) else .full text
      .notifying lock (.didChange uri version change) outcome
    else .recording lock false outcome

/-- `close_document` up to the notification. -/
def closePhase (sync : DocumentSyncOptions) (lock : ℕ) (uri : String)
    (previous : Option DocumentSnapshot) : DocumentPhase :=
  if sync.openClose && previous.isSome then .notifying lock (.didClose uri) none
  else .recording lock false none

def DocumentMirror.readPhase (mirror : DocumentMirror) (call : DocumentCall) (lock : ℕ) : DocumentPhase :=
  match call.operation with
  | .synchronize languageId text | .begin languageId text =>
    synchronizePhase mirror.sync lock call.uri languageId text mirror.documents[call.uri]?
  | .close => closePhase mirror.sync lock call.uri mirror.documents[call.uri]?

/-- A value at a key, or none. -/
def putAt {α : Type} (map : ExtTreeMap String α) (key : String) : Option α → ExtTreeMap String α
  | none => map.erase key
  | some value => map.insert key value

/-- The server gets a notification. -/
def DocumentMirror.receive (mirror : DocumentMirror) (notification : DocumentNotification) : DocumentMirror :=
  { mirror with
    server := putAt mirror.server notification.uri
      (notification.apply mirror.server[notification.uri]?)
    reopened := mirror.reopened ||
      match notification with
      | .didOpen uri _ _ _ => mirror.server[uri]?.isSome
      | _ => false }

def DocumentCall.recorded (call : DocumentCall) (lock : ℕ) (outcome : Option DocumentSnapshot) : DocumentCall :=
  match call.operation with
  | .synchronize _ _ => call.finish (.ok (outcome.map (·.version)))
  | .begin _ _ => { call with phase := .guarded lock, result := some (.ok none) }
  | .close => { call with phase := .unlinking lock }

/-- The references to a lock: the map and the calls. -/
def DocumentMirror.strongCount (mirror : DocumentMirror) (lock : ℕ) : ℕ :=
  1 + mirror.calls.countP fun call => call.phase.lock = some lock

/-- `close_document` drops the lock of the URI when nobody else has a reference. -/
def DocumentMirror.unlink (mirror : DocumentMirror) (c : ℕ) (call : DocumentCall) (lock : ℕ) : DocumentMirror :=
  let returned := mirror.setCall c (call.finish (.ok none))
  if mirror.documentLocks[call.uri]? = some lock ∧ mirror.strongCount lock = 2 then
    { returned with documentLocks := mirror.documentLocks.erase call.uri }
  else returned

/-- The steps of a call; `cancel` drops it, or the guard it returned. -/
inductive DocumentStep where
  | obtain
  | acquire
  | read
  | write (failure : Option DocumentError)
  | record
  | unlink
  | cancel

/-- One step of a call.  A step that the call is not at does nothing. -/
def DocumentMirror.stepCall (mirror : DocumentMirror) (c : ℕ) (call : DocumentCall)
    (step : DocumentStep) : DocumentMirror :=
  match step, call.phase with
  | .obtain, .obtaining => mirror.obtain c call
  | .acquire, .locking lock =>
    if mirror.isFree lock then mirror.setCall c { call with phase := .reading lock } else mirror
  | .read, .reading lock => mirror.setCall c { call with phase := mirror.readPhase call lock }
  | .write failure, .notifying lock notification outcome =>
    match failure with
    | some error => mirror.setCall c (call.finish (.error error))
    | none =>
      (mirror.receive notification).setCall c { call with phase := .recording lock true outcome }
  | .record, .recording lock _ outcome =>
    { mirror.setCall c (call.recorded lock outcome) with
      documents := putAt mirror.documents call.uri outcome }
  | .unlink, .unlinking lock => mirror.unlink c call lock
  | .cancel, phase =>
    match phase with
    | .returned => mirror
    | .guarded _ => mirror.setCall c { call with phase := .returned }
    | _ => mirror.setCall c (call.finish (.error .cancelled))
  | _, _ => mirror

/-- The steps on the documents of a client. -/
inductive MirrorStep where
  | call (operation : DocumentOperation) (uri : String)
  | act (c : ℕ) (step : DocumentStep)

def DocumentMirror.step (mirror : DocumentMirror) : MirrorStep → DocumentMirror
  | .call operation uri => { mirror with calls := mirror.calls ++ [{ operation, uri }] }
  | .act c step =>
    match mirror.calls[c]? with
    | none => mirror
    | some call => mirror.stepCall c call step

def DocumentMirror.run (mirror : DocumentMirror) (steps : List MirrorStep) : DocumentMirror :=
  Runs.run DocumentMirror.step mirror steps

end AgzRustMcp.Lsp
