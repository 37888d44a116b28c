import AgzRustMcp.Foundation.Utf8Stream
import AgzRustMcp.Foundation.Utf8Tail

/-!
# The output of a process

What the two pipes of a process deliver comes in chunks of any length and in any order.  The collector
decodes each stream, takes the control sequences of terminals out and keeps the end of the text.
-/

namespace AgzRustMcp.Output

open String (utf8Len)
open Utf8Text

inductive StreamKind
  | stdout
  | stderr
  deriving Repr, DecidableEq

inductive OutputEvent
  | chunk (stream : StreamKind) (bytes : List UInt8)
  | eof (stream : StreamKind)
  | error (stream : StreamKind) (error : String)
  deriving Repr, DecidableEq

/-- One value for each stream. -/
structure PerStream (α : Type) where
  stdout : α
  stderr : α
  deriving Repr, DecidableEq

namespace PerStream

variable {α : Type}

def get (values : PerStream α) : StreamKind → α
  | .stdout => values.stdout
  | .stderr => values.stderr

def set (values : PerStream α) (stream : StreamKind) (value : α) : PerStream α :=
  match stream with
  | .stdout => { values with stdout := value }
  | .stderr => { values with stderr := value }

@[simp]
lemma get_set_self (values : PerStream α) (stream : StreamKind) (value : α) :
    (values.set stream value).get stream = value := by
  cases stream <;> rfl

lemma get_set_of_ne (values : PerStream α) {stream other : StreamKind} (h : other ≠ stream) (value : α) :
    (values.set stream value).get other = values.get other := by
  cases stream <;> cases other <;> first | rfl | exact absurd rfl h

end PerStream

/-- The bytes that no character could be made of yet. -/
structure Utf8Decoder where
  pending : List UInt8
  deriving Repr, DecidableEq

/-- The loop of a decoder: the decoded text and the bytes that stay pending. -/
def decodeLoop (input : List UInt8) : Option (Text × List UInt8) :=
  if input.length = 0 then some ([], [])
  else
    match fromUtf8 input with
    | .ok text => some (text, [])
    | .error error =>
      let valid := if 0 < error.validUpTo then (fromUtf8 (input.take error.validUpTo)).toOption else some []
      let input := input.drop error.validUpTo
      match hlen : error.errorLen with
      | some length =>
        have := error.errorLen_pos length (by rw [hlen]; rfl)
        valid.bind fun text =>
          (decodeLoop (input.drop length)).map fun (more, pending) => (text ++ replacement :: more, pending)
      | none => valid.map fun text => (text, input)
termination_by input.length
decreasing_by
  simp only [List.length_drop]
  omega

def Utf8Decoder.push (decoder : Utf8Decoder) (bytes : List UInt8) : Option (Text × Utf8Decoder) :=
  if bytes.isEmpty && decoder.pending.isEmpty then some ([], decoder)
  else (decodeLoop (decoder.pending ++ bytes)).map fun (text, pending) => (text, ⟨pending⟩)

def Utf8Decoder.finish (decoder : Utf8Decoder) : Text × Utf8Decoder :=
  if decoder.pending.isEmpty then ([], decoder) else (fromUtf8Lossy decoder.pending, ⟨[]⟩)

inductive EscapeState
  | normal
  | escape
  | csi
  | osc
  | oscEscape
  deriving Repr, DecidableEq

def isControl (character : Char) : Bool :=
  character ≤ '\x1f' || character == '\x7f' || ('\x80' ≤ character && character ≤ '\u009f')

/-- What one character adds to the clean text, and the state behind it. -/
def EscapeState.step (state : EscapeState) (character : Char) : Text × EscapeState :=
  match state with
  | .normal =>
    if character = '\x1b' then ([], .escape)
    else if character = '\n' ∨ character = '\x0d' ∨ character = '\t' then ([character], .normal)
    else if isControl character then ([], .normal)
    else ([character], .normal)
  | .escape =>
    if character = '[' then ([], .csi) else if character = ']' then ([], .osc) else ([], .normal)
  | .csi => if '@' ≤ character ∧ character ≤ '~' then ([], .normal) else ([], .csi)
  | .osc =>
    if character = '\x07' then ([], .normal)
    else if character = '\x1b' then ([], .oscEscape)
    else ([], .osc)
  | .oscEscape =>
    if character = '\\' then ([], .normal)
    else if character = '\x1b' then ([], .oscEscape)
    else ([], .osc)

/-- The clean text of what follows in a state, and the state behind it. -/
def EscapeState.push (state : EscapeState) : Text → Text × EscapeState
  | [] => ([], state)
  | character :: text =>
    let (clean, next) := state.step character
    let (rest, last) := next.push text
    (clean ++ rest, last)

/-- The clean text of a whole output. -/
def sanitizeTerminalText (input : Text) : Text := (EscapeState.push .normal input).1

structure TailBuffer where
  maxBytes : ℕ
  bytes : List UInt8
  truncated : Bool
  deriving Repr, DecidableEq

def TailBuffer.new (maxBytes : ℕ) : TailBuffer := ⟨maxBytes, [], false⟩

def utf8TailBytes (value : List UInt8) (maxBytes : ℕ) : List UInt8 :=
  if value.length ≤ maxBytes then value
  else (value.drop (value.length - maxBytes)).dropWhile isContinuation

def TailBuffer.push (buffer : TailBuffer) (bytes : List UInt8) : TailBuffer :=
  if bytes.isEmpty then buffer
  else if buffer.maxBytes = 0 then { buffer with truncated := true, bytes := [] }
  else
    let truncated := buffer.truncated || decide (buffer.maxBytes < buffer.bytes.length + bytes.length)
    let bytes := buffer.bytes ++ bytes
    let bytes := if buffer.maxBytes < bytes.length then utf8TailBytes bytes buffer.maxBytes else bytes
    { buffer with truncated, bytes }

/-- The kept text; without an answer the code would stop. -/
def TailBuffer.asString (buffer : TailBuffer) : Option Text := (fromUtf8 buffer.bytes).toOption

/-! ## The collector -/

structure OutputCollector where
  maxBytes : ℕ
  combined : TailBuffer
  tails : PerStream TailBuffer
  decoders : PerStream Utf8Decoder
  sanitizers : PerStream EscapeState
  rawStdout : Option (List UInt8)
  rawStdoutTruncated : Bool
  readErrors : List String
  deriving Repr, DecidableEq

structure OutputSnapshot where
  output : Text
  stdout : Text
  stderr : Text
  rawStdout : Option (List UInt8)
  outputTruncated : Bool
  readErrors : List String
  deriving Repr, DecidableEq

namespace OutputCollector

/-- A collector that has read nothing, with or without capture. -/
def new (maxBytes : ℕ) (captureRawStdout : Bool) : OutputCollector where
  maxBytes := maxBytes
  combined := TailBuffer.new maxBytes
  tails := ⟨TailBuffer.new maxBytes, TailBuffer.new maxBytes⟩
  decoders := ⟨⟨[]⟩, ⟨[]⟩⟩
  sanitizers := ⟨.normal, .normal⟩
  rawStdout := if captureRawStdout then some [] else none
  rawStdoutTruncated := false
  readErrors := []

/-- Clean text is kept twice: with all output, and with that of its stream. -/
def appendClean (collector : OutputCollector) (stream : StreamKind) (text : Text) : OutputCollector :=
  if text.isEmpty then collector
  else
    { collector with
      combined := collector.combined.push (utf8Bytes text)
      tails := collector.tails.set stream ((collector.tails.get stream).push (utf8Bytes text)) }

def captureRaw (collector : OutputCollector) (bytes : List UInt8) : OutputCollector :=
  match collector.rawStdout with
  | none => collector
  | some raw =>
    let remaining := collector.maxBytes - raw.length
    { collector with
      rawStdout := some (raw ++ bytes.take (min bytes.length remaining))
      rawStdoutTruncated := collector.rawStdoutTruncated || decide (remaining < bytes.length) }

def push (collector : OutputCollector) (stream : StreamKind) (bytes : List UInt8) : Option OutputCollector := do
  let collector := if stream = .stdout then collector.captureRaw bytes else collector
  let (text, decoder) ← (collector.decoders.get stream).push bytes
  let (text, sanitizer) := (collector.sanitizers.get stream).push text
  let collector :=
    { collector with
      decoders := collector.decoders.set stream decoder
      sanitizers := collector.sanitizers.set stream sanitizer }
  some (collector.appendClean stream text)

/-- The stream ends: pending bytes are read, and no sequence goes on. -/
def finishStream (collector : OutputCollector) (stream : StreamKind) : OutputCollector :=
  let (text, decoder) := (collector.decoders.get stream).finish
  let (text, _) := (collector.sanitizers.get stream).push text
  let collector :=
    { collector with
      decoders := collector.decoders.set stream decoder
      sanitizers := collector.sanitizers.set stream .normal }
  collector.appendClean stream text

def pushError (collector : OutputCollector) (stream : StreamKind) (error : String) : OutputCollector :=
  if collector.readErrors.length < 4 then
    let name := match stream with
      | .stdout => "Stdout"
      | .stderr => "Stderr"
    { collector with readErrors := collector.readErrors ++ [name ++ ": " ++ error] }
  else collector

def handleEvent (collector : OutputCollector) : OutputEvent → Option OutputCollector
  | .chunk stream bytes => collector.push stream bytes
  | .eof stream => some (collector.finishStream stream)
  | .error stream error => some (collector.pushError stream error)

def finish (collector : OutputCollector) : Option OutputSnapshot := do
  let collector := (collector.finishStream .stdout).finishStream .stderr
  let output ← collector.combined.asString
  let stdout ← collector.tails.stdout.asString
  let stderr ← collector.tails.stderr.asString
  some {
    output, stdout, stderr
    rawStdout := collector.rawStdout
    outputTruncated := collector.combined.truncated || collector.rawStdoutTruncated
    readErrors := collector.readErrors }

end OutputCollector

/-- What is reported of a process whose pipes delivered these events. -/
def collect (maxBytes : ℕ) (captureRawStdout : Bool) (events : List OutputEvent) : Option OutputSnapshot := do
  let collector ← events.foldlM OutputCollector.handleEvent (OutputCollector.new maxBytes captureRawStdout)
  collector.finish

def streamBytes (stream : StreamKind) (events : List OutputEvent) : List UInt8 :=
  events.flatMap fun
    | .chunk other bytes => if other = stream then bytes else []
    | _ => []

/-- Nothing comes from a stream after its end. -/
def ReaderOrder (events : List OutputEvent) : Prop :=
  events.Pairwise fun first later =>
    ∀ stream bytes, first = .eof stream → later ≠ .chunk stream bytes

end AgzRustMcp.Output
