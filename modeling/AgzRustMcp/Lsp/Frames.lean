import AgzRustMcp.Change.Model

/-!
# The frame decoder of the LSP client

`FrameDecoder` of `lsp/client.rs` cuts the output of the language server into frames.  It keeps a
bounded buffer and the number of bytes left to skip, and returns a bounded number of frames for each
read.  Parsing JSON is a parameter.
-/

namespace AgzRustMcp.Lsp

open Utf8Text

/-! ## Frames -/

inductive FrameError where
  | headerTooLarge
  | bufferTooLarge
  | missingContentLength
  | invalidContentLength
  | bodyTooLarge
  | invalidUtf8
  | invalidJson (text : String)
  deriving DecidableEq

def defaultMaxHeaderBytes : ℕ := 8 * 1024

def defaultMaxFramesPerRead : ℕ := 256

/-- The limits of a `FrameDecoder`. -/
structure FrameLimits where
  maxBodyBytes : ℕ
  maxHeaderBytes : ℕ
  maxBufferBytes : ℕ
  maxFramesPerPush : ℕ
  deriving DecidableEq

structure FrameDecoder extends FrameLimits where
  buffer : List UInt8 := []
  discardBody : Option ℕ := none
  deriving DecidableEq

/-- The limits that `FrameDecoder::new` sets. -/
def FrameLimits.new (maxBodyBytes : ℕ) : FrameLimits where
  maxBodyBytes := max maxBodyBytes 1
  maxHeaderBytes := defaultMaxHeaderBytes
  maxBufferBytes := saturatingAdd (max maxBodyBytes 1) defaultMaxHeaderBytes
  maxFramesPerPush := defaultMaxFramesPerRead

def FrameDecoder.new (maxBodyBytes : ℕ) : FrameDecoder := { FrameLimits.new maxBodyBytes with }

/-- `windows(..).position(..)` for a window that is not empty. -/
def findWindow (p : List UInt8 → Bool) : List UInt8 → Option ℕ
  | [] => none
  | b :: rest => if p (b :: rest) then some 0 else (findWindow p rest).map (· + 1)

def bytesOf (text : String) : List UInt8 := text.toByteArray.data.toList

/-- The end of a header, `b"\r\n\r\n"`. -/
def headerEnd : List UInt8 := [13, 10, 13, 10]

def findHeaderEnd (buffer : List UInt8) : Option ℕ := findWindow (headerEnd.isPrefixOf ·) buffer

/-- `u8::to_ascii_lowercase`. -/
def asciiLowercase (b : UInt8) : UInt8 := if 65 ≤ b ∧ b ≤ 90 then b + 32 else b

def findContentLengthHeader (buffer : List UInt8) : Option ℕ :=
  let needle := bytesOf "content-length:"
  findWindow (fun rest => (rest.take needle.length).map asciiLowercase = needle) buffer

def resyncHeader (buffer : List UInt8) : List UInt8 :=
  match findContentLengthHeader buffer with
  | none => buffer
  | some index => buffer.drop index

/-- `str::split("\r\n")`. -/
def splitCrlf : Text → List Text
  | [] => [[]]
  | '\r' :: '\n' :: rest => [] :: splitCrlf rest
  | c :: rest =>
    match splitCrlf rest with
    | [] => [[c]]
    | line :: lines => (c :: line) :: lines

def splitOnce (c : Char) (line : Text) : Option (Text × Text) :=
  if c ∈ line then some (line.takeWhile (· ≠ c), (line.dropWhile (· ≠ c)).drop 1) else none

/-- The value of one `Content-Length` line. -/
def contentLengthValue (value : Text) : Except FrameError ℕ :=
  let digits := trim value
  if digits = [] ∨ ¬ digits.all (·.isDigit) then .error .invalidContentLength
  else if Nat.ofDigitChars 10 digits 0 > u64Max then .error .invalidContentLength
  else .ok (Nat.ofDigitChars 10 digits 0)

/-- The loop of `parse_content_length` over the lines of a header. -/
def contentLengthFrom (found : Option ℕ) : List Text → Except FrameError ℕ
  | [] =>
    match found with
    | none => .error .missingContentLength
    | some length => .ok length
  | line :: lines =>
    match splitOnce ':' line with
    | none => .error .missingContentLength
    | some (name, value) =>
      if name.map Char.toLower ≠ "content-length".toList then contentLengthFrom found lines
      else if found.isSome then .error .invalidContentLength
      else
        match contentLengthValue value with
        | .error error => .error error
        | .ok length => contentLengthFrom (some length) lines

def parseContentLength (header : List UInt8) : Except FrameError ℕ :=
  match decodeUtf8? ⟨header.toArray⟩ with
  | none => .error .invalidUtf8
  | some text => contentLengthFrom none (splitCrlf text)

/-! ## Decoding -/

variable {V : Type} (fromStr : Text → Except String V)

/-- What a complete body is returned as. -/
def decodeBody (body : List UInt8) : Except FrameError V :=
  match decodeUtf8? ⟨body.toArray⟩ with
  | none => .error .invalidUtf8
  | some text =>
    match fromStr text with
    | .error error => .error (.invalidJson error)
    | .ok value => .ok value

/-- `decode_available` skips what is buffered of a body over the bound. -/
def FrameDecoder.discard (decoder : FrameDecoder) : FrameDecoder :=
  match decoder.discardBody with
  | none => decoder
  | some remaining =>
    let discarded := min remaining decoder.buffer.length
    { decoder with
      buffer := decoder.buffer.drop discarded
      discardBody := if remaining - discarded ≠ 0 then some (remaining - discarded) else none }

/-- One turn of the loop of `decode_available`; `none` when the buffer does not decide. -/
def FrameDecoder.decodeNext (decoder : FrameDecoder) : Option (FrameDecoder × Except FrameError V) :=
  match findHeaderEnd decoder.buffer with
  | none =>
    -- The loop ends here, and on the empty buffer a further turn would end it too.
    if decoder.buffer.length > decoder.maxHeaderBytes then
      some ({ decoder with buffer := [] }, .error .headerTooLarge)
    else none
  | some header =>
    let bodyStart := header + 4
    if header > decoder.maxHeaderBytes then
      some ({ decoder with buffer := resyncHeader (decoder.buffer.drop bodyStart) }, .error .headerTooLarge)
    else
      match parseContentLength (decoder.buffer.take header) with
      | .error error =>
        some ({ decoder with buffer := resyncHeader (decoder.buffer.drop bodyStart) }, .error error)
      | .ok length =>
        if length > decoder.maxBodyBytes then
          let availableBody := decoder.buffer.length - bodyStart
          if availableBody ≥ length then
            some ({ decoder with
                buffer :=
                  if bodyStart + length ≤ u64Max then decoder.buffer.drop (bodyStart + length)
                  else []
                discardBody := none },
              .error .bodyTooLarge)
          else
            some ({ decoder with buffer := [], discardBody := some (length - availableBody) }, .error .bodyTooLarge)
        else if bodyStart + length > u64Max then
          some ({ decoder with buffer := [] }, .error .bodyTooLarge)
        else if decoder.buffer.length < bodyStart + length then none
        else
          some ({ decoder with buffer := decoder.buffer.drop (bodyStart + length) },
            decodeBody fromStr ((decoder.buffer.drop bodyStart).take length))

/-- `decode_available` with room for a number of frames.  The flag is `progressed`. -/
def FrameDecoder.decodeAvailable : ℕ → FrameDecoder → FrameDecoder × List (Except FrameError V) × Bool
  | 0, decoder => (decoder, [], false)
  | slots + 1, decoder =>
    let progressed := decoder.discard.buffer.length < decoder.buffer.length
    if decoder.discard.discardBody.isSome then (decoder.discard, [], progressed)
    else
      match decoder.discard.decodeNext fromStr with
      | none => (decoder.discard, [], progressed)
      | some (next, frame) =>
        let rest := FrameDecoder.decodeAvailable slots next
        (rest.1, frame :: rest.2.1, true)

/-- The room in the buffer. -/
def FrameDecoder.available (decoder : FrameDecoder) : ℕ :=
  decoder.maxBufferBytes - decoder.buffer.length

/-- The loop of `push`.  Each turn that goes on takes at least one byte of the chunk. -/
def FrameDecoder.pushLoop : ℕ → FrameDecoder → List (Except FrameError V) → List UInt8 →
    FrameDecoder × List (Except FrameError V)
  | 0, decoder, frames, _ => (decoder, frames)
  | fuel + 1, decoder, frames, chunk =>
    let decoded := decoder.decodeAvailable fromStr (decoder.maxFramesPerPush - frames.length)
    let decoder := decoded.1
    let frames := frames ++ decoded.2.1
    if chunk = [] then (decoder, frames)
    else if frames.length ≥ decoder.maxFramesPerPush then
      if chunk.length > decoder.available then
        ({ decoder with buffer := [] }, frames ++ [.error .bufferTooLarge])
      else ({ decoder with buffer := decoder.buffer ++ chunk }, frames)
    else if decoder.available = 0 then
      let again := decoder.decodeAvailable fromStr (decoder.maxFramesPerPush - frames.length)
      if again.2.2 then FrameDecoder.pushLoop fuel again.1 (frames ++ again.2.1) chunk
      else ({ again.1 with buffer := [] }, frames ++ again.2.1 ++ [.error .bufferTooLarge])
    else
      let take := min decoder.available chunk.length
      FrameDecoder.pushLoop fuel { decoder with buffer := decoder.buffer ++ chunk.take take } frames
        (chunk.drop take)

def FrameDecoder.push (decoder : FrameDecoder) (chunk : List UInt8) : FrameDecoder × List (Except FrameError V) :=
  decoder.pushLoop fromStr (chunk.length + 1) [] chunk

/-- `read_stdout` pushes one read after another. -/
def FrameDecoder.pushAll (decoder : FrameDecoder) (reads : List (List UInt8)) :
    FrameDecoder × List (Except FrameError V) :=
  reads.foldl
    (fun (state : FrameDecoder × List (Except FrameError V)) chunk =>
      let pushed := state.1.push fromStr chunk
      (pushed.1, state.2 ++ pushed.2))
    (decoder, [])

/-- The header that `write_value` puts before a body of a length. -/
def frameHeader (length : ℕ) : List UInt8 := bytesOf s!"Content-Length: {length}\r\n\r\n"

/-- A body as `write_value` frames it. -/
def encodeFrame (body : List UInt8) : List UInt8 := frameHeader body.length ++ body

/-- A message of the server: a body that fits in memory and parses to a value. -/
structure Message (fromStr : Text → Except String V) where
  value : V
  body : List UInt8
  length_lt : body.length < 2 ^ 63
  parses : decodeBody fromStr body = .ok value

variable {fromStr}

def streamOf (messages : List (Message fromStr)) : List UInt8 :=
  messages.flatMap fun message => encodeFrame message.body

/-- The result that a message has to yield under a bound. -/
def Message.result (message : Message fromStr) (maxBodyBytes : ℕ) : Except FrameError V :=
  if message.body.length > max maxBodyBytes 1 then .error .bodyTooLarge else .ok message.value

end AgzRustMcp.Lsp
