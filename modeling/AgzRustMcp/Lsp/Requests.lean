import AgzRustMcp.Foundation.Runs
import AgzRustMcp.Change.Path

/-!
# Requests of the LSP client

`lsp/client.rs` as a machine whose steps are the moments at which requests, the reader of responses
and `mark_closed` touch what they share.  A request checks the flag, draws an id, enters the table,
checks the flag again, writes its frame and waits.  A response takes the entry out of the table and
then sends.

Timeouts, outcomes of writes and lengths of frames are inputs of the steps.  JSON values other than
ids are an arbitrary type.
-/

namespace AgzRustMcp.Lsp

open Std (ExtTreeMap)

/-! ## Errors and ids -/

/-- The members of `LspError` that requests and documents end with. -/
inductive LspError (V : Type) where
  | invalidInput (text : String)
  | frame (text : String)
  | timeout (method : String) (timeoutMs : ℕ)
  | cancelled
  | closed (text : String)
  | response (code : Option ℤ) (message : String) (data : Option V)
  | io (text : String)
  deriving DecidableEq

/-- The printed form of a floating-point number has a fraction or an exponent. -/
structure FloatText where
  text : String
  notInteger : '.' ∈ text.toList ∨ 'e' ∈ text.toList
  deriving DecidableEq

inductive Number where
  | posInt (n : ℕ)
  | negInt (n : ℕ)
  | float (number : FloatText)
  deriving DecidableEq

/-- The `id` of a message that `validate_message` lets through. -/
inductive MessageId where
  | null
  | string (text : String)
  | number (number : Number)
  deriving DecidableEq

/-- `Number` as JSON text. -/
def Number.toText : Number → String
  | .posInt n => toString n
  | .negInt n => "-" ++ toString n
  | .float number => number.text

/-- A character inside a JSON string. -/
def jsonEscape (c : Char) : List Char :=
  if c = '"' then ['\\', '"']
  else if c = '\\' then ['\\', '\\']
  else if c = '\n' then ['\\', 'n']
  else if c = '\r' then ['\\', 'r']
  else if c = '\t' then ['\\', 't']
  else if c = Char.ofNat 8 then ['\\', 'b']
  else if c = Char.ofNat 12 then ['\\', 'f']
  else if c.toNat < 32 then
    ['\\', 'u', '0', '0', (c.toNat / 16).digitChar, (c.toNat % 16).digitChar]
  else [c]

def rpcIdKey : MessageId → Option String
  | .null => none
  | .string text => some (String.ofList ('"' :: text.toList.flatMap jsonEscape ++ ['"']))
  | .number number => some number.toText

def defaultMaxPendingRequests : ℕ := 1024

/-! ## Requests -/

/-- Where a call of `request_with_cancellation` stands.
* `checking`: before its first checks.
* `numbering`: about to draw its id.
* `registering`: about to enter the pending table.
* `rechecking`: in the table, before the second look at the flag.
* `writing`, `framed`: in `write_value`, before and after its own checks.
* `leaving`: about to take itself out of the table and to return the error.
* `awaiting`: waiting for its channel, the timer and the token.
* `withdrawing`: in `cancel_pending`.
* `notifying`: about to send `$/cancelRequest`.
* `returned`: at its end. -/
inductive RequestPhase (V : Type) where
  | checking
  | numbering
  | registering
  | rechecking
  | writing
  | framed
  | leaving (error : LspError V)
  | awaiting
  | withdrawing (cancelled : Bool)
  | notifying (cancelled : Bool)
  | returned

/-- Who sent a value over the channel of a request. -/
inductive Source where
  | response (id : MessageId)
  | closing
  deriving DecidableEq

/-- A value sent over the channel of a request. -/
structure Delivery (V : Type) where
  source : Source
  value : Except (LspError V) V

/-- A call of `request_with_cancellation`.  `deliveries` is what its channel received, `results`
what it returned; `passed` says that its second look found the flag unset. -/
structure Request (V : Type) where
  method : String
  timeoutMs : ℕ
  cancellable : Bool
  phase : RequestPhase V := .checking
  id : ℕ := 0
  passed : Bool := false
  deliveries : List (Delivery V) := []
  results : List (Except (LspError V) V) := []

/-- `PendingRequest`, with the request at the other end of the channel. -/
structure PendingRequest where
  sender : ℕ
  method : String
  deriving DecidableEq

/-- A response between the removal of its entry and the send. -/
structure HeldResponse (V : Type) where
  sender : ℕ
  responseId : MessageId
  value : Except (LspError V) V

/-- Where a call of `mark_closed` stands.  A call that finds the flag set is `skipped`. -/
inductive ClosingPhase where
  | called | flagged | unplugged | drained | finished | skipped
  deriving DecidableEq

/-- A call of `mark_closed`. -/
structure Closing where
  reason : String
  phase : ClosingPhase := .called
  deriving DecidableEq

structure RpcResponseError (V : Type) where
  code : Option ℤ
  message : String
  data : Option V

structure Response (V : Type) where
  id : MessageId
  result : Option V
  error : Option (RpcResponseError V)

/-- The part of `LspClient` that requests share, with the calls on it. -/
structure LspClient (V : Type) where
  closed : Bool := false
  writerOpen : Bool := true
  nextId : ℕ := 1
  maxFrameBytes : ℕ
  pending : ExtTreeMap String PendingRequest := ∅
  protocolErrors : ℕ := 0
  requests : List (Request V) := []
  held : List (HeldResponse V) := []
  closings : List Closing := []

variable {V : Type}

/-- The call returns. -/
def Request.finish (request : Request V) (result : Except (LspError V) V) : Request V :=
  { request with phase := .returned, results := request.results ++ [result] }

/-- A value is sent over the channel, whose receiver lives as long as the call. -/
def Request.deliver (request : Request V) (delivery : Delivery V) : Request V :=
  match request.phase with
  | .returned => request
  | _ => { request with deliveries := request.deliveries ++ [delivery] }

/-- `rpc_id_key` of the id of a request. -/
def Request.idKey (request : Request V) : String := toString request.id

/-- What `cancel_pending` returns. -/
def Request.withdrawal (request : Request V) (cancelled : Bool) : LspError V :=
  if cancelled then .cancelled else .timeout request.method request.timeoutMs

/-- The steps of a request; `cancelled`: the token has fired; `failure`: of a write. -/
inductive RequestStep where
  | check (cancelled : Bool)
  | number
  | register
  | recheck
  | frame (encoded : Except String ℕ)
  | write (failure : Option String)
  | leave
  | receive
  | expire (cancelled : Bool)
  | withdraw
  | notify
  | abandon

/-- The first checks of `request_with_cancellation`. -/
def LspClient.checkRequest (client : LspClient V) (request : Request V) (cancelled : Bool) : Request V :=
  if trim request.method.toList = [] then
    request.finish (.error (.invalidInput "LSP method cannot be empty"))
  else if request.cancellable && cancelled then request.finish (.error .cancelled)
  else if client.closed then
    request.finish (.error (.closed "request attempted after process exit"))
  else { request with phase := .numbering }

/-- The checks of `write_value` before it takes the writer. -/
def LspClient.frameRequest (client : LspClient V) (request : Request V) (encoded : Except String ℕ) : Request V :=
  if client.closed then { request with phase := .leaving (.closed "process is closed") }
  else
    match encoded with
    | .error text => { request with phase := .leaving (.frame text) }
    | .ok length =>
      if length > client.maxFrameBytes then
        { request with
          phase := .leaving (.frame "outbound frame exceeded the configured bound") }
      else { request with phase := .framed }

/-- `write_value` once it holds the writer. -/
def LspClient.writeRequest (client : LspClient V) (request : Request V) (failure : Option String) : Request V :=
  if !client.writerOpen then { request with phase := .leaving (.closed "stdin is closed") }
  else
    match failure with
    | some text => { request with phase := .leaving (.io text) }
    | none => { request with phase := .awaiting }

/-- Nobody can send over the channel of a request any more. -/
def LspClient.SenderGone (client : LspClient V) (r : ℕ) : Bool :=
  client.pending.toList.all (fun entry => entry.2.sender ≠ r) && client.held.all fun response => response.sender ≠ r

/-- Puts a request back. -/
def LspClient.setRequest (client : LspClient V) (r : ℕ) (request : Request V) : LspClient V :=
  { client with requests := client.requests.set r request }

/-- `request_with_cancellation` enters the pending table. -/
def LspClient.registerRequest (client : LspClient V) (r : ℕ) (request : Request V) : LspClient V :=
  if client.pending.size ≥ defaultMaxPendingRequests then
    client.setRequest r (request.finish (.error (.invalidInput "pending request limit exceeded")))
  else
    { client.setRequest r { request with phase := .rechecking } with
      pending := client.pending.insert request.idKey ⟨r, request.method⟩ }

/-- `request_with_cancellation` looks at the flag again. -/
def LspClient.recheckRequest (client : LspClient V) (request : Request V) : Request V :=
  if client.closed then
    { request with phase := .leaving (.closed "process exited before request was written") }
  else { request with phase := .writing, passed := true }

/-- The request finds its channel ready. -/
def LspClient.receiveResult (client : LspClient V) (r : ℕ) (request : Request V) : LspClient V :=
  match request.deliveries with
  | delivery :: _ => client.setRequest r (request.finish delivery.value)
  | [] =>
    if client.SenderGone r then
      client.setRequest r (request.finish (.error (.closed "request channel closed")))
    else client

/-- `cancel_pending` up to the notification. -/
def LspClient.withdrawRequest (client : LspClient V) (r : ℕ) (request : Request V) (cancelled : Bool) : LspClient V :=
  if request.idKey ∈ client.pending then
    { client.setRequest r { request with phase := .notifying cancelled } with
      pending := client.pending.erase request.idKey }
  else client.setRequest r (request.finish (.error (request.withdrawal cancelled)))

/-- One step of a request.  A step that the request is not at does nothing. -/
def LspClient.stepRequest (client : LspClient V) (r : ℕ) (request : Request V) (step : RequestStep) : LspClient V :=
  match step, request.phase with
  | .check cancelled, .checking =>
    client.setRequest r (client.checkRequest request cancelled)
  | .number, .numbering =>
    { client.setRequest r { request with phase := .registering, id := client.nextId } with
      nextId := (client.nextId + 1) % 2 ^ 64 }
  | .register, .registering => client.registerRequest r request
  | .recheck, .rechecking => client.setRequest r (client.recheckRequest request)
  | .frame encoded, .writing => client.setRequest r (client.frameRequest request encoded)
  | .write failure, .framed => client.setRequest r (client.writeRequest request failure)
  | .leave, .leaving error =>
    { client.setRequest r (request.finish (.error error)) with
      pending := client.pending.erase request.idKey }
  | .receive, .awaiting => client.receiveResult r request
  | .expire cancelled, .awaiting =>
    if cancelled && !request.cancellable then client
    else client.setRequest r { request with phase := .withdrawing cancelled }
  | .withdraw, .withdrawing cancelled => client.withdrawRequest r request cancelled
  | .notify, .notifying cancelled =>
    client.setRequest r (request.finish (.error (request.withdrawal cancelled)))
  | .abandon, _ => client.setRequest r { request with phase := .returned }
  | _, _ => client

/-! ## Responses and closing -/

/-- `handle_message` on a response, up to the removal of the entry. -/
def LspClient.takeResponse (client : LspClient V) (null : V) (response : Response V) : LspClient V :=
  match rpcIdKey response.id with
  | none => { client with protocolErrors := client.protocolErrors + 1 }
  | some key =>
    match client.pending[key]? with
    | none => client
    | some entry =>
      let value :=
        match response.error with
        | some error => .error (.response error.code error.message error.data)
        | none => .ok (response.result.getD null)
      { client with
        pending := client.pending.erase key
        held := client.held ++ [⟨entry.sender, response.id, value⟩] }

/-- Sends a value over the channel of a request. -/
def sendTo (requests : List (Request V)) (r : ℕ) (delivery : Delivery V) : List (Request V) :=
  requests.modify r fun request => request.deliver delivery

/-- `handle_message` on a response, the send. -/
def LspClient.sendHeld (client : LspClient V) (h : ℕ) : LspClient V :=
  match client.held[h]? with
  | none => client
  | some response =>
    { client with
      held := client.held.eraseIdx h
      requests :=
        sendTo client.requests response.sender ⟨.response response.responseId, response.value⟩ }

/-- What `mark_closed` sends over the channel of an entry. -/
def closedDelivery (reason : String) (entry : PendingRequest) : Delivery V :=
  ⟨.closing, .error (.closed s!"{reason} (request: {entry.method})")⟩

/-- `mark_closed`, the drain of the pending table. -/
def LspClient.drain (client : LspClient V) (reason : String) : LspClient V :=
  { client with
    pending := ∅
    requests := (client.pending.toList.map Prod.snd).foldl
      (fun requests entry => sendTo requests entry.sender (closedDelivery reason entry))
      client.requests }

/-- One step of a call of `mark_closed`. -/
def LspClient.stepClosing (client : LspClient V) (c : ℕ) : LspClient V :=
  match client.closings[c]? with
  | none => client
  | some closing =>
    let moved (client : LspClient V) (phase : ClosingPhase) : LspClient V :=
      { client with closings := client.closings.set c { closing with phase } }
    match closing.phase with
    | .called =>
      if client.closed then moved client .skipped else moved { client with closed := true } .flagged
    | .flagged => moved { client with writerOpen := false } .unplugged
    | .unplugged => moved (client.drain closing.reason) .drained
    | .drained => moved client .finished
    | .finished | .skipped => client

inductive ClientStep (V : Type) where
  | request (method : String) (timeoutMs : ℕ) (cancellable : Bool)
  | act (r : ℕ) (step : RequestStep)
  | takeResponse (null : V) (response : Response V)
  | sendHeld (h : ℕ)
  | markClosed (reason : String)
  | close (c : ℕ)

/-- One step of a client.  A timeout is at least one millisecond. -/
def LspClient.step (client : LspClient V) : ClientStep V → LspClient V
  | .request method timeoutMs cancellable =>
    { client with
      requests := client.requests ++ [{ method, timeoutMs := max timeoutMs 1, cancellable }] }
  | .act r step =>
    match client.requests[r]? with
    | none => client
    | some request => client.stepRequest r request step
  | .takeResponse null response => client.takeResponse null response
  | .sendHeld h => client.sendHeld h
  | .markClosed reason => { client with closings := client.closings ++ [{ reason }] }
  | .close c => client.stepClosing c

def LspClient.run (client : LspClient V) (steps : List (ClientStep V)) : LspClient V :=
  Runs.run LspClient.step client steps

end AgzRustMcp.Lsp
