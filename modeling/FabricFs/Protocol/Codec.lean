import FabricFs.Protocol.Messages
import Mathlib.Tactic.DeriveCountable
import Mathlib.Logic.Equiv.List
import Mathlib.Data.Countable.Basic

/-!
# The wire codec

`codec.rs`, with the encoding and decoding of payloads of `payload.rs`. An envelope is sent
as a raw message whose field `payload` is again an encoded message: the operation, the
operation of the payload, the error number and the trace are written out on one side and
checked again on the other. Here an envelope carries all its fields, also those that no
check reads.

The encoding of single messages is a parameter. It is assumed to lose nothing of a message whose
fields are values of their Rust types (`Typed`), and to decode to such messages only. The thirty
arms of `encode_payload` and of `decode` all have one form; the message of an operation is a
payload of that operation.

* `request_roundTrip`, `response_roundTrip`: what passes `validate` is encoded, and the
  bytes decode to it.
* `decodeRequest_valid`, `decodeResponse_valid`: what has been decoded passes `validate`.
* `codec_faithful`: both for requests and responses, over any encoding of messages that
  loses nothing.
-/

namespace FabricFs.Protocol

/-! ## Operations on the wire -/

/-- The `wire_value` column of `OPERATION_SPECS`. -/
def Operation.wireValue : Operation → Int
  | .lookup => 1
  | .getattr => 2
  | .readdir => 3
  | .openObject => 4
  | .read => 5
  | .write => 6
  | .create => 7
  | .rename => 8
  | .unlink => 9
  | .mkdir => 10
  | .rmdir => 11
  | .statfs => 12
  | .getxattr => 13
  | .setxattr => 14
  | .listxattr => 15
  | .removexattr => 16
  | .release => 17
  | .readlink => 18
  | .symlink => 19
  | .hardlink => 20
  | .setattr => 21
  | .flush => 22
  | .fsync => 23
  | .fsyncdir => 24
  | .getlk => 25
  | .setlk => 26
  | .flock => 27
  | .copyFileRange => 28
  | .fallocate => 29
  | .lseek => 30

/-- The operations in the order of `OPERATION_SPECS`. -/
def Operation.all : List Operation :=
  [.lookup, .getattr, .readdir, .openObject, .read, .write, .create, .rename, .unlink, .mkdir,
    .rmdir, .statfs, .getxattr, .setxattr, .listxattr, .removexattr, .release, .readlink,
    .symlink, .hardlink, .setattr, .flush, .fsync, .fsyncdir, .getlk, .setlk, .flock,
    .copyFileRange, .fallocate, .lseek]

def operationForWireValue (value : Int) : Option Operation :=
  Operation.all.find? (fun op => op.wireValue == value)

@[simp] theorem operationForWireValue_wireValue (op : Operation) :
    operationForWireValue op.wireValue = some op := by
  cases op <;> rfl

namespace Codec

/-- `str::as_bytes`. -/
def asBytes (s : String) : Text := s.toUTF8.data.toList

/-! ## Messages -/

inductive CodecError where
  | protocol (error : ProtocolError)
  | decode (text : String)
  | encode (text : String)
  | unknownOperation (value : Int)
  | invalidErrno (value : Int)
  deriving DecidableEq, Repr

structure TraceEntry where
  key : Text
  value : Text
  deriving DecidableEq, Repr

structure TraceContext where
  traceId : Text
  parentId : Text
  entries : List TraceEntry
  deriving DecidableEq, Repr

/-- `TraceContext::default`. -/
def TraceContext.empty : TraceContext := ⟨[], [], []⟩

structure Observation where
  key : Text
  value : Text
  deriving DecidableEq, Repr

structure CallerContext where
  uid : Nat
  gid : Nat
  pid : Nat
  deriving DecidableEq, Repr

structure FullAttr extends FileAttr where
  size : Nat
  perm : Nat
  mtimeUnixNanos : Nat
  uid : Nat
  gid : Nat
  nlink : Nat
  atimeUnixNanos : Nat
  ctimeUnixNanos : Nat
  crtimeUnixNanos : Nat
  deriving DecidableEq, Repr

structure StatFs where
  blocks : Nat
  blocksFree : Nat
  files : Nat
  filesFree : Nat
  blockSize : Nat
  nameMax : Nat
  blocksAvailable : Nat
  fragmentSize : Nat
  deriving DecidableEq, Repr

structure FullLock extends FileLock where
  pid : Nat
  deriving DecidableEq, Repr

structure FullInvalidation extends Invalidation where
  handle : Nat
  deriving DecidableEq, Repr

/-- `ResponsePayload` with all fields of its messages. -/
inductive FullPayload where
  | lookup (attr : Option FullAttr)
  | getattr (attr : Option FullAttr)
  | readdir (entries : List DirectoryEntry) (atEnd : Bool)
  | openObject (handle flags : Nat)
  | read (data : Text)
  | write (bytesWritten : Nat)
  | create (attr : Option FullAttr) (handle : Nat)
  | rename
  | unlink
  | mkdir (attr : Option FullAttr)
  | rmdir
  | statfs (stat : Option StatFs)
  | getxattr (value : Text)
  | setxattr
  | listxattr (names : List Text)
  | removexattr
  | release
  | readlink (target : Text)
  | symlink (attr : Option FullAttr)
  | hardlink (attr : Option FullAttr)
  | setattr (attr : Option FullAttr)
  | flush
  | fsync
  | fsyncdir
  | getlk (lock : Option FullLock)
  | setlk
  | flock
  | copyFileRange (bytesCopied : Nat)
  | fallocate
  | lseek (offset : Int)
  deriving DecidableEq, Repr

/-- The fields that are checked. -/
def FullPayload.checked : FullPayload → ResponsePayload
  | lookup attr => .lookup (attr.map FullAttr.toFileAttr)
  | getattr attr => .getattr (attr.map FullAttr.toFileAttr)
  | readdir entries _ => .readdir entries
  | openObject handle flags => .openObject handle flags
  | read data => .read data
  | write bytesWritten => .write bytesWritten
  | create attr handle => .create (attr.map FullAttr.toFileAttr) handle
  | rename => .rename
  | unlink => .unlink
  | mkdir attr => .mkdir (attr.map FullAttr.toFileAttr)
  | rmdir => .rmdir
  | statfs stat => .statfs (stat.map fun _ => ())
  | getxattr value => .getxattr value
  | setxattr => .setxattr
  | listxattr names => .listxattr names
  | removexattr => .removexattr
  | release => .release
  | readlink target => .readlink target
  | symlink attr => .symlink (attr.map FullAttr.toFileAttr)
  | hardlink attr => .hardlink (attr.map FullAttr.toFileAttr)
  | setattr attr => .setattr (attr.map FullAttr.toFileAttr)
  | flush => .flush
  | fsync => .fsync
  | fsyncdir => .fsyncdir
  | getlk lock => .getlk (lock.map FullLock.toFileLock)
  | setlk => .setlk
  | flock => .flock
  | copyFileRange bytesCopied => .copyFileRange bytesCopied
  | fallocate => .fallocate
  | lseek offset => .lseek offset

def FullPayload.operation (payload : FullPayload) : Operation := payload.checked.operation

def FullPayload.validate (payload : FullPayload) : Except ProtocolError Unit :=
  payload.checked.validate

structure FullRequest extends RequestEnvelope where
  trace : TraceContext
  caller : Option CallerContext
  observations : List Observation
  deriving DecidableEq, Repr

structure FullResponse where
  protocolVersion : Nat
  requestId : Text
  operation : Operation
  namespaceName : Text
  deadlineUnixNanos : Nat
  trace : TraceContext
  ok : Bool
  errno : Option Nat
  errorMessage : Text
  payload : Option FullPayload
  observations : List Observation
  invalidations : List FullInvalidation
  deriving DecidableEq, Repr

def FullResponse.checked (r : FullResponse) : ResponseEnvelope where
  protocolVersion := r.protocolVersion
  requestId := r.requestId
  operation := r.operation
  namespaceName := r.namespaceName
  deadlineUnixNanos := r.deadlineUnixNanos
  ok := r.ok
  errno := r.errno
  payload := r.payload.map FullPayload.checked
  invalidations := r.invalidations.map FullInvalidation.toInvalidation

def validateInvalidations (invalidations : List FullInvalidation) : Except ProtocolError Unit :=
  invalidations.forM fun i => validateInvalidation i.toInvalidation

def FullResponse.validate (r : FullResponse) : Except ProtocolError Unit := do
  r.checked.validateIdentityAndPayload
  validateInvalidations r.invalidations

/-- The message `RequestEnvelope`. -/
structure RawRequest where
  protocolVersion : Nat
  requestId : Text
  operation : Int
  namespaceName : Text
  deadlineUnixNanos : Nat
  trace : Option TraceContext
  payload : Text
  payloadOperation : Int
  observations : List Observation
  caller : Option CallerContext
  deriving DecidableEq, Repr

/-- The message `ResponseEnvelope`. -/
structure RawResponse where
  protocolVersion : Nat
  requestId : Text
  operation : Int
  namespaceName : Text
  deadlineUnixNanos : Nat
  trace : Option TraceContext
  payload : Text
  ok : Bool
  errno : Int
  errorMessage : Text
  observations : List Observation
  invalidations : List FullInvalidation
  payloadOperation : Int
  deriving DecidableEq, Repr

/-! ## The values of the Rust types -/

abbrev U32 (n : Nat) : Prop := n < 0x100000000

abbrev U64 (n : Nat) : Prop := n < 0x10000000000000000

abbrev I32 (i : Int) : Prop := -0x80000000 ≤ i ∧ i < 0x80000000

abbrev I64 (i : Int) : Prop := -0x8000000000000000 ≤ i ∧ i < 0x8000000000000000

/-- The bytes of a `String`. -/
def IsString (t : Text) : Prop := ∃ s, asBytes s = t

/-- The path of a request, if it has one. -/
def IsPath (path : Option Text) : Prop := ∀ t ∈ path, IsString t

def TraceContext.Typed (trace : TraceContext) : Prop :=
  IsString trace.traceId ∧ IsString trace.parentId ∧
    ∀ e ∈ trace.entries, IsString e.key ∧ IsString e.value

def CallerContext.Typed (c : CallerContext) : Prop := U32 c.uid ∧ U32 c.gid ∧ U32 c.pid

def FullAttr.Typed (a : FullAttr) : Prop :=
  U64 a.inode ∧ U64 a.size ∧ I32 a.kind ∧ U32 a.perm ∧ U64 a.mtimeUnixNanos ∧ U32 a.uid ∧
    U32 a.gid ∧ U32 a.nlink ∧ U64 a.atimeUnixNanos ∧ U64 a.ctimeUnixNanos ∧ U64 a.crtimeUnixNanos

def StatFs.Typed (s : StatFs) : Prop :=
  U64 s.blocks ∧ U64 s.blocksFree ∧ U64 s.files ∧ U64 s.filesFree ∧ U32 s.blockSize ∧
    U32 s.nameMax ∧ U64 s.blocksAvailable ∧ U32 s.fragmentSize

def FullInvalidation.Typed (i : FullInvalidation) : Prop :=
  IsString i.namespaceName ∧ U64 i.sequence ∧ I32 i.kind ∧ IsString i.path ∧ IsString i.oldPath ∧
    IsString i.newPath ∧ U64 i.inode ∧ U64 i.handle ∧ IsString i.requestId

/-- The messages of the requests, by the fields of `fs.proto`. -/
def RequestTyped : RequestPayload → Prop
  | .lookup path | .getattr path | .unlink path | .rmdir path | .statfs path | .readlink path
  | .symlink path _ => IsPath path
  | .readdir path offset maxEntries => IsPath path ∧ U64 offset ∧ U32 maxEntries
  | .openObject path flags kind => IsPath path ∧ U32 flags ∧ I32 kind
  | .read path handle offset size => IsPath path ∧ U64 handle ∧ U64 offset ∧ U32 size
  | .write path handle offset _ | .flush path handle offset | .flock path handle offset _ =>
    IsPath path ∧ U64 handle ∧ U64 offset
  | .create path flags mode => IsPath path ∧ U32 flags ∧ U32 mode
  | .rename first second | .hardlink first second => IsPath first ∧ IsPath second
  | .mkdir path mode | .listxattr path mode => IsPath path ∧ U32 mode
  | .getxattr path name size | .setxattr path name _ size =>
    IsPath path ∧ IsString name ∧ U32 size
  | .removexattr path name => IsPath path ∧ IsString name
  | .release path handle flags => IsPath path ∧ U64 handle ∧ U32 flags
  | .setattr path mode uid gid size handle => IsPath path ∧ (∀ n ∈ mode, U32 n) ∧
    (∀ n ∈ uid, U32 n) ∧ (∀ n ∈ gid, U32 n) ∧ (∀ n ∈ size, U64 n) ∧ ∀ n ∈ handle, U64 n
  | .fsync path handle _ | .fsyncdir path handle _ => IsPath path ∧ U64 handle
  | .getlk path handle owner start stop typ pid | .setlk path handle owner start stop typ pid _ =>
    IsPath path ∧ U64 handle ∧ U64 owner ∧ U64 start ∧ U64 stop ∧ I32 typ ∧ U32 pid
  | .copyFileRange inputPath inputHandle inputOffset outputPath outputHandle outputOffset length
      flags =>
    IsPath inputPath ∧ U64 inputHandle ∧ I64 inputOffset ∧ IsPath outputPath ∧ U64 outputHandle ∧
      I64 outputOffset ∧ U64 length ∧ U32 flags
  | .fallocate path handle offset length mode =>
    IsPath path ∧ U64 handle ∧ I64 offset ∧ I64 length ∧ I32 mode
  | .lseek path handle offset whence => IsPath path ∧ U64 handle ∧ I64 offset ∧ I32 whence

/-- The messages of the responses. -/
def FullPayload.Typed : FullPayload → Prop
  | lookup attr | getattr attr | mkdir attr | symlink attr | hardlink attr | setattr attr =>
    ∀ a ∈ attr, a.Typed
  | readdir entries _ => ∀ e ∈ entries, U64 e.inode ∧ IsString e.name ∧ I32 e.kind
  | openObject handle flags => U64 handle ∧ U32 flags
  | write bytesWritten => U32 bytesWritten
  | create attr handle => (∀ a ∈ attr, a.Typed) ∧ U64 handle
  | statfs stat => ∀ s ∈ stat, s.Typed
  | listxattr names => ∀ name ∈ names, IsString name
  | getlk lock => ∀ l ∈ lock, U64 l.start ∧ U64 l.stop ∧ I32 l.typ ∧ U32 l.pid
  | copyFileRange bytesCopied => U64 bytesCopied
  | lseek offset => I64 offset
  | _ => True

/-- The fields that all envelopes have. -/
def HeaderTyped (protocolVersion : Nat) (requestId namespaceName : Text) (deadline : Nat)
    (observations : List Observation) : Prop :=
  U32 protocolVersion ∧ IsString requestId ∧ IsString namespaceName ∧ U64 deadline ∧
    ∀ o ∈ observations, IsString o.key ∧ IsString o.value

structure RawRequest.Typed (m : RawRequest) : Prop where
  header : HeaderTyped m.protocolVersion m.requestId m.namespaceName m.deadlineUnixNanos
    m.observations
  trace : ∀ t ∈ m.trace, t.Typed
  caller : ∀ c ∈ m.caller, c.Typed
  operation : I32 m.operation
  payloadOperation : I32 m.payloadOperation

structure RawResponse.Typed (m : RawResponse) : Prop where
  header : HeaderTyped m.protocolVersion m.requestId m.namespaceName m.deadlineUnixNanos
    m.observations
  trace : ∀ t ∈ m.trace, t.Typed
  errno : I32 m.errno
  errorMessage : IsString m.errorMessage
  invalidations : ∀ i ∈ m.invalidations, i.Typed
  operation : I32 m.operation
  payloadOperation : I32 m.payloadOperation

structure FullRequest.Typed (m : FullRequest) : Prop where
  header : HeaderTyped m.protocolVersion m.requestId m.namespaceName m.deadlineUnixNanos
    m.observations
  trace : m.trace.Typed
  caller : ∀ c ∈ m.caller, c.Typed
  payload : RequestTyped m.payload

structure FullResponse.Typed (m : FullResponse) : Prop where
  header : HeaderTyped m.protocolVersion m.requestId m.namespaceName m.deadlineUnixNanos
    m.observations
  trace : m.trace.Typed
  errno : ∀ e ∈ m.errno, I32 e
  errorMessage : IsString m.errorMessage
  payload : ∀ p ∈ m.payload, p.Typed
  invalidations : ∀ i ∈ m.invalidations, i.Typed

/-! ## The encoding of messages -/

structure MessageCodec (μ : Type) where
  encode : μ → Except String Text
  decode : Text → Except String μ

structure MessageCodec.RoundTrips {μ : Type} (c : MessageCodec μ) (Typed : μ → Prop) : Prop where
  encoded : ∀ m, Typed m → ∃ bytes, c.encode m = .ok bytes ∧ c.decode bytes = .ok m
  decoded : ∀ bytes m, c.decode bytes = .ok m → Typed m

/-- The message of a request of one operation. -/
abbrev RequestMessage (op : Operation) : Type := { p : RequestPayload // p.operation = op }

abbrev ResponseMessage (op : Operation) : Type := { p : FullPayload // p.operation = op }

structure Protobuf where
  request : MessageCodec RawRequest
  response : MessageCodec RawResponse
  requestPayload : (op : Operation) → MessageCodec (RequestMessage op)
  responsePayload : (op : Operation) → MessageCodec (ResponseMessage op)

/-- What is assumed of the encoding of every message. -/
structure Protobuf.RoundTrips (w : Protobuf) : Prop where
  request : w.request.RoundTrips RawRequest.Typed
  response : w.response.RoundTrips RawResponse.Typed
  requestPayload : ∀ op, (w.requestPayload op).RoundTrips fun p => RequestTyped p.1
  responsePayload : ∀ op, (w.responsePayload op).RoundTrips fun p => p.1.Typed

def encodeMessage {μ : Type} (c : MessageCodec μ) (m : μ) : Except CodecError Text :=
  (c.encode m).mapError .encode

def decodeMessage {μ : Type} (c : MessageCodec μ) (bytes : Text) : Except CodecError μ :=
  (c.decode bytes).mapError .decode

def checkProtocol (x : Except ProtocolError Unit) : Except CodecError Unit :=
  x.mapError .protocol

/-- `TryFrom<i32>` of operations. -/
def operationOf (value : Int) : Except CodecError Operation :=
  match operationForWireValue value with
  | some op => .ok op
  | none => .error (.unknownOperation value)

/-- `TryFrom<i32>` of error numbers. -/
def errnoOf (value : Int) : Except CodecError Nat :=
  if value < 0 then .error (.invalidErrno value) else .ok value.toNat

variable (w : Protobuf)

/-! ## Requests -/

namespace Protobuf

def encodeRequestPayload (payload : RequestPayload) : Except CodecError Text :=
  encodeMessage (w.requestPayload payload.operation) ⟨payload, rfl⟩

def decodeRequestPayload (op : Operation) (bytes : Text) : Except CodecError RequestPayload := do
  let payload ← decodeMessage (w.requestPayload op) bytes
  checkProtocol payload.1.validate
  pure payload.1

/-- Only an envelope that is valid is encoded. -/
def encodeRequest (envelope : FullRequest) : Except CodecError Text := do
  checkProtocol envelope.validate
  let payload ← w.encodeRequestPayload envelope.payload
  encodeMessage w.request {
    protocolVersion := envelope.protocolVersion
    requestId := envelope.requestId
    operation := envelope.operation.wireValue
    namespaceName := envelope.namespaceName
    deadlineUnixNanos := envelope.deadlineUnixNanos
    trace := some envelope.trace
    payload := payload
    payloadOperation := envelope.payload.operation.wireValue
    observations := envelope.observations
    caller := envelope.caller }

/-- The checks that requests and responses share, with the operation they name. -/
def decodeIdentity (protocolVersion : Nat) (requestId namespaceName : Text)
    (operation payloadOperation : Int) : Except CodecError Operation := do
  require (protocolVersion == currentVersion) (.protocol (.unsupportedVersion protocolVersion))
  require (!requestId.isEmpty) (.protocol (.invalidEnvelope "request_id must not be empty"))
  require (!namespaceName.isEmpty) (.protocol (.invalidEnvelope "namespace must not be empty"))
  let op ← operationOf operation
  let payloadOp ← operationOf payloadOperation
  require (op == payloadOp) (.protocol (.payloadMismatch op payloadOp))
  pure op

/-- The identity of the envelope is checked before its payload is decoded. -/
def decodeRequest (bytes : Text) : Except CodecError FullRequest := do
  let raw ← decodeMessage w.request bytes
  let op ← decodeIdentity raw.protocolVersion raw.requestId raw.namespaceName raw.operation
    raw.payloadOperation
  let payload ← w.decodeRequestPayload op raw.payload
  pure {
    protocolVersion := raw.protocolVersion
    requestId := raw.requestId
    operation := op
    namespaceName := raw.namespaceName
    deadlineUnixNanos := raw.deadlineUnixNanos
    payload := payload
    trace := raw.trace.getD .empty
    caller := raw.caller
    observations := raw.observations }

/-! ## Responses -/

def encodeResponsePayload (payload : FullPayload) : Except CodecError Text :=
  encodeMessage (w.responsePayload payload.operation) ⟨payload, rfl⟩

def decodeResponsePayload (op : Operation) (bytes : Text) : Except CodecError FullPayload := do
  let payload ← decodeMessage (w.responsePayload op) bytes
  checkProtocol payload.1.validate
  pure payload.1

/-- The payload, its operation and the error number that are written out. -/
def encodeOutcome (envelope : FullResponse) : Except CodecError (Text × Operation × Nat) :=
  if envelope.ok then
    match envelope.payload with
    | none => .error (.protocol (.invalidResponseState "missing success payload"))
    | some payload => do
      let bytes ← w.encodeResponsePayload payload
      pure (bytes, payload.operation, 0)
  else
    match envelope.errno.filter (fun errno => decide (0 < errno)) with
    | none => .error (.protocol (.invalidResponseState "missing error errno"))
    | some errno => .ok ([], envelope.operation, errno)

def encodeResponse (envelope : FullResponse) : Except CodecError Text := do
  checkProtocol envelope.validate
  let (payload, payloadOperation, errno) ← w.encodeOutcome envelope
  encodeMessage w.response {
    protocolVersion := envelope.protocolVersion
    requestId := envelope.requestId
    operation := envelope.operation.wireValue
    namespaceName := envelope.namespaceName
    deadlineUnixNanos := envelope.deadlineUnixNanos
    trace := some envelope.trace
    payload := payload
    ok := envelope.ok
    errno := errno
    errorMessage := envelope.errorMessage
    observations := envelope.observations
    invalidations := envelope.invalidations
    payloadOperation := payloadOperation.wireValue }

/-- The error number and the payload that the flag `ok` allows. -/
def decodeOutcome (raw : RawResponse) (op : Operation) (errno : Nat) :
    Except CodecError (Option Nat × Option FullPayload) :=
  if raw.ok then do
    require (errno == 0) (.protocol (.invalidResponseState "successful response carried errno"))
    let payload ← w.decodeResponsePayload op raw.payload
    pure (none, some payload)
  else do
    require (errno != 0) (.protocol (.invalidResponseState "error response missing errno"))
    require raw.payload.isEmpty (.protocol (.invalidResponseState "error response carried payload"))
    pure (some errno, none)

/-- Identity, error number and invalidations are checked before the payload. -/
def decodeResponse (bytes : Text) : Except CodecError FullResponse := do
  let raw ← decodeMessage w.response bytes
  let op ← decodeIdentity raw.protocolVersion raw.requestId raw.namespaceName raw.operation
    raw.payloadOperation
  let errno ← errnoOf raw.errno
  checkProtocol (validateInvalidations raw.invalidations)
  let (errno, payload) ← w.decodeOutcome raw op errno
  pure {
    protocolVersion := raw.protocolVersion
    requestId := raw.requestId
    operation := op
    namespaceName := raw.namespaceName
    deadlineUnixNanos := raw.deadlineUnixNanos
    trace := raw.trace.getD .empty
    ok := raw.ok
    errno := errno
    errorMessage := raw.errorMessage
    payload := payload
    observations := raw.observations
    invalidations := raw.invalidations }

end Protobuf

/-! ## Nothing is lost and nothing invalid let in -/

theorem pure_ok {ε α : Type} {a b : α} : (pure a : Except ε α) = .ok b ↔ a = b := by
  simp [pure, Except.pure]

theorem checkProtocol_eq_ok {x : Except ProtocolError Unit} :
    checkProtocol x = .ok () ↔ x = .ok () := mapError_eq_ok

theorem MessageCodec.RoundTrips.message {μ : Type} {c : MessageCodec μ} {Typed : μ → Prop}
    (hc : c.RoundTrips Typed) {m : μ} (hm : Typed m) :
    ∃ bytes, encodeMessage c m = .ok bytes ∧ decodeMessage c bytes = .ok m := by
  obtain ⟨bytes, hEncode, hDecode⟩ := hc.encoded m hm
  exact ⟨bytes, by simp [encodeMessage, hEncode, Except.mapError],
    by simp [decodeMessage, hDecode, Except.mapError]⟩

theorem MessageCodec.RoundTrips.typed {μ : Type} {c : MessageCodec μ} {Typed : μ → Prop}
    (hc : c.RoundTrips Typed) {bytes : Text} {m : μ} (h : decodeMessage c bytes = .ok m) :
    Typed m :=
  hc.decoded bytes m (mapError_eq_ok.mp h)

theorem operationOf_wireValue (op : Operation) : operationOf op.wireValue = .ok op := by
  simp [operationOf]

theorem wireValue_typed (op : Operation) : I32 op.wireValue := by
  cases op <;> decide

theorem typed_getD {trace : Option TraceContext} (h : ∀ t ∈ trace, t.Typed) :
    (trace.getD .empty).Typed := by
  cases trace with
  | none => exact ⟨⟨"", rfl⟩, ⟨"", rfl⟩, by simp [TraceContext.empty]⟩
  | some t => exact h t rfl

namespace Protobuf

theorem decodeIdentity_eq_ok {protocolVersion : Nat} {requestId namespaceName : Text}
    {operation payloadOperation : Int} {op : Operation} :
    decodeIdentity protocolVersion requestId namespaceName operation payloadOperation = .ok op ↔
      protocolVersion = currentVersion ∧ requestId ≠ [] ∧ namespaceName ≠ [] ∧
        operationOf operation = .ok op ∧ operationOf payloadOperation = .ok op := by
  unfold decodeIdentity
  simp only [check_bind_eq_ok, require_eq_ok, beq_iff_eq, Bool.not_eq_true',
    List.isEmpty_eq_false_iff]
  constructor
  · rintro ⟨hVersion, hId, hName, h⟩
    obtain ⟨op₁, hOp₁, h₁⟩ := bind_eq_ok.mp h
    obtain ⟨op₂, hOp₂, h₂⟩ := bind_eq_ok.mp h₁
    obtain ⟨hSame, hPure⟩ := check_bind_eq_ok.mp h₂
    obtain rfl := pure_ok.mp hPure
    obtain rfl : op₁ = op₂ := by simpa using hSame
    exact ⟨hVersion, hId, hName, hOp₁, hOp₂⟩
  · rintro ⟨hVersion, hId, hName, hOp₁, hOp₂⟩
    refine ⟨hVersion, hId, hName, bind_eq_ok.mpr ⟨op, hOp₁, bind_eq_ok.mpr ⟨op, hOp₂, ?_⟩⟩⟩
    exact check_bind_eq_ok.mpr ⟨require_eq_ok.mpr (by simp), rfl⟩

variable {w}

variable {op : Operation} {bytes : Text} {envelope : FullResponse}

/-- What decoding a payload gives is a checked payload of the operation. -/
theorem decodeRequestPayload_valid (hw : w.RoundTrips) {payload : RequestPayload}
    (h : w.decodeRequestPayload op bytes = .ok payload) :
    payload.operation = op ∧ payload.validate = .ok () ∧ RequestTyped payload := by
  unfold decodeRequestPayload at h
  obtain ⟨message, hMessage, h⟩ := bind_eq_ok.mp h
  obtain ⟨hValid, hPure⟩ := check_bind_eq_ok.mp h
  obtain rfl := pure_ok.mp hPure
  exact ⟨message.2, checkProtocol_eq_ok.mp hValid, (hw.requestPayload op).typed hMessage⟩

theorem decodeResponsePayload_valid (hw : w.RoundTrips) {payload : FullPayload}
    (h : w.decodeResponsePayload op bytes = .ok payload) :
    payload.operation = op ∧ payload.validate = .ok () ∧ payload.Typed := by
  unfold decodeResponsePayload at h
  obtain ⟨message, hMessage, h⟩ := bind_eq_ok.mp h
  obtain ⟨hValid, hPure⟩ := check_bind_eq_ok.mp h
  obtain rfl := pure_ok.mp hPure
  exact ⟨message.2, checkProtocol_eq_ok.mp hValid, (hw.responsePayload op).typed hMessage⟩

theorem requestPayload_roundTrip (hw : w.RoundTrips) {payload : RequestPayload}
    (hTyped : RequestTyped payload) (hValid : payload.validate = .ok ()) :
    ∃ bytes, w.encodeRequestPayload payload = .ok bytes ∧
      w.decodeRequestPayload payload.operation bytes = .ok payload := by
  obtain ⟨bytes, hEncode, hDecode⟩ := (hw.requestPayload
    payload.operation).message (m := ⟨payload, rfl⟩) hTyped
  refine ⟨bytes, hEncode, ?_⟩
  unfold decodeRequestPayload
  refine bind_eq_ok.mpr ⟨_, hDecode, ?_⟩
  exact check_bind_eq_ok.mpr ⟨checkProtocol_eq_ok.mpr hValid, rfl⟩

theorem responsePayload_roundTrip (hw : w.RoundTrips) {payload : FullPayload}
    (hTyped : payload.Typed) (hValid : payload.validate = .ok ()) :
    ∃ bytes, w.encodeResponsePayload payload = .ok bytes ∧
      w.decodeResponsePayload payload.operation bytes = .ok payload := by
  obtain ⟨bytes, hEncode, hDecode⟩ := (hw.responsePayload
    payload.operation).message (m := ⟨payload, rfl⟩) hTyped
  refine ⟨bytes, hEncode, ?_⟩
  unfold decodeResponsePayload
  refine bind_eq_ok.mpr ⟨_, hDecode, ?_⟩
  exact check_bind_eq_ok.mpr ⟨checkProtocol_eq_ok.mpr hValid, rfl⟩

theorem validate_request_eq_ok {envelope : RequestEnvelope} :
    envelope.validate = .ok () ↔
      envelope.protocolVersion = currentVersion ∧ envelope.requestId ≠ [] ∧
        envelope.namespaceName ≠ [] ∧ envelope.operation = envelope.payload.operation ∧
        envelope.payload.validate = .ok () := by
  simp only [RequestEnvelope.validate, RequestEnvelope.validateIdentity, check_bind_eq_ok,
    require_eq_ok, beq_iff_eq, Bool.not_eq_true', List.isEmpty_eq_false_iff, and_assoc]

theorem request_roundTrip (hw : w.RoundTrips) {envelope : FullRequest} (hTyped : envelope.Typed)
    (hValid : envelope.validate = .ok ()) :
    ∃ bytes, w.encodeRequest envelope = .ok bytes ∧ w.decodeRequest bytes = .ok envelope := by
  obtain ⟨hVersion, hId, hName, hOp, hPayload⟩ := validate_request_eq_ok.mp hValid
  obtain ⟨inner, hEncode, hDecode⟩ := requestPayload_roundTrip hw hTyped.payload hPayload
  obtain ⟨bytes, hOuter, hRaw⟩ := hw.request.message (m := {
    protocolVersion := envelope.protocolVersion
    requestId := envelope.requestId
    operation := envelope.operation.wireValue
    namespaceName := envelope.namespaceName
    deadlineUnixNanos := envelope.deadlineUnixNanos
    trace := some envelope.trace
    payload := inner
    payloadOperation := envelope.payload.operation.wireValue
    observations := envelope.observations
    caller := envelope.caller })
    ⟨hTyped.header, by simpa using hTyped.trace, hTyped.caller, wireValue_typed _,
      wireValue_typed _⟩
  refine ⟨bytes, ?_, ?_⟩
  · unfold encodeRequest
    refine check_bind_eq_ok.mpr ⟨checkProtocol_eq_ok.mpr hValid, ?_⟩
    exact bind_eq_ok.mpr ⟨inner, hEncode, hOuter⟩
  · unfold decodeRequest
    refine bind_eq_ok.mpr ⟨_, hRaw, bind_eq_ok.mpr ⟨envelope.operation, ?_, ?_⟩⟩
    · refine decodeIdentity_eq_ok.mpr ⟨hVersion, hId, hName, operationOf_wireValue _, ?_⟩
      rw [hOp]
      exact operationOf_wireValue _
    · rw [← hOp] at hDecode
      exact bind_eq_ok.mpr ⟨envelope.payload, hDecode, rfl⟩

theorem decodeRequest_valid (hw : w.RoundTrips) {envelope : FullRequest}
    (h : w.decodeRequest bytes = .ok envelope) :
    envelope.validate = .ok () ∧ envelope.Typed := by
  unfold decodeRequest at h
  obtain ⟨raw, hRaw, h⟩ := bind_eq_ok.mp h
  obtain ⟨op, hIdentity, h⟩ := bind_eq_ok.mp h
  obtain ⟨payload, hPayload, h⟩ := bind_eq_ok.mp h
  obtain rfl := pure_ok.mp h
  obtain ⟨hVersion, hId, hName, -, -⟩ := decodeIdentity_eq_ok.mp hIdentity
  obtain ⟨hOp, hChecked, hTyped⟩ := decodeRequestPayload_valid hw hPayload
  have hRaw := hw.request.typed hRaw
  exact ⟨validate_request_eq_ok.mpr ⟨hVersion, hId, hName, hOp.symm, hChecked⟩,
    hRaw.header, typed_getD hRaw.trace, hRaw.caller, hTyped⟩

/-- The two shapes of a response. -/
def Shaped (envelope : FullResponse) : Prop :=
  (envelope.ok = true ∧ envelope.errno = none ∧ ∃ payload, envelope.payload = some payload ∧
    payload.operation = envelope.operation ∧ payload.validate = .ok ()) ∨
  (envelope.ok = false ∧ envelope.payload = none ∧ ∃ errno, envelope.errno = some errno ∧ 0 < errno)

theorem validate_response_eq_ok :
    envelope.validate = .ok () ↔
      envelope.protocolVersion = currentVersion ∧ envelope.requestId ≠ [] ∧
        envelope.namespaceName ≠ [] ∧ Shaped envelope ∧
        validateInvalidations envelope.invalidations = .ok () := by
  obtain ⟨version, id, op, name, deadline, trace, ok, errno, message, payload, observations,
    invalidations⟩ := envelope
  simp only [FullResponse.validate, ResponseEnvelope.validateIdentityAndPayload,
    FullResponse.checked, check_bind_eq_ok, require_eq_ok, beq_iff_eq, Bool.and_eq_true,
    Bool.not_eq_true', List.isEmpty_eq_false_iff, and_assoc]
  refine and_congr_right fun _ => and_congr_right fun _ => and_congr_right fun _ => ?_
  refine and_congr_left fun _ => ?_
  cases ok with
  | true =>
    cases payload with
    | none => simp [Shaped]
    | some payload =>
      simp [Shaped, FullPayload.operation, FullPayload.validate]
  | false =>
    cases errno with
    | none => simp [Shaped]
    | some errno =>
      simp [Shaped, Nat.pos_iff_ne_zero]

theorem errnoOf_natCast (errno : Nat) : errnoOf errno = .ok errno := by
  simp [errnoOf]

theorem outcome_roundTrip (hw : w.RoundTrips) (hTyped : envelope.Typed)
    (hShape : Shaped envelope) :
    ∃ inner errno, w.encodeOutcome envelope = .ok (inner, envelope.operation, errno) ∧
      I32 errno ∧
      ∀ raw : RawResponse, raw.ok = envelope.ok → raw.payload = inner →
        w.decodeOutcome raw envelope.operation errno = .ok (envelope.errno, envelope.payload) := by
  rcases hShape with ⟨hOk, hErrno, payload, hPayload, hOp, hValid⟩ |
    ⟨hOk, hPayload, errno, hErrno, hPos⟩
  · obtain ⟨inner, hEncode, hDecode⟩ := responsePayload_roundTrip hw
      (hTyped.payload payload hPayload) hValid
    refine ⟨inner, 0, ?_, by decide, fun raw hRaw hInner => ?_⟩
    · simp only [encodeOutcome, hOk, hPayload, if_true]
      exact bind_eq_ok.mpr ⟨inner, hEncode, by rw [hOp]; rfl⟩
    · rw [decodeOutcome, if_pos (hRaw.trans hOk), hErrno, hPayload, hInner, ← hOp]
      exact check_bind_eq_ok.mpr ⟨rfl, bind_eq_ok.mpr ⟨payload, hDecode, rfl⟩⟩
  · refine ⟨[], errno, ?_, hTyped.errno errno hErrno, fun raw hRaw hInner => ?_⟩
    · have hKept : (some errno).filter (fun e => decide (0 < e)) = some errno := by
        simp [Option.filter, hPos]
      simp [encodeOutcome, hOk, hErrno, hKept]
    · have hNe : errno ≠ 0 := Nat.pos_iff_ne_zero.mp hPos
      simp [decodeOutcome, hRaw, hOk, hInner, hErrno, hPayload, hNe, require, bind, Except.bind,
        pure, Except.pure]

theorem decodeOutcome_shaped (hw : w.RoundTrips) {raw : RawResponse} {errno : Nat}
    {outcome : Option Nat × Option FullPayload} (h : w.decodeOutcome raw op errno = .ok outcome)
    (hOk : envelope.ok = raw.ok) (hOp : envelope.operation = op)
    (hErrno : envelope.errno = outcome.1) (hPayload : envelope.payload = outcome.2) :
    Shaped envelope ∧ (∀ p ∈ envelope.payload, p.Typed) ∧ ∀ e ∈ envelope.errno, e = errno := by
  unfold decodeOutcome at h
  split at h
  next hRaw =>
    obtain ⟨-, h⟩ := check_bind_eq_ok.mp h
    obtain ⟨payload, hDecode, h⟩ := bind_eq_ok.mp h
    obtain rfl := pure_ok.mp h
    obtain ⟨hPayloadOp, hValid, hTyped⟩ := decodeResponsePayload_valid hw hDecode
    refine ⟨.inl ⟨hOk.trans hRaw, hErrno, payload, hPayload, hPayloadOp.trans hOp.symm, hValid⟩,
      ?_, ?_⟩
    · simpa [hPayload] using hTyped
    · simp [hErrno]
  next hRaw =>
    obtain ⟨hNe, h⟩ := check_bind_eq_ok.mp h
    obtain ⟨-, h⟩ := check_bind_eq_ok.mp h
    obtain rfl := pure_ok.mp h
    have hPos : 0 < errno := by
      have := require_eq_ok.mp hNe
      exact Nat.pos_iff_ne_zero.mpr (by simpa using this)
    refine ⟨.inr ⟨hOk.trans (by simpa using hRaw), hPayload, errno, hErrno, hPos⟩, ?_, ?_⟩
    · simp [hPayload]
    · simp [hErrno]

theorem response_roundTrip (hw : w.RoundTrips) (hTyped : envelope.Typed)
    (hValid : envelope.validate = .ok ()) :
    ∃ bytes, w.encodeResponse envelope = .ok bytes ∧ w.decodeResponse bytes = .ok envelope := by
  obtain ⟨hVersion, hId, hName, hShape, hInvalidations⟩ := validate_response_eq_ok.mp hValid
  obtain ⟨inner, errno, hEncode, hErrno, hDecode⟩ := outcome_roundTrip hw hTyped hShape
  obtain ⟨bytes, hOuter, hRaw⟩ := hw.response.message (m := {
    protocolVersion := envelope.protocolVersion
    requestId := envelope.requestId
    operation := envelope.operation.wireValue
    namespaceName := envelope.namespaceName
    deadlineUnixNanos := envelope.deadlineUnixNanos
    trace := some envelope.trace
    payload := inner
    ok := envelope.ok
    errno := errno
    errorMessage := envelope.errorMessage
    observations := envelope.observations
    invalidations := envelope.invalidations
    payloadOperation := envelope.operation.wireValue })
    ⟨hTyped.header, by simpa using hTyped.trace, hErrno, hTyped.errorMessage,
      hTyped.invalidations, wireValue_typed _, wireValue_typed _⟩
  refine ⟨bytes, ?_, ?_⟩
  · unfold encodeResponse
    refine check_bind_eq_ok.mpr ⟨checkProtocol_eq_ok.mpr hValid, ?_⟩
    exact bind_eq_ok.mpr ⟨_, hEncode, hOuter⟩
  · unfold decodeResponse
    refine bind_eq_ok.mpr ⟨_, hRaw, bind_eq_ok.mpr ⟨envelope.operation, ?_, ?_⟩⟩
    · exact decodeIdentity_eq_ok.mpr
        ⟨hVersion, hId, hName, operationOf_wireValue _, operationOf_wireValue _⟩
    · refine bind_eq_ok.mpr ⟨errno, errnoOf_natCast errno, ?_⟩
      refine check_bind_eq_ok.mpr ⟨checkProtocol_eq_ok.mpr hInvalidations, ?_⟩
      exact bind_eq_ok.mpr ⟨_, hDecode _ rfl rfl, rfl⟩

theorem errnoOf_ok {value : Int} {errno : Nat} (h : errnoOf value = .ok errno) :
    (errno : Int) = value := by
  unfold errnoOf at h
  split at h
  · cases h
  · obtain rfl := Except.ok.inj h
    omega

theorem decodeResponse_valid (hw : w.RoundTrips) (h : w.decodeResponse bytes = .ok envelope) :
    envelope.validate = .ok () ∧ envelope.Typed := by
  unfold decodeResponse at h
  obtain ⟨raw, hRaw, h⟩ := bind_eq_ok.mp h
  obtain ⟨op, hIdentity, h⟩ := bind_eq_ok.mp h
  obtain ⟨errno, hErrno, h⟩ := bind_eq_ok.mp h
  obtain ⟨hInvalidations, h⟩ := check_bind_eq_ok.mp h
  obtain ⟨outcome, hOutcome, h⟩ := bind_eq_ok.mp h
  have hEnvelope := pure_ok.mp h
  obtain ⟨hShape, hPayload, hKept⟩ : Shaped envelope ∧ _ :=
    decodeOutcome_shaped hw hOutcome (hEnvelope ▸ rfl) (hEnvelope ▸ rfl) (hEnvelope ▸ rfl)
      (hEnvelope ▸ rfl)
  subst hEnvelope
  obtain ⟨hVersion, hId, hName, -, -⟩ := decodeIdentity_eq_ok.mp hIdentity
  have hRaw := hw.response.typed hRaw
  refine ⟨validate_response_eq_ok.mpr ⟨hVersion, hId, hName, hShape,
    checkProtocol_eq_ok.mp hInvalidations⟩, hRaw.header, typed_getD hRaw.trace, fun e he => ?_,
    hRaw.errorMessage, hPayload, hRaw.invalidations⟩
  rw [hKept e he, errnoOf_ok hErrno]
  exact hRaw.errno

/-- The codec loses nothing of an envelope whose fields are values of their types, and lets
nothing invalid in. -/
theorem codec_faithful (w : Protobuf) (hw : w.RoundTrips) :
    (∀ envelope : FullRequest, envelope.Typed → envelope.validate = .ok () →
      ∃ bytes, w.encodeRequest envelope = .ok bytes ∧ w.decodeRequest bytes = .ok envelope) ∧
    (∀ envelope : FullResponse, envelope.Typed → envelope.validate = .ok () →
      ∃ bytes, w.encodeResponse envelope = .ok bytes ∧ w.decodeResponse bytes = .ok envelope) ∧
    (∀ received (envelope : FullRequest), w.decodeRequest received = .ok envelope →
      envelope.validate = .ok () ∧
      ∃ bytes, w.encodeRequest envelope = .ok bytes ∧ w.decodeRequest bytes = .ok envelope) ∧
    ∀ received (envelope : FullResponse), w.decodeResponse received = .ok envelope →
      envelope.validate = .ok () ∧
      ∃ bytes, w.encodeResponse envelope = .ok bytes ∧ w.decodeResponse bytes = .ok envelope := by
  refine ⟨fun _ => request_roundTrip hw, fun _ => response_roundTrip hw, ?_, ?_⟩
  · intro received envelope h
    obtain ⟨hValid, hTyped⟩ := decodeRequest_valid hw h
    exact ⟨hValid, request_roundTrip hw hTyped hValid⟩
  · intro received envelope h
    obtain ⟨hValid, hTyped⟩ := decodeResponse_valid hw h
    exact ⟨hValid, response_roundTrip hw hTyped hValid⟩

end Protobuf

/-! ## A lossless encoding -/

instance countableUInt8 : Countable UInt8 :=
  Function.Injective.countable (f := UInt8.toNat) fun _ _ h => UInt8.toNat_inj.mp h

instance countableBitVec (n : Nat) : Countable (BitVec n) :=
  Function.Injective.countable (f := BitVec.toNat) fun _ _ h => BitVec.eq_of_toNat_eq h

deriving instance Countable for TraceEntry, TraceContext, Observation, CallerContext, FileAttr,
  FullAttr, StatFs, FileLock, FullLock, Invalidation, FullInvalidation, DirectoryEntry,
  RequestPayload, FullPayload, RawRequest, RawResponse

open Classical in
/-- Some encoding that loses nothing: every message has a number, and that many zeros are sent. -/
noncomputable def counting {μ : Type} [Countable μ] (Typed : μ → Prop) : MessageCodec μ :=
  let number := Classical.choose (exists_injective_nat μ)
  { encode := fun m => .ok (List.replicate (number m) 0)
    decode := fun bytes =>
      if h : ∃ m, Typed m ∧ number m = bytes.length then .ok h.choose else .error "no such number" }

theorem counting_roundTrips {μ : Type} [Countable μ] (Typed : μ → Prop) :
    (counting Typed).RoundTrips Typed where
  encoded m hm := by
    have hInjective := Classical.choose_spec (exists_injective_nat μ)
    have hFound : ∃ other, Typed other ∧ Classical.choose (exists_injective_nat μ) other =
        (List.replicate (Classical.choose (exists_injective_nat μ) m) (0 : UInt8)).length :=
      ⟨m, hm, (List.length_replicate ..).symm⟩
    refine ⟨_, rfl, (dif_pos hFound).trans (congrArg _ (hInjective ?_))⟩
    rw [hFound.choose_spec.2, List.length_replicate]
  decoded bytes m h := by
    by_cases hFound : ∃ m, Typed m ∧ Classical.choose (exists_injective_nat μ) m = bytes.length
    · obtain rfl := Except.ok.inj ((dif_pos hFound).symm.trans h)
      exact hFound.choose_spec.1
    · cases (dif_neg hFound).symm.trans h

noncomputable def countingProtobuf : Protobuf where
  request := counting RawRequest.Typed
  response := counting RawResponse.Typed
  requestPayload _ := counting fun p => RequestTyped p.1
  responsePayload _ := counting fun p => p.1.Typed

theorem countingProtobuf_roundTrips : countingProtobuf.RoundTrips where
  request := counting_roundTrips _
  response := counting_roundTrips _
  requestPayload _ := counting_roundTrips _
  responsePayload _ := counting_roundTrips _

def sampleFailure : FullResponse where
  protocolVersion := currentVersion
  requestId := [114]
  operation := .rename
  namespaceName := [110]
  deadlineUnixNanos := 9
  trace := ⟨[116], [], []⟩
  ok := false
  errno := some 39
  errorMessage := [33]
  payload := none
  observations := [⟨[107], [118]⟩]
  invalidations := []

theorem sampleFailure_typed : sampleFailure.Typed where
  header := ⟨by decide, ⟨"r", rfl⟩, ⟨"n", rfl⟩, by decide, fun o ho => by
    obtain rfl := List.mem_singleton.mp ho
    exact ⟨⟨"k", rfl⟩, ⟨"v", rfl⟩⟩⟩
  trace := ⟨⟨"t", rfl⟩, ⟨"", rfl⟩, by simp [sampleFailure]⟩
  errno := by
    rintro _ ⟨⟩
    decide
  errorMessage := ⟨"!", rfl⟩
  payload := by simp [sampleFailure]
  invalidations := by simp [sampleFailure]

/-- An error response comes back as it was. -/
theorem codec_faithful_failure : ∃ bytes,
    countingProtobuf.encodeResponse sampleFailure = .ok bytes ∧
      countingProtobuf.decodeResponse bytes = .ok sampleFailure :=
  (Protobuf.codec_faithful countingProtobuf countingProtobuf_roundTrips).2.1 sampleFailure
    sampleFailure_typed (by decide)

end Codec

end FabricFs.Protocol
