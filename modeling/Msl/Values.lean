import Mathlib.Data.List.Nodup

/-! # Values exchanged by a message output stream

The data a `MessageOutputStream` (src/src/main/javascript/entityauth/X509AuthenticationData.js,
the second of the files joined there) reads and produces, as the code uses them:

* the header it is built over, a `MessageHeader` (message id, handshake flag) or an
  `ErrorHeader`;
* the compression algorithms of `MslConstants$CompressionAlgorithm`;
* the fields of a `PayloadChunk` that `PayloadChunk$create` receives;
* what a caller's callback receives (`Outcome`: a result, a timeout or an error), with the
  exceptions the stream throws under their exact messages;
* the collaborators the stream is handed at construction (`Config`): the capability
  intersection, `getPreferredAlgorithm`, and the byte encodings of the header and of a chunk.

Everything the stream only passes through (the crypto context, the charset, the other
capability fields) is left out. -/

namespace Msl

/-- `MslConstants$CompressionAlgorithm`. -/
inductive CompressionAlgorithm where
  | GZIP
  | LZW
deriving DecidableEq, Repr

/-- The fields of a `MessageHeader` the stream reads. -/
structure MessageHeader where
  messageId : Nat
  /-- `isHandshake()`. -/
  handshake : Bool
deriving DecidableEq, Repr

/-- The header of a stream: a message header, or an error header (whose fields the stream
never reads). -/
inductive Header where
  | message (h : MessageHeader)
  | error
deriving DecidableEq, Repr

/-- A header that carries application data: a message header that is not a handshake. -/
def Header.DataBearing : Header → Prop
  | .message h => h.handshake = false
  | .error => False

instance : DecidablePred Header.DataBearing := fun
  | .message h => inferInstanceAs (Decidable (h.handshake = false))
  | .error => instDecidableFalse

/-- What the stream throws or passes on. `external` and `mslException` stand for the error
objects a sink or the chunk encoder hands back; the others are thrown by the stream itself. -/
inductive Exception where
  | external (id : Nat)
  | mslException (id : Nat)
  | mslIoException (message : String)
  /-- `new MslIoException(message, cause)`. -/
  | mslIoExceptionWithCause (message : String) (cause : Exception)
  | mslInternalException (message : String)
  | rangeError (message : String)
  | typeError
deriving DecidableEq, Repr

/-- `e instanceof MslException`. -/
def Exception.isMslException : Exception → Bool
  | .mslException _ | .mslIoException _ | .mslIoExceptionWithCause _ _ => true
  | _ => false

/-- A value handed to a `result` callback. -/
inductive Value where
  | bool (b : Bool)
  | count (n : Nat)
deriving DecidableEq, Repr

/-- What an operation's callback receives. -/
inductive Outcome where
  | result (v : Value)
  | timeout
  | error (e : Exception)
deriving DecidableEq, Repr

/-- A timeout or an error: everything but a result. -/
def Outcome.IsFailure : Outcome → Prop
  | .result _ => False
  | _ => True

instance : DecidablePred Outcome.IsFailure := fun
  | .result _ => instDecidableFalse
  | .timeout | .error _ => instDecidableTrue

theorem Outcome.IsFailure.ne_result {o : Outcome} (ho : o.IsFailure) (v : Value) : o ≠ .result v := by
  rintro rfl
  exact ho

/-- The arguments of `PayloadChunk$create`, which become the chunk's fields. -/
structure PayloadChunk where
  sequenceNumber : Nat
  messageId : Nat
  endofmsg : Bool
  compressionAlgo : Option CompressionAlgorithm
  data : List UInt8
deriving DecidableEq, Repr

/-- The collaborators of one stream, fixed at construction. `capabilities` is the result of
`MessageCapabilities$intersection` (its compression algorithms; `none` for null), and
`chunkLength c` is the property `chunk.length` read by `flush` (`none` for undefined). -/
structure Config where
  header : Header
  capabilities : Option (List CompressionAlgorithm)
  getPreferredAlgorithm : List CompressionAlgorithm → Option CompressionAlgorithm
  /-- `textEncoding$getBytes(JSON.stringify(header), charset)`. -/
  headerBytes : List UInt8
  /-- `textEncoding$getBytes(JSON.stringify(chunk), this._charset)`. -/
  payloadBytes : PayloadChunk → List UInt8
  chunkLength : PayloadChunk → Option Nat

/-- `getMessageHeader()`: the header if it is a message header, null for an error header. -/
def Config.getMessageHeader (cfg : Config) : Option MessageHeader :=
  match cfg.header with
  | .message h => some h
  | .error => none

theorem Config.dataBearing_of (cfg : Config) {h : MessageHeader} (hm : cfg.getMessageHeader = some h)
    (hh : ¬ h.handshake = true) : cfg.header.DataBearing := by
  unfold Config.getMessageHeader at hm
  split at hm
  · rename_i heq
    cases hm
    rw [heq]
    simpa [Header.DataBearing] using hh
  · cases hm

/-- `numWritten < chunk.length`: JavaScript's comparison with undefined is false. -/
def lessThan (n : Nat) : Option Nat → Bool
  | some m => decide (n < m)
  | none => false

/-- What the sink (or the chunk encoder, or the readiness queue) answers to a request. -/
inductive Answer where
  /-- `result(numWritten)` of a write. -/
  | written (n : Nat)
  /-- `result(success)` of a flush or of a close. -/
  | success (ok : Bool)
  /-- `result(chunk)` of `PayloadChunk$create`. -/
  | chunk
  | timeout
  | error (e : Exception)
deriving DecidableEq, Repr

/-- A timeout, an error, a short write of `len` bytes or an unsuccessful flush. -/
def Answer.Fails (len : Nat) : Answer → Prop
  | .written n => n < len
  | .success ok => ok = false
  | .chunk => False
  | .timeout | .error _ => True

instance (len : Nat) : DecidablePred (Answer.Fails len) := fun
  | .written n => inferInstanceAs (Decidable (n < len))
  | .success ok => inferInstanceAs (Decidable (ok = false))
  | .chunk => instDecidableFalse
  | .timeout | .error _ => instDecidableTrue

/-- An answer passed on to a callback as it arrives: a timeout, or an error. -/
def Answer.PassesTo : Answer → Outcome → Prop
  | .timeout, .timeout => True
  | .error _, .error _ => True
  | _, _ => False

/-- What may reach a callback once the stream is aborted, with no failure answered by the
sink: a result, or the error `setCompressionAlgorithm` reports when its flush returns false. -/
def Outcome.AfterAbort (o : Outcome) : Prop :=
  ¬ o.IsFailure ∨ o = .error (.mslIoException "flush() aborted")

/-- The methods a caller invokes on the stream. -/
inductive Call where
  | write (data : List UInt8) (off len : Int)
  | flush
  | close
  | setCompressionAlgorithm (a : Option CompressionAlgorithm)
  | abort
  | stopCaching
  | closeDestination (close : Bool)
deriving DecidableEq, Repr

/-- The calls that check the recorded flags before anything else. -/
def Call.checksFlags : Call → Bool
  | .write .. | .flush | .close => true
  | _ => false

/-- The calls that deliver an outcome to a callback; the others return synchronously. -/
def Call.isOperation : Call → Bool
  | .write .. | .flush | .close | .setCompressionAlgorithm _ => true
  | _ => false

end Msl
