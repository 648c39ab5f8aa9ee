import Msl.Values

/-! # The state of a message output stream and of its pending callbacks

`Stream` holds the writable properties that `MessageOutputStream.init` defines
(`_compressionAlgo`, `_payloadSequenceNumber`, `_currentPayload`, the flags, the payload
cache); the read-only ones are the `Config`.  Everything the stream has asked of the outside
and not yet heard back about is explicit:

* `header`: the header transmission started by `init` (its sink write, then its sink flush);
* `ops`: one `Task` for every suspended operation, naming the call it belongs to, the
  callback `flush` was given (`Caller`: the caller's own, or the wrappers of `close` and
  `setCompressionAlgorithm`) and the request it waits on (`Stage`).  A flush waiting in
  `_readyQueue.poll` is a task at `Stage.poll`; the queue's waiters are these tasks, in order.

`Sys.trace` records what a run did: the calls, the requests to the sink and to
`PayloadChunk$create`, their answers, and the callbacks' outcomes, together with three
points of the code where the stream's state moves on: `ready()`, the push of a slice onto
`_currentPayload` (`appended`) and the increment of `_payloadSequenceNumber` after a chunk
was written and flushed (`sent`). -/

namespace Msl.MessageOutputStream

/-- The writable properties of a `MessageOutputStream`. -/
structure Stream where
  compressionAlgo : Option CompressionAlgorithm
  payloadSequenceNumber : Nat
  /-- `_currentPayload`: the buffered segments, `none` once it was set to null. -/
  currentPayload : Option (List (List UInt8))
  closed : Bool
  closeDestination : Bool
  caching : Bool
  payloads : List PayloadChunk
  ready : Bool
  aborted : Bool
  timedout : Bool
  errored : Option Exception
deriving DecidableEq, Repr

/-- The callback handed to `flush`: the caller's own, or the wrapper of `close` or of
`setCompressionAlgorithm(a)`. -/
inductive Caller where
  | flush
  | close
  | setCompressionAlgorithm (a : Option CompressionAlgorithm)
deriving DecidableEq, Repr

/-- Where a suspended operation waits. -/
inductive Stage where
  /-- `_readyQueue.poll` in `flush`. -/
  | poll
  /-- `PayloadChunk$create` in `perform`. -/
  | create (c : PayloadChunk)
  /-- `_destination.write(payloadBytes, ...)` for chunk `c`. -/
  | write (c : PayloadChunk)
  /-- `_destination.flush` after chunk `c` was written. -/
  | flush (c : PayloadChunk)
  /-- `_destination.close` in `close` once its flush is done. -/
  | closeDestination
deriving DecidableEq, Repr

/-- A suspended operation: the number of its call, the callback of its flush and its stage. -/
structure Task where
  k : Nat
  caller : Caller
  stage : Stage
deriving DecidableEq, Repr

/-- The two requests of the header transmission. -/
inductive HeaderStage where
  | write
  | flush
deriving DecidableEq, Repr

/-- A request of the stream to the sink, to the chunk encoder or to the readiness queue. -/
inductive Request where
  | writeHeader
  | flushHeader
  | poll
  | create (c : PayloadChunk)
  | writeChunk (c : PayloadChunk)
  | flushChunk (c : PayloadChunk)
  | closeDestination
  | abort
deriving DecidableEq, Repr

/-- The request a stage waits on. -/
def Stage.request : Stage → Request
  | .poll => .poll
  | .create c => .create c
  | .write c => .writeChunk c
  | .flush c => .flushChunk c
  | .closeDestination => .closeDestination

/-- The request a header stage waits on. -/
def HeaderStage.request : HeaderStage → Request
  | .write => .writeHeader
  | .flush => .flushHeader

/-- What a run records. -/
inductive Event where
  /-- The `k`-th call of the run. -/
  | called (k : Nat) (c : Call)
  | requested (r : Request)
  | answered (r : Request) (a : Answer)
  /-- `ready()`: the header transmission is over. -/
  | ready
  /-- `write` pushed `bytes` onto `_currentPayload` while `_compressionAlgo` was `algo`. -/
  | appended (bytes : List UInt8) (algo : Option CompressionAlgorithm)
  /-- `++this._payloadSequenceNumber` after chunk `c` was written and flushed. -/
  | sent (c : PayloadChunk)
  /-- The callback of call `k` received `o`. -/
  | delivered (k : Nat) (o : Outcome)
deriving DecidableEq, Repr

/-- A stream with its pending callbacks and the record of its run. -/
structure Sys where
  st : Stream
  header : Option HeaderStage
  ops : List Task
  /-- The number the next call gets. -/
  next : Nat
  trace : List Event

namespace Sys

/-- Record an event. -/
def emit (s : Sys) (e : Event) : Sys := { s with trace := s.trace ++ [e] }

/-- Hand `o` to the callback of call `k`. -/
def deliver (s : Sys) (k : Nat) (o : Outcome) : Sys := s.emit (.delivered k o)

/-- Make request `r` and wait for its answer in task `t`. -/
def suspend (s : Sys) (t : Task) (r : Request) : Sys :=
  { s with ops := s.ops ++ [t], trace := s.trace ++ [.requested r] }

/-- Update the stream's properties. -/
def modify (s : Sys) (f : Stream → Stream) : Sys := { s with st := f s.st }

@[simp] theorem emit_st (s : Sys) (e : Event) : (s.emit e).st = s.st := rfl
@[simp] theorem emit_header (s : Sys) (e : Event) : (s.emit e).header = s.header := rfl
@[simp] theorem emit_ops (s : Sys) (e : Event) : (s.emit e).ops = s.ops := rfl
@[simp] theorem emit_next (s : Sys) (e : Event) : (s.emit e).next = s.next := rfl
@[simp] theorem emit_trace (s : Sys) (e : Event) : (s.emit e).trace = s.trace ++ [e] := rfl

@[simp] theorem deliver_eq (s : Sys) (k : Nat) (o : Outcome) :
    s.deliver k o = s.emit (.delivered k o) := rfl

@[simp] theorem suspend_st (s : Sys) (t : Task) (r : Request) : (s.suspend t r).st = s.st := rfl
@[simp] theorem suspend_header (s : Sys) (t : Task) (r : Request) :
    (s.suspend t r).header = s.header := rfl
@[simp] theorem suspend_ops (s : Sys) (t : Task) (r : Request) :
    (s.suspend t r).ops = s.ops ++ [t] := rfl
@[simp] theorem suspend_next (s : Sys) (t : Task) (r : Request) : (s.suspend t r).next = s.next :=
  rfl
@[simp] theorem suspend_trace (s : Sys) (t : Task) (r : Request) :
    (s.suspend t r).trace = s.trace ++ [.requested r] := rfl

@[simp] theorem modify_st (s : Sys) (f : Stream → Stream) : (s.modify f).st = f s.st := rfl
@[simp] theorem modify_header (s : Sys) (f : Stream → Stream) : (s.modify f).header = s.header :=
  rfl
@[simp] theorem modify_ops (s : Sys) (f : Stream → Stream) : (s.modify f).ops = s.ops := rfl
@[simp] theorem modify_next (s : Sys) (f : Stream → Stream) : (s.modify f).next = s.next := rfl
@[simp] theorem modify_trace (s : Sys) (f : Stream → Stream) : (s.modify f).trace = s.trace := rfl

end Sys

/-- `init`: the properties as first defined, and the header's sink write under way. The
initial algorithm is the preferred one of the capability intersection, null without one. -/
def init (cfg : Config) : Sys where
  st :=
    { compressionAlgo :=
        match cfg.capabilities with
        | some algos => cfg.getPreferredAlgorithm algos
        | none => none
      payloadSequenceNumber := 1
      currentPayload := some []
      closed := false
      closeDestination := false
      caching := true
      payloads := []
      ready := false
      aborted := false
      timedout := false
      errored := none }
  header := some .write
  ops := []
  next := 0
  trace := [.requested .writeHeader]

/-- `getPayloads()`. -/
def getPayloads (s : Sys) : List PayloadChunk := s.st.payloads

end Msl.MessageOutputStream
