import Msl.Stream

/-! # `flush` and its callbacks

`flush` waits on the readiness queue until the header is out (`ready` hands the queue's
element to the first waiter, `cancelAll` hands undefined to every waiter), then runs
`perform`, which checks the flags and the buffer and either reports to its callback at once or
asks `PayloadChunk$create` for a chunk.  The chunk is then written to the sink (`created`),
the sink is flushed (`chunkWritten`), and on success the sequence number is incremented and the
buffer reset or dropped (`chunkFlushed`).  Every outcome goes to the callback `flush` was
given (`flushDone`): the caller's own, or the wrappers of `close` (`closeFlushed`) and of
`setCompressionAlgorithm` (`compressionFlushed`).  `resume` dispatches an answer to the task
waiting for it. -/

namespace Msl.MessageOutputStream

open Sys

/-- "Check if already aborted, timedout, or errored": the outcome to report, if any. -/
def Stream.check (st : Stream) : Option Outcome :=
  if st.aborted then some (.result (.bool false))
  else if st.timedout then some .timeout
  else st.errored.map .error

/-- The result callback `close` gives its flush: drop the buffer on success, then close the
destination if asked to, or report `success`. -/
def closeFlushed (k : Nat) (success : Bool) (s : Sys) : Sys :=
  let s := if success then s.modify fun st => { st with currentPayload := none } else s
  if s.st.closeDestination then s.suspend ⟨k, .close, .closeDestination⟩ .closeDestination
  else s.deliver k (.result (.bool success))

/-- The result callback `setCompressionAlgorithm(a)` gives its flush. -/
def compressionFlushed (a : Option CompressionAlgorithm) (k : Nat) (success : Bool) (s : Sys) :
    Sys :=
  if success then (s.modify fun st => { st with compressionAlgo := a }).deliver k (.result (.bool true))
  else s.deliver k (.error (.mslIoException "flush() aborted"))

/-- The callback of a flush made by call `k` receives `o`. `close` and
`setCompressionAlgorithm` pass a timeout or an error straight on. -/
def flushDone (k : Nat) : Caller → Outcome → Sys → Sys
  | .close, .result (.bool ok), s => closeFlushed k ok s
  | .setCompressionAlgorithm a, .result (.bool ok), s => compressionFlushed a k ok s
  | _, o, s => s.deliver k o

/-- A timeout or an error goes straight to the callback `flush` was given. -/
theorem flushDone_of_failure {o : Outcome} (ho : o.IsFailure) {k : Nat} {c : Caller} {s : Sys} :
    flushDone k c o s = s.deliver k o := by
  rcases o with _ | _ | _
  · exact ho.elim
  all_goals cases c <;> rfl

/-- The chunk `perform` asks for: the buffered segments joined, under the current sequence
number, closed flag and algorithm. -/
def newChunk (st : Stream) (h : MessageHeader) (segs : List (List UInt8)) : PayloadChunk :=
  ⟨st.payloadSequenceNumber, h.messageId, st.closed, st.compressionAlgo, segs.flatten⟩

/-- `perform` in `flush`, for call `k` whose flush callback is `caller`. -/
def perform (cfg : Config) (k : Nat) (caller : Caller) (s : Sys) : Sys :=
  match s.st.check with
  | some o => flushDone k caller o s
  | none =>
    match s.st.currentPayload with
    | none => flushDone k caller (.result (.bool true)) s
    | some segs =>
      if !s.st.closed && segs.length == 0 then flushDone k caller (.result (.bool true)) s
      else
        match cfg.getMessageHeader with
        | none => flushDone k caller (.result (.bool true)) s
        | some h =>
          if h.handshake then flushDone k caller (.result (.bool true)) s
          else s.suspend ⟨k, caller, .create (newChunk s.st h segs)⟩ (.create (newChunk s.st h segs))

/-- `flush(timeout, callback)`: poll the readiness queue while the stream is not ready. -/
def flush (cfg : Config) (k : Nat) (caller : Caller) (s : Sys) : Sys :=
  if s.st.ready then perform cfg k caller s
  else s.suspend ⟨k, caller, .poll⟩ .poll

/-- Whether a task waits on the readiness queue. -/
def Stage.isPoll : Stage → Bool
  | .poll => true
  | _ => false

/-- The first waiter of the readiness queue, and the other tasks. -/
def takeWaiter : List Task → Option (Task × List Task)
  | [] => none
  | t :: ts =>
    if t.stage.isPoll then some (t, ts) else (takeWaiter ts).map fun p => (p.1, t :: p.2)

/-- `ready()`: set `_ready` and add `true` to the queue, which wakes its first waiter. -/
def ready (cfg : Config) (s : Sys) : Sys :=
  let s := (s.modify fun st => { st with ready := true }).emit .ready
  match takeWaiter s.ops with
  | some (t, rest) => perform cfg t.k t.caller { s with ops := rest }
  | none => s

/-- `_readyQueue.cancelAll()`: every waiter receives undefined and reports false. -/
def cancelAll (s : Sys) : Sys :=
  (s.ops.filter (·.stage.isPoll)).foldl (fun s t => flushDone t.k t.caller (.result (.bool false)) s)
    { s with ops := s.ops.filter (!·.stage.isPoll) }

/-- The error callbacks of the chunk path wrap an `MslException`. -/
def encodingError (seq : Nat) (e : Exception) : Exception :=
  if e.isMslException then
    .mslIoExceptionWithCause
      ("Error encoding payload chunk [sequence number " ++ toString seq ++ "].") e
  else e

/-- `PayloadChunk$create` delivered chunk `c`: cache it, then write it to the sink. -/
def created (t : Task) (c : PayloadChunk) (s : Sys) : Sys :=
  let s := if s.st.caching then s.modify fun st => { st with payloads := st.payloads ++ [c] } else s
  s.suspend ⟨t.k, t.caller, .write c⟩ (.writeChunk c)

/-- The sink wrote `n` bytes of chunk `c`: flush it, unless aborted or short by
`numWritten < chunk.length`. -/
def chunkWritten (cfg : Config) (t : Task) (c : PayloadChunk) (n : Nat) (s : Sys) : Sys :=
  if s.st.aborted then flushDone t.k t.caller (.result (.bool false)) s
  else if lessThan n (cfg.chunkLength c) then flushDone t.k t.caller .timeout s
  else s.suspend ⟨t.k, t.caller, .flush c⟩ (.flushChunk c)

/-- The sink flushed chunk `c` with `success`: increment the sequence number and reset the
buffer, or drop it once closed. -/
def chunkFlushed (t : Task) (c : PayloadChunk) (success : Bool) (s : Sys) : Sys :=
  if s.st.aborted then flushDone t.k t.caller (.result (.bool false)) s
  else if !success then flushDone t.k t.caller .timeout s
  else
    flushDone t.k t.caller (.result (.bool true))
      ((s.modify fun st => { st with
        payloadSequenceNumber := st.payloadSequenceNumber + 1
        currentPayload := if st.closed then none else some [] }).emit (.sent c))

/-- Task `t` receives answer `a`; `none` for an answer its request cannot receive. -/
def resume (cfg : Config) (t : Task) (a : Answer) (s : Sys) : Option Sys :=
  match t.stage, a with
  | .poll, .timeout => some (flushDone t.k t.caller .timeout s)
  | .poll, .error e => some (flushDone t.k t.caller (.error e) s)
  | .create c, .chunk => some (created t c s)
  | .create _, .error e =>
    some (flushDone t.k t.caller (.error (encodingError s.st.payloadSequenceNumber e)) s)
  | .write c, .written n => some (chunkWritten cfg t c n s)
  | .write _, .timeout => some (flushDone t.k t.caller .timeout s)
  | .write _, .error e =>
    some (flushDone t.k t.caller (.error (encodingError s.st.payloadSequenceNumber e)) s)
  | .flush c, .success ok => some (chunkFlushed t c ok s)
  | .flush _, .timeout => some (flushDone t.k t.caller .timeout s)
  | .flush _, .error e =>
    some (flushDone t.k t.caller (.error (encodingError s.st.payloadSequenceNumber e)) s)
  | .closeDestination, .success ok => some (s.deliver t.k (.result (.bool ok)))
  | .closeDestination, .timeout => some (s.deliver t.k .timeout)
  | .closeDestination, .error e => some (s.deliver t.k (.error e))
  | _, _ => none

/-- What `resume` can do: pass a timeout or an error on to the task's callback, go on with the
chunk (created, written, flushed), or report what the sink's close answered. -/
theorem resume_cases {cfg : Config} {t : Task} {a : Answer} {s s' : Sys} (h : resume cfg t a s = some s') :
    (∃ o, s' = flushDone t.k t.caller o s ∧ o.IsFailure ∧ a.PassesTo o) ∨
      (∃ c, t.stage = .create c ∧ s' = created t c s) ∨
      (∃ c n, t.stage = .write c ∧ s' = chunkWritten cfg t c n s) ∨
      (∃ c ok, t.stage = .flush c ∧ s' = chunkFlushed t c ok s) ∨
      (t.stage = .closeDestination ∧ ((∃ ok, a = .success ok ∧ s' = s.deliver t.k (.result (.bool ok))) ∨
        ∃ o, s' = s.deliver t.k o ∧ o.IsFailure ∧ a.PassesTo o)) := by
  unfold resume at h
  split at h <;> (try simp only [reduceCtorEq] at h) <;> obtain rfl := Option.some.inj h
  all_goals first
    | exact .inl ⟨_, rfl, trivial, trivial⟩
    | exact .inr (.inl ⟨_, ‹_›, rfl⟩)
    | exact .inr (.inr (.inl ⟨_, _, ‹_›, rfl⟩))
    | exact .inr (.inr (.inr (.inl ⟨_, _, ‹_›, rfl⟩)))
    | exact .inr (.inr (.inr (.inr ⟨‹_›, .inl ⟨_, rfl, rfl⟩⟩)))
    | exact .inr (.inr (.inr (.inr ⟨‹_›, .inr ⟨_, rfl, trivial, trivial⟩⟩)))

end Msl.MessageOutputStream
