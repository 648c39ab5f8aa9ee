import Msl.Flush

/-! # The methods of the stream and its runs

`write`, `close`, `setCompressionAlgorithm`, `abort`, `stopCaching` and `closeDestination`
as the code runs them up to their first suspension, the callbacks of the header
transmission (`headerAnswered`), and `step`, which applies one input: a call, an answer to
the header's pending request, or an answer to the request of the `i`-th suspended operation.
An answer a request cannot receive leaves the state as it is.  `run` applies a list of
inputs; `OneAtATime` says that write, flush, close and setCompressionAlgorithm are each
issued only once every earlier one delivered its outcome. -/

namespace Msl.MessageOutputStream

open Sys

/-- `write(data, off, len)` as call `k`: the checks in order, then the slice
`data.subarray(off, off + len)` is pushed onto the buffer, as a copy of its bytes, and its
length returned. -/
def write (cfg : Config) (data : List UInt8) (off len : Int) (k : Nat) (s : Sys) : Sys :=
  match s.st.check with
  | some o => s.deliver k o
  | none =>
    if s.st.closed then
      s.deliver k (.error (.mslIoException "Message output stream already closed."))
    else if off < 0 then s.deliver k (.error (.rangeError "Offset cannot be negative."))
    else if len < 0 then s.deliver k (.error (.rangeError "Length cannot be negative."))
    else if off + len > data.length then
      s.deliver k (.error (.rangeError "Offset plus length cannot be greater than the array length."))
    else
      match cfg.getMessageHeader with
      | none =>
        s.deliver k (.error (.mslInternalException "Cannot write payload data for an error message."))
      | some h =>
        if h.handshake then
          s.deliver k
            (.error (.mslInternalException "Cannot write payload data for a handshake message."))
        else
          match s.st.currentPayload with
          | none => s.deliver k (.error .typeError)
          | some segs =>
            let bytes := (data.drop off.toNat).take len.toNat
            ((s.modify fun st => { st with currentPayload := some (segs ++ [bytes]) }).emit
              (.appended bytes s.st.compressionAlgo)).deliver k (.result (.count bytes.length))

/-- The outcome a check reports is never a byte count. -/
theorem Stream.check_ne_count {st : Stream} {o : Outcome} (h : st.check = some o) (n : Nat) :
    o ≠ .result (.count n) := by
  rintro rfl
  unfold Stream.check at h
  split_ifs at h <;> cases h' : st.errored <;> simp_all

/-- What `write` can do: report an outcome other than a byte count and change nothing else,
or, over a data-bearing header with a buffer, append the slice and report its length. -/
theorem write_cases (cfg : Config) (data : List UInt8) (off len : Int) (k : Nat) (s : Sys) :
    (∃ o, write cfg data off len k s = s.deliver k o ∧ ∀ n, o ≠ .result (.count n)) ∨
      ∃ h segs, cfg.getMessageHeader = some h ∧ h.handshake = false ∧ s.st.currentPayload = some segs ∧
        write cfg data off len k s =
          ((s.modify fun st => { st with currentPayload := some (segs ++ [(data.drop off.toNat).take len.toNat]) }).emit
            (.appended ((data.drop off.toNat).take len.toNat) s.st.compressionAlgo)).deliver k
            (.result (.count ((data.drop off.toNat).take len.toNat).length)) := by
  unfold write
  cases hc : s.st.check with
  | some o => exact .inl ⟨o, rfl, Stream.check_ne_count hc⟩
  | none =>
    dsimp only
    by_cases h1 : s.st.closed
    · exact .inl ⟨_, if_pos h1, fun _ => nofun⟩
    rw [if_neg h1]
    by_cases h2 : off < 0
    · exact .inl ⟨_, if_pos h2, fun _ => nofun⟩
    rw [if_neg h2]
    by_cases h3 : len < 0
    · exact .inl ⟨_, if_pos h3, fun _ => nofun⟩
    rw [if_neg h3]
    by_cases h4 : off + len > data.length
    · exact .inl ⟨_, if_pos h4, fun _ => nofun⟩
    rw [if_neg h4]
    cases hh : cfg.getMessageHeader with
    | none => exact .inl ⟨_, rfl, fun _ => nofun⟩
    | some h =>
      dsimp only
      by_cases h5 : h.handshake
      · exact .inl ⟨_, if_pos h5, fun _ => nofun⟩
      rw [if_neg h5]
      cases hp : s.st.currentPayload with
      | none => exact .inl ⟨_, rfl, fun _ => nofun⟩
      | some segs => exact .inr ⟨h, segs, rfl, Bool.eq_false_iff.mpr h5, rfl, rfl⟩

/-- `close()` as call `k`: after the checks, mark the stream closed and flush. -/
def close (cfg : Config) (k : Nat) (s : Sys) : Sys :=
  match s.st.check with
  | some o => s.deliver k o
  | none =>
    if s.st.closed then s.deliver k (.result (.bool true))
    else flush cfg k .close (s.modify fun st => { st with closed := true })

/-- `setCompressionAlgorithm(a)` as call `k`: a no-op if unchanged, false if the capability
intersection lacks `a`, otherwise a flush before the switch. -/
def setCompressionAlgorithm (cfg : Config) (a : Option CompressionAlgorithm) (k : Nat) (s : Sys) :
    Sys :=
  match cfg.getMessageHeader with
  | none =>
    s.deliver k (.error (.mslInternalException "Cannot write payload data for an error message."))
  | some _ =>
    if s.st.compressionAlgo = a then s.deliver k (.result (.bool true))
    else
      match a with
      | some x =>
        match cfg.capabilities with
        | none => s.deliver k (.result (.bool false))
        | some algos =>
          if x ∈ algos then flush cfg k (.setCompressionAlgorithm a) s
          else s.deliver k (.result (.bool false))
      | none => flush cfg k (.setCompressionAlgorithm a) s

/-- `abort()`: set the flag, abort the destination and cancel the readiness queue. -/
def abort (s : Sys) : Sys :=
  cancelAll ((s.modify fun st => { st with aborted := true }).emit (.requested .abort))

/-- `stopCaching()`. -/
def stopCaching (s : Sys) : Sys :=
  s.modify fun st => { st with caching := false, payloads := [] }

/-- `closeDestination(close)`. -/
def closeDestination (close : Bool) (s : Sys) : Sys :=
  s.modify fun st => { st with closeDestination := close }

/-- The callbacks of the header's sink write and sink flush in `init`. -/
def headerAnswered (cfg : Config) : HeaderStage → Answer → Sys → Option Sys
  | .write, .written n, s =>
    some <|
      if s.st.aborted then ready cfg s
      else if n < cfg.headerBytes.length then ready cfg (s.modify fun st => { st with timedout := true })
      else { s with header := some .flush }.emit (.requested .flushHeader)
  | .flush, .success ok, s =>
    some <|
      if s.st.aborted then ready cfg s
      else ready cfg (s.modify fun st => { st with timedout := !ok })
  | _, .timeout, s => some (ready cfg (s.modify fun st => { st with timedout := true }))
  | _, .error e, s => some (ready cfg (s.modify fun st => { st with errored := some e }))
  | _, _, _ => none

/-- Give call `c` the number `s.next` and record it. -/
def Sys.begin (s : Sys) (c : Call) : Sys := { s with next := s.next + 1 }.emit (.called s.next c)

/-- Call `c`, numbered `s.next`. -/
def call (cfg : Config) (c : Call) (s : Sys) : Sys :=
  match c with
  | .write data off len => write cfg data off len s.next (s.begin c)
  | .flush => flush cfg s.next .flush (s.begin c)
  | .close => close cfg s.next (s.begin c)
  | .setCompressionAlgorithm a => setCompressionAlgorithm cfg a s.next (s.begin c)
  | .abort => abort (s.begin c)
  | .stopCaching => stopCaching (s.begin c)
  | .closeDestination b => closeDestination b (s.begin c)

/-- One input of a run. -/
inductive Input where
  | call (c : Call)
  /-- The answer to the header's pending request. -/
  | header (a : Answer)
  /-- The answer to the request of the `i`-th suspended operation. -/
  | answer (i : Nat) (a : Answer)
deriving DecidableEq, Repr

/-- Whether an input is a call of an operation. -/
def Input.isOperation : Input → Bool
  | .call c => c.isOperation
  | _ => false

/-- The header's pending request receives `a`. -/
def answerHeader (cfg : Config) (a : Answer) (s : Sys) : Sys :=
  match s.header with
  | some hs => (headerAnswered cfg hs a ({ s with header := none }.emit (.answered hs.request a))).getD s
  | none => s

/-- The request of the `i`-th suspended operation receives `a`. -/
def answer (cfg : Config) (i : Nat) (a : Answer) (s : Sys) : Sys :=
  match s.ops[i]? with
  | some t =>
    (resume cfg t a ({ s with ops := s.ops.eraseIdx i }.emit (.answered t.stage.request a))).getD s
  | none => s

/-- Apply one input. -/
def step (cfg : Config) (s : Sys) : Input → Sys
  | .call c => call cfg c s
  | .header a => answerHeader cfg a s
  | .answer i a => answer cfg i a s

/-- Apply a list of inputs. -/
def run (cfg : Config) : Sys → List Input → Sys
  | s, [] => s
  | s, i :: is => run cfg (step cfg s i) is

/-- Every operation called so far has delivered its outcome. -/
def Idle (s : Sys) : Prop :=
  ∀ k c, Event.called k c ∈ s.trace → c.isOperation → ∃ o, Event.delivered k o ∈ s.trace

/-- Each operation of the run is issued after the previous one delivered its outcome. -/
def OneAtATime (cfg : Config) : Sys → List Input → Prop
  | _, [] => True
  | s, i :: is => (i.isOperation → Idle s) ∧ OneAtATime cfg (step cfg s i) is

/-- A property kept by an answer that applies is kept by `getD`. -/
theorem getD_of (P : Sys → Prop) {o : Option Sys} {s : Sys} (hs : P s)
    (ho : ∀ s', o = some s' → P s') : P (o.getD s) := by
  cases o with
  | none => exact hs
  | some s' => exact ho s' rfl

theorem run_append (cfg : Config) (s : Sys) (is is' : List Input) :
    run cfg s (is ++ is') = run cfg (run cfg s is) is' := by
  induction is generalizing s with
  | nil => rfl
  | cons i is ih => exact ih (step cfg s i)

theorem run_induction (cfg : Config) (P : Sys → Prop) (h : ∀ s i, P s → P (step cfg s i)) :
    ∀ (s : Sys) (is : List Input), P s → P (run cfg s is)
  | _, [], hs => hs
  | s, i :: is, hs => run_induction cfg P h (step cfg s i) is (h s i hs)

theorem run_induction_one (cfg : Config) (P : Sys → Prop)
    (h : ∀ s i, P s → (i.isOperation → Idle s) → P (step cfg s i)) :
    ∀ (s : Sys) (is : List Input), P s → OneAtATime cfg s is → P (run cfg s is)
  | _, [], hs, _ => hs
  | s, i :: is, hs, ⟨hi, his⟩ => run_induction_one cfg P h (step cfg s i) is (h s i hs hi) his

end Msl.MessageOutputStream
