import Msl.Accounting

/-! # What holds under any interleaving

Without the one-at-a-time discipline of `Sequential.lean`, operations overlap: a flush may wait
on the readiness queue or on the sink while a write, another flush or `abort()` runs.  Every
step, and every callback chain inside it, keeps four facts (`Keeps`, proved for each callback
and then for `step`):

* `SeqCounted`: `_payloadSequenceNumber` is one more than the number of chunks counted as sent;
* `AbortQuiet`: `_aborted` is set exactly when `abort()` was called, and since then nothing has
  moved the payload on: no slice pushed onto the buffer, no chunk asked of
  `PayloadChunk$create`, no flush of the header or of a chunk asked of the sink, no chunk
  counted as sent;
* `_closed` and a recorded abort, timeout or error are never cleared, so once `close()` was
  called the stream stays closed or failed (`CloseShut`);
* caching, once turned off by `stopCaching()`, stays off with an empty cache
  (`Stream.CacheOff`).

Hence, for every run from `init` (`abort_stops_progress`, `stopCaching_empties_payloads`,
`write_after_close`).  A chunk whose creation was asked for before the abort may still be
written to the sink, and the sink may still be closed, after it.

The sequence numbers of the chunks sent follow from `SeqCounted`: every chunk counted as sent
was asked of `PayloadChunk$create` before and is numbered one more than the chunks counted as
sent at that request (`sent_chunk_numbered_at_request`).  What the discipline of
`Sequential.lean` rules out is that two requests overlap: two chunks asked for with no chunk
sent in between carry the same number (`chunks_requested_between_sends_share_number`), and if
the sink takes both, one number is counted as sent twice. -/

namespace Msl.MessageOutputStream

open Sys

/-- An event that moves the payload on: a slice pushed onto the buffer, a chunk asked of
`PayloadChunk$create`, a flush of the header or of a chunk asked of the sink, a chunk counted
as sent. -/
def Event.isProgress : Event → Bool
  | .appended .. | .sent _ => true
  | .requested (.create _) | .requested (.flushChunk _) | .requested .flushHeader => true
  | _ => false

/-- `_payloadSequenceNumber` is one more than the number of chunks counted as sent. -/
def SeqCounted (s : Sys) : Prop := s.st.payloadSequenceNumber = (sentChunks s.trace).length + 1

/-- `_aborted` is set exactly when `abort()` was called, and nothing has moved the payload on
since. -/
def AbortQuiet (s : Sys) : Prop :=
  (s.st.aborted = true ↔ ∃ k, Event.called k .abort ∈ s.trace) ∧
    Each (fun pre e => (∃ k, Event.called k .abort ∈ pre) → e.isProgress = false) s.trace

/-- Once `close()` was called, the stream is closed or has recorded an abort, a timeout or an
error. -/
def CloseShut (s : Sys) : Prop :=
  (∃ k, Event.called k .close ∈ s.trace) → s.st.closed = true ∨ s.st.check ≠ none

/-- A stream that recorded an abort, a timeout or an error has a check to report. -/
theorem Stream.check_ne_none_of {st : Stream} (h : st.aborted = true ∨ st.timedout = true ∨ st.errored ≠ none) :
    st.check ≠ none := by
  intro hc
  obtain ⟨ha, ht, he⟩ := Stream.check_eq_none hc
  rcases h with h | h | h <;> simp_all

theorem AbortQuiet.emit {s : Sys} (h : AbortQuiet s) {e : Event} (hab : ∀ k, e ≠ .called k .abort)
    (hp : s.st.aborted = true → e.isProgress = false) : AbortQuiet (s.emit e) := by
  have hmem : ∀ k, Event.called k .abort ∈ s.trace ++ [e] ↔ Event.called k .abort ∈ s.trace := fun k =>
    ⟨fun hk => (List.mem_append.mp hk).resolve_right fun he => hab k (List.mem_singleton.mp he).symm,
      List.mem_append_left _⟩
  exact ⟨by simpa [hmem] using h.1, h.2.concat fun ⟨k, hk⟩ => hp (h.1.mpr ⟨k, hk⟩)⟩

/-- Caching is off and the cache empty, as `stopCaching()` leaves them. -/
def Stream.CacheOff (st : Stream) : Prop := st.caching = false ∧ st.payloads = []

/-! ### What a step keeps -/

/-- A step, or a callback chain, keeps `SeqCounted`, `AbortQuiet` and `Stream.CacheOff`, and
clears neither `_closed` nor a recorded failure. -/
structure Keeps (s s' : Sys) : Prop where
  seqCounted : SeqCounted s → SeqCounted s'
  abortQuiet : AbortQuiet s → AbortQuiet s'
  closed : s.st.closed = true → s'.st.closed = true
  failed : s.st.check ≠ none → s'.st.check ≠ none
  cacheOff : s.st.CacheOff → s'.st.CacheOff

namespace Keeps

variable {s s' s'' : Sys}

theorem refl (s : Sys) : Keeps s s := ⟨id, id, id, id, id⟩

theorem trans (h1 : Keeps s s') (h2 : Keeps s' s'') : Keeps s s'' :=
  ⟨h2.seqCounted ∘ h1.seqCounted, h2.abortQuiet ∘ h1.abortQuiet, h2.closed ∘ h1.closed,
    h2.failed ∘ h1.failed, h2.cacheOff ∘ h1.cacheOff⟩

/-- Only the stream's properties and the trace matter. -/
theorem of_eq (hst : s'.st = s.st) (htr : s'.trace = s.trace) : Keeps s s' :=
  ⟨fun h => by rwa [SeqCounted, hst, htr], fun h => by rwa [AbortQuiet, hst, htr], by rw [hst]; exact id,
    by rw [hst]; exact id, by rw [hst]; exact id⟩

/-- Recording an event other than an abort call or a sent chunk, which moves the payload on only
while the stream is not aborted. -/
theorem emit (e : Event) (hab : ∀ k, e ≠ .called k .abort) (hs : e.sent? = none)
    (hp : s.st.aborted = true → e.isProgress = false) : Keeps s (s.emit e) :=
  ⟨fun h => by simpa [SeqCounted, hs] using h, fun h => h.emit hab hp, id, id, id⟩

theorem deliver (k : Nat) (o : Outcome) : Keeps s (s.deliver k o) :=
  emit _ (by simp) rfl fun _ => rfl

theorem suspend (t : Task) (r : Request) (hp : s.st.aborted = true → (Event.requested r).isProgress = false) :
    Keeps s (s.suspend t r) :=
  (emit (.requested r) (by simp) rfl hp).trans (of_eq rfl rfl)

theorem setOps (s : Sys) (ops : List Task) : Keeps s { s with ops := ops } := of_eq rfl rfl

theorem setHeader (s : Sys) (x : Option HeaderStage) : Keeps s { s with header := x } := of_eq rfl rfl

theorem setNext (s : Sys) (n : Nat) : Keeps s { s with next := n } := of_eq rfl rfl

/-- An update of the properties that leaves the sequence number and `_aborted` alone. -/
theorem of_modify {f : Stream → Stream} (h : Keeps (s.modify f) s')
    (hseq : (f s.st).payloadSequenceNumber = s.st.payloadSequenceNumber) (hab : (f s.st).aborted = s.st.aborted)
    (hco : s.st.CacheOff → (f s.st).CacheOff) (hcl : s.st.closed = true → (f s.st).closed = true)
    (hck : s.st.check ≠ none → (f s.st).check ≠ none) : Keeps s s' :=
  Keeps.trans ⟨fun h => by rwa [SeqCounted, modify_st, modify_trace, hseq],
    fun h => by rwa [AbortQuiet, modify_st, modify_trace, hab], hcl, hck, hco⟩ h

theorem modify (f : Stream → Stream) (hseq : (f s.st).payloadSequenceNumber = s.st.payloadSequenceNumber)
    (hab : (f s.st).aborted = s.st.aborted) (hco : s.st.CacheOff → (f s.st).CacheOff)
    (hcl : s.st.closed = true → (f s.st).closed = true) (hck : s.st.check ≠ none → (f s.st).check ≠ none) :
    Keeps s (s.modify f) :=
  of_modify (refl _) hseq hab hco hcl hck

end Keeps

section chains

variable (cfg : Config)

theorem closeFlushed_keeps (k : Nat) (ok : Bool) (s : Sys) : Keeps s (closeFlushed k ok s) := by
  unfold closeFlushed
  split <;> dsimp only <;> split
  all_goals first
    | exact Keeps.of_modify (Keeps.suspend _ _ fun _ => rfl) rfl rfl id id id
    | exact Keeps.of_modify (Keeps.deliver _ _) rfl rfl id id id
    | exact Keeps.suspend _ _ fun _ => rfl
    | exact Keeps.deliver _ _

theorem compressionFlushed_keeps (a : Option CompressionAlgorithm) (k : Nat) (ok : Bool) (s : Sys) :
    Keeps s (compressionFlushed a k ok s) := by
  unfold compressionFlushed
  split
  · exact Keeps.of_modify (Keeps.deliver _ _) rfl rfl id id id
  · exact Keeps.deliver _ _

theorem flushDone_keeps (k : Nat) (c : Caller) (o : Outcome) (s : Sys) : Keeps s (flushDone k c o s) := by
  unfold flushDone
  split
  · exact closeFlushed_keeps k _ s
  · exact compressionFlushed_keeps _ k _ s
  · exact Keeps.deliver _ _

theorem perform_keeps (k : Nat) (c : Caller) (s : Sys) : Keeps s (perform cfg k c s) := by
  unfold perform
  split
  · exact flushDone_keeps k c _ s
  · rename_i hck
    have ha : s.st.aborted = false := (Stream.check_eq_none hck).1
    repeat' split
    all_goals first
      | exact flushDone_keeps k c _ s
      | exact Keeps.suspend _ _ fun h => absurd h (by simp [ha])

theorem flush_keeps (k : Nat) (c : Caller) (s : Sys) : Keeps s (flush cfg k c s) := by
  unfold flush
  split
  · exact perform_keeps cfg k c s
  · exact Keeps.suspend _ _ fun _ => rfl

theorem ready_keeps (s : Sys) : Keeps s (ready cfg s) := by
  have h1 : Keeps s ((s.modify fun st => { st with ready := true }).emit .ready) :=
    Keeps.of_modify (Keeps.emit .ready (by simp) rfl fun _ => rfl) rfl rfl id id id
  unfold ready
  dsimp only
  split
  · exact h1.trans ((Keeps.setOps _ _).trans (perform_keeps cfg _ _ _))
  · exact h1

theorem cancelAll_keeps (s : Sys) : Keeps s (cancelAll s) := by
  have key : ∀ (ts : List Task) (s : Sys),
      Keeps s (ts.foldl (fun s t => flushDone t.k t.caller (.result (.bool false)) s) s) := by
    intro ts
    induction ts with
    | nil => exact Keeps.refl
    | cons t ts ih => exact fun s => (flushDone_keeps _ _ _ s).trans (ih _)
  exact (Keeps.setOps _ _).trans (key _ _)

theorem created_keeps (t : Task) (c : PayloadChunk) (s : Sys) : Keeps s (created t c s) := by
  unfold created
  split
  · exact Keeps.of_modify (Keeps.suspend _ _ fun _ => rfl) rfl rfl (fun h => absurd h.1 (by simp [*])) id id
  · exact Keeps.suspend _ _ fun _ => rfl

theorem chunkWritten_keeps (t : Task) (c : PayloadChunk) (n : Nat) (s : Sys) :
    Keeps s (chunkWritten cfg t c n s) := by
  unfold chunkWritten
  split
  · exact flushDone_keeps _ _ _ s
  · split
    · exact flushDone_keeps _ _ _ s
    · exact Keeps.suspend _ _ fun h => absurd h ‹_›

/-- Counting a chunk as sent, on a stream that is not aborted. -/
theorem sent_keeps {s : Sys} (ha : s.st.aborted = false) (c : PayloadChunk) :
    Keeps s ((s.modify fun st => { st with
      payloadSequenceNumber := st.payloadSequenceNumber + 1
      currentPayload := if st.closed then none else some [] }).emit (.sent c)) := by
  refine ⟨fun h => ?_, fun h => ?_, id, id, id⟩
  · simp only [SeqCounted, emit_st, modify_st, emit_trace, modify_trace, sentChunks_append] at h ⊢
    simp [h]
  · refine (AbortQuiet.emit ?_ (by simp) fun h => by simp [ha] at h)
    simpa [AbortQuiet] using h

theorem chunkFlushed_keeps (t : Task) (c : PayloadChunk) (ok : Bool) (s : Sys) :
    Keeps s (chunkFlushed t c ok s) := by
  unfold chunkFlushed
  split
  · exact flushDone_keeps _ _ _ s
  · split
    · exact flushDone_keeps _ _ _ s
    · exact (sent_keeps (by simpa using ‹¬ s.st.aborted = true›) c).trans (flushDone_keeps _ _ _ _)

theorem resume_keeps {t : Task} {a : Answer} {s s' : Sys} (h : resume cfg t a s = some s') :
    Keeps s s' := by
  rcases resume_cases h with ⟨o, rfl, -⟩ | ⟨c, -, rfl⟩ | ⟨c, n, -, rfl⟩ | ⟨c, ok, -, rfl⟩ |
    ⟨-, ⟨ok, -, rfl⟩ | ⟨o, rfl, -⟩⟩
  · exact flushDone_keeps _ _ _ s
  · exact created_keeps _ _ s
  · exact chunkWritten_keeps cfg _ _ _ s
  · exact chunkFlushed_keeps _ _ _ s
  all_goals exact Keeps.deliver _ _

/-- The header's callbacks record a failure, which a pending header cannot have recorded yet. -/
theorem headerAnswered_keeps {hs : HeaderStage} {a : Answer} {s s' : Sys}
    (he : headerAnswered cfg hs a s = some s') (hp : s.st.timedout = false ∧ s.st.errored = none) :
    Keeps s s' := by
  unfold headerAnswered at he
  split at he <;> simp only [Option.some.injEq, reduceCtorEq] at he <;> subst he
  · split
    · exact ready_keeps cfg s
    · split
      · exact Keeps.of_modify (ready_keeps cfg _) rfl rfl id id fun _ => Stream.check_ne_none_of (.inr (.inl rfl))
      · exact (Keeps.setHeader _ _).trans (Keeps.emit (.requested _) (by simp) rfl fun h => absurd h ‹_›)
  · split
    · exact ready_keeps cfg s
    · exact Keeps.of_modify (ready_keeps cfg _) rfl rfl id id fun hck =>
        absurd (by simp [Stream.check, ‹¬ s.st.aborted = true›, hp.1, hp.2]) hck
  · exact Keeps.of_modify (ready_keeps cfg _) rfl rfl id id fun _ => Stream.check_ne_none_of (.inr (.inl rfl))
  · exact Keeps.of_modify (ready_keeps cfg _) rfl rfl id id fun _ => Stream.check_ne_none_of (.inr (.inr (by simp)))

end chains

/-! ### Every step -/

section step

variable (cfg : Config)

/-- A call other than `abort()` is recorded. -/
theorem begin_keeps {C : Call} (hC : C ≠ .abort) (s : Sys) : Keeps s (s.begin C) :=
  (Keeps.setNext s _).trans (Keeps.emit (.called _ _) (fun _ h => hC (Event.called.inj h).2) rfl fun _ => rfl)

/-- `abort()` is recorded, sets `_aborted` and aborts the destination. -/
theorem abort_begin_keeps (s : Sys) :
    Keeps s (((s.begin .abort).modify fun st => { st with aborted := true }).emit (.requested .abort)) := by
  refine ⟨fun h => by simpa [SeqCounted, Sys.begin] using h, fun h => ⟨?_, ?_⟩, id, fun _ => by simp [Stream.check], id⟩
  · simp [Sys.begin]
  · have := (h.2.concat (e := .called s.next .abort) fun _ => rfl).concat (e := .requested .abort) fun _ => rfl
    simpa only [Sys.begin, emit_trace, modify_trace, List.append_assoc, List.singleton_append] using this

theorem write_keeps (data : List UInt8) (off len : Int) (k : Nat) (s : Sys) :
    Keeps s (write cfg data off len k s) := by
  cases hck : s.st.check with
  | some o =>
    rw [show write cfg data off len k s = s.deliver k o by simp [write, hck]]
    exact Keeps.deliver _ _
  | none =>
    rcases write_cases cfg data off len k s with ⟨o, hw, -⟩ | ⟨_, _, -, -, -, hw⟩ <;> rw [hw]
    · exact Keeps.deliver _ _
    · exact Keeps.of_modify ((Keeps.emit (.appended _ _) (by simp) rfl fun h =>
        absurd h (by simp [(Stream.check_eq_none hck).1])).trans (Keeps.deliver _ _)) rfl rfl id id id

theorem close_keeps (k : Nat) (s : Sys) : Keeps s (close cfg k s) := by
  unfold close
  split
  · exact Keeps.deliver _ _
  · split
    · exact Keeps.deliver _ _
    · exact Keeps.of_modify (flush_keeps cfg _ _ _) rfl rfl id (fun _ => rfl) id

theorem setCompressionAlgorithm_keeps (a : Option CompressionAlgorithm) (k : Nat) (s : Sys) :
    Keeps s (setCompressionAlgorithm cfg a k s) := by
  unfold setCompressionAlgorithm
  repeat' split
  all_goals first | exact Keeps.deliver _ _ | exact flush_keeps cfg _ _ _

theorem call_keeps (C : Call) (s : Sys) : Keeps s (call cfg C s) := by
  cases C with
  | write data off len => exact (begin_keeps (by simp) s).trans (write_keeps cfg ..)
  | flush => exact (begin_keeps (by simp) s).trans (flush_keeps cfg ..)
  | close => exact (begin_keeps (by simp) s).trans (close_keeps cfg ..)
  | setCompressionAlgorithm a => exact (begin_keeps (by simp) s).trans (setCompressionAlgorithm_keeps cfg ..)
  | abort => exact (abort_begin_keeps s).trans (cancelAll_keeps _)
  | stopCaching =>
    exact (begin_keeps (by simp) s).trans
      (Keeps.modify (fun st => { st with caching := false, payloads := [] }) rfl rfl (fun _ => ⟨rfl, rfl⟩) id id)
  | closeDestination b =>
    exact (begin_keeps (by simp) s).trans (Keeps.modify (fun st => { st with closeDestination := b }) rfl rfl id id id)

theorem step_keeps {s : Sys} (hi : HeaderInv cfg s) (i : Input) : Keeps s (step cfg s i) := by
  cases i with
  | call C => exact call_keeps cfg C s
  | header a =>
    show Keeps s (answerHeader cfg a s)
    unfold answerHeader
    split
    · rename_i hs hh
      refine getD_of (Keeps s) (.refl s) fun s' he => ?_
      have hp := hi.pending (by simp [hh])
      exact ((Keeps.setHeader _ _).trans (Keeps.emit (.answered _ _) (by simp) rfl fun _ => rfl)).trans
        (headerAnswered_keeps cfg he hp)
    · exact .refl s
  | answer i a =>
    show Keeps s (answer cfg i a s)
    unfold answer
    split
    · refine getD_of (Keeps s) (.refl s) fun s' he => ?_
      exact ((Keeps.setOps _ _).trans (Keeps.emit (.answered _ _) (by simp) rfl fun _ => rfl)).trans
        (resume_keeps cfg he)
    · exact .refl s

/-- `close()` leaves the stream closed, or failed if it found a recorded failure. -/
theorem call_close_shut (s : Sys) :
    (call cfg .close s).st.closed = true ∨ (call cfg .close s).st.check ≠ none := by
  show (close cfg s.next (s.begin .close)).st.closed = true ∨ (close cfg s.next (s.begin .close)).st.check ≠ none
  unfold close
  split
  · rename_i o ho
    exact .inr (by simp [ho])
  · split
    · exact .inl ‹_›
    · exact .inl ((flush_keeps cfg _ _ _).closed rfl)

theorem closeShut_step {s : Sys} {i : Input} (hk : Keeps s (step cfg s i)) (h : CloseShut s) :
    CloseShut (step cfg s i) := by
  rintro ⟨k, hck⟩
  obtain ⟨es, htr, hcalls⟩ := step_grows cfg s i
  rw [htr] at hck
  rcases List.mem_append.mp hck with hck | hck
  · exact (h ⟨k, hck⟩).imp hk.closed hk.failed
  · obtain ⟨C, rfl, he⟩ := hcalls _ hck rfl
    obtain ⟨-, rfl⟩ := Event.called.inj he
    exact call_close_shut cfg s

/-- What every reachable state satisfies. -/
structure RunInv (s : Sys) : Prop where
  header : HeaderInv cfg s
  seqCounted : SeqCounted s
  abortQuiet : AbortQuiet s
  closeShut : CloseShut s

theorem runInv_run (is : List Input) : RunInv cfg (run cfg (init cfg) is) := by
  refine run_induction cfg (RunInv cfg) (fun s i h => ?_) _ is ⟨headerInv_init cfg, rfl, ?_, ?_⟩
  · have hk := step_keeps cfg h.header i
    exact ⟨headerInv_step cfg i h.header, hk.seqCounted h.seqCounted, hk.abortQuiet h.abortQuiet,
      closeShut_step cfg hk h.closeShut⟩
  · refine ⟨by simp [init], fun pre e post ht ⟨k, hk⟩ => ?_⟩
    cases pre with
    | nil => simp at hk
    | cons x pre => simp [init] at ht
  · rintro ⟨k, hk⟩
    simp [init] at hk

/-! ### Every run -/

/-- Once `abort()` has been called, no slice is pushed onto the buffer, no chunk is asked of
`PayloadChunk$create`, neither the header nor a chunk is flushed to the sink, and no chunk is
counted as sent. -/
theorem abort_stops_progress (is : List Input) :
    Each (fun pre e => (∃ k, Event.called k .abort ∈ pre) → e.isProgress = false) (run cfg (init cfg) is).trace :=
  (runInv_run cfg is).abortQuiet.2

/-- Once `stopCaching()` has been called, `getPayloads()` is empty in every later state, whatever
calls and sink answers follow: no chunk created since is cached. -/
theorem stopCaching_empties_payloads (is is' : List Input) :
    getPayloads (run cfg (init cfg) (is ++ .call .stopCaching :: is')) = [] := by
  have hstop : (run cfg (init cfg) (is ++ [.call .stopCaching])).st.CacheOff := by
    rw [run_append]
    exact ⟨rfl, rfl⟩
  have hrun := run_induction cfg (fun s => HeaderInv cfg s ∧ s.st.CacheOff)
    (fun s i h => ⟨headerInv_step cfg i h.1, (step_keeps cfg h.1 i).cacheOff h.2⟩) _ is'
    ⟨headerInv_run cfg _, hstop⟩
  rw [← List.singleton_append, ← List.append_assoc, run_append]
  exact hrun.2.2

/-- A write on a closed or failed stream reports "already closed", or the recorded failure,
and changes nothing else. -/
theorem write_of_shut {s : Sys} (h : s.st.closed = true ∨ s.st.check ≠ none) (data : List UInt8) (off len : Int)
    (k : Nat) :
    ∃ o, write cfg data off len k s = s.deliver k o ∧
      (o = .error (.mslIoException "Message output stream already closed.") ∨ s.st.check = some o) := by
  unfold write
  split
  · exact ⟨_, rfl, .inr ‹_›⟩
  · rename_i hck
    simp only [h.resolve_right (not_not.mpr hck), if_true]
    exact ⟨_, rfl, .inl rfl⟩

/-- Once `close()` has been called, a write appends nothing: it reports that the stream is
already closed, or the abort, timeout or error the stream has recorded. -/
theorem write_after_close (is : List Input) (hk : ∃ k, Event.called k .close ∈ (run cfg (init cfg) is).trace)
    (data : List UInt8) (off len : Int) :
    let s := run cfg (init cfg) is
    ∃ o, step cfg s (.call (.write data off len)) = (s.begin (.write data off len)).deliver s.next o ∧
      (o = .error (.mslIoException "Message output stream already closed.") ∨ s.st.check = some o) :=
  write_of_shut cfg (s := (run cfg (init cfg) is).begin (.write data off len)) ((runInv_run cfg is).closeShut hk)
    data off len _

/-- A `close()` before the header is out, then `write([1], 0, 1)`. -/
theorem write_after_close_earlyClose :
    (∃ k, Event.called k .close ∈ (run sampleConfig (init sampleConfig) [.call .close]).trace) ∧
      let s := run sampleConfig (init sampleConfig) [.call .close]
      ∃ o, step sampleConfig s (.call (.write [1] 0 1)) = (s.begin (.write [1] 0 1)).deliver s.next o ∧
        (o = .error (.mslIoException "Message output stream already closed.") ∨ s.st.check = some o) :=
  have hk : ∃ k, Event.called k .close ∈ (run sampleConfig (init sampleConfig) [.call .close]).trace :=
    ⟨0, by decide⟩
  ⟨hk, write_after_close sampleConfig [.call .close] hk [1] 0 1⟩

end step

/-! ### The numbers of the chunks sent

`perform` numbers the chunk it asks for with `_payloadSequenceNumber`, which is then one more
than the chunks counted as sent (`SeqCounted`); the chunk travels unchanged through the task's
later stages until `chunkFlushed` counts it as sent.  So under any interleaving every chunk
counted as sent carries the number fixed when it was asked for (`ChunkNums`, proved for each
callback and then for `step`). -/

/-- Every chunk asked of `PayloadChunk$create` is numbered one more than the chunks counted as
sent before the request, and the chunk a suspended task waits on, like every chunk counted as
sent, was asked for before. -/
structure ChunkNums (s : Sys) : Prop where
  created : Each (fun pre e => ∀ c, e = .requested (.create c) →
    c.sequenceNumber = (sentChunks pre).length + 1) s.trace
  tasks : ∀ t ∈ s.ops, ∀ c, t.stage.chunk? = some c → Event.requested (.create c) ∈ s.trace
  sent : Each (fun pre e => ∀ c, e = .sent c → Event.requested (.create c) ∈ pre) s.trace

namespace ChunkNums

variable {s : Sys} (h : ChunkNums s)
include h

/-- An event that asks for no chunk and counts as sent only a chunk asked for. -/
theorem emit {e : Event} (hc : ∀ c, e ≠ .requested (.create c))
    (hs : ∀ c, e = .sent c → Event.requested (.create c) ∈ s.trace) : ChunkNums (s.emit e) :=
  ⟨h.created.concat fun c he => absurd he (hc c), fun t ht c hc' => by simp [h.tasks t ht c hc'],
    h.sent.concat hs⟩

theorem deliver (k : Nat) (o : Outcome) : ChunkNums (s.deliver k o) :=
  h.emit (by simp) (by simp)

theorem modify (f : Stream → Stream) : ChunkNums (s.modify f) := ⟨h.created, h.tasks, h.sent⟩

theorem setOps {ops : List Task} (hsub : ∀ t ∈ ops, t ∈ s.ops) : ChunkNums { s with ops := ops } :=
  ⟨h.created, fun t ht => h.tasks t (hsub t ht), h.sent⟩

/-- A task suspends on request `r`; a chunk asked for is numbered after the chunks sent. -/
theorem suspend (t : Task) (r : Request)
    (hr : ∀ c, r = .create c → c.sequenceNumber = (sentChunks s.trace).length + 1)
    (ht : ∀ c, t.stage.chunk? = some c → Event.requested (.create c) ∈ s.trace ++ [.requested r]) :
    ChunkNums (s.suspend t r) := by
  refine ⟨h.created.concat fun c he => hr c (Event.requested.inj he), fun u hu c hc => ?_,
    h.sent.concat fun c he => by cases he⟩
  rcases List.mem_append.mp hu with hu | hu
  · simp [h.tasks u hu c hc]
  · obtain rfl := List.mem_singleton.mp hu
    exact ht c hc

end ChunkNums

section chains

variable (cfg : Config)

theorem closeFlushed_chunkNums (k : Nat) (ok : Bool) {s : Sys} (h : ChunkNums s) :
    ChunkNums (closeFlushed k ok s) := by
  have hs : ∀ {x : Sys}, ChunkNums x → ChunkNums (x.suspend ⟨k, .close, .closeDestination⟩ .closeDestination) :=
    fun hx => hx.suspend _ _ (fun _ h => Request.noConfusion h) fun _ h => Option.noConfusion h
  unfold closeFlushed
  split <;> dsimp only <;> split
  all_goals first
    | exact (h.modify _).deliver _ _
    | exact h.deliver _ _
    | exact hs (h.modify _)
    | exact hs h

theorem flushDone_chunkNums (k : Nat) (c : Caller) (o : Outcome) {s : Sys} (h : ChunkNums s) :
    ChunkNums (flushDone k c o s) := by
  unfold flushDone compressionFlushed
  split
  · exact closeFlushed_chunkNums k _ h
  · split
    · exact (h.modify _).deliver _ _
    · exact h.deliver _ _
  · exact h.deliver _ _

theorem perform_chunkNums (k : Nat) (c : Caller) {s : Sys} (hseq : SeqCounted s) (h : ChunkNums s) :
    ChunkNums (perform cfg k c s) := by
  unfold perform
  repeat' split
  all_goals first
    | exact flushDone_chunkNums k c _ h
    | exact h.suspend _ _ (fun c hc => by rw [← Request.create.inj hc]; exact hseq)
        (by simp [Stage.chunk?])

theorem flush_chunkNums (k : Nat) (c : Caller) {s : Sys} (hseq : SeqCounted s) (h : ChunkNums s) :
    ChunkNums (flush cfg k c s) := by
  unfold flush
  split
  · exact perform_chunkNums cfg k c hseq h
  · exact h.suspend _ _ (by simp) (by simp [Stage.chunk?])

theorem ready_chunkNums {s : Sys} (hseq : SeqCounted s) (h : ChunkNums s) : ChunkNums (ready cfg s) := by
  have h1 := (h.modify fun st => { st with ready := true }).emit (e := .ready) (by simp) (by simp)
  unfold ready
  dsimp only
  split
  · rename_i t rest hw
    exact perform_chunkNums cfg _ _ (by simpa [SeqCounted, Event.sent?] using hseq)
      (h1.setOps fun u hu => (takeWaiter_perm hw).1.symm.subset (List.mem_cons_of_mem t hu))
  · exact h1

theorem cancelAll_chunkNums {s : Sys} (h : ChunkNums s) : ChunkNums (cancelAll s) := by
  have key : ∀ (ts : List Task) (s : Sys), ChunkNums s →
      ChunkNums (ts.foldl (fun s t => flushDone t.k t.caller (.result (.bool false)) s) s) := by
    intro ts
    induction ts with
    | nil => exact fun _ h => h
    | cons t ts ih => exact fun s h => ih _ (flushDone_chunkNums _ _ _ h)
  exact key _ _ (h.setOps fun t ht => List.mem_of_mem_filter ht)

theorem resume_chunkNums {t : Task} {a : Answer} {s s' : Sys} (hr : resume cfg t a s = some s')
    (ht : ∀ c, t.stage.chunk? = some c → Event.requested (.create c) ∈ s.trace) (h : ChunkNums s) :
    ChunkNums s' := by
  rcases resume_cases hr with ⟨o, rfl, -⟩ | ⟨c, hg, rfl⟩ | ⟨c, n, hg, rfl⟩ | ⟨c, ok, hg, rfl⟩ |
    ⟨-, ⟨ok, -, rfl⟩ | ⟨o, rfl, -⟩⟩
  · exact flushDone_chunkNums _ _ _ h
  · have hc := ht c (by simp [hg, Stage.chunk?])
    unfold created
    split
    · exact (h.modify _).suspend _ _ (by simp) (by simp [Stage.chunk?, hc])
    · exact h.suspend _ _ (by simp) (by simp [Stage.chunk?, hc])
  · have hc := ht c (by simp [hg, Stage.chunk?])
    unfold chunkWritten
    repeat' split
    all_goals first
      | exact flushDone_chunkNums _ _ _ h
      | exact h.suspend _ _ (by simp) (by simp [Stage.chunk?, hc])
  · have hc := ht c (by simp [hg, Stage.chunk?])
    unfold chunkFlushed
    repeat' split
    all_goals first
      | exact flushDone_chunkNums _ _ _ h
      | exact flushDone_chunkNums _ _ _ ((h.modify _).emit (by simp) fun c' he => by
          obtain rfl := Event.sent.inj he; exact hc)
  all_goals exact h.deliver _ _

theorem headerAnswered_chunkNums {hs : HeaderStage} {a : Answer} {s s' : Sys}
    (he : headerAnswered cfg hs a s = some s') (hseq : SeqCounted s) (h : ChunkNums s) : ChunkNums s' := by
  unfold headerAnswered at he
  split at he <;> simp only [Option.some.injEq, reduceCtorEq] at he <;> subst he
  all_goals repeat' split
  all_goals first
    | exact ready_chunkNums cfg hseq h
    | exact ready_chunkNums cfg hseq (h.modify _)
    | exact ({ h with } : ChunkNums { s with header := some .flush }).emit (by simp) (by simp)

end chains

section step

variable (cfg : Config)

theorem chunkNums_step {s : Sys} (hseq : SeqCounted s) (h : ChunkNums s) (i : Input) :
    ChunkNums (step cfg s i) := by
  cases i with
  | call C =>
    have hb : ChunkNums (s.begin C) :=
      (⟨h.created, h.tasks, h.sent⟩ : ChunkNums { s with next := s.next + 1 }).emit (by simp) (by simp)
    have hsb : SeqCounted (s.begin C) := by simpa [SeqCounted, Sys.begin, Event.sent?] using hseq
    cases C with
    | write data off len =>
      show ChunkNums (write cfg data off len s.next (s.begin _))
      rcases write_cases cfg data off len s.next (s.begin (.write data off len)) with ⟨o, hw, -⟩ |
        ⟨_, _, -, -, -, hw⟩ <;> rw [hw]
      · exact hb.deliver _ _
      · exact ((hb.modify _).emit (by simp) (by simp)).deliver _ _
    | flush => exact flush_chunkNums cfg _ _ hsb hb
    | close =>
      show ChunkNums (close cfg s.next (s.begin .close))
      unfold close
      repeat' split
      all_goals first | exact hb.deliver _ _ | exact flush_chunkNums cfg _ _ hsb (hb.modify _)
    | setCompressionAlgorithm a =>
      show ChunkNums (setCompressionAlgorithm cfg a s.next (s.begin _))
      unfold setCompressionAlgorithm
      repeat' split
      all_goals first | exact hb.deliver _ _ | exact flush_chunkNums cfg _ _ hsb hb
    | abort => exact cancelAll_chunkNums ((hb.modify _).emit (by simp) (by simp))
    | stopCaching => exact hb.modify fun st => { st with caching := false, payloads := [] }
    | closeDestination b => exact hb.modify fun st => { st with closeDestination := b }
  | header a =>
    show ChunkNums (answerHeader cfg a s)
    unfold answerHeader
    split
    · refine getD_of ChunkNums h fun s' he => headerAnswered_chunkNums cfg he
        (by simpa [SeqCounted, Event.sent?] using hseq) ?_
      exact (⟨h.created, h.tasks, h.sent⟩ : ChunkNums { s with header := none }).emit (by simp) (by simp)
    · exact h
  | answer i a =>
    show ChunkNums (answer cfg i a s)
    unfold answer
    split
    · rename_i t ht
      refine getD_of ChunkNums h fun s' he => resume_chunkNums cfg he (fun c hc => ?_) ?_
      · simp [h.tasks t (List.getElem?_mem ht) c hc]
      · exact (h.setOps fun u hu => List.mem_of_mem_eraseIdx hu).emit (by simp) (by simp)
    · exact h

theorem chunkNums_run (is : List Input) : ChunkNums (run cfg (init cfg) is) := by
  have h0 : (init cfg).trace = [] ++ [.requested .writeHeader] := rfl
  refine (run_induction cfg (fun s => HeaderInv cfg s ∧ SeqCounted s ∧ ChunkNums s)
    (fun s i h => ⟨headerInv_step cfg i h.1, (step_keeps cfg h.1 i).seqCounted h.2.1, chunkNums_step cfg h.2.1 h.2.2 i⟩)
    _ is ⟨headerInv_init cfg, rfl, ?_⟩).2.2
  exact ⟨h0 ▸ (Each.nil _).concat (by simp), by simp [init], h0 ▸ (Each.nil _).concat (by simp)⟩

/-- Under any interleaving, every chunk counted as sent was asked of `PayloadChunk$create`
before, and is numbered one more than the chunks counted as sent at that request. -/
theorem sent_chunk_numbered_at_request (is : List Input) :
    Each (fun pre e => ∀ c, e = .sent c → ∃ pre1 pre2, pre = pre1 ++ .requested (.create c) :: pre2 ∧
      c.sequenceNumber = (sentChunks pre1).length + 1) (run cfg (init cfg) is).trace := by
  have h := chunkNums_run cfg is
  intro pre e post ht c he
  obtain ⟨pre1, pre2, rfl⟩ := List.append_of_mem (h.sent pre e post ht c he)
  exact ⟨pre1, pre2, rfl, h.created pre1 _ (pre2 ++ e :: post) (by rw [ht]; simp) c rfl⟩

end step

end Msl.MessageOutputStream
