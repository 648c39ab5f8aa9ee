import Msl.Delivery

/-! # Failures, aborts and short writes

Three facts about what reaches the callbacks when the sink fails or the caller aborts.

* A failed header transmission is recorded in `_timedout` or `_errored`, so without an abort
  every later `write`, `flush` and `close` reports a timeout or an error at once, and nothing
  else (`header_failure_replayed`).  A failure of a chunk's write is only passed to the flush
  that made it: a `write` after it succeeds (`chunk_failure_not_replayed`).
* After `abort()`, a timeout or an error reaches an operation only as the error
  `setCompressionAlgorithm` reports when its flush returns false, or in the step that answers
  the request the operation itself waits on (the readiness queue's poll, the chunk encoder,
  the sink) with that timeout or error, which it passes on (`failure_after_abort_passes_answer`,
  from `AbortedChain`, proved for each callback).  Such answers do reach the operations: every
  operation suspended on the readiness queue or on the sink when its request times out
  receives the timeout, though `abort()` was called (`timeout_reaches_operation_after_abort`).
* The chunk path compares the sink's byte count with `chunk.length`, not with the length of
  the bytes it wrote, so a chunk whose `length` is undefined counts as sent after a write of no
  byte at all (`short_write_counted_as_sent`). -/

namespace Msl.MessageOutputStream

open Sys

variable (cfg : Config)

/-- The call an event records. -/
def Event.call? : Event → Option Call
  | .called _ c => some c
  | _ => none

theorem not_called_of_calls {t : List Event} {c : Call} (h : c ∉ t.filterMap Event.call?) (k : Nat) :
    Event.called k c ∉ t :=
  fun hk => h (List.mem_filterMap.mpr ⟨_, hk, rfl⟩)

/-! ### A failed header transmission is replayed -/

variable {cfg} in
/-- After a failed header transmission and no abort, the stream is ready and its flags hold a
timeout or an error. -/
theorem HeaderInv.failed_state {s : Sys} (hi : HeaderInv cfg s) (hf : HeaderFailed cfg s.trace)
    (hna : ∀ k, Event.called k .abort ∉ s.trace) :
    s.st.ready = true ∧ ∃ o, o.IsFailure ∧ s.st.check = some o := by
  have hab : s.st.aborted = false := by
    cases h : s.st.aborted
    · rfl
    · obtain ⟨k, hk⟩ := hi.aborted.mp h
      exact absurd hk (hna k)
  have hh : s.header = none := by
    by_contra hh
    simp [hi.aborted_of_failed hh hf] at hab
  refine ⟨hi.ready_iff.mpr hh, ?_⟩
  unfold Stream.check
  rcases hi.failed hf with ht | he | ha
  · exact ⟨.timeout, trivial, by simp [hab, ht]⟩
  · obtain ⟨e, he⟩ := Option.ne_none_iff_exists'.mp he
    cases ht : s.st.timedout
    · exact ⟨.error e, trivial, by simp [hab, ht, he]⟩
    · exact ⟨.timeout, trivial, by simp [hab, ht]⟩
  · simp [hab] at ha

/-- On a ready stream whose flags hold `o`, `write`, `flush` and `close` report `o` at once. -/
theorem call_of_check {s : Sys} {C : Call} (hC : C.checksFlags = true) (hr : s.st.ready = true)
    {o : Outcome} (ho : s.st.check = some o) : call cfg C s = (s.begin C).deliver s.next o := by
  cases C with
  | write => simp [call, write, begin, ho]
  | flush => simp [call, flush, perform, begin, hr, ho, flushDone]
  | close => simp [call, close, begin, ho]
  | _ => simp [Call.checksFlags] at hC

theorem header_failure_replayed (is : List Input)
    (hna : ∀ k, Event.called k .abort ∉ (run cfg (init cfg) is).trace)
    (hf : HeaderFailed cfg (run cfg (init cfg) is).trace) (C : Call) (hC : C.checksFlags = true) :
    let s := run cfg (init cfg) is
    ∃ o, o.IsFailure ∧ step cfg s (.call C) = (s.begin C).deliver s.next o ∧
      ∀ is' o', Event.delivered s.next o' ∈ (run cfg (init cfg) (is ++ .call C :: is')).trace →
        o' = o := by
  intro s
  obtain ⟨hr, o, hfo, ho⟩ := (headerInv_run cfg is).failed_state hf hna
  have hstep := call_of_check cfg hC hr ho
  refine ⟨o, hfo, hstep, fun is' o' hd => ?_⟩
  obtain ⟨es, hes⟩ := run_grows cfg (step cfg s (.call C)) is'
  have hmem : Event.delivered s.next o ∈ (run cfg (init cfg) (is ++ .call C :: is')).trace := by
    rw [run_append]
    show Event.delivered s.next o ∈ (run cfg (step cfg s (.call C)) is').trace
    rw [hes, show step cfg s (.call C) = call cfg C s from rfl, hstep]
    simp
  exact delivered_unique (callsInv_run cfg _).delivered_nodup hd hmem

/-- The header's write fails short. -/
def shortHeaderRun : List Input := [.header (.written 0)]

theorem header_failure_replayed_shortHeaderRun :
    (∀ k, Event.called k .abort ∉ (run sampleConfig (init sampleConfig) shortHeaderRun).trace) ∧
      HeaderFailed sampleConfig (run sampleConfig (init sampleConfig) shortHeaderRun).trace ∧
      Call.checksFlags .flush = true ∧
      let s := run sampleConfig (init sampleConfig) shortHeaderRun
      ∃ o, o.IsFailure ∧ step sampleConfig s (.call .flush) = (s.begin .flush).deliver s.next o ∧
        ∀ is' o', Event.delivered s.next o' ∈
          (run sampleConfig (init sampleConfig) (shortHeaderRun ++ .call .flush :: is')).trace →
          o' = o :=
  have hna := not_called_of_calls (by decide)
  have hf : HeaderFailed sampleConfig (run sampleConfig (init sampleConfig) shortHeaderRun).trace :=
    ⟨.writeHeader, .written 0, by decide, .inl rfl, by decide⟩
  ⟨hna, hf, rfl, header_failure_replayed sampleConfig shortHeaderRun hna hf .flush rfl⟩

/-- `write`, `flush` whose chunk write times out, then `write` again. -/
def chunkTimeoutRun : List Input :=
  [.header (.written 1), .header (.success true), .call (.write [1, 2, 3] 0 3), .call .flush,
    .answer 0 .chunk, .answer 0 .timeout, .call (.write [4] 0 1)]

/-- No abort, the sink times out the chunk's write, and the next `write` reports its count. -/
theorem chunk_failure_not_replayed :
    let s := run sampleConfig (init sampleConfig) chunkTimeoutRun
    (∀ k, Event.called k .abort ∉ s.trace) ∧
      s.trace.drop 12 = [.answered (.writeChunk ⟨1, 5, false, none, [1, 2, 3]⟩) .timeout,
        .delivered 1 .timeout, .called 2 (.write [4] 0 1), .appended [4] none,
        .delivered 2 (.result (.count 1))] :=
  ⟨not_called_of_calls (by decide), by decide⟩

/-! ### After `abort()` -/

/-- A callback chain run on an aborted stream: the stream stays aborted, the chain records no
call, and every outcome it delivers is one `AfterAbort` allows. -/
structure AbortedChain (s s' : Sys) : Prop where
  aborted : s'.st.aborted = true
  trace : ∃ es, s'.trace = s.trace ++ es ∧ (∀ e ∈ es, e.isCall = false) ∧
    ∀ k o, Event.delivered k o ∈ es → o.AfterAbort

namespace AbortedChain

variable {s s' s'' : Sys}

theorem refl (ha : s.st.aborted = true) : AbortedChain s s :=
  ⟨ha, [], by simp, by simp, by simp⟩

theorem trans (h1 : AbortedChain s s') (h2 : AbortedChain s' s'') : AbortedChain s s'' := by
  obtain ⟨-, es1, h1, hc1, hd1⟩ := h1
  obtain ⟨ha, es2, h2, hc2, hd2⟩ := h2
  refine ⟨ha, es1 ++ es2, by simp [h2, h1], fun e he => ?_, fun k o hk => ?_⟩
  · rcases List.mem_append.mp he with he | he
    · exact hc1 e he
    · exact hc2 e he
  · rcases List.mem_append.mp hk with hk | hk
    · exact hd1 k o hk
    · exact hd2 k o hk

/-- A chain may start by updating the stream, or its list of tasks, or the header's stage. -/
theorem of_modify {f : Stream → Stream} (h : AbortedChain (s.modify f) s') : AbortedChain s s' :=
  ⟨h.aborted, h.trace⟩

theorem of_ops {ops : List Task} (h : AbortedChain { s with ops := ops } s') : AbortedChain s s' :=
  ⟨h.aborted, h.trace⟩

theorem deliver (ha : s.st.aborted = true) (k : Nat) {o : Outcome} (ho : o.AfterAbort) :
    AbortedChain s (s.deliver k o) :=
  ⟨ha, [.delivered k o], rfl, by simp [Event.isCall], fun _ _ h => by
    obtain ⟨-, rfl⟩ := Event.delivered.inj (List.mem_singleton.mp h)
    exact ho⟩

theorem suspend (ha : s.st.aborted = true) (t : Task) (r : Request) :
    AbortedChain s (s.suspend t r) :=
  ⟨ha, [.requested r], rfl, by simp [Event.isCall], by simp⟩

theorem modify {f : Stream → Stream} (ha : (f s.st).aborted = true) : AbortedChain s (s.modify f) :=
  ⟨ha, [], by simp, by simp, by simp⟩

theorem emit (ha : s.st.aborted = true) {e : Event} (he : e.isCall = false)
    (hd : e.delivered? = none) : AbortedChain s (s.emit e) := by
  refine ⟨ha, [e], rfl, by simpa using he, fun k o hk => ?_⟩
  obtain rfl := List.mem_singleton.mp hk
  simp [Event.delivered?] at hd

end AbortedChain

theorem result_afterAbort (v : Value) : (Outcome.result v).AfterAbort := .inl id

section aborted

variable {s : Sys} (ha : s.st.aborted = true)
include ha

theorem closeFlushed_aborted (k : Nat) (ok : Bool) : AbortedChain s (closeFlushed k ok s) := by
  unfold closeFlushed
  split <;> dsimp only <;> split
  all_goals first
    | exact .suspend ha _ _
    | exact .deliver ha _ (result_afterAbort _)
    | exact (AbortedChain.suspend (by simpa using ha) _ _).of_modify
    | exact (AbortedChain.deliver (by simpa using ha) _ (result_afterAbort _)).of_modify

theorem compressionFlushed_aborted (a : Option CompressionAlgorithm) (k : Nat) (ok : Bool) :
    AbortedChain s (compressionFlushed a k ok s) := by
  unfold compressionFlushed
  split
  · exact (AbortedChain.deliver (by simpa using ha) _ (result_afterAbort _)).of_modify
  · exact .deliver ha _ (.inr rfl)

theorem flushDone_aborted (k : Nat) (c : Caller) {o : Outcome} (ho : o.AfterAbort) :
    AbortedChain s (flushDone k c o s) := by
  unfold flushDone
  split
  · exact closeFlushed_aborted ha k _
  · exact compressionFlushed_aborted ha _ k _
  · exact .deliver ha k ho

theorem perform_aborted (k : Nat) (c : Caller) : AbortedChain s (perform cfg k c s) := by
  have hc : s.st.check = some (.result (.bool false)) := by simp [Stream.check, ha]
  simp only [perform, hc]
  exact flushDone_aborted ha k c (result_afterAbort _)

theorem flush_aborted (k : Nat) (c : Caller) : AbortedChain s (flush cfg k c s) := by
  unfold flush
  split
  · exact perform_aborted cfg ha k c
  · exact .suspend ha _ _

theorem ready_aborted : AbortedChain s (ready cfg s) := by
  have h1 : AbortedChain s ((s.modify fun st => { st with ready := true }).emit .ready) :=
    (AbortedChain.emit (e := .ready) (by simpa using ha) rfl rfl).of_modify
  unfold ready
  dsimp only
  split
  · exact h1.trans (perform_aborted cfg (by simpa using ha) _ _).of_ops
  · exact h1

theorem cancelAll_aborted : AbortedChain s (cancelAll s) := by
  have key : ∀ (ts : List Task) (s : Sys), s.st.aborted = true →
      AbortedChain s (ts.foldl (fun s t => flushDone t.k t.caller (.result (.bool false)) s) s) := by
    intro ts
    induction ts with
    | nil => exact fun s ha => .refl ha
    | cons t ts ih =>
      intro s ha
      have h1 := flushDone_aborted ha t.k t.caller (result_afterAbort (.bool false))
      exact h1.trans (ih _ h1.aborted)
  unfold cancelAll
  exact (key _ _ (by simpa using ha)).of_ops

theorem created_aborted (t : Task) (ch : PayloadChunk) : AbortedChain s (created t ch s) := by
  unfold created
  split
  · exact (AbortedChain.suspend (by simpa using ha) _ _).of_modify
  · exact .suspend ha _ _

theorem chunkWritten_aborted (t : Task) (ch : PayloadChunk) (n : Nat) :
    AbortedChain s (chunkWritten cfg t ch n s) := by
  simp only [chunkWritten, ha, if_true]
  exact flushDone_aborted ha _ _ (result_afterAbort _)

theorem chunkFlushed_aborted (t : Task) (ch : PayloadChunk) (ok : Bool) :
    AbortedChain s (chunkFlushed t ch ok s) := by
  simp only [chunkFlushed, ha, if_true]
  exact flushDone_aborted ha _ _ (result_afterAbort _)

/-- On an aborted stream a task either runs an aborted chain or passes the sink's timeout or
error on at once. -/
theorem resume_aborted {t : Task} {a : Answer} {s' : Sys} (hr : resume cfg t a s = some s') :
    AbortedChain s s' ∨ ∃ o, s' = s.deliver t.k o ∧ a.PassesTo o := by
  rcases resume_cases hr with ⟨o, rfl, ho, hpass⟩ | ⟨c, -, rfl⟩ | ⟨c, n, -, rfl⟩ | ⟨c, ok, -, rfl⟩ |
    ⟨-, ⟨ok, -, rfl⟩ | ⟨o, rfl, -, hpass⟩⟩
  · exact .inr ⟨o, flushDone_of_failure ho, hpass⟩
  · exact .inl (created_aborted ha _ _)
  · exact .inl (chunkWritten_aborted cfg ha _ _ _)
  · exact .inl (chunkFlushed_aborted ha _ _ _)
  · exact .inl (.deliver ha _ (result_afterAbort _))
  · exact .inr ⟨o, rfl, hpass⟩

theorem headerAnswered_aborted {hs : HeaderStage} {a : Answer} {s' : Sys}
    (he : headerAnswered cfg hs a s = some s') : AbortedChain s s' := by
  unfold headerAnswered at he
  split at he <;> simp only [Option.some.injEq, reduceCtorEq] at he <;> subst he
  · simp only [ha, if_true]
    exact ready_aborted cfg ha
  · simp only [ha, if_true]
    exact ready_aborted cfg ha
  all_goals
    refine (ready_aborted cfg ?_).of_modify
    simpa using ha

end aborted

/-- `abort()` itself: every waiter reports false, or, for `setCompressionAlgorithm`, the
error of its aborted flush. -/
theorem abort_aborted (s : Sys) : AbortedChain (s.begin .abort) (call cfg .abort s) :=
  (AbortedChain.modify (f := fun st => { st with aborted := true }) rfl).trans
    ((AbortedChain.emit (e := .requested .abort) rfl rfl rfl).trans (cancelAll_aborted rfl))

/-- A call on an aborted stream, over a message header. -/
theorem call_aborted {s : Sys} (ha : s.st.aborted = true) {h : MessageHeader}
    (hm : cfg.getMessageHeader = some h) (C : Call) : AbortedChain (s.begin C) (call cfg C s) := by
  have hb : (s.begin C).st.aborted = true := ha
  have hc : (s.begin C).st.check = some (.result (.bool false)) := by simp [Stream.check, hb]
  cases C with
  | write =>
    simp only [call, write, hc]
    exact .deliver hb _ (result_afterAbort _)
  | flush => exact flush_aborted cfg hb _ _
  | close =>
    simp only [call, close, hc]
    exact .deliver hb _ (result_afterAbort _)
  | setCompressionAlgorithm a =>
    simp only [call, setCompressionAlgorithm, hm]
    repeat' split
    all_goals first
      | exact .deliver hb _ (result_afterAbort _)
      | exact flush_aborted cfg hb _ _
  | abort => exact abort_aborted cfg s
  | stopCaching => exact .modify (f := fun st => { st with caching := false, payloads := [] }) hb
  | closeDestination b => exact .modify (f := fun st => { st with closeDestination := b }) hb

/-- What one step delivers once `abort()` has been called, in that step or before, is a result,
the error of `setCompressionAlgorithm`'s aborted flush, or the timeout or error with which the
step answers the request of the operation's own suspended task. -/
theorem step_aborted_outcomes {h : MessageHeader} (hm : cfg.getMessageHeader = some h) {s : Sys}
    (hi : HeaderInv cfg s) (i : Input) (hab : ∃ j, Event.called j .abort ∈ (step cfg s i).trace)
    {es : List Event} (hes : (step cfg s i).trace = s.trace ++ es) {k : Nat} {o : Outcome}
    (hk : Event.delivered k o ∈ es) (ho : o.IsFailure) :
    o = .error (.mslIoException "flush() aborted") ∨
      ∃ j a t, i = .answer j a ∧ s.ops[j]? = some t ∧ t.k = k ∧ a.PassesTo o := by
  -- an aborted chain run after one recorded event delivers no other failure
  have chain : ∀ {x s' : Sys} (e : Event), x.trace = s.trace ++ [e] → AbortedChain x s' →
      s' = step cfg s i → (∀ o', e ≠ .delivered k o') → o = .error (.mslIoException "flush() aborted") := by
    rintro x s' e hx ⟨-, es', htr, -, hd⟩ rfl hne
    rw [hes, hx, List.append_assoc] at htr
    rw [List.append_cancel_left htr] at hk
    rcases List.mem_cons.mp hk with hk | hk
    · exact absurd hk.symm (hne o)
    · exact (hd k o hk).resolve_left (not_not.mpr ho)
  -- a step that changes nothing delivers nothing
  have idle : step cfg s i = s → False := fun h => by
    rw [h] at hes
    simp [List.self_eq_append_right.mp hes] at hk
  by_cases habort : i = .call .abort
  · subst habort
    exact .inl (chain (.called s.next .abort) (by simp [begin]) (abort_aborted cfg s) rfl (by simp))
  cases ha : s.st.aborted
  · -- the step records no abort call, so one was recorded before, and the stream is aborted
    exfalso
    obtain ⟨j, hj⟩ := hab
    obtain ⟨es0, htr0, hcalls⟩ := step_grows cfg s i
    rcases List.mem_append.mp (htr0 ▸ hj) with hj | hj
    · simp [hi.aborted.mpr ⟨j, hj⟩] at ha
    · obtain ⟨C, rfl, hC⟩ := hcalls _ hj rfl
      obtain ⟨-, rfl⟩ := Event.called.inj hC
      exact habort rfl
  · cases i with
    | call C => exact .inl (chain (.called s.next C) (by simp [begin]) (call_aborted cfg ha hm C) rfl (by simp))
    | header a =>
      have hstep : step cfg s (.header a) = answerHeader cfg a s := rfl
      unfold answerHeader at hstep
      split at hstep
      · rename_i hs _
        cases hr : headerAnswered cfg hs a ({ s with header := none }.emit (.answered hs.request a)) with
        | none => exact (idle (by rw [hstep, hr]; rfl)).elim
        | some s' =>
          rw [hr] at hstep
          exact .inl (chain (.answered hs.request a) (by simp) (headerAnswered_aborted cfg (by simpa using ha) hr)
            hstep.symm (by simp))
      · exact (idle hstep).elim
    | answer j a =>
      have hstep : step cfg s (.answer j a) = answer cfg j a s := rfl
      unfold answer at hstep
      split at hstep
      · rename_i t ht
        cases hr : resume cfg t a ({ s with ops := s.ops.eraseIdx j }.emit (.answered t.stage.request a)) with
        | none => exact (idle (by rw [hstep, hr]; rfl)).elim
        | some s' =>
          rw [hr] at hstep
          rcases resume_aborted cfg (by simpa using ha) hr with hc | ⟨o', rfl, hpass⟩
          · exact .inl (chain (.answered t.stage.request a) (by simp) hc hstep.symm (by simp))
          · rw [hstep] at hes
            simp only [Option.getD_some, deliver_eq, emit_trace, List.append_assoc, List.singleton_append,
              List.append_cancel_left_eq] at hes
            subst hes
            simp only [List.mem_cons, reduceCtorEq, Event.delivered.injEq, List.mem_singleton, false_or,
              List.not_mem_nil, or_false] at hk
            obtain ⟨rfl, rfl⟩ := hk
            exact .inr ⟨j, a, t, rfl, ht, rfl, hpass⟩
      · exact (idle hstep).elim

/-- After `abort()`, a timeout or an error reaches an operation only as the error
"flush() aborted" of `setCompressionAlgorithm`'s flush, or in the step that answers the request
of that operation's own suspended task (the readiness queue's poll, the chunk encoder, or the
sink's write, flush or close) with that timeout or error. -/
theorem failure_after_abort_passes_answer {h : MessageHeader} (hm : cfg.getMessageHeader = some h)
    (is : List Input) (i : Input) :
    let s := run cfg (init cfg) is
    (∃ j, Event.called j .abort ∈ (step cfg s i).trace) →
    ∀ es, (step cfg s i).trace = s.trace ++ es → ∀ k o, Event.delivered k o ∈ es → o.IsFailure →
      o = .error (.mslIoException "flush() aborted") ∨
        ∃ j a t, i = .answer j a ∧ s.ops[j]? = some t ∧ t.k = k ∧ a.PassesTo o :=
  fun hab _ hes _ _ hk ho => step_aborted_outcomes cfg hm (headerInv_run cfg is) i hab hes hk ho

/-- `write([1], 0, 1)`, `flush()`, the chunk is created, and `abort()`: the flush waits on the
sink's write of the chunk. -/
def abortingRun : List Input :=
  [.header (.written 1), .header (.success true), .call (.write [1] 0 1), .call .flush,
    .answer 0 .chunk, .call .abort]

/-- The sink times out the chunk's write after the abort. -/
theorem failure_after_abort_passes_answer_abortingRun :
    let s := run sampleConfig (init sampleConfig) abortingRun
    sampleConfig.getMessageHeader = some ⟨5, false⟩ ∧
      (∃ j, Event.called j .abort ∈ (step sampleConfig s (.answer 0 .timeout)).trace) ∧
      (step sampleConfig s (.answer 0 .timeout)).trace =
        s.trace ++ [.answered (.writeChunk ⟨1, 5, false, none, [1]⟩) .timeout, .delivered 1 .timeout] ∧
      (Outcome.timeout = .error (.mslIoException "flush() aborted") ∨
        ∃ j a t, Input.answer 0 .timeout = .answer j a ∧ s.ops[j]? = some t ∧ t.k = 1 ∧ a.PassesTo .timeout) :=
  have hab : ∃ j, Event.called j .abort ∈
      (step sampleConfig (run sampleConfig (init sampleConfig) abortingRun) (.answer 0 .timeout)).trace :=
    ⟨2, by decide⟩
  have hes : (step sampleConfig (run sampleConfig (init sampleConfig) abortingRun) (.answer 0 .timeout)).trace =
      (run sampleConfig (init sampleConfig) abortingRun).trace ++
        [.answered (.writeChunk ⟨1, 5, false, none, [1]⟩) .timeout, .delivered 1 .timeout] := by decide
  ⟨rfl, hab, hes, failure_after_abort_passes_answer sampleConfig rfl abortingRun _ hab _ hes 1 .timeout
    (by simp) trivial⟩

/-- Once `abort()` has been called, an operation suspended on the readiness queue or on the
sink, whose request times out, receives that timeout as its only outcome, where the
documentation of `flush` promises false once aborted. -/
theorem timeout_reaches_operation_after_abort (is : List Input) {j : Nat} {t : Task} :
    let s := run cfg (init cfg) is
    (∃ k, Event.called k .abort ∈ s.trace) → s.ops[j]? = some t → (∀ c, t.stage ≠ .create c) →
      t.k ∉ deliveredIds s.trace ∧ Event.delivered t.k .timeout ∈ (step cfg s (.answer j .timeout)).trace := by
  intro s _ ht hc
  refine ⟨(callsInv_run cfg is).ops_open t (List.getElem?_mem ht), ?_⟩
  show _ ∈ (answer cfg j .timeout s).trace
  obtain ⟨k, caller, g⟩ := t
  simp only [answer, ht]
  cases g with
  | create c => exact absurd rfl (hc c)
  | _ => simp [resume, flushDone_of_failure (o := .timeout) trivial]

theorem timeout_reaches_operation_after_abort_abortingRun :
    let s := run sampleConfig (init sampleConfig) abortingRun
    (∃ k, Event.called k .abort ∈ s.trace) ∧ s.ops[0]? = some ⟨1, .flush, .write ⟨1, 5, false, none, [1]⟩⟩ ∧
      (∀ c, Stage.write ⟨1, 5, false, none, [1]⟩ ≠ .create c) ∧
      1 ∉ deliveredIds s.trace ∧ Event.delivered 1 .timeout ∈ (step sampleConfig s (.answer 0 .timeout)).trace :=
  have hab : ∃ k, Event.called k .abort ∈ (run sampleConfig (init sampleConfig) abortingRun).trace := ⟨2, by decide⟩
  have ht : (run sampleConfig (init sampleConfig) abortingRun).ops[0]? =
      some ⟨1, .flush, .write ⟨1, 5, false, none, [1]⟩⟩ := by decide
  have hc : ∀ c, Stage.write ⟨1, 5, false, none, [1]⟩ ≠ .create c := fun _ h => Stage.noConfusion h
  ⟨hab, ht, hc, timeout_reaches_operation_after_abort sampleConfig abortingRun hab ht hc⟩

/-! ### A short write of a chunk -/

/-- `write([1, 2, 3], 0, 3)`, `flush()`, and the sink writes no byte of the chunk. -/
def shortChunkWriteRun : List Input :=
  [.header (.written 1), .header (.success true), .call (.write [1, 2, 3] 0 3), .call .flush,
    .answer 0 .chunk, .answer 0 (.written 0), .answer 0 (.success true)]

/-- The chunk's four bytes were not written, yet it is flushed, counted as sent and the flush
reports true; the header path reports a timeout for the same short write. -/
theorem short_write_counted_as_sent :
    (sampleConfig.payloadBytes ⟨1, 5, false, none, [1, 2, 3]⟩).length = 4 ∧
      (run sampleConfig (init sampleConfig) shortChunkWriteRun).trace.drop 12 =
        [.answered (.writeChunk ⟨1, 5, false, none, [1, 2, 3]⟩) (.written 0),
          .requested (.flushChunk ⟨1, 5, false, none, [1, 2, 3]⟩),
          .answered (.flushChunk ⟨1, 5, false, none, [1, 2, 3]⟩) (.success true),
          .sent ⟨1, 5, false, none, [1, 2, 3]⟩, .delivered 1 (.result (.bool true))] ∧
      (run sampleConfig (init sampleConfig) shortHeaderRun).st.timedout = true := by
  decide

end Msl.MessageOutputStream
