import Msl.Failures

/-! # Every operation is answered once, or still waits

`CallsInv` says that outcomes go only to operations and that no call is answered twice.  Its
converse is `Accounted`: every operation called so far has delivered its outcome or waits in a
suspended task, so no callback chain drops an operation without answering it.  Both hold of
every run from `init`, under any interleaving of calls, the header's answers and the answers
to suspended requests:

* `outcomes_answer_operations`: an outcome reaches only a call of `write`, `flush`, `close` or
  `setCompressionAlgorithm`, and each call at most once;
* `operation_answered_or_waiting`: each such call has delivered its outcome and has no
  suspended task, or has not and has exactly one;
* `failing_requests_settles_operations`: from every reachable state, failing the request of
  each suspended operation, first task first, leaves nothing suspended and every operation
  answered with an error, so no callback can be left waiting on a request whose
  answer the stream would ignore. -/

namespace Msl.MessageOutputStream

open Sys

/-- Every operation called in `t` has delivered its outcome or waits in a task of `ops`. -/
def Accounted (ops : List Task) (t : List Event) : Prop :=
  ∀ k c, Event.called k c ∈ t → c.isOperation → k ∈ deliveredIds t ∨ k ∈ ops.map Task.k

namespace Accounted

variable {ops : List Task} {t : List Event}

theorem perm {ops' : List Task} (h : Accounted ops t) (hp : ops.Perm ops') : Accounted ops' t :=
  fun k c hk hc => (h k c hk hc).imp_right (hp.map Task.k).mem_iff.mp

/-- Events that are not calls keep every operation accounted for. -/
theorem append_quiet (h : Accounted ops t) {es : List Event} (hc : ∀ e ∈ es, e.isCall = false) :
    Accounted ops (t ++ es) := fun k c hk hC =>
  (h k c (CallsInv.called_of_append hc hk) hC).imp_left fun hd => by simp [hd]

/-- The callback chain of call `k` accounts for `k`, when every other operation already was. -/
theorem settles {k : Nat} {c : Caller} {s s' : Sys} (hs : Settles k c s s')
    (h : ∀ k' C, Event.called k' C ∈ s.trace → C.isOperation →
      k' = k ∨ k' ∈ deliveredIds s.trace ∨ k' ∈ s.ops.map Task.k) :
    Accounted s'.ops s'.trace := by
  obtain ⟨-, -, es, htr, hc, hops⟩ := hs
  intro k' C hk' hC
  rw [htr] at hk' ⊢
  have hd : ∀ {j}, j ∈ deliveredIds s.trace → j ∈ deliveredIds (s.trace ++ es) := fun hj => by simp [hj]
  rcases hops with ⟨g, hops, -⟩ | ⟨hops, hdk⟩ <;> rw [hops] <;>
    rcases h k' C (CallsInv.called_of_append hc hk') hC with rfl | hk | hk
  · exact .inr (by simp)
  · exact .inl (hd hk)
  · exact .inr (by simp [hk])
  · exact .inl (by simp [hdk])
  · exact .inl (hd hk)
  · exact .inr hk

/-- The first task is the one whose chain runs next. -/
theorem uncons {u : Task} (h : Accounted (u :: ops) t) :
    ∀ k C, Event.called k C ∈ t → C.isOperation → k = u.k ∨ k ∈ deliveredIds t ∨ k ∈ ops.map Task.k :=
  fun k C hk hC => (h k C hk hC).elim (fun hd => .inr (.inl hd)) fun hm => (List.mem_cons.mp hm).imp_right .inr

/-- Resuming a suspended task keeps every operation accounted for. -/
theorem resume {u : Task} {s s' : Sys} (h : Accounted (u :: s.ops) s.trace)
    (hs : Settles u.k u.caller s s') : Accounted s'.ops s'.trace :=
  settles hs h.uncons

/-- A new call is the only operation not yet accounted for. -/
theorem begin {s : Sys} (h : Accounted s.ops s.trace) (c : Call) :
    ∀ k C, Event.called k C ∈ (s.begin c).trace → C.isOperation →
      (k = s.next ∧ C = c) ∨ k ∈ deliveredIds (s.begin c).trace ∨ k ∈ (s.begin c).ops.map Task.k := by
  intro k C hk hC
  simp only [Sys.begin, emit_trace, List.mem_append, List.mem_singleton, Event.called.injEq] at hk
  rcases hk with hk | ⟨rfl, rfl⟩
  · exact .inr ((h k C hk hC).imp_left fun hd => by simp [Sys.begin, hd])
  · exact .inl ⟨rfl, rfl⟩

/-- A call that is not an operation needs no outcome. -/
theorem begin_quiet {s : Sys} (h : Accounted s.ops s.trace) {c : Call} (hc : c.isOperation = false) :
    Accounted (s.begin c).ops (s.begin c).trace := fun k C hk hC =>
  (h.begin c k C hk hC).resolve_left fun ⟨_, hCc⟩ => by simp [hCc, hc] at hC

end Accounted

/-! ### Every step -/

section step

variable (cfg : Config)

theorem accounted_ready {s : Sys} (h : Accounted s.ops s.trace) :
    Accounted (ready cfg s).ops (ready cfg s).trace := by
  have h1 : Accounted s.ops (s.trace ++ [.ready]) := h.append_quiet (by simp [Event.isCall])
  unfold ready
  dsimp only
  split
  · rename_i t rest hw
    exact (h1.perm (takeWaiter_perm hw).1).resume (perform_settles ..)
  · exact h1

theorem accounted_cancelAll {s : Sys} (h : Accounted s.ops s.trace) :
    Accounted (cancelAll s).ops (cancelAll s).trace := by
  have key : ∀ (ps : List Task) (s : Sys), Accounted (ps ++ s.ops) s.trace →
      Accounted (ps.foldl (fun s t => flushDone t.k t.caller (.result (.bool false)) s) s).ops
        (ps.foldl (fun s t => flushDone t.k t.caller (.result (.bool false)) s) s).trace := by
    intro ps
    induction ps with
    | nil => exact fun s h => by simpa using h
    | cons t ps ih =>
      intro s h
      exact ih _ (Accounted.resume (s := { s with ops := ps ++ s.ops }) h
        ((flushDone_settles t.k t.caller _ s).prepend ps))
  exact key _ _ (h.perm (List.filter_append_perm _ _).symm)

theorem accounted_headerAnswered {hs : HeaderStage} {a : Answer} {s s' : Sys}
    (he : headerAnswered cfg hs a s = some s') (h : Accounted s.ops s.trace) :
    Accounted s'.ops s'.trace := by
  unfold headerAnswered at he
  split at he <;> simp only [Option.some.injEq, reduceCtorEq] at he <;> subst he
  · split
    · exact accounted_ready cfg h
    · split
      · exact accounted_ready cfg h
      · exact h.append_quiet (by simp [Event.isCall])
  · split <;> exact accounted_ready cfg h
  · exact accounted_ready cfg h
  · exact accounted_ready cfg h

theorem accounted_call (c : Call) {s : Sys} (h : Accounted s.ops s.trace) :
    Accounted (call cfg c s).ops (call cfg c s).trace := by
  have hop : ∀ k C, Event.called k C ∈ (s.begin c).trace → C.isOperation →
      k = s.next ∨ k ∈ deliveredIds (s.begin c).trace ∨ k ∈ (s.begin c).ops.map Task.k :=
    fun k C hk hC => (h.begin c k C hk hC).imp_left (·.1)
  cases c with
  | write data off len => exact Accounted.settles (write_settles ..).1 hop
  | flush => exact Accounted.settles (flush_settles ..) hop
  | close => exact Accounted.settles (close_settles ..) hop
  | setCompressionAlgorithm a => exact Accounted.settles (setCompressionAlgorithm_settles ..) hop
  | abort => exact accounted_cancelAll ((h.begin_quiet (c := .abort) rfl).append_quiet (by simp [Event.isCall]))
  | stopCaching => exact h.begin_quiet rfl
  | closeDestination b => exact h.begin_quiet rfl

theorem accounted_step {s : Sys} (i : Input) (h : Accounted s.ops s.trace) :
    Accounted (step cfg s i).ops (step cfg s i).trace := by
  cases i with
  | call c => exact accounted_call cfg c h
  | header a =>
    show Accounted (answerHeader cfg a s).ops (answerHeader cfg a s).trace
    unfold answerHeader
    split
    · refine getD_of (fun r => Accounted r.ops r.trace) h fun s' he => ?_
      exact accounted_headerAnswered cfg he (h.append_quiet (by simp [Event.isCall]))
    · exact h
  | answer i a =>
    show Accounted (answer cfg i a s).ops (answer cfg i a s).trace
    unfold answer
    split
    · rename_i t ht
      refine getD_of (fun r => Accounted r.ops r.trace) h fun s' he => ?_
      exact ((h.perm (perm_cons_eraseIdx ht)).append_quiet (by simp [Event.isCall])).resume
        (resume_settles cfg he)
    · exact h

theorem accounted_run (is : List Input) :
    Accounted (run cfg (init cfg) is).ops (run cfg (init cfg) is).trace :=
  run_induction cfg (fun s => Accounted s.ops s.trace) (fun _ i h => accounted_step cfg i h) _ is
    fun k c hk => by simp [init] at hk

/-! ### Every run -/

/-- Outcomes reach only operations, and each call at most once. -/
theorem outcomes_answer_operations (is : List Input) :
    let s := run cfg (init cfg) is
    (deliveredIds s.trace).Nodup ∧
      ∀ k o, Event.delivered k o ∈ s.trace → ∃ c, Event.called k c ∈ s.trace ∧ c.isOperation :=
  ⟨(callsInv_run cfg is).delivered_nodup, (callsInv_run cfg is).delivered_called⟩

/-- Each operation has delivered its outcome and has no suspended task, or has not and waits
in exactly one. -/
theorem operation_answered_or_waiting (is : List Input) {k : Nat} {c : Call}
    (hk : Event.called k c ∈ (run cfg (init cfg) is).trace) (hc : c.isOperation) :
    let s := run cfg (init cfg) is
    (k ∈ deliveredIds s.trace ∧ k ∉ s.ops.map Task.k) ∨
      (k ∉ deliveredIds s.trace ∧ (s.ops.map Task.k).count k = 1) := by
  have hi := callsInv_run cfg is
  rcases accounted_run cfg is k c hk hc with hd | hm
  · refine .inl ⟨hd, fun hm => ?_⟩
    obtain ⟨t, ht, rfl⟩ := List.mem_map.mp hm
    exact hi.ops_open t ht hd
  · refine .inr ⟨fun hd => ?_, List.count_eq_one_of_mem hi.ops_nodup hm⟩
    obtain ⟨t, ht, rfl⟩ := List.mem_map.mp hm
    exact hi.ops_open t ht hd

/-- A flush called before the header is out waits on the readiness queue. -/
theorem operation_answered_or_waiting_pendingFlush :
    Event.called 0 .flush ∈ (run sampleConfig (init sampleConfig) [.call .flush]).trace ∧
      Call.flush.isOperation ∧
      let s := run sampleConfig (init sampleConfig) [.call .flush]
      (0 ∈ deliveredIds s.trace ∧ 0 ∉ s.ops.map Task.k) ∨
        (0 ∉ deliveredIds s.trace ∧ (s.ops.map Task.k).count 0 = 1) :=
  have hk : Event.called 0 .flush ∈ (run sampleConfig (init sampleConfig) [.call .flush]).trace := by decide
  ⟨hk, rfl, operation_answered_or_waiting sampleConfig [.call .flush] hk rfl⟩

/-! ### Failing every request settles every operation -/

/-- A suspended request that fails hands its callback an error at once. -/
theorem resume_error (t : Task) (e : Exception) (s : Sys) :
    ∃ e', resume cfg t (.error e) s = some (s.deliver t.k (.error e')) := by
  obtain ⟨k, c, g⟩ := t
  cases g
  all_goals first
    | (refine ⟨e, ?_⟩; simp [resume, flushDone_of_failure, Outcome.IsFailure]; done)
    | (refine ⟨encodingError s.st.payloadSequenceNumber e, ?_⟩; simp [resume, flushDone_of_failure, Outcome.IsFailure])

/-- The request of the first suspended task fails: its callback receives an error, and the
task is gone. -/
theorem answer_error_head (e : Exception) {s : Sys} {t : Task} {rest : List Task}
    (hops : s.ops = t :: rest) :
    ∃ e', answer cfg 0 (.error e) s =
      ({ s with ops := rest }.emit (.answered t.stage.request (.error e))).deliver t.k (.error e') := by
  obtain ⟨e', he⟩ := resume_error cfg t e ({ s with ops := rest }.emit (.answered t.stage.request (.error e)))
  exact ⟨e', by simp [answer, hops, he]⟩

theorem run_fail_all (e : Exception) :
    ∀ (n : Nat) (s : Sys), s.ops.length = n → Accounted s.ops s.trace →
      let s' := run cfg s (List.replicate n (.answer 0 (.error e)))
      s'.ops = [] ∧ Accounted s'.ops s'.trace ∧
        ∃ es, s'.trace = s.trace ++ es ∧ ∀ k o, Event.delivered k o ∈ es → ∃ e', o = .error e'
  | 0, s, hn, h => ⟨List.length_eq_zero.mp hn, h, [], by simp [run], by simp⟩
  | n + 1, s, hn, h => by
    obtain ⟨t, rest, hops⟩ := List.exists_cons_of_length_eq_add_one hn
    obtain ⟨e', hs⟩ := answer_error_head cfg e hops
    have hlen : rest.length = n := by simpa [hops] using hn
    obtain ⟨hnil, hacc, es, htr, hes⟩ := run_fail_all e n (step cfg s (.answer 0 (.error e)))
      (by simp [step, hs, hlen]) (accounted_step cfg (.answer 0 (.error e)) h)
    refine ⟨hnil, hacc, .answered t.stage.request (.error e) :: .delivered t.k (.error e') :: es, ?_,
      fun k o hk => ?_⟩
    · rw [List.replicate_succ, run, htr, step, hs]
      simp
    simp only [List.mem_cons, Event.delivered.injEq, reduceCtorEq, false_or] at hk
    rcases hk with ⟨-, rfl⟩ | hk
    · exact ⟨e', rfl⟩
    · exact hes k o hk

/-- From every reachable state, failing the request of each suspended operation in turn, first
task first, answers every operation called so far, each pending one with an error, and leaves
nothing suspended. -/
theorem failing_requests_settles_operations (is : List Input) (e : Exception) :
    let s := run cfg (init cfg) is
    let s' := run cfg s (List.replicate s.ops.length (.answer 0 (.error e)))
    s'.ops = [] ∧ Idle s' ∧
      ∃ es, s'.trace = s.trace ++ es ∧ ∀ k o, Event.delivered k o ∈ es → ∃ e', o = .error e' := by
  obtain ⟨hnil, hacc, hes⟩ := run_fail_all cfg e _ _ rfl (accounted_run cfg is)
  refine ⟨hnil, fun k c hk hc => ?_, hes⟩
  rcases hacc k c hk hc with hd | hm
  · exact mem_deliveredIds.mp hd
  · simp [hnil] at hm

end step

end Msl.MessageOutputStream
