import Msl.Callbacks

/-! # The header gates the payload

`init` writes the header and flushes the sink; `ready()` runs once the transmission is over,
whatever its outcome, and a failed transmission is recorded in `_timedout` or `_errored`.
`HeaderInv` ties these together along every run: the answers to the header's two requests
(`HeaderLog`), the readiness flag and the `ready` event, the flags, and the chunk requests.
A chain of callbacks of an operation leaves all of it alone except that it may ask for
chunks, which it does only once the header write reported every byte and its flush reported
true (`Gated`, proved for each callback); `HeaderInv` then holds of every run
(`headerInv_run`). -/

namespace Msl.MessageOutputStream

open Sys

variable (cfg : Config)

/-- The answers to the header's requests. -/
def Event.headerAnswer? : Event → Option (Request × Answer)
  | .answered .writeHeader a => some (.writeHeader, a)
  | .answered .flushHeader a => some (.flushHeader, a)
  | _ => none

/-- The answers to the header's two requests, in order. -/
def headerAnswers (t : List Event) : List (Request × Answer) := t.filterMap Event.headerAnswer?

/-- The answers the header transmission can have received in each of its stages. -/
def HeaderLog : Option HeaderStage → List (Request × Answer) → Prop
  | some .write, l => l = []
  | some .flush, l => ∃ n, cfg.headerBytes.length ≤ n ∧ l = [(.writeHeader, .written n)]
  | none, l => (∃ a, l = [(.writeHeader, a)]) ∨
      ∃ n a, cfg.headerBytes.length ≤ n ∧ l = [(.writeHeader, .written n), (.flushHeader, a)]

/-- A request for a chunk, or for its write or flush. -/
def Event.isChunkRequest : Event → Bool
  | .requested (.create _) | .requested (.writeChunk _) | .requested (.flushChunk _) => true
  | _ => false

/-- A stage that waits on a chunk. -/
def Stage.isChunk : Stage → Bool
  | .create _ | .write _ | .flush _ => true
  | _ => false

/-- `abort()` was called before the header transmission was over. -/
def AbortedBeforeReady (t : List Event) : Prop :=
  ∃ pre k post, t = pre ++ Event.called k .abort :: post ∧ Event.ready ∉ pre

/-- Chunks may be asked for: the header's write reported every byte and its flush true, no
abort came before the transmission ended, and the header carries data. -/
def ChunkGate (t : List Event) : Prop :=
  HeaderOk cfg t ∧ ¬ AbortedBeforeReady t ∧ cfg.header.DataBearing

/-- An event that no callback chain of an operation records: a call, `ready()`, a request
or an answer of the header, or `abort()`'s abort of the destination. -/
def Event.isHeaderEvent : Event → Bool
  | .called .. | .ready => true
  | .requested .writeHeader | .requested .flushHeader | .requested .abort => true
  | .answered .writeHeader _ | .answered .flushHeader _ => true
  | _ => false

/-- What the header transmission says about the rest of the stream. -/
structure HeaderInv (s : Sys) : Prop where
  start : ∃ rest, s.trace = .requested .writeHeader :: rest
  log : HeaderLog cfg s.header (headerAnswers s.trace)
  ready_iff : s.st.ready = true ↔ s.header = none
  readyEvent_iff : Event.ready ∈ s.trace ↔ s.header = none
  pending : s.header ≠ none → s.st.timedout = false ∧ s.st.errored = none
  done : s.header = none →
    HeaderOk cfg s.trace ∨ s.st.timedout = true ∨ s.st.errored ≠ none ∨ s.st.aborted = true
  failed : HeaderFailed cfg s.trace →
    s.st.timedout = true ∨ s.st.errored ≠ none ∨ s.st.aborted = true
  aborted : s.st.aborted = true ↔ ∃ k, Event.called k .abort ∈ s.trace
  chunkTasks : ∀ t ∈ s.ops, t.stage.isChunk → ChunkGate cfg s.trace
  closeTasks : ∀ t ∈ s.ops, t.stage = .closeDestination → HeaderOk cfg s.trace ∨ s.st.aborted = true
  before : Before (HeaderOk cfg) (fun e => e.isChunkRequest) s.trace
  early : ∀ e ∈ s.trace, e.isChunkRequest →
    ¬ AbortedBeforeReady s.trace ∧ cfg.header.DataBearing

/-- A callback chain went from `s` to `s'`: it touched neither the header, nor the flags, nor
the header's events, and it asked for chunks, or suspended on one, only once the header was
out with no abort before it. -/
structure Gated (s s' : Sys) : Prop where
  header : s'.header = s.header
  ready : s'.st.ready = s.st.ready
  aborted : s'.st.aborted = s.st.aborted
  timedout : s'.st.timedout = s.st.timedout
  errored : s'.st.errored = s.st.errored
  trace : ∃ es, s'.trace = s.trace ++ es ∧ (∀ e ∈ es, e.isHeaderEvent = false) ∧
    ∀ e ∈ es, e.isChunkRequest → ChunkGate cfg s.trace
  ops : ∀ t ∈ s'.ops, t ∈ s.ops ∨
    ((t.stage.isChunk → ChunkGate cfg s.trace) ∧
      (t.stage = .closeDestination → HeaderOk cfg s.trace ∨ s.st.aborted = true))

theorem AbortedBeforeReady.abortCalled {t : List Event} (h : AbortedBeforeReady t) :
    ∃ k, Event.called k .abort ∈ t := by
  obtain ⟨pre, k, post, rfl, -⟩ := h
  exact ⟨k, by simp⟩

/-! ### Events a callback chain does not record -/

section quiet

variable {t es : List Event}

theorem headerAnswer?_eq_none {e : Event} (he : e.isHeaderEvent = false) : e.headerAnswer? = none := by
  rcases e with _ | r | r | _ | _ | _ | _ <;> try rfl
  cases r <;> simp_all [Event.isHeaderEvent, Event.headerAnswer?]

theorem headerAnswers_append_quiet (hes : ∀ e ∈ es, e.isHeaderEvent = false) :
    headerAnswers (t ++ es) = headerAnswers t := by
  simp only [headerAnswers, List.filterMap_append, List.append_right_eq_self]
  exact List.filterMap_eq_nil_iff.mpr fun e he => headerAnswer?_eq_none (hes e he)

theorem mem_append_quiet {e : Event} (hes : ∀ e ∈ es, e.isHeaderEvent = false)
    (he : e.isHeaderEvent = true) : e ∈ t ++ es ↔ e ∈ t :=
  ⟨fun h => (List.mem_append.mp h).resolve_right fun h' => by simp [hes e h'] at he,
    List.mem_append_left es⟩

theorem headerOk_append_quiet (hes : ∀ e ∈ es, e.isHeaderEvent = false) :
    HeaderOk cfg (t ++ es) ↔ HeaderOk cfg t := by
  have hw : ∀ a, Event.answered .writeHeader a ∈ t ++ es ↔ _ := fun a => mem_append_quiet hes rfl
  simp only [HeaderOk, hw, mem_append_quiet hes (rfl : (Event.answered .flushHeader _).isHeaderEvent = _)]

theorem headerFailed_append_quiet (hes : ∀ e ∈ es, e.isHeaderEvent = false) :
    HeaderFailed cfg (t ++ es) ↔ HeaderFailed cfg t := by
  unfold HeaderFailed
  constructor
  · rintro ⟨r, a, hm, hr, hf⟩
    refine ⟨r, a, ?_, hr, hf⟩
    rcases hr with rfl | rfl
    · exact (mem_append_quiet hes (rfl : (Event.answered .writeHeader a).isHeaderEvent = _)).mp hm
    · exact (mem_append_quiet hes (rfl : (Event.answered .flushHeader a).isHeaderEvent = _)).mp hm
  · rintro ⟨r, a, hm, hr, hf⟩
    exact ⟨r, a, List.mem_append_left _ hm, hr, hf⟩

theorem abortedBeforeReady_append (hes : ∀ e ∈ es, ∀ k, e ≠ Event.called k .abort) :
    AbortedBeforeReady (t ++ es) ↔ AbortedBeforeReady t := by
  constructor
  · rintro ⟨pre, k, post, heq, hr⟩
    rcases List.append_eq_append_iff.mp heq with ⟨a, rfl, ha⟩ | ⟨c, rfl, hc⟩
    · exact absurd rfl (hes _ (ha ▸ List.mem_append_right a (List.mem_cons_self _ _)) k)
    · cases c with
      | nil =>
        simp only [List.nil_append] at hc
        exact absurd rfl (hes _ (hc ▸ List.mem_cons_self _ _) k)
      | cons x c =>
        obtain ⟨rfl, -⟩ := List.cons.inj hc
        exact ⟨pre, k, c, rfl, hr⟩
  · rintro ⟨pre, k, post, rfl, hr⟩
    exact ⟨pre, k, post ++ es, by simp, hr⟩

theorem abortedBeforeReady_append_quiet (hes : ∀ e ∈ es, e.isHeaderEvent = false) :
    AbortedBeforeReady (t ++ es) ↔ AbortedBeforeReady t :=
  abortedBeforeReady_append fun e he k hk => by simpa [hk, Event.isHeaderEvent] using hes e he

theorem chunkGate_append_quiet (hes : ∀ e ∈ es, e.isHeaderEvent = false) :
    ChunkGate cfg (t ++ es) ↔ ChunkGate cfg t := by
  rw [ChunkGate, ChunkGate, headerOk_append_quiet cfg hes, abortedBeforeReady_append_quiet hes]

theorem abortCalled_append_quiet (hes : ∀ e ∈ es, e.isHeaderEvent = false) :
    (∃ k, Event.called k .abort ∈ t ++ es) ↔ ∃ k, Event.called k .abort ∈ t := by
  simp only [mem_append_quiet hes (rfl : (Event.called _ Call.abort).isHeaderEvent = _)]

end quiet

/-! ### Callback chains are gated -/

namespace Gated

variable {cfg} {s s' s'' : Sys}

theorem chunkGate_iff (h : Gated cfg s s') : ChunkGate cfg s'.trace ↔ ChunkGate cfg s.trace := by
  obtain ⟨es, htr, hq, -⟩ := h.trace
  rw [htr, chunkGate_append_quiet cfg hq]

theorem headerOk_iff (h : Gated cfg s s') : HeaderOk cfg s'.trace ↔ HeaderOk cfg s.trace := by
  obtain ⟨es, htr, hq, -⟩ := h.trace
  rw [htr, headerOk_append_quiet cfg hq]

theorem refl (s : Sys) : Gated cfg s s :=
  ⟨rfl, rfl, rfl, rfl, rfl, ⟨[], by simp, by simp, by simp⟩, fun t ht => .inl ht⟩

theorem trans (h1 : Gated cfg s s') (h2 : Gated cfg s' s'') : Gated cfg s s'' := by
  obtain ⟨es, htr, hq, hc⟩ := h1.trace
  obtain ⟨es', htr', hq', hc'⟩ := h2.trace
  refine ⟨h2.header.trans h1.header, h2.ready.trans h1.ready, h2.aborted.trans h1.aborted,
    h2.timedout.trans h1.timedout, h2.errored.trans h1.errored, ⟨es ++ es', by simp [htr', htr], ?_, ?_⟩, ?_⟩
  · intro e he
    rcases List.mem_append.mp he with he | he
    · exact hq e he
    · exact hq' e he
  · intro e he hce
    rcases List.mem_append.mp he with he | he
    · exact hc e he hce
    · exact h1.chunkGate_iff.mp (hc' e he hce)
  · intro t ht
    rcases h2.ops t ht with ht | ⟨hk, hd⟩
    · exact h1.ops t ht
    · rw [h1.chunkGate_iff, h1.headerOk_iff, h1.aborted] at *
      exact .inr ⟨hk, hd⟩

/-- Dropping suspended operations. -/
theorem dropOps (s : Sys) {ops : List Task} (h : ∀ t ∈ ops, t ∈ s.ops) : Gated cfg s { s with ops := ops } :=
  ⟨rfl, rfl, rfl, rfl, rfl, ⟨[], by simp, by simp, by simp⟩, fun t ht => .inl (h t ht)⟩

theorem deliver (s : Sys) (k : Nat) (o : Outcome) : Gated cfg s (s.deliver k o) :=
  ⟨rfl, rfl, rfl, rfl, rfl, ⟨_, rfl, by simp [Event.isHeaderEvent], by simp [Event.isChunkRequest]⟩,
    fun t ht => .inl ht⟩

/-- Updating the stream's data, not its flags. -/
theorem modify (s : Sys) {f : Stream → Stream} (hr : (f s.st).ready = s.st.ready)
    (ha : (f s.st).aborted = s.st.aborted) (ht : (f s.st).timedout = s.st.timedout)
    (he : (f s.st).errored = s.st.errored) : Gated cfg s (s.modify f) :=
  ⟨rfl, hr, ha, ht, he, ⟨[], by simp, by simp, by simp⟩, fun t ht => .inl ht⟩

theorem emit (s : Sys) (e : Event) (he : e.isHeaderEvent = false) (hc : e.isChunkRequest = false) :
    Gated cfg s (s.emit e) :=
  ⟨rfl, rfl, rfl, rfl, rfl, ⟨[e], rfl, by simp [he], by simp [hc]⟩, fun t ht => .inl ht⟩

theorem suspend (s : Sys) (t : Task) (hc : t.stage.isChunk → ChunkGate cfg s.trace)
    (hd : t.stage = .closeDestination → HeaderOk cfg s.trace ∨ s.st.aborted = true) :
    Gated cfg s (s.suspend t t.stage.request) := by
  refine ⟨rfl, rfl, rfl, rfl, rfl, ⟨_, rfl, ?_, ?_⟩, ?_⟩
  · rcases t with ⟨_, _, _ | _ | _ | _ | _⟩ <;> simp [Stage.request, Event.isHeaderEvent]
  · simp only [List.mem_singleton, forall_eq]
    intro h
    apply hc
    rcases t with ⟨_, _, _ | _ | _ | _ | _⟩ <;> simp_all [Stage.request, Event.isChunkRequest, Stage.isChunk]
  · intro u hu
    rcases List.mem_append.mp hu with hu | hu
    · exact .inl hu
    · obtain rfl := List.mem_singleton.mp hu
      exact .inr ⟨hc, hd⟩

end Gated

theorem closeFlushed_gated (k : Nat) (ok : Bool) (s : Sys)
    (h : HeaderOk cfg s.trace ∨ s.st.aborted = true) : Gated cfg s (closeFlushed k ok s) := by
  have hd : ∀ s0 : Sys, s0.trace = s.trace → s0.st.aborted = s.st.aborted →
      Gated cfg s0 (if s0.st.closeDestination = true then
        s0.suspend ⟨k, .close, .closeDestination⟩ .closeDestination
        else s0.deliver k (.result (.bool ok))) := by
    intro s0 ht ha
    split
    · exact Gated.suspend s0 ⟨k, .close, .closeDestination⟩ (by simp [Stage.isChunk])
        fun _ => ht ▸ ha ▸ h
    · exact Gated.deliver s0 k _
  unfold closeFlushed
  split
  · exact (Gated.modify s rfl rfl rfl rfl).trans (hd _ rfl rfl)
  · exact hd s rfl rfl

theorem compressionFlushed_gated (a : Option CompressionAlgorithm) (k : Nat) (ok : Bool) (s : Sys) :
    Gated cfg s (compressionFlushed a k ok s) := by
  unfold compressionFlushed
  split
  · exact (Gated.modify s rfl rfl rfl rfl).trans (Gated.deliver _ k _)
  · exact Gated.deliver s k _

/-- A flush callback; a result reaches `close` only once the header is out or after an
abort. -/
theorem flushDone_gated (k : Nat) (c : Caller) (o : Outcome) (s : Sys)
    (h : ∀ v, o = .result v → HeaderOk cfg s.trace ∨ s.st.aborted = true) :
    Gated cfg s (flushDone k c o s) := by
  unfold flushDone
  split
  · exact closeFlushed_gated cfg k _ s (h _ rfl)
  · exact compressionFlushed_gated cfg _ k _ s
  · exact Gated.deliver s k o

theorem Stream.check_eq_none {st : Stream} (h : st.check = none) :
    st.aborted = false ∧ st.timedout = false ∧ st.errored = none := by
  unfold Stream.check at h
  split at h
  · cases h
  · split at h
    · cases h
    · exact ⟨by simpa using ‹¬st.aborted = true›, by simpa using ‹¬st.timedout = true›,
        Option.map_eq_none'.mp h⟩

theorem Stream.check_eq_some {st : Stream} {o : Outcome} (h : st.check = some o) :
    (st.aborted = true ∧ o = .result (.bool false)) ∨ o.IsFailure := by
  unfold Stream.check at h
  split at h
  · exact .inl ⟨‹_›, (Option.some.inj h).symm⟩
  · split at h
    · cases h
      exact .inr trivial
    · obtain ⟨e, -, rfl⟩ := Option.map_eq_some'.mp h
      exact .inr trivial

/-- `perform` runs once the header is out. -/
theorem perform_gated (k : Nat) (c : Caller) {s : Sys} (hi : HeaderInv cfg s)
    (hr : s.header = none) : Gated cfg s (perform cfg k c s) := by
  unfold perform
  split
  · rename_i o ho
    refine flushDone_gated cfg k c o s fun v hv => ?_
    rcases Stream.check_eq_some ho with ⟨ha, -⟩ | hf
    · exact .inr ha
    · subst hv
      exact hf.elim
  · rename_i ho
    obtain ⟨ha, ht, he⟩ := Stream.check_eq_none ho
    have hok : HeaderOk cfg s.trace := by
      rcases hi.done hr with h | h | h | h
      · exact h
      all_goals simp_all
    have habr : ¬ AbortedBeforeReady s.trace := fun h => by simp [hi.aborted.mpr h.abortCalled] at ha
    repeat' split
    all_goals first
      | exact flushDone_gated cfg k c _ s fun _ _ => .inl hok
      | exact Gated.suspend s _ (fun _ => ⟨hok, habr, cfg.dataBearing_of ‹_› ‹_›⟩) (by simp)

theorem flush_gated (k : Nat) (c : Caller) {s : Sys} (hi : HeaderInv cfg s) :
    Gated cfg s (flush cfg k c s) := by
  unfold flush
  split
  · exact perform_gated cfg k c hi (hi.ready_iff.mp ‹_›)
  · exact Gated.suspend s ⟨k, c, .poll⟩ (by simp [Stage.isChunk]) (by simp)

section chunk

variable {t : Task} {s : Sys} (hg : ChunkGate cfg s.trace)
include hg

theorem created_gated (ch : PayloadChunk) : Gated cfg s (created t ch s) := by
  have hw : ∀ s0 : Sys, s0.trace = s.trace →
      Gated cfg s0 (s0.suspend ⟨t.k, t.caller, .write ch⟩ (.writeChunk ch)) := fun s0 ht =>
    Gated.suspend s0 ⟨t.k, t.caller, .write ch⟩ (fun _ => ht ▸ hg) (by simp)
  unfold created
  split
  · exact (Gated.modify s rfl rfl rfl rfl).trans (hw _ rfl)
  · exact hw s rfl

theorem chunkWritten_gated (ch : PayloadChunk) (n : Nat) : Gated cfg s (chunkWritten cfg t ch n s) := by
  unfold chunkWritten
  repeat' split
  all_goals first
    | exact flushDone_gated cfg _ _ _ s fun _ _ => .inl hg.1
    | exact Gated.suspend s ⟨t.k, t.caller, .flush ch⟩ (fun _ => hg) (by simp)

theorem chunkFlushed_gated (ch : PayloadChunk) (ok : Bool) : Gated cfg s (chunkFlushed t ch ok s) := by
  unfold chunkFlushed
  repeat' split
  · exact flushDone_gated cfg _ _ _ s fun _ _ => .inl hg.1
  · exact flushDone_gated cfg _ _ _ s fun _ _ => .inl hg.1
  · exact ((Gated.modify s rfl rfl rfl rfl).trans (Gated.emit _ (.sent ch) rfl rfl)).trans
      (flushDone_gated cfg _ _ _ _ fun _ _ => .inl (hg.1.append cfg [.sent ch]))

end chunk

theorem resume_gated {t : Task} {a : Answer} {s s' : Sys}
    (ht : t.stage.isChunk → ChunkGate cfg s.trace) (h : resume cfg t a s = some s') : Gated cfg s s' := by
  rcases resume_cases h with ⟨o, rfl, ho, -⟩ | ⟨c, hst, rfl⟩ | ⟨c, n, hst, rfl⟩ | ⟨c, ok, hst, rfl⟩ |
    ⟨-, ⟨ok, -, rfl⟩ | ⟨o, rfl, -⟩⟩
  · exact flushDone_gated cfg _ _ _ s fun v hv => absurd hv (ho.ne_result v)
  · exact created_gated cfg (ht (by simp [hst, Stage.isChunk])) _
  · exact chunkWritten_gated cfg (ht (by simp [hst, Stage.isChunk])) _ _
  · exact chunkFlushed_gated cfg (ht (by simp [hst, Stage.isChunk])) _ _
  all_goals exact Gated.deliver s _ _

/-! ### The invariant along a run -/

variable {cfg} in
theorem HeaderInv.gated {s s' : Sys} (hi : HeaderInv cfg s) (hg : Gated cfg s s') :
    HeaderInv cfg s' := by
  obtain ⟨es, htr, hq, hc⟩ := hg.trace
  have habr := abortedBeforeReady_append_quiet (t := s.trace) hq
  rw [← htr] at habr
  constructor
  · obtain ⟨rest, h⟩ := hi.start
    exact ⟨rest ++ es, by rw [htr, h, List.cons_append]⟩
  · rw [hg.header, htr, headerAnswers_append_quiet hq]
    exact hi.log
  · rw [hg.ready, hg.header]
    exact hi.ready_iff
  · rw [htr, mem_append_quiet hq (rfl : Event.ready.isHeaderEvent = _), hg.header]
    exact hi.readyEvent_iff
  · rw [hg.header, hg.timedout, hg.errored]
    exact hi.pending
  · rw [hg.header, hg.timedout, hg.errored, hg.aborted, hg.headerOk_iff]
    exact hi.done
  · rw [hg.timedout, hg.errored, hg.aborted, htr, headerFailed_append_quiet cfg hq]
    exact hi.failed
  · rw [hg.aborted, htr, abortCalled_append_quiet hq]
    exact hi.aborted
  · intro t ht hck
    rw [hg.chunkGate_iff]
    rcases hg.ops t ht with ht | ⟨h, -⟩
    · exact hi.chunkTasks t ht hck
    · exact h hck
  · intro t ht hcd
    rw [hg.headerOk_iff, hg.aborted]
    rcases hg.ops t ht with ht | ⟨-, h⟩
    · exact hi.closeTasks t ht hcd
    · exact h hcd
  · rw [htr]
    exact hi.before.append (fun u v h => h.append cfg v) fun e he hce => (hc e he hce).1
  · rw [habr]
    intro e he hce
    rw [htr] at he
    rcases List.mem_append.mp he with he | he
    · exact hi.early e he hce
    · exact (hc e he hce).2

/-! ### What the header's answers say -/

theorem headerAnswer?_eq_some {e : Event} {r : Request} {a : Answer} :
    e.headerAnswer? = some (r, a) ↔ e = .answered r a ∧ (r = .writeHeader ∨ r = .flushHeader) := by
  constructor
  · intro h
    rcases e with _ | _ | ⟨_ | _, a'⟩ | _ | _ | _ | _ <;> simp [Event.headerAnswer?] at h
    all_goals obtain ⟨rfl, rfl⟩ := h; simp
  · rintro ⟨rfl, rfl | rfl⟩ <;> rfl

theorem mem_headerAnswers {t : List Event} {r : Request} {a : Answer} :
    (r, a) ∈ headerAnswers t ↔ Event.answered r a ∈ t ∧ (r = .writeHeader ∨ r = .flushHeader) := by
  simp only [headerAnswers, List.mem_filterMap, headerAnswer?_eq_some]
  constructor
  · rintro ⟨e, he, rfl, hr⟩
    exact ⟨he, hr⟩
  · rintro ⟨he, hr⟩
    exact ⟨_, he, rfl, hr⟩

theorem headerFailed_append {t u : List Event} :
    HeaderFailed cfg (t ++ u) ↔ HeaderFailed cfg t ∨ HeaderFailed cfg u := by
  simp only [HeaderFailed, List.mem_append, or_and_right, exists_or]

theorem HeaderLog.answered {hs : HeaderStage} {l : List (Request × Answer)}
    (h : HeaderLog cfg (some hs) l) (a : Answer) : HeaderLog cfg none (l ++ [(hs.request, a)]) := by
  cases hs with
  | write => exact .inl ⟨a, by rw [show l = [] from h]; rfl⟩
  | flush =>
    obtain ⟨n, hn, rfl⟩ := h
    exact .inr ⟨n, a, hn, rfl⟩

theorem HeaderLog.flush_not_mem {hs : HeaderStage} {l : List (Request × Answer)}
    (h : HeaderLog cfg (some hs) l) (a : Answer) : (.flushHeader, a) ∉ l := by
  cases hs with
  | write => simp [show l = [] from h]
  | flush =>
    obtain ⟨n, -, rfl⟩ := h
    simp

namespace HeaderInv

variable {cfg} {s : Sys} (hi : HeaderInv cfg s)
include hi

theorem header_eq_none (hok : HeaderOk cfg s.trace) : s.header = none := by
  cases hh : s.header with
  | none => rfl
  | some hs =>
    have hl := hi.log
    rw [hh] at hl
    exact absurd (mem_headerAnswers.mpr ⟨hok.2, .inr rfl⟩) (hl.flush_not_mem cfg _)

theorem ready_mem (hok : HeaderOk cfg s.trace) : Event.ready ∈ s.trace :=
  hi.readyEvent_iff.mpr (hi.header_eq_none hok)

/-- The header's write and flush cannot both succeed and one of them fail. -/
theorem not_failed (hok : HeaderOk cfg s.trace) : ¬ HeaderFailed cfg s.trace := by
  have hl := hi.log
  rw [hi.header_eq_none hok] at hl
  obtain ⟨⟨n, hn, hw⟩, hf⟩ := hok
  rintro ⟨r, a, hm, hr, hfail⟩
  have hw' := mem_headerAnswers.mpr ⟨hw, .inl rfl⟩
  have hf' := mem_headerAnswers.mpr ⟨hf, .inr rfl⟩
  have hm' := mem_headerAnswers.mpr ⟨hm, hr⟩
  rcases hl with ⟨a', hl⟩ | ⟨n', a', -, hl⟩ <;> rw [hl] at hw' hf' hm'
  · simp at hf'
  · simp only [List.mem_cons, Prod.mk.injEq, Answer.written.injEq, reduceCtorEq, and_false,
      false_and, List.mem_singleton, true_and, false_or, or_false, List.not_mem_nil] at hw' hf' hm'
    rcases hm' with ⟨rfl, rfl⟩ | ⟨rfl, rfl⟩
    · simp only [Answer.Fails] at hfail
      omega
    · simp [← hf', Answer.Fails] at hfail

theorem aborted_of_failed (hh : s.header ≠ none) (hf : HeaderFailed cfg s.trace) :
    s.st.aborted = true := by
  obtain ⟨ht, he⟩ := hi.pending hh
  rcases hi.failed hf with h | h | h
  · simp [ht] at h
  · simp [he] at h
  · exact h

theorem written_of_flush (hh : s.header = some .flush) :
    ∃ n, cfg.headerBytes.length ≤ n ∧ Event.answered .writeHeader (.written n) ∈ s.trace := by
  have hl := hi.log
  rw [hh] at hl
  obtain ⟨n, hn, hl⟩ := hl
  exact ⟨n, hn, (mem_headerAnswers.mp (hl ▸ List.mem_singleton_self _)).1⟩

end HeaderInv

theorem abortedBeforeReady_append_of_ready {t es : List Event} (hr : Event.ready ∈ t) :
    AbortedBeforeReady (t ++ es) ↔ AbortedBeforeReady t := by
  constructor
  · rintro ⟨pre, k, post, heq, hpre⟩
    rcases List.append_eq_append_iff.mp heq with ⟨a, rfl, -⟩ | ⟨c, rfl, hc⟩
    · exact absurd (List.mem_append_left a hr) hpre
    · cases c with
      | nil => exact absurd (by simpa using hr) hpre
      | cons x c =>
        obtain ⟨rfl, -⟩ := List.cons.inj hc
        exact ⟨pre, k, c, rfl, hpre⟩
  · rintro ⟨pre, k, post, rfl, hpre⟩
    exact ⟨pre, k, post ++ es, by simp, hpre⟩

/-! ### The header's own steps -/

variable {cfg} in
/-- Appending events that neither ask for chunks nor call `abort()`, with the operations and
the abort flag unchanged: only the header's own fields need a proof. -/
theorem HeaderInv.extend {s s' : Sys} (hi : HeaderInv cfg s) (es : List Event)
    (htr : s'.trace = s.trace ++ es)
    (hes : ∀ e ∈ es, e.isChunkRequest = false ∧ ∀ k, e ≠ .called k .abort)
    (hops : s'.ops = s.ops) (ha : s'.st.aborted = s.st.aborted)
    (log : HeaderLog cfg s'.header (headerAnswers s'.trace))
    (ready_iff : s'.st.ready = true ↔ s'.header = none)
    (readyEvent_iff : Event.ready ∈ s'.trace ↔ s'.header = none)
    (pending : s'.header ≠ none → s'.st.timedout = false ∧ s'.st.errored = none)
    (done : s'.header = none →
      HeaderOk cfg s'.trace ∨ s'.st.timedout = true ∨ s'.st.errored ≠ none ∨ s'.st.aborted = true)
    (failed : HeaderFailed cfg s'.trace →
      s'.st.timedout = true ∨ s'.st.errored ≠ none ∨ s'.st.aborted = true) :
    HeaderInv cfg s' := by
  have habr : AbortedBeforeReady s'.trace ↔ AbortedBeforeReady s.trace :=
    htr ▸ abortedBeforeReady_append fun e he => (hes e he).2
  have hok : HeaderOk cfg s.trace → HeaderOk cfg s'.trace := fun h => htr ▸ h.append cfg es
  refine ⟨?_, log, ready_iff, readyEvent_iff, pending, done, failed, ?_, ?_, ?_, ?_, ?_⟩
  · obtain ⟨rest, h⟩ := hi.start
    exact ⟨rest ++ es, by rw [htr, h, List.cons_append]⟩
  · rw [ha, hi.aborted, htr]
    refine ⟨fun ⟨k, hk⟩ => ⟨k, List.mem_append_left _ hk⟩, fun ⟨k, hk⟩ => ⟨k, ?_⟩⟩
    rcases List.mem_append.mp hk with hk | hk
    · exact hk
    · exact absurd rfl ((hes _ hk).2 k)
  · intro t ht hck
    obtain ⟨h1, h2, h3⟩ := hi.chunkTasks t (hops ▸ ht) hck
    exact ⟨hok h1, habr.not.mpr h2, h3⟩
  · intro t ht hcd
    rw [ha]
    exact (hi.closeTasks t (hops ▸ ht) hcd).imp_left hok
  · rw [htr]
    exact hi.before.append_of_forall (fun u v h => h.append cfg v) fun e he => by simp [(hes e he).1]
  · intro e he hce
    rw [habr]
    rw [htr] at he
    rcases List.mem_append.mp he with he | he
    · exact hi.early e he hce
    · simp [(hes e he).1] at hce

/-- `ready()` hands the queue's element to the first waiter, which then performs its flush. -/
theorem ready_headerInv {s : Sys}
    (h : HeaderInv cfg ((s.modify fun st => { st with ready := true }).emit .ready)) :
    HeaderInv cfg (ready cfg s) := by
  unfold ready
  dsimp only
  split
  · rename_i t rest hw
    have h' := h.gated (Gated.dropOps _ fun u hu =>
      (takeWaiter_perm hw).1.symm.subset (List.mem_cons_of_mem _ hu))
    exact h'.gated (perform_gated cfg _ _ h' (h.ready_iff.mp rfl))
  · exact h

variable {cfg} in
/-- The header's last answer arrived: `x` is the state its callback hands to `ready()`. -/
theorem HeaderInv.answered_ready {s x : Sys} {hs : HeaderStage} {a : Answer} (hi : HeaderInv cfg s)
    (hh : s.header = some hs) (hxh : x.header = none) (hxo : x.ops = s.ops)
    (hxt : x.trace = s.trace ++ [.answered hs.request a]) (hxa : x.st.aborted = s.st.aborted)
    (done : HeaderOk cfg x.trace ∨ x.st.timedout = true ∨ x.st.errored ≠ none ∨ x.st.aborted = true)
    (fails : a.Fails cfg.headerBytes.length →
      x.st.timedout = true ∨ x.st.errored ≠ none ∨ x.st.aborted = true) :
    HeaderInv cfg (ready cfg x) := by
  have hl := hi.log
  rw [hh] at hl
  have hpend : s.header ≠ none := by simp [hh]
  refine ready_headerInv cfg (hi.extend [.answered hs.request a, .ready]
    (by simp [hxt]) ?_ (by simp [hxo]) (by simp [hxa]) ?_ (by simp [hxh]) (by simp [hxh])
    (by simp [hxh]) (fun _ => ?_) ?_)
  · rcases hs with _ | _ <;> simp [Event.isChunkRequest, HeaderStage.request]
  · simp only [emit_header, modify_header, hxh, emit_trace, modify_trace, hxt]
    have : headerAnswers (s.trace ++ [.answered hs.request a] ++ [.ready]) =
        headerAnswers s.trace ++ [(hs.request, a)] := by
      rcases hs with _ | _ <;> simp [headerAnswers, Event.headerAnswer?, HeaderStage.request]
    rw [this]
    exact hl.answered cfg a
  · simp only [emit_trace, modify_trace, emit_st, modify_st]
    exact done.imp_left (·.append cfg [.ready])
  · simp only [emit_trace, modify_trace, emit_st, modify_st, hxt, headerFailed_append]
    rintro ((hf | ⟨r, a', hm, -, hf⟩) | ⟨r, a', hm, -⟩)
    · exact .inr (.inr (hxa.trans (hi.aborted_of_failed hpend hf)))
    · obtain ⟨-, rfl⟩ : r = hs.request ∧ a' = a := by simpa using hm
      exact fails hf
    · simp at hm

variable {cfg} in
/-- The header's write reported every byte: its flush is requested. -/
theorem HeaderInv.headerWritten {s x : Sys} {n : Nat} (hi : HeaderInv cfg s)
    (hh : s.header = some .write) (hn : cfg.headerBytes.length ≤ n) (hxo : x.ops = s.ops)
    (hxt : x.trace = s.trace ++ [.answered .writeHeader (.written n)]) (hxs : x.st = s.st) :
    HeaderInv cfg ({ x with header := some .flush }.emit (.requested .flushHeader)) := by
  have hl : headerAnswers s.trace = [] := by simpa [hh] using hi.log
  have hpend : s.header ≠ none := by simp [hh]
  refine hi.extend [.answered .writeHeader (.written n), .requested .flushHeader]
    (by simp [hxt]) (by simp [Event.isChunkRequest]) (by simp [hxo]) (by simp [hxs]) ?_ ?_ ?_
    (fun _ => by simpa [hxs] using hi.pending hpend) (by simp) ?_
  · refine ⟨n, hn, ?_⟩
    simp [hxt, headerAnswers, Event.headerAnswer?] at hl ⊢
    exact hl
  · simpa [hxs, hh] using hi.ready_iff
  · simpa [hxt, hh] using hi.readyEvent_iff
  · simp only [emit_trace, hxt, emit_st, hxs, headerFailed_append]
    rintro ((hf | ⟨r, a', hm, -, hf⟩) | ⟨r, a', hm, -⟩)
    · exact .inr (.inr (hi.aborted_of_failed hpend hf))
    · obtain ⟨rfl, rfl⟩ : r = .writeHeader ∧ a' = .written n := by simpa using hm
      simp only [Answer.Fails] at hf
      omega
    · simp at hm

theorem headerInv_answerHeader (a : Answer) {s : Sys} (hi : HeaderInv cfg s) :
    HeaderInv cfg (answerHeader cfg a s) := by
  unfold answerHeader
  split
  · rename_i hs hh
    refine getD_of (HeaderInv cfg) hi fun s' he => ?_
    unfold headerAnswered at he
    split at he <;> simp only [Option.some.injEq, reduceCtorEq] at he <;> subst he
    · split
      · exact hi.answered_ready hh rfl rfl rfl rfl (.inr (.inr (.inr ‹_›))) fun _ => .inr (.inr ‹_›)
      · split
        · exact hi.answered_ready hh rfl rfl rfl rfl (.inr (.inl rfl)) fun _ => .inl rfl
        · exact hi.headerWritten hh (by omega) rfl rfl rfl
    · split
      · exact hi.answered_ready hh rfl rfl rfl rfl (.inr (.inr (.inr ‹_›))) fun _ => .inr (.inr ‹_›)
      · rename_i ok _
        cases ok
        · exact hi.answered_ready hh rfl rfl rfl rfl (.inr (.inl rfl)) fun _ => .inl rfl
        · obtain ⟨n, hn, hw⟩ := hi.written_of_flush hh
          refine hi.answered_ready hh rfl rfl rfl rfl (.inl ⟨⟨n, hn, by simp [hw]⟩, by simp [HeaderStage.request]⟩) ?_
          simp [Answer.Fails]
    · exact hi.answered_ready hh rfl rfl rfl rfl (.inr (.inl rfl)) fun _ => .inl rfl
    · exact hi.answered_ready hh rfl rfl rfl rfl (.inr (.inr (.inl (by simp)))) fun _ => .inr (.inl (by simp))
  · exact hi

/-! ### Calls -/

/-- `_readyQueue.cancelAll()` after `abort()` set the flag: every waiter reports false. -/
theorem cancelAll_gated {s : Sys} (ha : s.st.aborted = true) : Gated cfg s (cancelAll s) := by
  have key : ∀ (ts : List Task) (s : Sys), s.st.aborted = true →
      Gated cfg s (ts.foldl (fun s t => flushDone t.k t.caller (.result (.bool false)) s) s) := by
    intro ts
    induction ts with
    | nil => exact fun s _ => Gated.refl s
    | cons t ts ih =>
      intro s ha
      have h1 := flushDone_gated cfg t.k t.caller (.result (.bool false)) s fun _ _ => .inr ha
      exact h1.trans (ih _ (h1.aborted.trans ha))
  exact (Gated.dropOps s fun t ht => (List.mem_filter.mp ht).1).trans (key _ _ ha)

variable {cfg} in
theorem HeaderInv.abort {s : Sys} (hi : HeaderInv cfg s) : HeaderInv cfg (abort (s.begin .abort)) := by
  let y := ((s.begin .abort).modify fun st => { st with aborted := true }).emit (.requested .abort)
  have htr : y.trace = s.trace ++ [.called s.next .abort, .requested .abort] := by simp [y, Sys.begin]
  have hq : ∀ e ∈ [Event.called s.next .abort, .requested .abort], e.isChunkRequest = false := by
    simp [Event.isChunkRequest]
  have habr : ∀ t ∈ s.ops, t.stage.isChunk →
      (AbortedBeforeReady y.trace ↔ AbortedBeforeReady s.trace) := fun t ht hck =>
    htr ▸ abortedBeforeReady_append_of_ready (hi.ready_mem (hi.chunkTasks t ht hck).1)
  have hy : HeaderInv cfg y := by
    refine ⟨?_, ?_, ?_, ?_, ?_, ?_, ?_, ?_, ?_, ?_, ?_, ?_⟩
    · obtain ⟨rest, h⟩ := hi.start
      exact ⟨rest ++ _, by rw [htr, h, List.cons_append]⟩
    · simpa [y, Sys.begin, headerAnswers, Event.headerAnswer?] using hi.log
    · simpa [y, Sys.begin] using hi.ready_iff
    · simpa [y, Sys.begin] using hi.readyEvent_iff
    · simpa [y, Sys.begin] using hi.pending
    · simp [y]
    · simp [y]
    · exact ⟨fun _ => ⟨s.next, by simp [htr]⟩, fun _ => rfl⟩
    · intro t ht hck
      obtain ⟨h1, h2, h3⟩ := hi.chunkTasks t ht hck
      exact ⟨htr ▸ h1.append cfg _, (habr t ht hck).not.mpr h2, h3⟩
    · simp [y]
    · rw [htr]
      exact hi.before.append_of_forall (fun u v h => h.append cfg v) fun e he => by simp [hq e he]
    · intro e he hce
      rw [htr] at he
      rcases List.mem_append.mp he with he | he
      · obtain ⟨pre, post, hsplit⟩ := List.append_of_mem he
        have hr := hi.ready_mem (hsplit ▸ (hi.before pre e post hsplit hce).append cfg _)
        rw [htr, abortedBeforeReady_append_of_ready hr]
        exact hi.early e he hce
      · simp [hq e he] at hce
  exact hy.gated (cancelAll_gated cfg (by simp [y]))

variable {cfg} in
/-- Recording a call other than `abort()`. -/
theorem HeaderInv.begin {s : Sys} (hi : HeaderInv cfg s) {c : Call} (hc : c ≠ .abort) :
    HeaderInv cfg (s.begin c) := by
  refine hi.extend [.called s.next c] (by simp [Sys.begin])
    (by simp [Event.isChunkRequest, hc]) rfl rfl ?_ hi.ready_iff (by simpa [Sys.begin] using hi.readyEvent_iff)
    hi.pending ?_ ?_
  · simpa [Sys.begin, headerAnswers, Event.headerAnswer?] using hi.log
  · exact fun h => (hi.done h).imp_left (·.append cfg _)
  · simp only [Sys.begin, emit_trace, headerFailed_append]
    rintro (hf | ⟨r, a, hm, -⟩)
    · exact hi.failed hf
    · simp at hm

theorem write_gated (data : List UInt8) (off len : Int) (k : Nat) (s : Sys) :
    Gated cfg s (write cfg data off len k s) := by
  rcases write_cases cfg data off len k s with ⟨o, hw, -⟩ | ⟨_, _, -, -, -, hw⟩ <;> rw [hw]
  · exact Gated.deliver s k _
  · exact ((Gated.modify s rfl rfl rfl rfl).trans (Gated.emit _ (.appended _ _) rfl rfl)).trans
      (Gated.deliver _ k _)

theorem close_gated (k : Nat) {s : Sys} (hi : HeaderInv cfg s) : Gated cfg s (close cfg k s) := by
  unfold close
  repeat' split
  · exact Gated.deliver s k _
  · exact Gated.deliver s k _
  · have hm : Gated cfg s (s.modify fun st => { st with closed := true }) := Gated.modify s rfl rfl rfl rfl
    exact hm.trans (flush_gated cfg k .close (hi.gated hm))

theorem setCompressionAlgorithm_gated (a : Option CompressionAlgorithm) (k : Nat) {s : Sys}
    (hi : HeaderInv cfg s) : Gated cfg s (setCompressionAlgorithm cfg a k s) := by
  unfold setCompressionAlgorithm
  repeat' split
  all_goals first
    | exact Gated.deliver s k _
    | exact flush_gated cfg k _ hi

theorem stopCaching_gated (s : Sys) : Gated cfg s (stopCaching s) := Gated.modify s rfl rfl rfl rfl

theorem closeDestination_gated (b : Bool) (s : Sys) : Gated cfg s (closeDestination b s) :=
  Gated.modify s rfl rfl rfl rfl

theorem headerInv_call (c : Call) {s : Sys} (hi : HeaderInv cfg s) : HeaderInv cfg (call cfg c s) := by
  cases c with
  | abort => exact hi.abort
  | write data off len =>
    exact (hi.begin (by simp)).gated (write_gated cfg data off len _ _)
  | flush => exact (hi.begin (by simp)).gated (flush_gated cfg _ _ (hi.begin (by simp)))
  | close => exact (hi.begin (by simp)).gated (close_gated cfg _ (hi.begin (by simp)))
  | setCompressionAlgorithm a =>
    exact (hi.begin (by simp)).gated (setCompressionAlgorithm_gated cfg a _ (hi.begin (by simp)))
  | stopCaching => exact (hi.begin (by simp)).gated (stopCaching_gated cfg _)
  | closeDestination b => exact (hi.begin (by simp)).gated (closeDestination_gated cfg b _)

theorem headerInv_step {s : Sys} (i : Input) (hi : HeaderInv cfg s) : HeaderInv cfg (step cfg s i) := by
  cases i with
  | call c => exact headerInv_call cfg c hi
  | header a => exact headerInv_answerHeader cfg a hi
  | answer i a =>
    show HeaderInv cfg (answer cfg i a s)
    unfold answer
    split
    · rename_i t ht
      refine getD_of (HeaderInv cfg) hi fun s' he => ?_
      have hg : Gated cfg s ({ s with ops := s.ops.eraseIdx i }.emit (.answered t.stage.request a)) :=
        (Gated.dropOps s fun u hu => (perm_cons_eraseIdx ht).symm.subset (List.mem_cons_of_mem _ hu)).trans
          (Gated.emit _ _ (by rcases t with ⟨_, _, _ | _ | _ | _ | _⟩ <;> rfl) rfl)
      have hmem : t ∈ s.ops := (perm_cons_eraseIdx ht).symm.subset (List.mem_cons_self _ _)
      exact (hi.gated hg).gated
        (resume_gated cfg (fun hck => hg.chunkGate_iff.mpr (hi.chunkTasks t hmem hck)) he)
    · exact hi

theorem headerInv_init : HeaderInv cfg (init cfg) where
  start := ⟨[], rfl⟩
  log := rfl
  ready_iff := by simp [init]
  readyEvent_iff := by simp [init]
  pending := fun _ => ⟨rfl, rfl⟩
  done := by simp [init]
  failed := by simp [HeaderFailed, init]
  aborted := by simp [init]
  chunkTasks := by simp [init]
  closeTasks := by simp [init]
  before := by
    intro pre e post h he
    rcases pre with _ | ⟨x, pre⟩
    · simp only [init, List.nil_append, List.cons.injEq] at h
      simp [← h.1, Event.isChunkRequest] at he
    · simp [init] at h
  early := by simp [init, Event.isChunkRequest]

theorem headerInv_run (is : List Input) : HeaderInv cfg (run cfg (init cfg) is) :=
  run_induction cfg (HeaderInv cfg) (fun _ i h => headerInv_step cfg i h) _ is (headerInv_init cfg)

/-! ### What reaches the sink -/

/-- The bytes of a write request to the sink: the header's, or a chunk's. -/
def Event.sinkWrite? : Event → Option (List UInt8)
  | .requested .writeHeader => some cfg.headerBytes
  | .requested (.writeChunk c) => some (cfg.payloadBytes c)
  | _ => none

/-- The bytes of the sink's write requests, in order. -/
def sinkWrites (t : List Event) : List (List UInt8) := t.filterMap (Event.sinkWrite? cfg)

variable {cfg} in
theorem HeaderInv.headerOk_of_chunkRequest {s : Sys} (hi : HeaderInv cfg s) {e : Event}
    (he : e ∈ s.trace) (hce : e.isChunkRequest = true) : HeaderOk cfg s.trace := by
  obtain ⟨pre, post, hsplit⟩ := List.append_of_mem he
  exact hsplit ▸ (hi.before pre e post hsplit hce).append cfg _

/-- The sink's first write carries the header, chunks are asked for only once the header's
write and flush succeeded, and never after a failed header or an abort before its end. -/
theorem header_precedes_payload (is : List Input) :
    let s := run cfg (init cfg) is
    (sinkWrites cfg s.trace).head? = some cfg.headerBytes ∧
      Before (HeaderOk cfg) (fun e => e.isChunkRequest = true) s.trace ∧
      (HeaderFailed cfg s.trace ∨ AbortedBeforeReady s.trace →
        ∀ c, Event.requested (.create c) ∉ s.trace ∧ Event.requested (.writeChunk c) ∉ s.trace) := by
  intro s
  have hi : HeaderInv cfg s := headerInv_run cfg is
  refine ⟨?_, hi.before, fun hf c => ?_⟩
  · obtain ⟨rest, h⟩ := hi.start
    simp [h, sinkWrites, Event.sinkWrite?]
  · have hno : ∀ e ∈ s.trace, e.isChunkRequest = false := by
      intro e he
      by_contra hce
      rw [Bool.not_eq_false] at hce
      rcases hf with hf | habr
      · exact hi.not_failed (hi.headerOk_of_chunkRequest he hce) hf
      · exact (hi.early e he hce).1 habr
    exact ⟨fun h => by simpa [Event.isChunkRequest] using hno _ h,
      fun h => by simpa [Event.isChunkRequest] using hno _ h⟩

/-- Over an error header or a handshake header no chunk is created or written, and a write
that passes every other check throws `MslInternalException`, leaving the stream as it was. -/
theorem no_payload_without_data (hnd : ¬ cfg.header.DataBearing) (is : List Input) :
    (∀ c, Event.requested (.create c) ∉ (run cfg (init cfg) is).trace ∧
      Event.requested (.writeChunk c) ∉ (run cfg (init cfg) is).trace) ∧
    ∀ (s : Sys) (data : List UInt8) (off len : Int) (k : Nat), s.st.check = none →
      s.st.closed = false → 0 ≤ off → 0 ≤ len → off + len ≤ data.length →
      ∃ m, write cfg data off len k s = s.deliver k (.error (.mslInternalException m)) := by
  refine ⟨fun c => ?_, fun s data off len k hc hcl hoff hlen hle => ?_⟩
  · have hi := headerInv_run cfg is
    have hno : ∀ e ∈ (run cfg (init cfg) is).trace, e.isChunkRequest = false := fun e he => by
      by_contra hce
      exact hnd (hi.early e he (by simpa using hce)).2
    exact ⟨fun h => by simpa [Event.isChunkRequest] using hno _ h,
      fun h => by simpa [Event.isChunkRequest] using hno _ h⟩
  · unfold write
    simp only [hc, hcl, Bool.false_eq_true, ↓reduceIte, not_lt.mpr hoff, not_lt.mpr hlen, not_lt.mpr hle]
    cases hh : cfg.header with
    | error => exact ⟨_, by simp only [Config.getMessageHeader, hh]; rfl⟩
    | message h =>
      have hs : h.handshake = true := by simpa [hh, Header.DataBearing] using hnd
      exact ⟨_, by simp only [Config.getMessageHeader, hh, hs, ↓reduceIte]; rfl⟩

theorem no_chunk_for_errorHeader :
    ¬ Header.DataBearing .error ∧
      Event.requested (.create ⟨1, 0, true, none, [7]⟩) ∉
        (run ⟨.error, none, fun _ => none, [], fun _ => [], fun _ => none⟩
          (init ⟨.error, none, fun _ => none, [], fun _ => [], fun _ => none⟩)
          [.call (.write [7] 0 1), .call .close]).trace :=
  ⟨id, ((no_payload_without_data ⟨.error, none, fun _ => none, [], fun _ => [], fun _ => none⟩ id _).1 _).1⟩

end Msl.MessageOutputStream
