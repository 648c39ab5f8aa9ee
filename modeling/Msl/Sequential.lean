import Msl.Header

/-! # Runs with one operation at a time

When write, flush, close and setCompressionAlgorithm are issued one at a time, at most one
operation is in flight, and `SeqInv` ties the stream's properties to its trace: the chunks
counted as sent, the slices written and not yet sent, the chunks cached, the algorithm
replayed from the calls that switched it, and what each suspended task is about to send.
It holds along every such run (`seqInv_run`). -/

namespace Msl.MessageOutputStream

open Sys

variable (cfg : Config)

/-- An algorithm the stream may use: none, or one of the capability intersection. -/
def AlgoValid : Option CompressionAlgorithm → Prop
  | none => True
  | some x => ∃ algos, cfg.capabilities = some algos ∧ x ∈ algos

/-- `MslConstants$CompressionAlgorithm$getPreferredAlgorithm` returns null or one of its
arguments. -/
def PreferredValid : Prop :=
  ∀ algos, cfg.getPreferredAlgorithm algos = none ∨
    ∃ x, cfg.getPreferredAlgorithm algos = some x ∧ x ∈ algos

/-- `setCompressionAlgorithm(a)` refuses `a`: it is not the current algorithm `cur`, and it is an
algorithm outside the capability intersection, or there is none. -/
def Refused (cur a : Option CompressionAlgorithm) : Prop :=
  cur ≠ a ∧ ∃ x, a = some x ∧ ∀ algos, cfg.capabilities = some algos → x ∉ algos

/-- The chunk a stage waits on. -/
def Stage.chunk? : Stage → Option PayloadChunk
  | .create c | .write c | .flush c => some c
  | _ => none

/-- Every chunk asked of `PayloadChunk$create` holds the slices appended since the last sent
chunk, all written under the chunk's algorithm. -/
def CreatedFromUnsent (t : List Event) : Prop :=
  Each (fun pre e => ∀ c, e = .requested (.create c) →
    c.data = ((unsent pre).map Prod.fst).flatten ∧ ∀ p ∈ unsent pre, p.2 = c.compressionAlgo) t

/-- A result false reaches a `setCompressionAlgorithm(a)` call only right after the call, when
`a` was refused under the algorithm then current. -/
def FalseAtCall (t : List Event) : Prop :=
  Each (fun pre e => ∀ k a, e = .delivered k (.result (.bool false)) →
    Event.called k (.setCompressionAlgorithm a) ∈ pre →
    ∃ pre', pre = pre' ++ [.called k (.setCompressionAlgorithm a)] ∧
      Refused cfg (opState cfg pre').1 a) t

/-- Why close call `k` may report true: an end-of-message chunk was sent, or an earlier
close marked the stream closed, or after an abort the sink's close reported true. -/
def CloseJustified (t : List Event) (k : Nat) : Prop :=
  EomSent t ∨ (∃ k' < k, Event.called k' .close ∈ t) ∨
    ((∃ j, Event.called j .abort ∈ t) ∧ Event.answered .closeDestination (.success true) ∈ t)

theorem EomSent.append {t : List Event} (h : EomSent t) (u : List Event) : EomSent (t ++ u) := by
  obtain ⟨c, hc, he⟩ := h
  exact ⟨c, by simp [hc], he⟩

theorem CloseJustified.append {t : List Event} {k : Nat} (h : CloseJustified t k) (u : List Event) :
    CloseJustified (t ++ u) k := by
  rcases h with h | ⟨k', hk, hc⟩ | ⟨⟨j, hj⟩, ha⟩
  · exact .inl (h.append u)
  · exact .inr (.inl ⟨k', hk, by simp [hc]⟩)
  · exact .inr (.inr ⟨⟨j, by simp [hj]⟩, by simp [ha]⟩)

/-- Events no field of `SeqInv` reads. -/
def Event.Quiet : Event → Bool
  | .requested (.create _) | .requested (.writeChunk _) => false
  | .requested _ | .answered _ _ | .ready => true
  | .delivered _ (.result (.bool _)) => false
  | .delivered _ _ => true
  | .called _ _ | .appended _ _ | .sent _ => false

/-- What trace `t` of a run with one operation at a time over message header `h` says about
the stream's properties `st`. -/
structure Ledger (h : MessageHeader) (st : Stream) (t : List Event) : Prop where
  seq_nums : (sentChunks t).map PayloadChunk.sequenceNumber =
    List.range' 1 (sentChunks t).length
  seq_next : st.payloadSequenceNumber = (sentChunks t).length + 1
  ids : ∀ c ∈ sentChunks t, c.messageId = h.messageId
  eom_last : ∀ c ∈ (sentChunks t).dropLast, c.endofmsg = false
  eom_none : EomSent t → st.currentPayload = none
  none_eom : h.handshake = false → st.currentPayload = none → EomSent t
  closed_called : st.closed = true → ∃ k, Event.called k .close ∈ t
  eom_closed : Each (fun pre e => ∀ c, e = .sent c → c.endofmsg = true →
    ∃ k, Event.called k .close ∈ pre) t
  buffer : st.currentPayload.getD [] = (unsent t).map Prod.fst
  data : ((sentChunks t).map PayloadChunk.data).flatten ++
      ((unsent t).map Prod.fst).flatten = ((appendedSlices t).map Prod.fst).flatten
  unsent_algo : ∀ p ∈ unsent t, p.2 = st.compressionAlgo
  handshake_unsent : h.handshake = true → unsent t = []
  created : CreatedFromUnsent t
  algo_log : st.compressionAlgo = (opState cfg t).1
  algo_valid : PreferredValid cfg → AlgoValid cfg st.compressionAlgo
  cache : st.payloads = if st.caching then writeChunks t else []
  caching_iff : st.caching = false ↔ ∃ k, Event.called k .stopCaching ∈ t
  aborted_called : st.aborted = true → ∃ k, Event.called k .abort ∈ t
  close_true : h.handshake = false → ∀ k, Event.called k .close ∈ t →
    Event.delivered k (.result (.bool true)) ∈ t → CloseJustified t k
  false_at_call : FalseAtCall cfg t

/-- `Ledger`, and what the one task in flight is about to do. -/
structure SeqInv (h : MessageHeader) (s : Sys) : Prop where
  ledger : Ledger cfg h s.st s.trace
  single : s.ops.length ≤ 1
  task_op : ∀ t ∈ s.ops, (opState cfg s.trace).2 = some t.caller.call
  task_chunk : ∀ t ∈ s.ops, ∀ c, t.stage.chunk? = some c →
    s.st.currentPayload ≠ none ∧ c = newChunk s.st h ((unsent s.trace).map Prod.fst)
  task_close : ∀ t ∈ s.ops, t.caller = .close → s.st.closed = true
  task_sca : ∀ t ∈ s.ops, ∀ a, t.caller = .setCompressionAlgorithm a → AlgoValid cfg a
  task_dest : ∀ t ∈ s.ops, t.stage = .closeDestination → t.caller = .close ∧
    (h.handshake = false → EomSent s.trace ∨ ∃ j, Event.called j .abort ∈ s.trace)

/-! ### Quiet events -/

section quiet

variable {e : Event} (he : e.Quiet = true)
include he

theorem Event.Quiet.sent? : e.sent? = none := by
  rcases e with _ | _ | _ | _ | _ | _ | _ <;> simp_all [Event.Quiet, Event.sent?]

theorem Event.Quiet.appended? : e.appended? = none := by
  rcases e with _ | _ | _ | _ | _ | _ | _ <;> simp_all [Event.Quiet, Event.appended?]

theorem Event.Quiet.writeChunk? : e.writeChunk? = none := by
  rcases e with _ | ⟨_ | _ | _ | _ | _ | _ | _ | _⟩ | _ | _ | _ | _ | _ <;>
    simp_all [Event.Quiet, Event.writeChunk?]

theorem Event.Quiet.unsentStep (acc : List (List UInt8 × Option CompressionAlgorithm)) :
    unsentStep acc e = acc := by
  rcases e with _ | _ | _ | _ | _ | _ | _ <;> simp_all [Event.Quiet, MessageOutputStream.unsentStep]

theorem Event.Quiet.ne_called (k : Nat) (c : Call) : e ≠ .called k c := by
  rintro rfl
  simp [Event.Quiet] at he

theorem Event.Quiet.ne_delivered (k : Nat) (b : Bool) : e ≠ .delivered k (.result (.bool b)) := by
  rintro rfl
  simp [Event.Quiet] at he

theorem Event.Quiet.replay (p : Option CompressionAlgorithm × Option Call) : replay p e = p :=
  replay_of_ne (Event.Quiet.ne_called he) fun k => Event.Quiet.ne_delivered he k true

end quiet

/-! ### The ledger, event by event -/

section ledger

variable {cfg} {h : MessageHeader} {st : Stream} {t : List Event}

theorem unsentStep_of {e : Event} (hs : e.sent? = none) (ha : e.appended? = none)
    (acc : List (List UInt8 × Option CompressionAlgorithm)) : unsentStep acc e = acc := by
  cases e <;> simp_all [unsentStep, Event.sent?, Event.appended?]

theorem mem_concat_called {e : Event} (hcall : e.isCall = false) {k : Nat} {c : Call} :
    Event.called k c ∈ t ++ [e] ↔ Event.called k c ∈ t := by
  constructor
  · intro hm
    rcases List.mem_append.mp hm with hm | hm
    · exact hm
    · obtain rfl := List.mem_singleton.mp hm
      simp [Event.isCall] at hcall
  · exact fun hm => List.mem_append_left _ hm

/-- One event that neither calls, nor sends or appends, with the algorithm set to what the
replay of the event gives and the cache to the chunks written. -/
theorem Ledger.record (hl : Ledger cfg h st t) {e : Event} (hcall : e.isCall = false)
    (hsent : e.sent? = none) (happ : e.appended? = none) {a : Option CompressionAlgorithm}
    (hal : a = (replay (opState cfg t) e).1) (hua : ∀ p ∈ unsent t, p.2 = a)
    (hav : PreferredValid cfg → AlgoValid cfg a)
    (hcreate : ∀ c, e = .requested (.create c) →
      c.data = ((unsent t).map Prod.fst).flatten ∧ ∀ p ∈ unsent t, p.2 = c.compressionAlgo)
    (hclose : h.handshake = false → ∀ k, e = .delivered k (.result (.bool true)) →
      Event.called k .close ∈ t → CloseJustified t k)
    (hfalse : ∀ k a, e = .delivered k (.result (.bool false)) →
      Event.called k (.setCompressionAlgorithm a) ∈ t →
      ∃ pre', t = pre' ++ [.called k (.setCompressionAlgorithm a)] ∧ Refused cfg (opState cfg pre').1 a)
    {p : List PayloadChunk} (hw : p = if st.caching then writeChunks (t ++ [e]) else []) :
    Ledger cfg h { st with compressionAlgo := a, payloads := p } (t ++ [e]) := by
  have hsent' : sentChunks (t ++ [e]) = sentChunks t := by simp [hsent]
  have hun : unsent (t ++ [e]) = unsent t := by simp [unsentStep_of hsent happ]
  have heom : EomSent (t ++ [e]) ↔ EomSent t := by rw [EomSent, EomSent, hsent']
  exact {
    seq_nums := hsent' ▸ hl.seq_nums
    seq_next := hsent' ▸ hl.seq_next
    ids := hsent' ▸ hl.ids
    eom_last := hsent' ▸ hl.eom_last
    eom_none := fun he' => hl.eom_none (heom.mp he')
    none_eom := fun hh hn => heom.mpr (hl.none_eom hh hn)
    closed_called := fun hcl => by simpa only [mem_concat_called hcall] using hl.closed_called hcl
    eom_closed := hl.eom_closed.concat fun c hce => by subst hce; simp [Event.sent?] at hsent
    buffer := hun ▸ hl.buffer
    data := by simpa [hsent, happ, unsentStep_of hsent happ] using hl.data
    unsent_algo := hun ▸ hua
    handshake_unsent := hun ▸ hl.handshake_unsent
    created := hl.created.concat hcreate
    algo_log := by simpa using hal
    algo_valid := hav
    cache := hw
    caching_iff := by simpa only [mem_concat_called hcall] using hl.caching_iff
    aborted_called := fun ha => by simpa only [mem_concat_called hcall] using hl.aborted_called ha
    close_true := fun hh k hk hd => by
      rw [mem_concat_called hcall] at hk
      rcases List.mem_append.mp hd with hd | hd
      · exact (hl.close_true hh k hk hd).append [e]
      · exact (hclose hh k (List.mem_singleton.mp hd).symm hk).append [e]
    false_at_call := hl.false_at_call.concat fun k a he' hk => hfalse k a he' hk }

theorem Ledger.emit (hl : Ledger cfg h st t) {e : Event} (he : e.Quiet = true) :
    Ledger cfg h st (t ++ [e]) :=
  hl.record (by cases e <;> simp_all [Event.Quiet, Event.isCall]) (Event.Quiet.sent? he)
    (Event.Quiet.appended? he) (by simp [Event.Quiet.replay he, hl.algo_log]) hl.unsent_algo
    hl.algo_valid (fun c hce => by subst hce; simp [Event.Quiet] at he)
    (fun _ k hce => by subst hce; simp [Event.Quiet] at he)
    (fun k a hce => by subst hce; simp [Event.Quiet] at he)
    (by simpa [Event.Quiet.writeChunk? he] using hl.cache)

/-- The stream changed but not the trace: the sequence number and the algorithm stay, the
buffer is dropped only once it is empty, the flags are only raised by their calls. -/
theorem Ledger.of_st (hl : Ledger cfg h st t) {st' : Stream}
    (hseq : st'.payloadSequenceNumber = st.payloadSequenceNumber)
    (hcp : st'.currentPayload = st.currentPayload ∨
      (st'.currentPayload = none ∧ unsent t = [] ∧ (h.handshake = false → EomSent t)))
    (hcl : st'.closed = true → st.closed = true ∨ ∃ k, Event.called k .close ∈ t)
    (hal : st'.compressionAlgo = st.compressionAlgo)
    (hca : (st'.caching = st.caching ∧ st'.payloads = st.payloads) ∨
      (st'.caching = false ∧ st'.payloads = [] ∧ ∃ k, Event.called k .stopCaching ∈ t))
    (hab : st'.aborted = true → st.aborted = true ∨ ∃ k, Event.called k .abort ∈ t) :
    Ledger cfg h st' t := {
  seq_nums := hl.seq_nums
  seq_next := hseq.trans hl.seq_next
  ids := hl.ids
  eom_last := hl.eom_last
  eom_none := fun he => by
    rcases hcp with hcp | ⟨hcp, -⟩
    · rw [hcp]
      exact hl.eom_none he
    · exact hcp
  none_eom := fun hh hn => by
    rcases hcp with hcp | ⟨-, -, he⟩
    · exact hl.none_eom hh (hcp ▸ hn)
    · exact he hh
  closed_called := fun hc => (hcl hc).elim hl.closed_called id
  eom_closed := hl.eom_closed
  buffer := by
    rcases hcp with hcp | ⟨hcp, hu, -⟩
    · rw [hcp]
      exact hl.buffer
    · simp [hcp, hu]
  data := hl.data
  unsent_algo := hal ▸ hl.unsent_algo
  handshake_unsent := hl.handshake_unsent
  created := hl.created
  algo_log := hal.trans hl.algo_log
  algo_valid := hal ▸ hl.algo_valid
  cache := by
    rcases hca with ⟨h1, h2⟩ | ⟨h1, h2, -⟩
    · rw [h1, h2]
      exact hl.cache
    · simp [h1, h2]
  caching_iff := by
    rcases hca with ⟨h1, -⟩ | ⟨h1, -, hk⟩
    · rw [h1]
      exact hl.caching_iff
    · simp [h1, hk]
  aborted_called := fun ha => (hab ha).elim hl.aborted_called id
  close_true := hl.close_true
  false_at_call := hl.false_at_call }

theorem Ledger.abort (hl : Ledger cfg h st t) (hab : ∃ k, Event.called k .abort ∈ t) :
    Ledger cfg h { st with aborted := true } t :=
  hl.of_st rfl (.inl rfl) .inl rfl (.inl ⟨rfl, rfl⟩) fun _ => .inr hab

/-- `write` pushes a slice onto the buffer. -/
theorem Ledger.push (hl : Ledger cfg h st t) (hh : h.handshake = false) {segs : List (List UInt8)}
    (hcp : st.currentPayload = some segs) (b : List UInt8) :
    Ledger cfg h { st with currentPayload := some (segs ++ [b]) } (t ++ [.appended b st.compressionAlgo]) := by
  have hne : ¬ EomSent t := fun he => by simp [hl.eom_none he] at hcp
  have hsegs : segs = (unsent t).map Prod.fst := by simpa [hcp] using hl.buffer
  have hcall : (Event.appended b st.compressionAlgo).isCall = false := rfl
  have hsent : sentChunks (t ++ [.appended b st.compressionAlgo]) = sentChunks t := by simp [Event.sent?]
  exact {
    seq_nums := hsent ▸ hl.seq_nums
    seq_next := hsent ▸ hl.seq_next
    ids := hsent ▸ hl.ids
    eom_last := hsent ▸ hl.eom_last
    eom_none := fun he => absurd (by rwa [EomSent, hsent] at he) hne
    none_eom := by simp
    closed_called := fun hcl => by simpa only [mem_concat_called hcall] using hl.closed_called hcl
    eom_closed := hl.eom_closed.concat (by simp)
    buffer := by simp [unsentStep, hsegs]
    data := by simp [Event.sent?, Event.appended?, unsentStep, ← hl.data]
    unsent_algo := fun p hp => by
      simp only [unsent_concat, unsentStep, List.mem_append, List.mem_singleton] at hp
      rcases hp with hp | rfl
      · exact hl.unsent_algo p hp
      · rfl
    handshake_unsent := by simp [hh]
    created := hl.created.concat (by simp)
    algo_log := by simpa using hl.algo_log
    algo_valid := hl.algo_valid
    cache := by simpa [Event.writeChunk?] using hl.cache
    caching_iff := by simpa only [mem_concat_called hcall] using hl.caching_iff
    aborted_called := fun ha => by simpa only [mem_concat_called hcall] using hl.aborted_called ha
    close_true := fun hh k hk hd =>
      (hl.close_true hh k (by simpa using hk) (by simpa using hd)).append _
    false_at_call := hl.false_at_call.concat (by simp) }

/-- `chunkFlushed` counts chunk `c` as sent: the sequence number moves on and the buffer is
reset, or dropped once closed. -/
theorem Ledger.send (hl : Ledger cfg h st t) (hcp : st.currentPayload ≠ none) :
    Ledger cfg h { st with
      payloadSequenceNumber := st.payloadSequenceNumber + 1
      currentPayload := if st.closed then none else some [] }
      (t ++ [.sent (newChunk st h ((unsent t).map Prod.fst))]) := by
  have hne : ∀ c' ∈ sentChunks t, c'.endofmsg = false := fun c' hc' => by
    by_contra he
    exact hcp (hl.eom_none ⟨c', hc', by simpa using he⟩)
  have hsent : sentChunks (t ++ [.sent (newChunk st h ((unsent t).map Prod.fst))]) =
      sentChunks t ++ [newChunk st h ((unsent t).map Prod.fst)] := by simp
  have hcall : (Event.sent (newChunk st h ((unsent t).map Prod.fst))).isCall = false := rfl
  exact {
    seq_nums := by
      rw [hsent, List.map_append, hl.seq_nums, List.length_append, List.length_singleton,
        List.range'_concat]
      simp [newChunk, hl.seq_next, Nat.add_comm]
    seq_next := by simp [hl.seq_next]
    ids := by
      rw [hsent]
      rintro c' hc'
      rcases List.mem_append.mp hc' with hc' | hc'
      · exact hl.ids c' hc'
      · rw [List.mem_singleton.mp hc']
        rfl
    eom_last := by simpa using hne
    eom_none := by
      rintro ⟨c', hc', he⟩
      rw [hsent, List.mem_append, List.mem_singleton] at hc'
      rcases hc' with hc' | rfl
      · simp [hne c' hc'] at he
      · simp_all [newChunk]
    none_eom := fun _ hn => by
      have hcl : st.closed = true := by
        by_contra hc
        simp [hc] at hn
      refine ⟨newChunk st h ((unsent t).map Prod.fst), ?_, hcl⟩
      rw [hsent]
      exact List.mem_append_right _ (List.mem_singleton_self _)
    closed_called := fun hcl => by simpa only [mem_concat_called hcall] using hl.closed_called hcl
    eom_closed := hl.eom_closed.concat fun c' he heom => by
      obtain rfl := (Event.sent.inj he).symm
      exact hl.closed_called heom
    buffer := by cases hcl : st.closed <;> simp [hcl, unsentStep]
    data := by simp [Event.appended?, unsentStep, newChunk, ← hl.data]
    unsent_algo := by simp [unsentStep]
    handshake_unsent := by simp [unsentStep]
    created := hl.created.concat (by simp)
    algo_log := by simpa using hl.algo_log
    algo_valid := hl.algo_valid
    cache := by simpa [Event.writeChunk?] using hl.cache
    caching_iff := by simpa only [mem_concat_called hcall] using hl.caching_iff
    aborted_called := fun ha => by simpa only [mem_concat_called hcall] using hl.aborted_called ha
    close_true := fun hh k hk hd =>
      (hl.close_true hh k (by simpa using hk) (by simpa using hd)).append _
    false_at_call := hl.false_at_call.concat (by simp) }

/-- A call is recorded, and `stopCaching()` empties the cache as it is called. -/
theorem Ledger.begin (hl : Ledger cfg h st t) {n : Nat} (c : Call)
    (hnd : ∀ o, Event.delivered n o ∉ t) {st' : Stream}
    (hseq : st'.payloadSequenceNumber = st.payloadSequenceNumber)
    (hcp : st'.currentPayload = st.currentPayload) (hcl : st'.closed = st.closed)
    (hal : st'.compressionAlgo = st.compressionAlgo) (hab : st'.aborted = st.aborted)
    (hca : if c = .stopCaching then st'.caching = false ∧ st'.payloads = []
      else st'.caching = st.caching ∧ st'.payloads = st.payloads) :
    Ledger cfg h st' (t ++ [.called n c]) := by
  have hsent : sentChunks (t ++ [.called n c]) = sentChunks t := by simp [Event.sent?]
  have hun : unsent (t ++ [.called n c]) = unsent t := by simp [unsentStep]
  have heom : EomSent (t ++ [.called n c]) ↔ EomSent t := by rw [EomSent, EomSent, hsent]
  have hmem : ∀ k c', Event.called k c' ∈ t → Event.called k c' ∈ t ++ [.called n c] :=
    fun _ _ h => List.mem_append_left _ h
  exact {
    seq_nums := hsent ▸ hl.seq_nums
    seq_next := by rw [hseq, hsent]; exact hl.seq_next
    ids := hsent ▸ hl.ids
    eom_last := hsent ▸ hl.eom_last
    eom_none := fun he => by rw [hcp]; exact hl.eom_none (heom.mp he)
    none_eom := fun hh hn => heom.mpr (hl.none_eom hh (hcp ▸ hn))
    closed_called := fun hc => (hl.closed_called (hcl ▸ hc)).imp fun _ => hmem _ _
    eom_closed := hl.eom_closed.concat (by simp)
    buffer := by rw [hcp, hun]; exact hl.buffer
    data := by simpa [Event.sent?, Event.appended?, unsentStep] using hl.data
    unsent_algo := by rw [hal, hun]; exact hl.unsent_algo
    handshake_unsent := hun ▸ hl.handshake_unsent
    created := hl.created.concat (by simp)
    algo_log := by simpa [replay, hal] using hl.algo_log
    algo_valid := hal ▸ hl.algo_valid
    cache := by
      split at hca
      · simp [hca.1, hca.2]
      · simpa [hca.1, hca.2, Event.writeChunk?] using hl.cache
    caching_iff := by
      split at hca
      · subst c
        simp [hca.1]
      · rename_i hc
        simpa [hca.1, Ne.symm hc] using hl.caching_iff
    aborted_called := fun ha => (hl.aborted_called (hab ▸ ha)).imp fun _ => hmem _ _
    close_true := fun hh k hk hd => by
      have hd' : Event.delivered k (.result (.bool true)) ∈ t := by simpa using hd
      have hk' : Event.called k .close ∈ t := by
        rcases List.mem_append.mp hk with hk | hk
        · exact hk
        · obtain ⟨rfl, -⟩ := Event.called.inj (List.mem_singleton.mp hk)
          exact absurd hd' (hnd _)
      exact (hl.close_true hh k hk' hd').append _
    false_at_call := hl.false_at_call.concat (by simp) }

end ledger

/-- A chain of callbacks of call `k`, whose flush callback is `c`, is about to run: nothing
else is in flight. -/
structure Pending (h : MessageHeader) (k : Nat) (c : Caller) (s : Sys) : Prop where
  ledger : Ledger cfg h s.st s.trace
  ops_nil : s.ops = []
  op : (opState cfg s.trace).2 = some c.call
  call : ∀ C, Event.called k C ∈ s.trace → C = c.call
  closed : c = .close → s.st.closed = true
  valid : ∀ a, c = .setCompressionAlgorithm a → AlgoValid cfg a

/-! ### The task in flight -/

section task

variable {cfg} {h : MessageHeader} {s : Sys}

theorem SeqInv.of_ledger (hl : Ledger cfg h s.st s.trace) (hops : s.ops = []) : SeqInv cfg h s where
  ledger := hl
  single := by simp [hops]
  task_op := by simp [hops]
  task_chunk := by simp [hops]
  task_close := by simp [hops]
  task_sca := by simp [hops]
  task_dest := by simp [hops]

/-- The stream suspends in task `t` on request `r`, nothing else being in flight. -/
theorem SeqInv.suspend (hl : Ledger cfg h s.st (s.trace ++ [.requested r])) (hops : s.ops = [])
    (t : Task) (hop : (opState cfg s.trace).2 = some t.caller.call)
    (hchunk : ∀ c, t.stage.chunk? = some c →
      s.st.currentPayload ≠ none ∧ c = newChunk s.st h ((unsent s.trace).map Prod.fst))
    (hclose : t.caller = .close → s.st.closed = true)
    (hsca : ∀ a, t.caller = .setCompressionAlgorithm a → AlgoValid cfg a)
    (hdest : t.stage = .closeDestination → t.caller = .close ∧
      (h.handshake = false → EomSent s.trace ∨ ∃ j, Event.called j .abort ∈ s.trace)) :
    SeqInv cfg h (s.suspend t r) where
  ledger := hl
  single := by simp [hops]
  task_op := by simpa [hops, replay] using hop
  task_chunk := by simpa [hops, unsentStep] using hchunk
  task_close := by simpa [hops] using hclose
  task_sca := by simpa [hops] using hsca
  task_dest := fun u hu hd => by
    simp only [suspend_ops, hops, List.nil_append, List.mem_singleton] at hu
    subst hu
    refine ⟨(hdest hd).1, fun hh => ?_⟩
    rcases (hdest hd).2 hh with he | ⟨j, hj⟩
    · exact .inl (he.append _)
    · exact .inr ⟨j, by simp [hj]⟩

/-- An outcome reaches call `k`, the operation in flight, which is call `C`. -/
theorem SeqInv.deliver (hl : Ledger cfg h s.st s.trace) (hops : s.ops = []) {k : Nat} {C : Call}
    (hk : ∀ C', Event.called k C' ∈ s.trace → C' = C) (hop : (opState cfg s.trace).2 = some C)
    {o : Outcome}
    (htrue : o = .result (.bool true) → (C = .close → h.handshake = false → CloseJustified s.trace k) ∧
      ∀ a, C = .setCompressionAlgorithm a → s.st.compressionAlgo = a)
    (hfalse : o = .result (.bool false) → ∀ a, C = .setCompressionAlgorithm a →
      ∃ pre', s.trace = pre' ++ [.called k (.setCompressionAlgorithm a)] ∧
        Refused cfg (opState cfg pre').1 a) :
    SeqInv cfg h (s.deliver k o) := by
  refine .of_ledger ?_ hops
  have hal : s.st.compressionAlgo = (replay (opState cfg s.trace) (.delivered k o)).1 := by
    by_cases hc : (replay (opState cfg s.trace) (.delivered k o)).1 = (opState cfg s.trace).1
    · exact hc ▸ hl.algo_log
    · obtain ⟨k', b, he, hb, hr⟩ := replay_fst_changes hc
      obtain ⟨-, rfl⟩ : k = k' ∧ o = _ := by simpa using he
      exact hr ▸ (htrue rfl).2 b (Option.some.inj (hop.symm.trans hb))
  exact hl.record (e := .delivered k o) rfl rfl rfl hal hl.unsent_algo hl.algo_valid (by simp)
    (fun hh k' he hc => by
      obtain ⟨rfl, rfl⟩ : k' = k ∧ o = _ := by simpa [eq_comm] using he
      exact (htrue rfl).1 (hk _ hc).symm hh)
    (fun k' a he hc => by
      obtain ⟨rfl, rfl⟩ : k' = k ∧ o = _ := by simpa [eq_comm] using he
      exact hfalse rfl a (hk _ hc).symm)
    (by simpa [Event.writeChunk?] using hl.cache)

theorem Pending.deliver {k : Nat} {c : Caller} (hp : Pending cfg h k c s) (o : Outcome)
    (htrue : o = .result (.bool true) → (c = .close → h.handshake = false → CloseJustified s.trace k) ∧
      ∀ a, c = .setCompressionAlgorithm a → s.st.compressionAlgo = a)
    (hfalse : o = .result (.bool false) → ∀ a, c ≠ .setCompressionAlgorithm a) :
    SeqInv cfg h (s.deliver k o) :=
  .deliver hp.ledger hp.ops_nil hp.call hp.op
    (fun ho => ⟨fun hc => (htrue ho).1 (by cases c <;> simp_all [Caller.call]),
      fun a hc => (htrue ho).2 a (by cases c <;> simp_all [Caller.call])⟩)
    (fun ho a hc => absurd (by cases c <;> simp_all [Caller.call]) (hfalse ho a))

/-- The chain records a quiet event, or changes only flags that `Ledger` does not read. -/
theorem Pending.emit {k : Nat} {c : Caller} (hp : Pending cfg h k c s) {e : Event} (he : e.Quiet = true) :
    Pending cfg h k c (s.emit e) where
  ledger := hp.ledger.emit he
  ops_nil := hp.ops_nil
  op := by simpa [Event.Quiet.replay he] using hp.op
  call := fun C hC => hp.call C (by simpa [(Event.Quiet.ne_called he _ C).symm] using hC)
  closed := hp.closed
  valid := hp.valid

/-- The stream suspends in a task of the chain on a quiet request. -/
theorem Pending.suspend {k : Nat} {c : Caller} (hp : Pending cfg h k c s) (g : Stage) {r : Request}
    (hr : (Event.requested r).Quiet = true)
    (hchunk : ∀ ch, g.chunk? = some ch →
      s.st.currentPayload ≠ none ∧ ch = newChunk s.st h ((unsent s.trace).map Prod.fst))
    (hdest : g = .closeDestination → c = .close ∧
      (h.handshake = false → EomSent s.trace ∨ ∃ j, Event.called j .abort ∈ s.trace)) :
    SeqInv cfg h (s.suspend ⟨k, c, g⟩ r) :=
  .suspend (hp.ledger.emit hr) hp.ops_nil ⟨k, c, g⟩ hp.op hchunk hp.closed hp.valid hdest

end task

/-! ### Callback chains -/

section chains

variable {cfg} {h : MessageHeader} {k : Nat} {s : Sys}

theorem closeFlushed_seqInv (hp : Pending cfg h k .close s) (ok : Bool)
    (hok : ok = true → unsent s.trace = [] ∧ (h.handshake = false → EomSent s.trace))
    (hnok : ok = false → s.st.aborted = true) : SeqInv cfg h (closeFlushed k ok s) := by
  have key : ∀ s0 : Sys, Pending cfg h k .close s0 → s0.trace = s.trace →
      s0.st.aborted = s.st.aborted → SeqInv cfg h (if s0.st.closeDestination = true then
        s0.suspend ⟨k, .close, .closeDestination⟩ .closeDestination
        else s0.deliver k (.result (.bool ok))) := by
    intro s0 hp0 htr ha
    split
    · refine hp0.suspend _ rfl (by simp [Stage.chunk?]) fun _ => ⟨rfl, fun hh => ?_⟩
      cases ok
      · exact .inr (hp.ledger.aborted_called (ha ▸ hnok rfl) |>.imp fun _ h => htr ▸ h)
      · exact .inl (htr ▸ (hok rfl).2 hh)
    · exact hp0.deliver _ (fun ho => ⟨fun _ hh => by
        obtain rfl : ok = true := by simpa using ho
        exact .inl (htr ▸ (hok rfl).2 hh), by simp⟩) (by simp)
  unfold closeFlushed
  dsimp only
  split
  · rename_i hok'
    obtain ⟨hu, he⟩ := hok hok'
    refine key _ ⟨hp.ledger.of_st rfl (.inr ⟨rfl, hu, he⟩) (fun h => .inl h) rfl (.inl ⟨rfl, rfl⟩)
      (fun h => .inl h), hp.ops_nil, hp.op, hp.call, hp.closed, hp.valid⟩ rfl rfl
  · exact key s hp rfl rfl

theorem compressionFlushed_seqInv {a : Option CompressionAlgorithm}
    (hp : Pending cfg h k (.setCompressionAlgorithm a) s) (ok : Bool)
    (hok : ok = true → unsent s.trace = []) : SeqInv cfg h (compressionFlushed a k ok s) := by
  unfold compressionFlushed
  split
  · rename_i hok'
    refine .of_ledger ?_ hp.ops_nil
    exact hp.ledger.record (e := .delivered k (.result (.bool true))) rfl rfl rfl
      (by rw [replay_of_snd hp.op]) (by simp [hok hok']) (fun _ => hp.valid a rfl) (by simp)
      (fun _ k' he hc => absurd (hp.call _ (by simpa using (Event.delivered.inj he).1 ▸ hc)) (by simp [Caller.call]))
      (by simp) (by simpa [Event.writeChunk?] using hp.ledger.cache)
  · exact hp.deliver _ (by simp) (by simp)

/-- A flush reports `o` to its callback: true only once the buffer is empty (and, for
`close`, the end-of-message chunk sent), false only after an abort. -/
theorem flushDone_seqInv {c : Caller} (hp : Pending cfg h k c s) (o : Outcome)
    (htrue : o = .result (.bool true) →
      unsent s.trace = [] ∧ (h.handshake = false → c = .close → EomSent s.trace))
    (hfalse : o = .result (.bool false) → s.st.aborted = true) :
    SeqInv cfg h (flushDone k c o s) := by
  unfold flushDone
  split
  · exact closeFlushed_seqInv hp _ (fun hok => by
      obtain ⟨hu, he⟩ := htrue (by rw [hok])
      exact ⟨hu, fun hh => he hh rfl⟩) fun hok => hfalse (by rw [hok])
  · exact compressionFlushed_seqInv hp _ fun hok => (htrue (by rw [hok])).1
  · rename_i hne1 hne2
    refine hp.deliver o (fun ho => ⟨fun hc => ?_, fun a hc => ?_⟩) (fun ho a hc => ?_)
    · exact absurd ho (fun ho => hne1 _ hc ho)
    · exact absurd ho (fun ho => hne2 _ _ hc ho)
    · exact hne2 _ _ hc ho

theorem perform_seqInv (hm : cfg.getMessageHeader = some h) {c : Caller} (hp : Pending cfg h k c s) :
    SeqInv cfg h (perform cfg k c s) := by
  have hl := hp.ledger
  unfold perform
  split
  · rename_i o ho
    refine flushDone_seqInv hp o (fun hot => ?_) (fun hof => ?_)
    · rcases Stream.check_eq_some ho with ⟨-, rfl⟩ | hf
      · simp at hot
      · subst hot
        exact hf.elim
    · rcases Stream.check_eq_some ho with ⟨ha, -⟩ | hf
      · exact ha
      · subst hof
        exact hf.elim
  · split
    · rename_i hcp
      have hu : unsent s.trace = [] := by simpa [hcp] using hl.buffer.symm
      exact flushDone_seqInv hp _ (fun _ => ⟨hu, fun hh _ => hl.none_eom hh hcp⟩) (by simp)
    · rename_i segs hcp
      have hsegs : segs = (unsent s.trace).map Prod.fst := by simpa [hcp] using hl.buffer
      split
      · rename_i hempty
        have hcl : s.st.closed = false ∧ segs = [] := by simpa using hempty
        have hu : unsent s.trace = [] := by simpa [hcl.2] using hsegs.symm
        exact flushDone_seqInv hp _ (fun _ => ⟨hu, fun _ hc => by simp [hp.closed hc] at hcl⟩)
          (by simp)
      · simp only [hm]
        split
        · rename_i hh
          exact flushDone_seqInv hp _ (fun _ => ⟨hl.handshake_unsent hh, by simp [hh]⟩) (by simp)
        · subst hsegs
          refine .suspend ?_ hp.ops_nil _ hp.op (fun ch hch => ⟨by simp [hcp], by simpa [Stage.chunk?] using hch.symm⟩)
            hp.closed hp.valid (by simp)
          exact hl.record (e := .requested (.create _)) rfl rfl rfl (by simp [hl.algo_log])
            hl.unsent_algo hl.algo_valid
            (fun ch he => by
              obtain rfl := Request.create.inj (Event.requested.inj he)
              exact ⟨rfl, hl.unsent_algo⟩)
            (by simp) (by simp) (by simpa [Event.writeChunk?] using hl.cache)

theorem flush_seqInv (hm : cfg.getMessageHeader = some h) {c : Caller} (hp : Pending cfg h k c s) :
    SeqInv cfg h (flush cfg k c s) := by
  unfold flush
  split
  · exact perform_seqInv hm hp
  · exact hp.suspend .poll rfl (by simp [Stage.chunk?]) (by simp)

/-- `chunkFlushed` counts the chunk of the chain as sent. -/
theorem Pending.send {c : Caller} (hp : Pending cfg h k c s) (hcp : s.st.currentPayload ≠ none) :
    Pending cfg h k c ((s.modify fun st => { st with
      payloadSequenceNumber := st.payloadSequenceNumber + 1
      currentPayload := if st.closed then none else some [] }).emit
      (.sent (newChunk s.st h ((unsent s.trace).map Prod.fst)))) where
  ledger := hp.ledger.send hcp
  ops_nil := hp.ops_nil
  op := by simpa using hp.op
  call := fun C hC => hp.call C (by simpa using hC)
  closed := hp.closed
  valid := hp.valid

theorem created_seqInv {t : Task} (hp : Pending cfg h t.k t.caller s)
    (hcp : s.st.currentPayload ≠ none) {ch : PayloadChunk}
    (hc : ch = newChunk s.st h ((unsent s.trace).map Prod.fst)) :
    SeqInv cfg h (created t ch s) := by
  have hl := hp.ledger
  have hchunk : ∀ c', (Stage.write ch).chunk? = some c' →
      s.st.currentPayload ≠ none ∧ c' = newChunk s.st h ((unsent s.trace).map Prod.fst) :=
    fun _ h' => ⟨hcp, (Option.some.inj h').symm.trans hc⟩
  unfold created
  dsimp only
  split
  · rename_i hca
    refine .suspend ?_ ?_ ⟨t.k, t.caller, .write ch⟩ ?_ ?_ ?_ ?_ (by simp)
    exacts [hl.record (e := .requested (.writeChunk ch)) rfl rfl rfl (by simp [hl.algo_log])
      hl.unsent_algo hl.algo_valid (by simp) (by simp) (by simp)
      (by rw [hl.cache]; simp [hca, Event.writeChunk?]), hp.ops_nil, hp.op, hchunk, hp.closed, hp.valid]
  · rename_i hca
    refine .suspend ?_ ?_ ⟨t.k, t.caller, .write ch⟩ ?_ ?_ ?_ ?_ (by simp)
    exacts [hl.record (e := .requested (.writeChunk ch)) rfl rfl rfl (by simp [hl.algo_log])
      hl.unsent_algo hl.algo_valid (by simp) (by simp) (by simp) (by simpa [hca] using hl.cache),
      hp.ops_nil, hp.op, hchunk, hp.closed, hp.valid]

theorem chunkWritten_seqInv {t : Task} (hp : Pending cfg h t.k t.caller s)
    (hcp : s.st.currentPayload ≠ none) {ch : PayloadChunk}
    (hc : ch = newChunk s.st h ((unsent s.trace).map Prod.fst)) (n : Nat) :
    SeqInv cfg h (chunkWritten cfg t ch n s) := by
  unfold chunkWritten
  split
  · exact flushDone_seqInv hp _ (by simp) fun _ => ‹_›
  · split
    · exact flushDone_seqInv hp _ (by simp) (by simp)
    · exact hp.suspend (.flush ch) rfl (fun _ h' => ⟨hcp, (Option.some.inj h').symm.trans hc⟩)
        (by simp)

theorem chunkFlushed_seqInv {t : Task} (hp : Pending cfg h t.k t.caller s)
    (hcp : s.st.currentPayload ≠ none) {ch : PayloadChunk}
    (hc : ch = newChunk s.st h ((unsent s.trace).map Prod.fst)) (ok : Bool) :
    SeqInv cfg h (chunkFlushed t ch ok s) := by
  unfold chunkFlushed
  split
  · exact flushDone_seqInv hp _ (by simp) fun _ => ‹_›
  · split
    · exact flushDone_seqInv hp _ (by simp) (by simp)
    · subst hc
      exact flushDone_seqInv (hp.send hcp) _
        (fun _ => ⟨by simp [unsentStep], fun _ hcl =>
          ⟨newChunk s.st h ((unsent s.trace).map Prod.fst), by simp, hp.closed hcl⟩⟩) (by simp)

/-- Task `t` of the chain resumes on answer `a`, recorded in the trace. -/
theorem resume_seqInv {t : Task} {a : Answer} {s' : Sys} (hp : Pending cfg h t.k t.caller s)
    (hchunk : ∀ ch, t.stage.chunk? = some ch →
      s.st.currentPayload ≠ none ∧ ch = newChunk s.st h ((unsent s.trace).map Prod.fst))
    (hdest : t.stage = .closeDestination → t.caller = .close ∧
      (h.handshake = false → EomSent s.trace ∨ ∃ j, Event.called j .abort ∈ s.trace))
    (hans : Event.answered t.stage.request a ∈ s.trace) (hr : resume cfg t a s = some s') :
    SeqInv cfg h s' := by
  rcases resume_cases hr with ⟨o, rfl, ho, -⟩ | ⟨ch, hst, rfl⟩ | ⟨ch, n, hst, rfl⟩ | ⟨ch, ok, hst, rfl⟩ |
    ⟨hst, ⟨ok, rfl, rfl⟩ | ⟨o, rfl, ho, -⟩⟩
  · exact flushDone_seqInv hp o (fun h => absurd h (ho.ne_result _)) (fun h => absurd h (ho.ne_result _))
  · obtain ⟨hcp, hc⟩ := hchunk ch (by simp [hst, Stage.chunk?])
    exact created_seqInv hp hcp hc
  · obtain ⟨hcp, hc⟩ := hchunk ch (by simp [hst, Stage.chunk?])
    exact chunkWritten_seqInv hp hcp hc n
  · obtain ⟨hcp, hc⟩ := hchunk ch (by simp [hst, Stage.chunk?])
    exact chunkFlushed_seqInv hp hcp hc ok
  · obtain ⟨hcl, hd⟩ := hdest hst
    refine hp.deliver _ (fun ho => ⟨fun _ hh => ?_, by simp [hcl]⟩) (by simp [hcl])
    obtain rfl : ok = true := by simpa using ho
    rcases hd hh with he | habort
    · exact .inl he
    · exact .inr (.inr ⟨habort, by simpa [hst, Stage.request] using hans⟩)
  · exact hp.deliver _ (fun h => absurd h (ho.ne_result _)) (fun h => absurd h (ho.ne_result _))

end chains

/-! ### Steps around the operation in flight -/

/-- Events a step records around the operation in flight without touching it: the quiet ones
and the calls that are not operations. -/
def Event.Passive : Event → Bool
  | .called _ c => !c.isOperation
  | e => e.Quiet

section passive

variable {e : Event} (he : e.Passive = true)
include he

theorem Event.Passive.replay (p : Option CompressionAlgorithm × Option Call) : replay p e = p := by
  cases e with
  | called k c => simp_all [Event.Passive]
  | _ => exact Event.Quiet.replay (by simpa [Event.Passive] using he) p

theorem Event.Passive.unsentStep (acc : List (List UInt8 × Option CompressionAlgorithm)) :
    unsentStep acc e = acc := by
  cases e with
  | called => rfl
  | _ => exact Event.Quiet.unsentStep (by simpa [Event.Passive] using he) acc

end passive

theorem foldl_eq_of_fixed {β : Type} (f : β → Event → β) {x : β} :
    ∀ {es : List Event}, (∀ e ∈ es, f x e = x) → es.foldl f x = x
  | [], _ => rfl
  | e :: es, h => by
    rw [List.foldl_cons, h e (List.mem_cons_self _ _)]
    exact foldl_eq_of_fixed f fun e' he' => h e' (List.mem_cons_of_mem _ he')

theorem unsent_append_passive {t es : List Event} (hes : ∀ e ∈ es, e.Passive = true) :
    unsent (t ++ es) = unsent t := by
  rw [unsent, List.foldl_append]
  exact foldl_eq_of_fixed _ fun e he => Event.Passive.unsentStep (hes e he) _

theorem opState_append_passive {t es : List Event} (hes : ∀ e ∈ es, e.Passive = true) :
    opState cfg (t ++ es) = opState cfg t := by
  rw [opState, List.foldl_append]
  exact foldl_eq_of_fixed _ fun e he => Event.Passive.replay (hes e he) _

section steps

variable {cfg} {h : MessageHeader} {s : Sys}

theorem SeqInv.ops_cases (hs : SeqInv cfg h s) : s.ops = [] ∨ ∃ t, s.ops = [t] := by
  have hl := hs.single
  match hops : s.ops with
  | [] => exact .inl rfl
  | [t] => exact .inr ⟨t, rfl⟩
  | _ :: _ :: _ => simp [hops] at hl

/-- A step that records passive events and keeps what a chunk is built from keeps the task in
flight as it was. -/
theorem SeqInv.frame (hs : SeqInv cfg h s) {s' : Sys} (hl : Ledger cfg h s'.st s'.trace)
    (hops : s'.ops = s.ops) (es : List Event) (htr : s'.trace = s.trace ++ es)
    (hes : ∀ e ∈ es, e.Passive = true) (hcp : s'.st.currentPayload = s.st.currentPayload)
    (hnc : newChunk s'.st h = newChunk s.st h) (hcl : s'.st.closed = s.st.closed) :
    SeqInv cfg h s' where
  ledger := hl
  single := hops ▸ hs.single
  task_op := by
    rw [hops, htr, opState_append_passive cfg hes]
    exact hs.task_op
  task_chunk := by
    rw [hops, hcp, hnc, htr, unsent_append_passive hes]
    exact hs.task_chunk
  task_close := by
    rw [hops, hcl]
    exact hs.task_close
  task_sca := hops ▸ hs.task_sca
  task_dest := fun t ht hd => by
    rw [hops] at ht
    refine ⟨(hs.task_dest t ht hd).1, fun hh => ?_⟩
    rw [htr]
    rcases (hs.task_dest t ht hd).2 hh with he | ⟨j, hj⟩
    · exact .inl (he.append _)
    · exact .inr ⟨j, by simp [hj]⟩

/-- The flags `Ledger` does not read (`_ready`, `_timedout`, `_errored`) change. -/
theorem SeqInv.flags (hs : SeqInv cfg h s) (f : Stream → Stream)
    (hf : { f s.st with ready := s.st.ready, timedout := s.st.timedout, errored := s.st.errored } =
      s.st) : SeqInv cfg h (s.modify f) := by
  have hseq : (f s.st).payloadSequenceNumber = s.st.payloadSequenceNumber :=
    (congrArg Stream.payloadSequenceNumber hf :)
  have hcp : (f s.st).currentPayload = s.st.currentPayload := (congrArg Stream.currentPayload hf :)
  have hcl : (f s.st).closed = s.st.closed := (congrArg Stream.closed hf :)
  have hal : (f s.st).compressionAlgo = s.st.compressionAlgo := (congrArg Stream.compressionAlgo hf :)
  have hl := hs.ledger.of_st hseq (.inl hcp) (fun hc => .inl (hcl ▸ hc)) hal
    (.inl ⟨(congrArg Stream.caching hf :), (congrArg Stream.payloads hf :)⟩)
    (fun ha => .inl ((congrArg Stream.aborted hf :) ▸ ha))
  refine hs.frame hl rfl [] (List.append_nil _).symm (by simp) hcp ?_ hcl
  funext segs
  simp only [newChunk, Sys.modify_st, hseq, hcl, hal]

theorem SeqInv.emit (hs : SeqInv cfg h s) {e : Event} (he : e.Quiet = true) :
    SeqInv cfg h (s.emit e) :=
  hs.frame (hs.ledger.emit he) rfl [e] rfl
    (by cases e <;> simp_all [Event.Passive, Event.Quiet]) rfl rfl rfl

/-- `SeqInv` does not read the header transmission. -/
theorem SeqInv.setHeader (hs : SeqInv cfg h s) (x : Option HeaderStage) :
    SeqInv cfg h { s with header := x } :=
  ⟨hs.ledger, hs.single, hs.task_op, hs.task_chunk, hs.task_close, hs.task_sca, hs.task_dest⟩

/-- The one task of `s` is the chain about to run once it is taken off the list. -/
theorem SeqInv.pending (hs : SeqInv cfg h s) (hc : CallsInv s.ops s.trace s.next) {t : Task}
    (ht : s.ops = [t]) : Pending cfg h t.k t.caller { s with ops := [] } where
  ledger := hs.ledger
  ops_nil := rfl
  op := hs.task_op t (by simp [ht])
  call := fun C hC => hc.called_unique _ _ _ hC (hc.ops_called t (by simp [ht]))
  closed := hs.task_close t (by simp [ht])
  valid := hs.task_sca t (by simp [ht])

theorem ready_seqInv (hm : cfg.getMessageHeader = some h) (hs : SeqInv cfg h s)
    (hc : CallsInv s.ops s.trace s.next) : SeqInv cfg h (ready cfg s) := by
  have h2 : SeqInv cfg h ((s.modify fun st => { st with ready := true }).emit .ready) :=
    (hs.flags _ rfl).emit rfl
  have hc2 : CallsInv s.ops (s.trace ++ [.ready]) s.next :=
    hc.append_quiet (by simp [Event.isCall]) (by simp [Event.delivered?])
  unfold ready
  dsimp only
  split
  · rename_i t rest hw
    obtain ⟨hperm, -⟩ := takeWaiter_perm hw
    have hlen := hperm.length_eq
    have hrest : rest = [] := by
      have := hs.single
      simp only [Sys.emit_ops, Sys.modify_ops, List.length_cons] at hlen
      exact List.eq_nil_of_length_eq_zero (by omega)
    subst hrest
    exact perform_seqInv hm (h2.pending hc2 (List.perm_singleton.mp hperm))
  · exact h2

theorem cancelAll_seqInv (hs : SeqInv cfg h s) (hc : CallsInv s.ops s.trace s.next)
    (hab : s.st.aborted = true) : SeqInv cfg h (cancelAll s) := by
  unfold cancelAll
  rcases hs.ops_cases with hops | ⟨t, hops⟩
  · rw [hops]
    exact .of_ledger hs.ledger rfl
  · rw [hops]
    cases hp : t.stage.isPoll
    · simp only [List.filter_cons, hp, Bool.not_false, List.filter_nil, if_true, Bool.false_eq_true,
        if_false, List.foldl_nil]
      exact hs.frame hs.ledger hops.symm [] (List.append_nil _).symm (by simp) rfl rfl rfl
    · simp only [List.filter_cons, hp, Bool.not_true, List.filter_nil, if_true, Bool.false_eq_true,
        if_false, List.foldl_cons, List.foldl_nil]
      exact flushDone_seqInv (hs.pending hc hops) _ (by simp) fun _ => hab

theorem headerAnswered_seqInv (hm : cfg.getMessageHeader = some h) {hs : HeaderStage} {a : Answer}
    {s' : Sys} (hi : SeqInv cfg h s) (hc : CallsInv s.ops s.trace s.next)
    (he : headerAnswered cfg hs a s = some s') : SeqInv cfg h s' := by
  unfold headerAnswered at he
  split at he <;> simp only [Option.some.injEq, reduceCtorEq] at he <;> subst he
  · split
    · exact ready_seqInv hm hi hc
    · split
      · exact ready_seqInv hm (hi.flags _ rfl) hc
      · exact (hi.setHeader _).emit (e := .requested .flushHeader) rfl
  · split
    · exact ready_seqInv hm hi hc
    · exact ready_seqInv hm (hi.flags _ rfl) hc
  · exact ready_seqInv hm (hi.flags _ rfl) hc
  · exact ready_seqInv hm (hi.flags _ rfl) hc

theorem answerHeader_seqInv (hm : cfg.getMessageHeader = some h) (a : Answer) (hs : SeqInv cfg h s)
    (hc : CallsInv s.ops s.trace s.next) : SeqInv cfg h (answerHeader cfg a s) := by
  unfold answerHeader
  split
  · refine getD_of (SeqInv cfg h) hs fun s' he => headerAnswered_seqInv hm ?_
      (hc.append_quiet (by simp [Event.isCall]) (by simp [Event.delivered?])) he
    exact (hs.setHeader _).emit (e := .answered _ a) rfl
  · exact hs

theorem answer_seqInv (i : Nat) (a : Answer)
    (hs : SeqInv cfg h s) (hc : CallsInv s.ops s.trace s.next) : SeqInv cfg h (answer cfg i a s) := by
  unfold answer
  split
  · rename_i t ht
    refine getD_of (SeqInv cfg h) hs fun s' he => ?_
    have hperm := perm_cons_eraseIdx ht
    have hlen := hperm.length_eq
    have herase : s.ops.eraseIdx i = [] := by
      have := hs.single
      simp only [List.length_cons] at hlen
      exact List.eq_nil_of_length_eq_zero (by omega)
    have hops : s.ops = [t] := by simpa [herase] using List.perm_singleton.mp (herase ▸ hperm)
    have hmem : t ∈ s.ops := by simp [hops]
    have hp : Pending cfg h t.k t.caller
        ({ s with ops := s.ops.eraseIdx i }.emit (.answered t.stage.request a)) := by
      rw [herase]
      exact (hs.pending hc hops).emit rfl
    refine resume_seqInv hp (fun ch hch => ?_) (fun hd => ⟨(hs.task_dest t hmem hd).1, fun hh => ?_⟩)
      (by simp) he
    · simpa [unsentStep] using hs.task_chunk t hmem ch hch
    · rcases (hs.task_dest t hmem hd).2 hh with he | ⟨j, hj⟩
      · exact .inl (he.append _)
      · exact .inr ⟨j, by simp [hj]⟩
  · exact hs

/-! ### Calls -/

theorem SeqInv.begin_ledger (hs : SeqInv cfg h s) (hc : CallsInv s.ops s.trace s.next) {C : Call}
    (hC : C ≠ .stopCaching) : Ledger cfg h (s.begin C).st (s.begin C).trace :=
  hs.ledger.begin C (fun o ho => hc.not_delivered_next (mem_deliveredIds.mpr ⟨o, ho⟩)) rfl rfl rfl
    rfl rfl (by simp [hC, Sys.begin])

/-- An operation called with nothing in flight: the ledger, and the call as the one in flight. -/
theorem SeqInv.begin_op (hs : SeqInv cfg h s) (hc : CallsInv s.ops s.trace s.next) (hi : Idle s)
    {C : Call} (hC : C.isOperation = true) :
    Ledger cfg h (s.begin C).st (s.begin C).trace ∧ (s.begin C).ops = [] ∧
      (opState cfg (s.begin C).trace).2 = some C ∧
      ∀ C', Event.called s.next C' ∈ (s.begin C).trace → C' = C := by
  refine ⟨hs.begin_ledger hc (by rintro rfl; simp [Call.isOperation] at hC), hc.ops_eq_nil hi,
    by simp [Sys.begin, hC], fun C' hC' => ?_⟩
  rcases List.mem_append.mp hC' with h' | h'
  · exact absurd (hc.called_lt _ _ h') (Nat.lt_irrefl _)
  · exact (Event.called.inj (List.mem_singleton.mp h')).2

theorem write_seqInv (hm : cfg.getMessageHeader = some h) (hs : SeqInv cfg h s)
    (hc : CallsInv s.ops s.trace s.next) (hi : Idle s) (data : List UInt8) (off len : Int) :
    SeqInv cfg h (write cfg data off len s.next (s.begin (.write data off len))) := by
  obtain ⟨hl, hops, hop, hk⟩ := hs.begin_op hc hi (C := .write data off len) rfl
  rcases write_cases cfg data off len s.next (s.begin _) with ⟨o, hw, -⟩ | ⟨h', segs, hh', hh, hcp, hw⟩ <;>
    rw [hw]
  · exact .deliver hl hops hk hop (by simp) (by simp)
  obtain rfl : h' = h := Option.some.inj (hh'.symm.trans hm)
  refine .deliver (C := .write data off len) ?_ ?_ ?_ ?_ (by simp) (by simp)
  exacts [hl.push (by simpa using hh) hcp _, hops, fun C' h' => hk C' (by simpa using h'),
    by simpa using hop]

theorem close_seqInv (hm : cfg.getMessageHeader = some h) (hs : SeqInv cfg h s)
    (hc : CallsInv s.ops s.trace s.next) (hi : Idle s) :
    SeqInv cfg h (close cfg s.next (s.begin .close)) := by
  obtain ⟨hl, hops, hop, hk⟩ := hs.begin_op hc hi (C := .close) rfl
  unfold close
  split
  · rename_i o ho
    refine .deliver hl hops hk hop (fun hot => ?_) (by simp)
    rcases Stream.check_eq_some ho with ⟨-, rfl⟩ | hf
    · simp at hot
    · subst hot
      exact hf.elim
  · split
    · rename_i hcl
      obtain ⟨k', hk'⟩ := hs.ledger.closed_called hcl
      exact .deliver hl hops hk hop
        (fun _ => ⟨fun _ _ => .inr (.inl ⟨k', hc.called_lt _ _ hk', List.mem_append_left _ hk'⟩),
          by simp⟩) (by simp)
    · exact flush_seqInv hm ⟨hl.of_st rfl (.inl rfl) (fun _ => .inr ⟨s.next, by simp [Sys.begin]⟩)
        rfl (.inl ⟨rfl, rfl⟩) .inl, hops, hop, hk, fun _ => rfl, by simp⟩

theorem setCompressionAlgorithm_seqInv (hm : cfg.getMessageHeader = some h) (hs : SeqInv cfg h s)
    (hc : CallsInv s.ops s.trace s.next) (hi : Idle s) (a : Option CompressionAlgorithm) :
    SeqInv cfg h (setCompressionAlgorithm cfg a s.next (s.begin (.setCompressionAlgorithm a))) := by
  obtain ⟨hl, hops, hop, hk⟩ := hs.begin_op hc hi (C := .setCompressionAlgorithm a) rfl
  have hrefused : ∀ x, a = some x → s.st.compressionAlgo ≠ a →
      (∀ algos, cfg.capabilities = some algos → x ∉ algos) →
      SeqInv cfg h ((s.begin (.setCompressionAlgorithm a)).deliver s.next (.result (.bool false))) :=
    fun x hx hne hout => .deliver hl hops hk hop (by simp) fun _ a' ha' => by
      obtain rfl : a = a' := by simpa using ha'
      exact ⟨s.trace, rfl, by rw [← hs.ledger.algo_log]; exact hne, x, hx, hout⟩
  have hpend : AlgoValid cfg a → Pending cfg h s.next (.setCompressionAlgorithm a)
      (s.begin (.setCompressionAlgorithm a)) :=
    fun hv => ⟨hl, hops, hop, hk, by simp, fun a' ha' => by simpa [← (Caller.setCompressionAlgorithm.inj ha')] using hv⟩
  unfold setCompressionAlgorithm
  split
  · exact .deliver hl hops hk hop (by simp) (by simp)
  · split
    · rename_i heq
      exact .deliver hl hops hk hop (fun _ => ⟨by simp, fun a' ha' => by simpa [← (Call.setCompressionAlgorithm.inj ha')] using heq⟩) (by simp)
    · rename_i hne
      split
      · rename_i x
        split
        · rename_i hcaps
          exact hrefused x rfl hne (by simp [hcaps])
        · rename_i algos hcaps
          split
          · rename_i hx
            exact flush_seqInv hm (hpend ⟨algos, hcaps, hx⟩)
          · rename_i hx
            exact hrefused x rfl hne fun algos' h' => by
              obtain rfl := Option.some.inj (hcaps.symm.trans h')
              exact hx
      · exact flush_seqInv hm (hpend trivial)

theorem abort_seqInv (hs : SeqInv cfg h s) (hc : CallsInv s.ops s.trace s.next) :
    SeqInv cfg h (abort (s.begin .abort)) := by
  have hl := hs.begin_ledger hc (C := .abort) (by simp)
  have h1 : SeqInv cfg h (((s.begin .abort).modify fun st => { st with aborted := true }).emit
      (.requested .abort)) :=
    hs.frame ((hl.abort ⟨s.next, by simp [Sys.begin]⟩).emit (e := .requested .abort) rfl) rfl
      [.called s.next .abort, .requested .abort] (by simp [Sys.begin])
      (by simp [Event.Passive, Event.Quiet, Call.isOperation]) rfl rfl rfl
  exact cancelAll_seqInv h1 ((hc.call .abort).append_quiet (by simp [Event.isCall])
    (by simp [Event.delivered?])) rfl

theorem stopCaching_seqInv (hs : SeqInv cfg h s) (hc : CallsInv s.ops s.trace s.next) :
    SeqInv cfg h (stopCaching (s.begin .stopCaching)) :=
  hs.frame (hs.ledger.begin .stopCaching (fun o ho => hc.not_delivered_next
      (mem_deliveredIds.mpr ⟨o, ho⟩)) rfl rfl rfl rfl rfl (by simp [stopCaching, Sys.begin])) rfl
    [.called s.next .stopCaching] rfl (by simp [Event.Passive, Call.isOperation]) rfl rfl rfl

theorem closeDestination_seqInv (hs : SeqInv cfg h s) (hc : CallsInv s.ops s.trace s.next) (b : Bool) :
    SeqInv cfg h (closeDestination b (s.begin (.closeDestination b))) :=
  hs.frame (hs.ledger.begin (.closeDestination b) (fun o ho => hc.not_delivered_next
      (mem_deliveredIds.mpr ⟨o, ho⟩)) rfl rfl rfl rfl rfl (by simp [closeDestination, Sys.begin]))
    rfl [.called s.next (.closeDestination b)] rfl (by simp [Event.Passive, Call.isOperation]) rfl
    rfl rfl

theorem seqInv_step (hm : cfg.getMessageHeader = some h) (hs : SeqInv cfg h s)
    (hc : CallsInv s.ops s.trace s.next) (i : Input) (hi : i.isOperation → Idle s) :
    SeqInv cfg h (step cfg s i) := by
  cases i with
  | call C =>
    cases C with
    | write data off len => exact write_seqInv hm hs hc (hi rfl) data off len
    | flush =>
      obtain ⟨hl, hops, hop, hk⟩ := hs.begin_op hc (hi rfl) (C := .flush) rfl
      exact flush_seqInv hm ⟨hl, hops, hop, hk, by simp, by simp⟩
    | close => exact close_seqInv hm hs hc (hi rfl)
    | setCompressionAlgorithm a => exact setCompressionAlgorithm_seqInv hm hs hc (hi rfl) a
    | abort => exact abort_seqInv hs hc
    | stopCaching => exact stopCaching_seqInv hs hc
    | closeDestination b => exact closeDestination_seqInv hs hc b
  | header a => exact answerHeader_seqInv hm a hs hc
  | answer j a => exact answer_seqInv j a hs hc

end steps

/-! ### Every run with one operation at a time -/

theorem ledger_init (h : MessageHeader) : Ledger cfg h (init cfg).st (init cfg).trace where
  seq_nums := by simp [init, Event.sent?]
  seq_next := by simp [init, Event.sent?]
  ids := by simp [init, Event.sent?]
  eom_last := by simp [init, Event.sent?]
  eom_none := by simp [init, EomSent, Event.sent?]
  none_eom := by simp [init]
  closed_called := by simp [init]
  eom_closed := by simpa [init] using (Each.nil _).concat (e := .requested .writeHeader) (by simp)
  buffer := by simp [init, unsent, unsentStep]
  data := by simp [init, unsent, unsentStep, Event.sent?, Event.appended?]
  unsent_algo := by simp [init, unsent, unsentStep]
  handshake_unsent := by simp [init, unsent, unsentStep]
  created := by simpa [init] using (Each.nil _).concat (e := .requested .writeHeader) (by simp)
  algo_log := by simp [init, opState]
  algo_valid := fun hpv => by
    simp only [init]
    split
    · rename_i algos hcaps
      rcases hpv algos with hn | ⟨x, hx, hmem⟩
      · rw [hn]
        trivial
      · rw [hx]
        exact ⟨algos, hcaps, hmem⟩
    · trivial
  cache := by simp [init, writeChunks, Event.writeChunk?]
  caching_iff := by simp [init]
  aborted_called := by simp [init]
  close_true := by simp [init]
  false_at_call := by simpa [init] using (Each.nil _).concat (e := .requested .writeHeader) (by simp)

theorem seqInv_init (h : MessageHeader) : SeqInv cfg h (init cfg) :=
  .of_ledger (ledger_init cfg h) rfl

theorem seqInv_run (hm : cfg.getMessageHeader = some h) (is : List Input)
    (hone : OneAtATime cfg (init cfg) is) : SeqInv cfg h (run cfg (init cfg) is) :=
  (run_induction_one cfg (fun s => SeqInv cfg h s ∧ CallsInv s.ops s.trace s.next)
    (fun _ i ⟨hs, hc⟩ hi => ⟨seqInv_step hm hs hc i hi, callsInv_step cfg i hc⟩) _ is
    ⟨seqInv_init cfg h, callsInv_init cfg⟩ hone).1

end Msl.MessageOutputStream
