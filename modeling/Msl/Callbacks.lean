import Msl.Trace

/-! # Every call is answered at most once, and pending calls are suspended

A callback chain of call `k` (`flushDone`, `perform`, `flush`, the chunk callbacks, `resume`)
records no call and ends in one of two ways: it suspends again in one new task of `k`, or it
delivers exactly one outcome to `k` (`Settles`).  From this, `CallsInv` holds of every
reachable state (`callsInv_run`): calls are numbered apart, every delivered outcome answers an
operation, no call is answered twice, and a suspended task belongs to a call that has not been
answered.  Hence a stream on which every operation has delivered its outcome has no suspended
task (`CallsInv.ops_eq_nil`): `OneAtATime` runs have at most one operation in flight. -/

namespace Msl.MessageOutputStream

open Sys

/-- The call a flush callback belongs to. -/
def Caller.call : Caller → Call
  | .flush => .flush
  | .close => .close
  | .setCompressionAlgorithm a => .setCompressionAlgorithm a

@[simp] theorem Caller.call_isOperation (c : Caller) : c.call.isOperation = true := by
  cases c <;> rfl

/-- The call number of a `delivered` event. -/
def Event.delivered? : Event → Option Nat
  | .delivered k _ => some k
  | _ => none

/-- Whether an event is a call. -/
def Event.isCall : Event → Bool
  | .called .. => true
  | _ => false

/-- The calls answered in a trace, in order, once per outcome. -/
def deliveredIds (t : List Event) : List Nat := t.filterMap Event.delivered?

@[simp] theorem deliveredIds_append (t u : List Event) :
    deliveredIds (t ++ u) = deliveredIds t ++ deliveredIds u := List.filterMap_append ..
@[simp] theorem deliveredIds_cons (e : Event) (t : List Event) :
    deliveredIds (e :: t) = e.delivered?.toList ++ deliveredIds t := by
  cases h : e.delivered? <;> simp [deliveredIds, List.filterMap_cons, h]
@[simp] theorem deliveredIds_nil : deliveredIds [] = [] := rfl

theorem mem_deliveredIds {k : Nat} {t : List Event} :
    k ∈ deliveredIds t ↔ ∃ o, Event.delivered k o ∈ t := by
  simp only [deliveredIds, List.mem_filterMap]
  constructor
  · rintro ⟨e, he, h⟩
    cases e <;> simp only [Event.delivered?, Option.some.injEq, reduceCtorEq] at h
    exact ⟨_, h ▸ he⟩
  · rintro ⟨o, h⟩
    exact ⟨_, h, rfl⟩

/-- With no call answered twice, a call's outcome is unique. -/
theorem delivered_unique {t : List Event} (hn : (deliveredIds t).Nodup) {k : Nat} {o o' : Outcome}
    (h : Event.delivered k o ∈ t) (h' : Event.delivered k o' ∈ t) : o = o' := by
  induction t with
  | nil => simp at h
  | cons e t ih =>
    rw [deliveredIds_cons, List.nodup_append] at hn
    rcases List.mem_cons.mp h with he | ht <;> rcases List.mem_cons.mp h' with he' | ht'
    · exact (Event.delivered.inj (he.trans he'.symm)).2
    · subst he
      exact (hn.2.2 (show k ∈ (Event.delivered k o).delivered?.toList by simp [Event.delivered?])
        (mem_deliveredIds.mpr ⟨o', ht'⟩)).elim
    · subst he'
      exact (hn.2.2 (show k ∈ (Event.delivered k o').delivered?.toList by simp [Event.delivered?])
        (mem_deliveredIds.mpr ⟨o, ht⟩)).elim
    · exact ih hn.2.1 ht ht'

/-! ### Callback chains -/

/-- The callback chain of call `k`, whose flush callback is `c`, went from `s` to `s'`. -/
structure Settles (k : Nat) (c : Caller) (s s' : Sys) : Prop where
  next : s'.next = s.next
  header : s'.header = s.header
  trace : ∃ es, s'.trace = s.trace ++ es ∧ (∀ e ∈ es, e.isCall = false) ∧
    ((∃ g, s'.ops = s.ops ++ [⟨k, c, g⟩] ∧ deliveredIds es = []) ∨
      (s'.ops = s.ops ∧ deliveredIds es = [k]))

namespace Settles

variable {k : Nat} {c : Caller} {s s' : Sys}

theorem deliver (o : Outcome) : Settles k c s (s.deliver k o) :=
  ⟨rfl, rfl, ⟨_, rfl, by simp [Event.isCall], .inr ⟨rfl, rfl⟩⟩⟩

theorem suspend (g : Stage) (r : Request) : Settles k c s (s.suspend ⟨k, c, g⟩ r) :=
  ⟨rfl, rfl, ⟨_, rfl, by simp [Event.isCall], .inl ⟨g, rfl, rfl⟩⟩⟩

/-- A chain may start by updating the stream. -/
theorem of_modify {f : Stream → Stream} (h : Settles k c (s.modify f) s') : Settles k c s s' :=
  ⟨h.next, h.header, h.trace⟩

/-- A chain may start by recording an event that is neither a call nor an outcome. -/
theorem of_emit (e : Event) (he : e.isCall = false) (hd : e.delivered? = none)
    (h : Settles k c (s.emit e) s') : Settles k c s s' := by
  obtain ⟨es, htr, hc, hops⟩ := h.trace
  refine ⟨h.next, h.header, ⟨e :: es, by simpa using htr, ?_, ?_⟩⟩
  · simpa [he] using hc
  · simpa [hd] using hops

end Settles

theorem closeFlushed_settles (k : Nat) (ok : Bool) (s : Sys) :
    Settles k .close s (closeFlushed k ok s) := by
  unfold closeFlushed
  split <;> dsimp only <;> split
  all_goals first
    | exact (Settles.suspend _ _).of_modify | exact (Settles.deliver _).of_modify
    | exact Settles.suspend _ _ | exact Settles.deliver _

theorem compressionFlushed_settles (a : Option CompressionAlgorithm) (k : Nat) (ok : Bool)
    (s : Sys) : Settles k (.setCompressionAlgorithm a) s (compressionFlushed a k ok s) := by
  unfold compressionFlushed
  split
  · exact (Settles.deliver _).of_modify
  · exact Settles.deliver _

theorem flushDone_settles (k : Nat) (c : Caller) (o : Outcome) (s : Sys) :
    Settles k c s (flushDone k c o s) := by
  unfold flushDone
  split
  · exact closeFlushed_settles k _ s
  · exact compressionFlushed_settles _ k _ s
  · exact Settles.deliver _

theorem perform_settles (cfg : Config) (k : Nat) (c : Caller) (s : Sys) :
    Settles k c s (perform cfg k c s) := by
  unfold perform
  repeat' split
  all_goals first | exact flushDone_settles k c _ s | exact Settles.suspend _ _

theorem flush_settles (cfg : Config) (k : Nat) (c : Caller) (s : Sys) :
    Settles k c s (flush cfg k c s) := by
  unfold flush
  split
  · exact perform_settles cfg k c s
  · exact Settles.suspend _ _

theorem created_settles (t : Task) (ch : PayloadChunk) (s : Sys) :
    Settles t.k t.caller s (created t ch s) := by
  unfold created
  split
  · exact (Settles.suspend _ _).of_modify
  · exact Settles.suspend _ _

theorem chunkWritten_settles (cfg : Config) (t : Task) (ch : PayloadChunk) (n : Nat) (s : Sys) :
    Settles t.k t.caller s (chunkWritten cfg t ch n s) := by
  unfold chunkWritten
  repeat' split
  all_goals first | exact flushDone_settles _ _ _ s | exact Settles.suspend _ _

theorem chunkFlushed_settles (t : Task) (ch : PayloadChunk) (ok : Bool) (s : Sys) :
    Settles t.k t.caller s (chunkFlushed t ch ok s) := by
  unfold chunkFlushed
  repeat' split
  · exact flushDone_settles _ _ _ s
  · exact flushDone_settles _ _ _ s
  · exact (Settles.of_emit (.sent ch) rfl rfl (flushDone_settles _ _ _ _)).of_modify

theorem resume_settles (cfg : Config) {t : Task} {a : Answer} {s s' : Sys}
    (h : resume cfg t a s = some s') : Settles t.k t.caller s s' := by
  rcases resume_cases h with ⟨o, rfl, -⟩ | ⟨c, -, rfl⟩ | ⟨c, n, -, rfl⟩ | ⟨c, ok, -, rfl⟩ |
    ⟨-, ⟨ok, -, rfl⟩ | ⟨o, rfl, -⟩⟩
  · exact flushDone_settles _ _ _ s
  · exact created_settles _ _ s
  · exact chunkWritten_settles _ _ _ _ s
  · exact chunkFlushed_settles _ _ _ s
  all_goals exact Settles.deliver _

/-! ### The bookkeeping invariant -/

/-- Calls are numbered below `next` and apart, every outcome answers an operation and no call
is answered twice; every suspended task belongs to an operation of its kind that is still
unanswered, and no two tasks belong to one call. -/
structure CallsInv (ops : List Task) (trace : List Event) (next : Nat) : Prop where
  called_lt : ∀ k c, Event.called k c ∈ trace → k < next
  called_unique : ∀ k c c', Event.called k c ∈ trace → Event.called k c' ∈ trace → c = c'
  delivered_called : ∀ k o, Event.delivered k o ∈ trace →
    ∃ c, Event.called k c ∈ trace ∧ c.isOperation
  delivered_nodup : (deliveredIds trace).Nodup
  ops_called : ∀ t ∈ ops, Event.called t.k t.caller.call ∈ trace
  ops_open : ∀ t ∈ ops, t.k ∉ deliveredIds trace
  ops_nodup : (ops.map Task.k).Nodup

theorem perm_cons_eraseIdx {α : Type} :
    ∀ {l : List α} {i : Nat} {t : α}, l[i]? = some t → l.Perm (t :: l.eraseIdx i)
  | _ :: _, 0, _, h => by
    simp only [List.getElem?_cons_zero, Option.some.injEq] at h
    subst h
    rfl
  | x :: l, i + 1, t, h =>
    ((perm_cons_eraseIdx (l := l) (i := i) (by simpa using h)).cons x).trans (List.Perm.swap t x _)

theorem takeWaiter_perm : ∀ {ops rest : List Task} {t : Task},
    takeWaiter ops = some (t, rest) → ops.Perm (t :: rest) ∧ t.stage.isPoll
  | u :: ops, rest, t, h => by
    unfold takeWaiter at h
    split at h
    · cases h
      exact ⟨.rfl, ‹_›⟩
    · obtain ⟨⟨t', rest'⟩, h', he⟩ := Option.map_eq_some'.mp h
      cases he
      exact ⟨((takeWaiter_perm h').1.cons u).trans (List.Perm.swap _ _ _), (takeWaiter_perm h').2⟩

namespace CallsInv

variable {ops : List Task} {tr : List Event} {n : Nat}

theorem perm {ops' : List Task} (h : CallsInv ops tr n) (hp : ops.Perm ops') :
    CallsInv ops' tr n :=
  { h with
    ops_called := fun t ht => h.ops_called t (hp.mem_iff.mpr ht)
    ops_open := fun t ht => h.ops_open t (hp.mem_iff.mpr ht)
    ops_nodup := (hp.map Task.k).nodup_iff.mp h.ops_nodup }

theorem of_cons {t : Task} (h : CallsInv (t :: ops) tr n) : CallsInv ops tr n :=
  { h with
    ops_called := fun u hu => h.ops_called u (List.mem_cons_of_mem t hu)
    ops_open := fun u hu => h.ops_open u (List.mem_cons_of_mem t hu)
    ops_nodup := (List.nodup_cons.mp h.ops_nodup).2 }

/-- Events that are neither calls nor outcomes keep the invariant. -/
theorem append_quiet (h : CallsInv ops tr n) {es : List Event}
    (hc : ∀ e ∈ es, e.isCall = false) (hd : deliveredIds es = []) : CallsInv ops (tr ++ es) n where
  called_lt k c hk := by
    rcases List.mem_append.mp hk with hk | hk
    · exact h.called_lt k c hk
    · exact absurd (hc _ hk) (by simp [Event.isCall])
  called_unique k c c' h1 h2 := by
    rcases List.mem_append.mp h1 with h1 | h1
    · rcases List.mem_append.mp h2 with h2 | h2
      · exact h.called_unique k c c' h1 h2
      · exact absurd (hc _ h2) (by simp [Event.isCall])
    · exact absurd (hc _ h1) (by simp [Event.isCall])
  delivered_called k o hk := by
    rcases List.mem_append.mp hk with hk | hk
    · exact (h.delivered_called k o hk).imp fun c hc => ⟨List.mem_append_left _ hc.1, hc.2⟩
    · simpa [hd] using mem_deliveredIds.mpr ⟨o, hk⟩
  delivered_nodup := by simpa [hd] using h.delivered_nodup
  ops_called t ht := List.mem_append_left _ (h.ops_called t ht)
  ops_open t ht := by simpa [hd] using h.ops_open t ht
  ops_nodup := h.ops_nodup

end CallsInv

theorem Settles.prepend {k : Nat} {c : Caller} {s s' : Sys} (h : Settles k c s s') (ps : List Task) :
    Settles k c { s with ops := ps ++ s.ops } { s' with ops := ps ++ s'.ops } := by
  obtain ⟨hn, hh, es, htr, hc, hops⟩ := h
  refine ⟨hn, hh, es, htr, hc, ?_⟩
  rcases hops with ⟨g, hops, hd⟩ | ⟨hops, hd⟩
  · exact .inl ⟨g, by simp [hops], hd⟩
  · exact .inr ⟨by simp [hops], hd⟩

theorem close_settles (cfg : Config) (k : Nat) (s : Sys) : Settles k .close s (close cfg k s) := by
  unfold close
  repeat' split
  all_goals first | exact Settles.deliver _ | exact (flush_settles ..).of_modify

theorem setCompressionAlgorithm_settles (cfg : Config) (a : Option CompressionAlgorithm) (k : Nat)
    (s : Sys) : Settles k (.setCompressionAlgorithm a) s (setCompressionAlgorithm cfg a k s) := by
  unfold setCompressionAlgorithm
  repeat' split
  all_goals first | exact Settles.deliver _ | exact flush_settles ..

theorem write_settles (cfg : Config) (data : List UInt8) (off len : Int) (k : Nat) (s : Sys) :
    Settles k .flush s (write cfg data off len k s) ∧ (write cfg data off len k s).ops = s.ops := by
  rcases write_cases cfg data off len k s with ⟨o, hw, -⟩ | ⟨_, _, -, -, -, hw⟩ <;> rw [hw]
  · exact ⟨Settles.deliver _, rfl⟩
  · exact ⟨(Settles.of_emit (.appended _ _) rfl rfl (Settles.deliver _)).of_modify, rfl⟩

namespace CallsInv

variable {ops : List Task} {tr : List Event} {n : Nat} {k : Nat} {c : Caller} {s s' : Sys}

theorem called_of_append {es : List Event} (hc : ∀ e ∈ es, e.isCall = false) {k : Nat} {c : Call}
    (h : Event.called k c ∈ tr ++ es) : Event.called k c ∈ tr :=
  (List.mem_append.mp h).resolve_right fun h' => absurd (hc _ h') (by simp [Event.isCall])

/-- The callback chain of an unanswered operation `k` keeps the invariant. -/
theorem settles (h : CallsInv s.ops s.trace s.next) (hs : Settles k c s s')
    (hC : ∃ C, Event.called k C ∈ s.trace ∧ C.isOperation) (hk : k ∉ deliveredIds s.trace)
    (hko : k ∉ s.ops.map Task.k) (hcall : s'.ops ≠ s.ops → Event.called k c.call ∈ s.trace) :
    CallsInv s'.ops s'.trace s'.next := by
  obtain ⟨hn, -, es, htr, hc, hops⟩ := hs
  rw [htr, hn]
  rcases hops with ⟨g, hops, hd⟩ | ⟨hops, hd⟩
  · have hq := h.append_quiet hc hd
    have hcalled := hcall (by simp [hops])
    rw [hops]
    refine { hq with ops_called := ?_, ops_open := ?_, ops_nodup := ?_ }
    · intro t ht
      rcases List.mem_append.mp ht with ht | ht
      · exact hq.ops_called t ht
      · obtain rfl := List.mem_singleton.mp ht
        exact List.mem_append_left _ hcalled
    · intro t ht
      rcases List.mem_append.mp ht with ht | ht
      · exact hq.ops_open t ht
      · obtain rfl := List.mem_singleton.mp ht
        simpa [hd] using hk
    · simpa [List.nodup_append] using ⟨h.ops_nodup, fun t ht hkt => hko (hkt ▸ List.mem_map_of_mem _ ht)⟩
  · rw [hops]
    have hmem : ∀ {k' : Nat}, k' ∈ deliveredIds es → k' = k := by simp [hd]
    refine ⟨fun k' c' hk' => h.called_lt k' c' (called_of_append hc hk'),
      fun k' c1 c2 h1 h2 => h.called_unique k' c1 c2 (called_of_append hc h1) (called_of_append hc h2),
      fun k' o hk' => ?_, ?_, fun t ht => List.mem_append_left _ (h.ops_called t ht), ?_, h.ops_nodup⟩
    · rcases List.mem_append.mp hk' with hk' | hk'
      · exact (h.delivered_called k' o hk').imp fun c hc => ⟨List.mem_append_left _ hc.1, hc.2⟩
      · obtain rfl := hmem (mem_deliveredIds.mpr ⟨o, hk'⟩)
        exact hC.imp fun c hc => ⟨List.mem_append_left _ hc.1, hc.2⟩
    · simpa [hd, List.nodup_append] using ⟨h.delivered_nodup, hk⟩
    · intro t ht
      simp only [deliveredIds_append, hd, List.mem_append, List.mem_singleton, not_or]
      exact ⟨h.ops_open t ht, fun hkt => hko (hkt ▸ List.mem_map_of_mem _ ht)⟩

/-- Resuming a suspended task keeps the invariant. -/
theorem resumeTask {t : Task} (h : CallsInv (t :: s.ops) s.trace s.next)
    (hs : Settles t.k t.caller s s') : CallsInv s'.ops s'.trace s'.next :=
  h.of_cons.settles hs ⟨_, h.ops_called t (List.mem_cons_self _ _), Caller.call_isOperation _⟩
    (h.ops_open t (List.mem_cons_self _ _)) (List.nodup_cons.mp h.ops_nodup).1
    fun _ => h.ops_called t (List.mem_cons_self _ _)

/-- A new call gets a fresh number. -/
theorem call (h : CallsInv s.ops s.trace s.next) (C : Call) :
    CallsInv s.ops (s.trace ++ [.called s.next C]) (s.next + 1) where
  called_lt k c hk := by
    rcases List.mem_append.mp hk with hk | hk
    · exact Nat.lt_succ_of_lt (h.called_lt k c hk)
    · cases List.mem_singleton.mp hk
      exact Nat.lt_succ_self _
  called_unique k c c' h1 h2 := by
    simp only [List.mem_append, List.mem_singleton, Event.called.injEq] at h1 h2
    rcases h1 with h1 | ⟨rfl, rfl⟩ <;> rcases h2 with h2 | ⟨h2, rfl⟩
    · exact h.called_unique k c c' h1 h2
    · exact absurd (h.called_lt k c h1) (by omega)
    · exact absurd (h.called_lt _ c' h2) (by omega)
    · rfl
  delivered_called k o hk := by
    rcases List.mem_append.mp hk with hk | hk
    · exact (h.delivered_called k o hk).imp fun c hc => ⟨List.mem_append_left _ hc.1, hc.2⟩
    · simp at hk
  delivered_nodup := by simpa [Event.delivered?] using h.delivered_nodup
  ops_called t ht := List.mem_append_left _ (h.ops_called t ht)
  ops_open t ht := by simpa [Event.delivered?] using h.ops_open t ht
  ops_nodup := h.ops_nodup

theorem not_delivered_next (h : CallsInv s.ops s.trace s.next) : s.next ∉ deliveredIds s.trace := by
  intro hk
  obtain ⟨o, ho⟩ := mem_deliveredIds.mp hk
  obtain ⟨c, hc, -⟩ := h.delivered_called _ o ho
  exact absurd (h.called_lt _ c hc) (Nat.lt_irrefl _)

theorem next_not_mem_ops (h : CallsInv s.ops s.trace s.next) : s.next ∉ s.ops.map Task.k := by
  intro hk
  obtain ⟨t, ht, he⟩ := List.mem_map.mp hk
  exact absurd (he ▸ h.called_lt _ _ (h.ops_called t ht)) (Nat.lt_irrefl _)

/-- Once every operation delivered its outcome, nothing is suspended. -/
theorem ops_eq_nil (h : CallsInv s.ops s.trace s.next) (hi : Idle s) : s.ops = [] := by
  match hops : s.ops with
  | [] => rfl
  | t :: _ =>
    have ht : t ∈ s.ops := by simp [hops]
    obtain ⟨o, ho⟩ := hi t.k t.caller.call (h.ops_called t ht) (Caller.call_isOperation _)
    exact absurd (mem_deliveredIds.mpr ⟨o, ho⟩) (h.ops_open t ht)

end CallsInv

/-! ### Every run -/

section step

variable (cfg : Config)

theorem callsInv_ready {s : Sys} (h : CallsInv s.ops s.trace s.next) :
    CallsInv (ready cfg s).ops (ready cfg s).trace (ready cfg s).next := by
  have h1 : CallsInv s.ops (s.trace ++ [.ready]) s.next :=
    h.append_quiet (by simp [Event.isCall]) (by simp [Event.delivered?])
  unfold ready
  dsimp only
  split
  · rename_i t rest hw
    exact CallsInv.resumeTask (h1.perm (takeWaiter_perm hw).1) (perform_settles ..)
  · exact h1

theorem callsInv_cancelAll {s : Sys} (h : CallsInv s.ops s.trace s.next) :
    CallsInv (cancelAll s).ops (cancelAll s).trace (cancelAll s).next := by
  have key : ∀ (ps : List Task) (s : Sys), CallsInv (ps ++ s.ops) s.trace s.next →
      CallsInv (ps.foldl (fun s t => flushDone t.k t.caller (.result (.bool false)) s) s).ops
        (ps.foldl (fun s t => flushDone t.k t.caller (.result (.bool false)) s) s).trace
        (ps.foldl (fun s t => flushDone t.k t.caller (.result (.bool false)) s) s).next := by
    intro ps
    induction ps with
    | nil => exact fun s h => by simpa using h
    | cons t ps ih =>
      intro s h
      exact ih _ (CallsInv.resumeTask (s := { s with ops := ps ++ s.ops }) h
        ((flushDone_settles t.k t.caller _ s).prepend ps))
  exact key _ _ (h.perm (List.filter_append_perm _ _).symm)

theorem callsInv_headerAnswered {hs : HeaderStage} {a : Answer} {s s' : Sys}
    (h : CallsInv s.ops s.trace s.next) (he : headerAnswered cfg hs a s = some s') :
    CallsInv s'.ops s'.trace s'.next := by
  unfold headerAnswered at he
  split at he <;> simp only [Option.some.injEq, reduceCtorEq] at he <;> subst he
  · split
    · exact callsInv_ready cfg h
    · split
      · exact callsInv_ready cfg h
      · exact h.append_quiet (by simp [Event.isCall]) (by simp [Event.delivered?])
  · split <;> exact callsInv_ready cfg h
  · exact callsInv_ready cfg h
  · exact callsInv_ready cfg h

theorem callsInv_call (c : Call) {s : Sys} (h : CallsInv s.ops s.trace s.next) :
    CallsInv (call cfg c s).ops (call cfg c s).trace (call cfg c s).next := by
  have h1 : CallsInv (s.begin c).ops (s.begin c).trace (s.begin c).next := h.call c
  have hk : s.next ∉ deliveredIds (s.begin c).trace := by
    simpa [Sys.begin, Event.delivered?] using h.not_delivered_next
  have hko : s.next ∉ (s.begin c).ops.map Task.k := h.next_not_mem_ops
  have hC : c.isOperation → ∃ C, Event.called s.next C ∈ (s.begin c).trace ∧ C.isOperation :=
    fun hc => ⟨c, by simp [Sys.begin], hc⟩
  have hcall : ∀ c' : Caller, c'.call = c → Event.called s.next c'.call ∈ (s.begin c).trace :=
    fun c' hc => by simp [Sys.begin, hc]
  cases c with
  | write data off len =>
    have hw := write_settles cfg data off len s.next (s.begin (.write data off len))
    exact h1.settles hw.1 (hC rfl) hk hko fun hne => absurd hw.2 hne
  | flush => exact h1.settles (flush_settles ..) (hC rfl) hk hko fun _ => hcall .flush rfl
  | close => exact h1.settles (close_settles ..) (hC rfl) hk hko fun _ => hcall .close rfl
  | setCompressionAlgorithm a =>
    exact h1.settles (setCompressionAlgorithm_settles ..) (hC rfl) hk hko
      fun _ => hcall (.setCompressionAlgorithm a) rfl
  | abort =>
    exact callsInv_cancelAll (h1.append_quiet (by simp [Event.isCall]) (by simp [Event.delivered?]))
  | stopCaching => exact h1
  | closeDestination b => exact h1

theorem callsInv_step {s : Sys} (i : Input) (h : CallsInv s.ops s.trace s.next) :
    CallsInv (step cfg s i).ops (step cfg s i).trace (step cfg s i).next := by
  cases i with
  | call c => exact callsInv_call cfg c h
  | header a =>
    show CallsInv (answerHeader cfg a s).ops (answerHeader cfg a s).trace (answerHeader cfg a s).next
    unfold answerHeader
    split
    · refine getD_of (fun r => CallsInv r.ops r.trace r.next) h fun s' he => ?_
      exact callsInv_headerAnswered cfg
        (h.append_quiet (by simp [Event.isCall]) (by simp [Event.delivered?])) he
    · exact h
  | answer i a =>
    show CallsInv (answer cfg i a s).ops (answer cfg i a s).trace (answer cfg i a s).next
    unfold answer
    split
    · rename_i t ht
      refine getD_of (fun r => CallsInv r.ops r.trace r.next) h fun s' he => ?_
      exact CallsInv.resumeTask ((h.perm (perm_cons_eraseIdx ht)).append_quiet
        (by simp [Event.isCall]) (by simp [Event.delivered?])) (resume_settles cfg he)
    · exact h

theorem callsInv_init : CallsInv (init cfg).ops (init cfg).trace (init cfg).next where
  called_lt := by simp [init]
  called_unique := by simp [init]
  delivered_called := by simp [init]
  delivered_nodup := by simp [init, Event.delivered?]
  ops_called := by simp [init]
  ops_open := by simp [init]
  ops_nodup := by simp [init]

/-! ### Traces only grow -/

theorem Settles.grows {k : Nat} {c : Caller} {s s' : Sys} (h : Settles k c s s') :
    ∃ es, s'.trace = s.trace ++ es ∧ ∀ e ∈ es, e.isCall = false :=
  h.trace.imp fun _ h => ⟨h.1, h.2.1⟩

theorem cancelAll_grows (s : Sys) :
    ∃ es, (cancelAll s).trace = s.trace ++ es ∧ ∀ e ∈ es, e.isCall = false := by
  have key : ∀ (ts : List Task) (s : Sys), ∃ es,
      (ts.foldl (fun s t => flushDone t.k t.caller (.result (.bool false)) s) s).trace = s.trace ++ es ∧
        ∀ e ∈ es, e.isCall = false := by
    intro ts
    induction ts with
    | nil => exact fun s => ⟨[], by simp, by simp⟩
    | cons t ts ih =>
      intro s
      obtain ⟨es1, h1, hc1⟩ := (flushDone_settles t.k t.caller (.result (.bool false)) s).grows
      obtain ⟨es2, h2, hc2⟩ := ih (flushDone t.k t.caller (.result (.bool false)) s)
      refine ⟨es1 ++ es2, by simp [h2, h1], fun e he => ?_⟩
      rcases List.mem_append.mp he with he | he
      · exact hc1 e he
      · exact hc2 e he
  exact key _ _

theorem ready_grows (s : Sys) :
    ∃ es, (ready cfg s).trace = s.trace ++ es ∧ ∀ e ∈ es, e.isCall = false := by
  unfold ready
  dsimp only
  split
  · rename_i t rest _
    obtain ⟨es, h, hc⟩ := (perform_settles cfg t.k t.caller
      { (s.modify fun st => { st with ready := true }).emit .ready with ops := rest }).grows
    refine ⟨.ready :: es, h.trans (by simp), fun e he => ?_⟩
    rcases List.mem_cons.mp he with rfl | he
    · rfl
    · exact hc e he
  · exact ⟨[.ready], by simp, by simp [Event.isCall]⟩

theorem headerAnswered_grows {hs : HeaderStage} {a : Answer} {s s' : Sys}
    (he : headerAnswered cfg hs a s = some s') :
    ∃ es, s'.trace = s.trace ++ es ∧ ∀ e ∈ es, e.isCall = false := by
  unfold headerAnswered at he
  split at he <;> simp only [Option.some.injEq, reduceCtorEq] at he <;> subst he
  all_goals repeat' split
  all_goals first
    | exact ready_grows cfg _
    | exact ⟨[.requested .flushHeader], rfl, by simp [Event.isCall]⟩

/-- Recording an answer and then running its callback appends no call. -/
theorem getD_answered_grows {s : Sys} (s0 : Sys) (h0 : s0.trace = s.trace) {r : Request} {a : Answer}
    {o : Option Sys}
    (ho : ∀ s', o = some s' → ∃ es, s'.trace = (s0.emit (.answered r a)).trace ++ es ∧ ∀ e ∈ es, e.isCall = false) :
    ∃ es, (o.getD s).trace = s.trace ++ es ∧ ∀ e ∈ es, e.isCall = false := by
  refine getD_of (fun s' => ∃ es, s'.trace = s.trace ++ es ∧ ∀ e ∈ es, e.isCall = false)
    ⟨[], by simp, by simp⟩ fun s' he => ?_
  obtain ⟨es, h, hc⟩ := ho s' he
  exact ⟨.answered r a :: es, by simp [h, h0], List.forall_mem_cons.2 ⟨rfl, hc⟩⟩

/-- A step appends to the trace, and the only call it records is its own. -/
theorem step_grows (s : Sys) (i : Input) :
    ∃ es, (step cfg s i).trace = s.trace ++ es ∧
      ∀ e ∈ es, e.isCall = true → ∃ C, i = .call C ∧ e = .called s.next C := by
  have quiet : ∀ {s' : Sys}, (∃ es, s'.trace = s.trace ++ es ∧ ∀ e ∈ es, e.isCall = false) →
      ∃ es, s'.trace = s.trace ++ es ∧ ∀ e ∈ es, e.isCall = true → ∃ C, i = .call C ∧ e = .called s.next C :=
    fun ⟨es, h, hc⟩ => ⟨es, h, fun e he hce => by simp [hc e he] at hce⟩
  cases i with
  | call C =>
    obtain ⟨es', h, hc⟩ : ∃ es', (call cfg C s).trace = (s.begin C).trace ++ es' ∧ ∀ e ∈ es', e.isCall = false := by
      cases C with
      | write => exact (write_settles ..).1.grows
      | flush => exact (flush_settles ..).grows
      | close => exact (close_settles ..).grows
      | setCompressionAlgorithm => exact (setCompressionAlgorithm_settles ..).grows
      | abort =>
        obtain ⟨es, h, hc⟩ := cancelAll_grows
          (((s.begin .abort).modify fun st => { st with aborted := true }).emit (.requested .abort))
        exact ⟨.requested .abort :: es, by simp [call, abort, h], List.forall_mem_cons.2 ⟨rfl, hc⟩⟩
      | stopCaching => exact ⟨[], by simp [call, stopCaching], by simp⟩
      | closeDestination => exact ⟨[], by simp [call, closeDestination], by simp⟩
    refine ⟨.called s.next C :: es', by simp [step, h, Sys.begin], fun e he hce => ?_⟩
    rcases List.mem_cons.mp he with rfl | he
    · exact ⟨C, rfl, rfl⟩
    · simp [hc e he] at hce
  | header a =>
    refine quiet ?_
    show ∃ es, (answerHeader cfg a s).trace = _ ∧ _
    unfold answerHeader
    split
    · exact getD_answered_grows (s := s) { s with header := none } rfl fun _ he => headerAnswered_grows cfg he
    · exact ⟨[], by simp, by simp⟩
  | answer i a =>
    refine quiet ?_
    show ∃ es, (answer cfg i a s).trace = _ ∧ _
    unfold answer
    split
    · exact getD_answered_grows (s := s) { s with ops := s.ops.eraseIdx i } rfl fun _ he => (resume_settles cfg he).grows
    · exact ⟨[], by simp, by simp⟩

theorem run_grows (s : Sys) (is : List Input) : ∃ es, (run cfg s is).trace = s.trace ++ es := by
  induction is generalizing s with
  | nil => exact ⟨[], by simp [run]⟩
  | cons i is ih =>
    obtain ⟨es1, h1, -⟩ := step_grows cfg s i
    obtain ⟨es2, h2⟩ := ih (step cfg s i)
    exact ⟨es1 ++ es2, by simp [run, h2, h1]⟩

theorem callsInv_run (is : List Input) :
    CallsInv (run cfg (init cfg) is).ops (run cfg (init cfg) is).trace (run cfg (init cfg) is).next :=
  run_induction cfg (fun s => CallsInv s.ops s.trace s.next) (fun _ i h => callsInv_step cfg i h)
    _ is (callsInv_init cfg)

end step

end Msl.MessageOutputStream
