import Msl.Step

/-! # Reading a run's trace

What a trace says about the stream's payload: the chunks `flush` counted as sent
(`sentChunks`), the slices `write` pushed onto the buffer (`appendedSlices`) and those pushed
since the last sent chunk (`unsent`), the slices of the `write` calls that reported a byte
count (`acceptedSlices`), the answers to the header's two requests
(`HeaderOk`, `HeaderFailed`), and `Before P p t`: every event of `t` satisfying `p` follows a
prefix satisfying `P`.  A prefix property closed under extension is kept by appending events
that only come once it holds (`Before.append`). -/

namespace Msl.MessageOutputStream

/-- The chunk of a `sent` event. -/
def Event.sent? : Event → Option PayloadChunk
  | .sent c => some c
  | _ => none

/-- The slice and algorithm of an `appended` event. -/
def Event.appended? : Event → Option (List UInt8 × Option CompressionAlgorithm)
  | .appended b a => some (b, a)
  | _ => none

@[simp] theorem Event.sent?_sent (c : PayloadChunk) : (Event.sent c).sent? = some c := rfl
@[simp] theorem Event.appended?_appended (b : List UInt8) (a : Option CompressionAlgorithm) :
    (Event.appended b a).appended? = some (b, a) := rfl

/-- The chunks counted as sent, in order. -/
def sentChunks (t : List Event) : List PayloadChunk := t.filterMap Event.sent?

/-- The slices accepted by `write`, in order, with the algorithm current at each. -/
def appendedSlices (t : List Event) : List (List UInt8 × Option CompressionAlgorithm) :=
  t.filterMap Event.appended?

@[simp] theorem sentChunks_nil : sentChunks [] = [] := rfl
@[simp] theorem sentChunks_append (t u : List Event) :
    sentChunks (t ++ u) = sentChunks t ++ sentChunks u := List.filterMap_append ..
@[simp] theorem sentChunks_cons (e : Event) (t : List Event) :
    sentChunks (e :: t) = e.sent?.toList ++ sentChunks t := by
  cases h : e.sent? <;> simp [sentChunks, List.filterMap_cons, h]

@[simp] theorem appendedSlices_nil : appendedSlices [] = [] := rfl
@[simp] theorem appendedSlices_append (t u : List Event) :
    appendedSlices (t ++ u) = appendedSlices t ++ appendedSlices u := List.filterMap_append ..
@[simp] theorem appendedSlices_cons (e : Event) (t : List Event) :
    appendedSlices (e :: t) = e.appended?.toList ++ appendedSlices t := by
  cases h : e.appended? <;> simp [appendedSlices, List.filterMap_cons, h]

/-- The number of a `write` call and the slice `data.subarray(off, off + len)` it asks to push. -/
def Event.writeSlice? : Event → Option (Nat × List UInt8)
  | .called k (.write data off len) => some (k, (data.drop off.toNat).take len.toNat)
  | _ => none

/-- The number of a call whose callback received a byte count. -/
def Event.counted? : Event → Option Nat
  | .delivered k (.result (.count _)) => some k
  | _ => none

@[simp] theorem Event.writeSlice?_write (k : Nat) (data : List UInt8) (off len : Int) :
    (Event.called k (.write data off len)).writeSlice? = some (k, (data.drop off.toNat).take len.toNat) := rfl
@[simp] theorem Event.writeSlice?_appended (b : List UInt8) (a : Option CompressionAlgorithm) :
    (Event.appended b a).writeSlice? = none := rfl
@[simp] theorem Event.writeSlice?_delivered (k : Nat) (o : Outcome) : (Event.delivered k o).writeSlice? = none :=
  rfl
@[simp] theorem Event.counted?_called (k : Nat) (c : Call) : (Event.called k c).counted? = none := rfl
@[simp] theorem Event.counted?_appended (b : List UInt8) (a : Option CompressionAlgorithm) :
    (Event.appended b a).counted? = none := rfl
@[simp] theorem Event.counted?_count (k n : Nat) : (Event.delivered k (.result (.count n))).counted? = some k := rfl

/-- How `unsent` reads one event: a sent chunk empties the list. -/
def unsentStep (acc : List (List UInt8 × Option CompressionAlgorithm)) :
    Event → List (List UInt8 × Option CompressionAlgorithm)
  | .appended b a => acc ++ [(b, a)]
  | .sent _ => []
  | _ => acc

/-- The slices appended since the last sent chunk. -/
def unsent (t : List Event) : List (List UInt8 × Option CompressionAlgorithm) :=
  t.foldl unsentStep []

@[simp] theorem unsent_concat (t : List Event) (e : Event) :
    unsent (t ++ [e]) = unsentStep (unsent t) e := by
  simp [unsent, List.foldl_append]

/-- The chunk of a request to write a chunk to the sink. -/
def Event.writeChunk? : Event → Option PayloadChunk
  | .requested (.writeChunk c) => some c
  | _ => none

/-- The chunks handed to the sink's write, in order. -/
def writeChunks (t : List Event) : List PayloadChunk := t.filterMap Event.writeChunk?

@[simp] theorem writeChunks_concat (t : List Event) (e : Event) :
    writeChunks (t ++ [e]) = writeChunks t ++ e.writeChunk?.toList := by
  cases h : e.writeChunk? <;> simp [writeChunks, List.filterMap_append, h]

/-- How a run with one operation at a time is replayed: the operation in flight is the last
one called, and a `setCompressionAlgorithm(b)` that delivers true leaves `b` current. -/
def replay : Option CompressionAlgorithm × Option Call → Event → Option CompressionAlgorithm × Option Call
  | (a, op), .called _ c => (a, if c.isOperation then some c else op)
  | (_, some (.setCompressionAlgorithm b)), .delivered _ (.result (.bool true)) =>
    (b, some (.setCompressionAlgorithm b))
  | p, _ => p

/-- Only a call, or a true result, moves the replay. -/
theorem replay_of_ne {p : Option CompressionAlgorithm × Option Call} {e : Event}
    (hc : ∀ k c, e ≠ .called k c) (hd : ∀ k, e ≠ .delivered k (.result (.bool true))) : replay p e = p := by
  unfold replay
  split
  · exact absurd rfl (hc _ _)
  · exact absurd rfl (hd _)
  · rfl

@[simp] theorem replay_requested (p : Option CompressionAlgorithm × Option Call) (r : Request) :
    replay p (.requested r) = p :=
  replay_of_ne (by simp) (by simp)

@[simp] theorem replay_called (p : Option CompressionAlgorithm × Option Call) (k : Nat) (c : Call) :
    replay p (.called k c) = (p.1, if c.isOperation then some c else p.2) := by
  obtain ⟨a, _ | _ | _ | _ | _ | _ | _ | _⟩ := p <;> rfl

@[simp] theorem replay_appended (p : Option CompressionAlgorithm × Option Call) (b : List UInt8)
    (a : Option CompressionAlgorithm) : replay p (.appended b a) = p :=
  replay_of_ne (by simp) (by simp)

@[simp] theorem replay_sent (p : Option CompressionAlgorithm × Option Call) (c : PayloadChunk) :
    replay p (.sent c) = p :=
  replay_of_ne (by simp) (by simp)

theorem replay_of_snd {p : Option CompressionAlgorithm × Option Call} {b : Option CompressionAlgorithm}
    (hp : p.2 = some (.setCompressionAlgorithm b)) (k : Nat) :
    replay p (.delivered k (.result (.bool true))) = (b, p.2) := by
  obtain ⟨a, op⟩ := p
  obtain rfl : op = _ := hp
  rfl

/-- The replayed algorithm changes only where a `setCompressionAlgorithm(b)` in flight
reports true, and then to `b`. -/
theorem replay_fst_changes {p : Option CompressionAlgorithm × Option Call} {e : Event}
    (hne : (replay p e).1 ≠ p.1) :
    ∃ k b, e = .delivered k (.result (.bool true)) ∧ p.2 = some (.setCompressionAlgorithm b) ∧
      (replay p e).1 = b := by
  revert hne
  unfold replay
  split
  · exact fun h => absurd rfl h
  · exact fun _ => ⟨_, _, rfl, rfl, rfl⟩
  · exact fun h => absurd rfl h

/-- The algorithm and the operation in flight after `t`, from the algorithm `init` chose. -/
def opState (cfg : Config) (t : List Event) : Option CompressionAlgorithm × Option Call :=
  t.foldl replay ((init cfg).st.compressionAlgo, none)

@[simp] theorem opState_concat (cfg : Config) (t : List Event) (e : Event) :
    opState cfg (t ++ [e]) = replay (opState cfg t) e := by
  simp [opState, List.foldl_append]

/-- An end-of-message chunk was sent. -/
def EomSent (t : List Event) : Prop := ∃ c ∈ sentChunks t, c.endofmsg = true

/-! ### The header's two requests -/

variable (cfg : Config)

/-- The header's sink write reported all its bytes and its sink flush reported true. -/
def HeaderOk (t : List Event) : Prop :=
  (∃ n, cfg.headerBytes.length ≤ n ∧ Event.answered .writeHeader (.written n) ∈ t) ∧
    Event.answered .flushHeader (.success true) ∈ t

/-- The header's sink write was short, timed out or failed, or its flush reported false,
timed out or failed. -/
def HeaderFailed (t : List Event) : Prop :=
  ∃ r a, Event.answered r a ∈ t ∧ (r = .writeHeader ∨ r = .flushHeader) ∧
    a.Fails cfg.headerBytes.length

theorem HeaderOk.append {t : List Event} (h : HeaderOk cfg t) (u : List Event) :
    HeaderOk cfg (t ++ u) :=
  ⟨h.1.imp fun _ ⟨hn, hm⟩ => ⟨hn, List.mem_append_left u hm⟩, List.mem_append_left u h.2⟩

/-! ### Ordering in a trace -/

/-- Every event of `t` satisfying `p` comes after a prefix satisfying `P`. -/
def Before (P : List Event → Prop) (p : Event → Prop) (t : List Event) : Prop :=
  ∀ pre e post, t = pre ++ e :: post → p e → P pre

theorem Before.nil (P : List Event → Prop) (p : Event → Prop) : Before P p [] := by
  intro pre e post h
  simp at h

theorem Before.append {P : List Event → Prop} {p : Event → Prop} {t : List Event}
    (hP : ∀ u v, P u → P (u ++ v)) (h : Before P p t) {es : List Event}
    (hes : ∀ e ∈ es, p e → P t) : Before P p (t ++ es) := by
  intro pre e post heq he
  rcases List.append_eq_append_iff.mp heq with ⟨a, rfl, hes'⟩ | ⟨c, rfl, hc⟩
  · exact hP _ _ (hes e (by simp [hes']) he)
  · cases c with
    | nil =>
      simp only [List.nil_append] at hc
      simpa using hes e (by simp [← hc]) he
    | cons x c =>
      obtain ⟨hx, -⟩ := List.cons.inj hc
      subst hx
      exact h pre _ c rfl he

/-- With no event satisfying `p` appended, `Before` is kept. -/
theorem Before.append_of_forall {P : List Event → Prop} {p : Event → Prop} {t : List Event}
    (hP : ∀ u v, P u → P (u ++ v)) (h : Before P p t) {es : List Event} (hes : ∀ e ∈ es, ¬ p e) :
    Before P p (t ++ es) :=
  h.append hP fun e he hp => absurd hp (hes e he)

/-- Every event of `t` satisfies `R` together with the prefix before it. -/
def Each (R : List Event → Event → Prop) (t : List Event) : Prop :=
  ∀ pre e post, t = pre ++ e :: post → R pre e

theorem Each.nil (R : List Event → Event → Prop) : Each R [] := by
  intro pre e post h
  simp at h

theorem Each.concat {R : List Event → Event → Prop} {t : List Event} (h : Each R t) {e : Event}
    (he : R t e) : Each R (t ++ [e]) := by
  intro pre x post heq
  rcases List.eq_nil_or_concat post with rfl | ⟨post', y, rfl⟩
  · obtain ⟨rfl, hx⟩ := List.append_inj' heq rfl
    obtain rfl : e = x := by simpa using hx
    exact he
  · have heq' : t ++ [e] = (pre ++ x :: post') ++ [y] := by simpa using heq
    exact h pre x post' (List.append_inj' heq' rfl).1

end Msl.MessageOutputStream
