import SocketFunneling.Tls.Bufferer

/-!
# What each operation of the bufferer does

`handle_data_n_ops` loops, one read a pass, and every handler of the bufferer ends in it; here once what it can do
(`HdoEffect`, a relation between the state before and after) and how it leaves the queues (`Done`). The invariants of the
later modules cite these two and never unfold the loop.

The pull reads in progress are counted by `pullTokens`: a posted `async_pull_packets`, a read in flight, or a posted
completion handler of a read. Each is one link of a chain that `start_pulling` begins.
-/

namespace SocketFunneling

namespace Task

/-- A link of a pull chain: `async_pull_packets`, or the completion handler of a pull read. -/
def isPull : Task → Bool
  | .asyncPullPackets | .pullHandler _ _ => true
  | _ => false

/-- The completion handler of a pull read. -/
def isPullHandler : Task → Bool
  | .pullHandler _ _ => true
  | _ => false

/-- The queued read whose handler a task calls. -/
def completedRead : Task → Option PendingRead
  | .complete op _ _ | .completeWithStatus op => some op
  | _ => none

/-- The tasks `handle_data_n_ops` posts when `status_` is `st`: `async_pull_packets`; the completion of a read with a
count between one and its capacity; or the completion with `status_` of a read, when `st` is an error. -/
def OfHandleData (st : ErrorCode) (t : Task) : Prop :=
  t = .asyncPullPackets ∨ (∃ op n, t = .complete op .success n ∧ 0 < n ∧ n ≤ op.capacity) ∨
    ∃ op, t = .completeWithStatus op ∧ st ≠ .success

end Task

namespace Bufferer

/-- The links of pull chains: posted `async_pull_packets` and completion handlers, and reads in flight. -/
def pullTokens (s : Bufferer) : Nat := s.reads + s.posted.countP Task.isPull

/-- The pull reads outstanding on the stream: issued, and their completion handler not run. -/
def outstandingPulls (s : Bufferer) : Nat := s.reads + s.posted.countP Task.isPullHandler

/-- `start_pulling` does nothing once `pulling_` is set. -/
@[simp] theorem startPulling_of_pulling {s : Bufferer} (h : s.pulling = true) : s.startPulling = s := by
  simp [startPulling, h]

/-- `start_pulling` on a bufferer that is not pulling. -/
theorem startPulling_of_not_pulling {s : Bufferer} (h : s.pulling = false) :
    s.startPulling = { s with pulling := true, posted := s.posted ++ [.asyncPullPackets], started := true } := by
  simp [startPulling, h]

/-- `async_pull_packets` changes only `pulling_`, the reads in flight and the reads issued. -/
theorem asyncPullPackets_status (s : Bufferer) : s.asyncPullPackets.status = s.status := by
  unfold asyncPullPackets; split <;> rfl

/-- `async_pull_packets` leaves the stream as it was. -/
theorem asyncPullPackets_isOpen (s : Bufferer) : s.asyncPullPackets.isOpen = s.isOpen := by
  unfold asyncPullPackets; split <;> rfl

/-- `async_pull_packets` queues no read. -/
theorem asyncPullPackets_submitted (s : Bufferer) : s.asyncPullPackets.submitted = s.submitted := by
  unfold asyncPullPackets; split <;> rfl

/-- What `handle_data_n_ops` can do to `s`, ending in `s'`: it changes no field but the queues, `pulling_`, which it only
sets, `started` and the bytes copied; it moves bytes from the front of `data_queue_` to the copied ones; and it posts only
what `Task.OfHandleData` allows, the completions of the reads it pops in the order it pops them, and `async_pull_packets`
exactly when it sets `pulling_`. -/
structure HdoEffect (s s' : Bufferer) : Prop where
  status : s'.status = s.status
  reads : s'.reads = s.reads
  isOpen : s'.isOpen = s.isOpen
  issued : s'.issued = s.issued
  committed : s'.committed = s.committed
  submitted : s'.submitted = s.submitted
  invoked : s'.invoked = s.invoked
  cancelled : s'.cancelled = s.cancelled
  handshaken : s'.handshaken = s.handshaken
  pulling : s.pulling = true → s'.pulling = true
  started : s.started = true → s'.started = true
  stream : ∃ x, s'.copied = s.copied ++ x ∧ s.dataQueue = x ++ s'.dataQueue
  posted : ∃ new, s'.posted = s.posted ++ new ∧ s.opQueue = new.filterMap Task.completedRead ++ s'.opQueue ∧
    (∀ t ∈ new, Task.OfHandleData s.status t) ∧ new.countP Task.isPull = if !s.pulling && s'.pulling then 1 else 0

/-- How `handle_data_n_ops` leaves the queues: a read stays queued only with `status_` clear and `data_queue_` empty, and
with `status_` clear the bufferer pulls or holds `lower_queue_size_bound` bytes. -/
def Done (s : Bufferer) : Prop :=
  (s.opQueue = [] ∨ s.status = .success ∧ s.dataQueue = []) ∧
    (s.status = .success → lowerQueueSizeBound ≤ s.dataQueue.length ∨ s.pulling = true)

/-- Doing nothing is an effect of `handle_data_n_ops`. -/
theorem HdoEffect.refl (s : Bufferer) : HdoEffect s s where
  status := rfl
  reads := rfl
  isOpen := rfl
  issued := rfl
  committed := rfl
  submitted := rfl
  invoked := rfl
  cancelled := rfl
  handshaken := rfl
  pulling := id
  started := id
  stream := ⟨[], by simp, rfl⟩
  posted := ⟨[], by simp, rfl, by simp, by cases s.pulling <;> rfl⟩

/-- Two passes of `handle_data_n_ops` make one effect. -/
theorem HdoEffect.trans {s₁ s₂ s₃ : Bufferer} (h : HdoEffect s₁ s₂) (h' : HdoEffect s₂ s₃) : HdoEffect s₁ s₃ where
  status := h'.status.trans h.status
  reads := h'.reads.trans h.reads
  isOpen := h'.isOpen.trans h.isOpen
  issued := h'.issued.trans h.issued
  committed := h'.committed.trans h.committed
  submitted := h'.submitted.trans h.submitted
  invoked := h'.invoked.trans h.invoked
  cancelled := h'.cancelled.trans h.cancelled
  handshaken := h'.handshaken.trans h.handshaken
  pulling := h'.pulling ∘ h.pulling
  started := h'.started ∘ h.started
  stream := by
    obtain ⟨x, hx, hd⟩ := h.stream
    obtain ⟨y, hy, hd'⟩ := h'.stream
    exact ⟨x ++ y, by simp [hy, hx], by simp [hd, hd']⟩
  posted := by
    obtain ⟨n₁, hp₁, hq₁, hn₁, hc₁⟩ := h.posted
    obtain ⟨n₂, hp₂, hq₂, hn₂, hc₂⟩ := h'.posted
    refine ⟨n₁ ++ n₂, by simp [hp₂, hp₁], by simp [hq₁, hq₂], ?_, ?_⟩
    · intro t ht
      rcases List.mem_append.1 ht with ht | ht
      · exact hn₁ t ht
      · exact h.status ▸ hn₂ t ht
    · have hm := h.pulling
      have hm' := h'.pulling
      rw [List.countP_append, hc₁, hc₂]
      cases h₁ : s₁.pulling <;> cases h₂ : s₂.pulling <;> cases h₃ : s₃.pulling <;> simp_all

namespace EffectsAux

/-- `start_pulling` is an effect of `handle_data_n_ops`. -/
theorem hdoEffect_startPulling (s : Bufferer) : HdoEffect s s.startPulling := by
  unfold startPulling
  split
  · exact .refl s
  · rename_i hp
    exact { HdoEffect.refl s with
      pulling := fun _ => rfl
      started := fun _ => rfl
      posted := ⟨[.asyncPullPackets], rfl, by simp [Task.completedRead], by simp [Task.OfHandleData],
        by simp [hp, Task.isPull]⟩ }

/-- The first block of a pass with `status_` clear. -/
theorem hdoEffect_checkPulling (s : Bufferer) : HdoEffect s s.checkPulling := by
  unfold checkPulling
  split
  · exact hdoEffect_startPulling s
  · exact .refl s

/-- The count `fill_buffer` reports is between one and the read's capacity when bytes are queued. -/
theorem fillBuffer_length_pos {op : PendingRead} {data : List UInt8} (hd : data ≠ []) :
    0 < (fillBuffer op data).1.length ∧ (fillBuffer op data).1.length ≤ op.capacity := by
  have := op.capacity_pos
  have : 0 < data.length := List.length_pos.2 hd
  simp only [fillBuffer, List.length_take]
  omega

/-- The second block of a pass with `status_` clear. -/
theorem hdoEffect_serveOldest (s : Bufferer) : HdoEffect s s.serveOldest.1 := by
  unfold serveOldest
  split
  · rename_i op ops hq
    split
    · rename_i hd
      exact { HdoEffect.refl s with
        stream := ⟨(fillBuffer op s.dataQueue).1, rfl, by simp [fillBuffer]⟩
        posted := ⟨[.complete op .success (fillBuffer op s.dataQueue).1.length], rfl, by simp [hq, Task.completedRead],
          fun t ht => by
            rw [List.mem_singleton.1 ht]
            exact Or.inr (Or.inl ⟨op, _, rfl, fillBuffer_length_pos hd⟩),
          by cases s.pulling <;> simp [Task.isPull]⟩ }
    · exact .refl s
  · exact .refl s

/-- A pass with an error in `status_`. -/
theorem hdoEffect_failOldest (s : Bufferer) (hs : s.status ≠ .success) : HdoEffect s s.failOldest.1 := by
  unfold failOldest
  split
  · rename_i op ops hq
    exact { HdoEffect.refl s with
      posted := ⟨[.completeWithStatus op], rfl, by simp [hq, Task.completedRead],
        by simpa [Task.OfHandleData] using hs, by cases s.pulling <;> simp [Task.isPull]⟩ }
  · exact .refl s

/-- One pass of `handle_data_n_ops`. -/
theorem hdoEffect_handleDataNOpsStep (s : Bufferer) : HdoEffect s s.handleDataNOpsStep.1 := by
  unfold handleDataNOpsStep
  split
  · exact (hdoEffect_checkPulling s).trans (hdoEffect_serveOldest _)
  · exact hdoEffect_failOldest s ‹_›

/-- A pass that dispatches itself again has popped a read; one that does not leaves the queues `Done`. -/
theorem handleDataNOpsStep_cases (s : Bufferer) :
    (s.handleDataNOpsStep.2 = true → s.handleDataNOpsStep.1.opQueue.length < s.opQueue.length) ∧
      (s.handleDataNOpsStep.2 = false → Done s.handleDataNOpsStep.1) := by
  obtain ⟨hq, hd, hst, hp⟩ : (checkPulling s).opQueue = s.opQueue ∧ (checkPulling s).dataQueue = s.dataQueue ∧
      (checkPulling s).status = s.status ∧
      (s.dataQueue.length < lowerQueueSizeBound → (checkPulling s).pulling = true) := by
    unfold checkPulling startPulling; split_ifs <;> simp_all
  unfold handleDataNOpsStep
  split
  · rename_i hs
    unfold serveOldest
    split
    · rename_i op ops hq'
      split
      · simp [hq', ← hq]
      · rename_i hd'
        simp only [not_not] at hd'
        refine ⟨fun h => (nomatch h), fun _ => ?_⟩
        unfold Done
        refine ⟨Or.inr ⟨hst.trans hs, hd'⟩, fun _ => Or.inr (hp ?_)⟩
        rw [← hd, hd']
        decide
    · rename_i hq'
      simp only [Bool.false_eq_true, false_implies, true_and, Done, hq', true_or, hst, hs, hd, forall_const]
      by_cases hl : s.dataQueue.length < lowerQueueSizeBound
      · exact Or.inr (hp hl)
      · exact Or.inl (by omega)
  · rename_i hs
    unfold failOldest
    split
    · rename_i op ops hq'
      simp [hq']
    · rename_i hq'
      simp [Done, hq', hs]

/-- Any number of passes of `handle_data_n_ops`. -/
theorem hdoEffect_loop : ∀ (n : Nat) (s : Bufferer), HdoEffect s (handleDataNOpsLoop n s)
  | 0, s => .refl s
  | n + 1, s => by
    simp only [handleDataNOpsLoop]
    split
    · exact (hdoEffect_handleDataNOpsStep s).trans (hdoEffect_loop n _)
    · exact hdoEffect_handleDataNOpsStep s

/-- Fuel above the length of `op_queue_` runs the loop until it stops by itself. -/
theorem done_loop : ∀ (n : Nat) (s : Bufferer), s.opQueue.length < n → Done (handleDataNOpsLoop n s)
  | 0, _, h => absurd h (Nat.not_lt_zero _)
  | n + 1, s, h => by
    simp only [handleDataNOpsLoop]
    split
    · exact done_loop n _ (by have := (handleDataNOpsStep_cases s).1 ‹_›; omega)
    · exact (handleDataNOpsStep_cases s).2 (by simpa using ‹¬_ = true›)

end EffectsAux

open EffectsAux

/-- Everything `handle_data_n_ops` can do is in `HdoEffect`. -/
theorem hdoEffect_handleDataNOps (s : Bufferer) : HdoEffect s s.handleDataNOps := hdoEffect_loop _ s

/-- `handle_data_n_ops` leaves the queues `Done`: its runs of its body are enough. -/
theorem done_handleDataNOps (s : Bufferer) : Done s.handleDataNOps := done_loop _ s (Nat.lt_succ_self _)

namespace EffectsAux

/-- Two fuels above the reads queued run `handle_data_n_ops` to the same end. -/
theorem loop_fuel_eq : ∀ (n m : Nat) (s : Bufferer), s.opQueue.length < n → s.opQueue.length < m →
    handleDataNOpsLoop n s = handleDataNOpsLoop m s
  | 0, _, _, h, _ => absurd h (Nat.not_lt_zero _)
  | _ + 1, 0, _, _, h => absurd h (Nat.not_lt_zero _)
  | n + 1, m + 1, s, hn, hm => by
    simp only [handleDataNOpsLoop]
    split
    · have := (handleDataNOpsStep_cases s).1 ‹_›
      exact loop_fuel_eq n m _ (by omega) (by omega)
    · rfl

end EffectsAux

/-- `handle_data_n_ops` stops dispatching itself: it dispatches itself again only after popping a read, so it runs its
body at most once more than `op_queue_` holds reads, and any number of runs above that ends in the same state. That state
is `Done`: a read is left queued only with `status_` clear and `data_queue_` empty, and with `status_` clear the bufferer
pulls or holds `lower_queue_size_bound` bytes. -/
theorem handleDataNOps_terminates (s : Bufferer) (n : Nat) (hn : s.opQueue.length < n) :
    handleDataNOpsLoop n s = s.handleDataNOps ∧ Done s.handleDataNOps :=
  ⟨loop_fuel_eq n _ s hn (Nat.lt_succ_self _), done_handleDataNOps s⟩

/-- A bufferer with two reads of one byte queued beside three bytes. -/
def twoReadsQueued : Bufferer :=
  { init with opQueue := [⟨0, 1, Nat.one_pos⟩, ⟨1, 1, Nat.one_pos⟩], dataQueue := [1, 2, 3] }

/-- `handleDataNOps_terminates` at `twoReadsQueued`, with fuel for five runs of the body. -/
theorem handleDataNOps_terminates_twoReads :
    twoReadsQueued.opQueue.length < 5 ∧ handleDataNOpsLoop 5 twoReadsQueued = twoReadsQueued.handleDataNOps ∧
      Done twoReadsQueued.handleDataNOps :=
  ⟨by decide, handleDataNOps_terminates twoReadsQueued 5 (by decide)⟩

/-- What one event can do: a user read, a handshake completing at once, one started or one completing, a pull read
completing (one in flight, with at most `receive_buffer_size` bytes, and with an error once the stream is closed),
`close`, or the run of the oldest posted handler. -/
theorem step_cases {s s' : Bufferer} {e : Event} (h : s.step e = some s') :
    (∃ c, s' = s.asyncReadSome c) ∨ (∃ ec, s' = s.handshakeDone ec) ∨
      s' = { s with handshakes := s.handshakes + 1 } ∨
      (∃ ec, s' = { s with handshakes := s.handshakes - 1, posted := s.posted ++ [.handshakeHandler ec] }) ∨
      (∃ ec chunk, 0 < s.reads ∧ chunk.length ≤ receiveBufferSize ∧ (s.isOpen = true ∨ ec ≠ .success) ∧
        s' = { s with reads := s.reads - 1, posted := s.posted ++ [.pullHandler ec chunk] }) ∨
      s' = s.close ∨ ∃ t ts, s.posted = t :: ts ∧ s' = { s with posted := ts }.runTask t := by
  cases e with
  | asyncReadSome c => exact .inl ⟨c, (Option.some.inj h).symm⟩
  | handshake ec => exact .inr (.inl ⟨ec, (Option.some.inj h).symm⟩)
  | asyncHandshake => exact .inr (.inr (.inl (Option.some.inj h).symm))
  | handshakeComplete ec =>
    simp only [step, Option.ite_none_right_eq_some, Option.some.injEq] at h
    exact .inr (.inr (.inr (.inl ⟨ec, h.2.symm⟩)))
  | pullComplete ec chunk =>
    simp only [step, Option.ite_none_right_eq_some, Option.some.injEq] at h
    exact .inr (.inr (.inr (.inr (.inl ⟨ec, chunk, h.1.1, h.1.2.1, h.1.2.2, h.2.symm⟩))))
  | close => exact .inr (.inr (.inr (.inr (.inr (.inl (Option.some.inj h).symm)))))
  | run =>
    simp only [step] at h
    split at h
    · exact .inr (.inr (.inr (.inr (.inr (.inr ⟨_, _, ‹_›, (Option.some.inj h).symm⟩)))))
    · cases h

/-- The history only grows: reads are only added to `submitted`, `handshaken` and `cancelled` are only set, and pull reads
are only added to `issued`. A closed stream is not opened again. -/
structure Grows (s s' : Bufferer) : Prop where
  submitted : s.submitted <+: s'.submitted
  handshaken : s.handshaken = true → s'.handshaken = true
  cancelled : s.cancelled = true → s'.cancelled = true
  issued : s.issued ≤ s'.issued
  isOpen : s'.isOpen = true → s.isOpen = true

/-- Doing nothing grows nothing. -/
theorem Grows.refl (s : Bufferer) : Grows s s := ⟨List.prefix_refl _, id, id, le_rfl, id⟩

/-- Two steps that grow the history make one. -/
theorem Grows.trans {s₁ s₂ s₃ : Bufferer} (h : Grows s₁ s₂) (h' : Grows s₂ s₃) : Grows s₁ s₃ :=
  ⟨h.submitted.trans h'.submitted, h'.handshaken ∘ h.handshaken, h'.cancelled ∘ h.cancelled, h.issued.trans h'.issued,
    h.isOpen ∘ h'.isOpen⟩

/-- `handle_data_n_ops` only grows the history. -/
theorem HdoEffect.grows {s s' : Bufferer} (h : HdoEffect s s') : Grows s s' :=
  ⟨h.submitted ▸ List.prefix_refl _, fun hh => h.handshaken ▸ hh, fun hc => h.cancelled ▸ hc, h.issued ▸ le_rfl,
    fun ho => h.isOpen ▸ ho⟩

namespace EffectsAux

/-- `start_pulling` only grows the history. -/
theorem grows_startPulling (s : Bufferer) : Grows s s.startPulling := (hdoEffect_startPulling s).grows

/-- `async_pull_packets` only grows the history: it may issue one more pull read. -/
theorem grows_asyncPullPackets (s : Bufferer) : Grows s s.asyncPullPackets := by
  unfold asyncPullPackets
  split
  · exact ⟨List.prefix_refl _, id, id, Nat.le_succ _, id⟩
  · exact ⟨List.prefix_refl _, id, id, le_rfl, id⟩

/-- A handshake only grows the history: it may set `handshaken`. -/
theorem grows_handshakeDone (s : Bufferer) (ec : ErrorCode) : Grows s (s.handshakeDone ec) := by
  unfold handshakeDone
  split
  · exact @Grows.trans _ ({ s with handshaken := true }) _ ⟨List.prefix_refl _, fun _ => rfl, id, le_rfl, id⟩
      (grows_startPulling _)
  · exact Grows.refl s

/-- `cancel` only grows the history: it sets `cancelled`. -/
theorem grows_cancel (s : Bufferer) : Grows s s.cancel := ⟨List.prefix_refl _, id, fun _ => rfl, le_rfl, id⟩

/-- Every posted handler only grows the history. -/
theorem grows_runTask (s : Bufferer) (t : Task) : Grows s (s.runTask t) := by
  cases t with
  | asyncPullPackets => exact grows_asyncPullPackets s
  | handleDataNOps => exact (hdoEffect_loop _ s).grows
  | complete op ec n => exact ⟨List.prefix_refl _, id, id, le_rfl, id⟩
  | completeWithStatus op => exact ⟨List.prefix_refl _, id, id, le_rfl, id⟩
  | emptyRead => exact Grows.refl s
  | pullHandler ec chunk =>
    refine Grows.trans ?_ (hdoEffect_loop _ _).grows
    cases ec with
    | success =>
      dsimp only
      split
      · exact @Grows.trans _ { s with dataQueue := s.dataQueue ++ chunk, committed := s.committed ++ chunk } _
          ⟨List.prefix_refl _, id, id, le_rfl, id⟩ (grows_asyncPullPackets _)
      · exact ⟨List.prefix_refl _, id, id, le_rfl, id⟩
    | operationAborted => exact grows_cancel s
    | error v => exact ⟨List.prefix_refl _, id, id, le_rfl, id⟩
  | handshakeHandler ec => exact grows_handshakeDone s ec

end EffectsAux

/-- Every event only grows the history. -/
theorem grows_step {s s' : Bufferer} {e : Event} (h : s.step e = some s') : Grows s s' := by
  rcases step_cases h with ⟨c, rfl⟩ | ⟨ec, rfl⟩ | rfl | ⟨ec, rfl⟩ | ⟨ec, chunk, -, -, -, rfl⟩ | rfl |
    ⟨t, ts, hp, rfl⟩
  · unfold asyncReadSome
    split
    · exact ⟨List.prefix_append _ _, id, id, le_rfl, id⟩
    · exact ⟨List.prefix_refl _, id, id, le_rfl, id⟩
  · exact grows_handshakeDone s ec
  · exact ⟨List.prefix_refl _, id, id, le_rfl, id⟩
  · exact ⟨List.prefix_refl _, id, id, le_rfl, id⟩
  · exact ⟨List.prefix_refl _, id, id, le_rfl, id⟩
  · exact @Grows.trans _ ({ s with isOpen := false }) _ ⟨List.prefix_refl _, id, id, le_rfl, nofun⟩ (grows_cancel _)
  · exact @Grows.trans _ ({ s with posted := ts }) _ ⟨List.prefix_refl _, id, id, le_rfl, id⟩ (grows_runTask _ t)


end Bufferer

/-- An invariant that holds initially and that every event keeps holds in every reachable state. -/
theorem Reachable.inv {P : Bufferer → Prop} (h0 : P Bufferer.init)
    (hs : ∀ s s' e, Reachable s → P s → s.step e = some s' → P s') {s : Bufferer} (h : Reachable s) : P s := by
  induction h with
  | init => exact h0
  | step hr he ih => exact hs _ _ _ hr ih he

end SocketFunneling
