import SocketFunneling.Tls.Delivery

/-!
# Every byte once, in order

`fill_buffer` copies from the front of `data_queue_`, the completion of a pull read appends its chunk at the back, and
`cancel` and a failed pull read drop the whole queue. So over every run, `cancel` and failed pull reads included, the bytes
copied into user buffers followed by those still queued are a sublist of the bytes committed, and the queue holds the last
bytes committed: no byte reaches a user twice, out of order, or without the stream having delivered it. A completion
posted by `handle_data_n_ops` carries the count `fill_buffer` returned and every other completion carries 0, so the
counts the read handlers are called with, and those still posted, add up to the bytes copied (`copied_sublist_committed`).
-/

namespace SocketFunneling

/-- The byte count a posted handler passes to the handler of a read: that of a completion posted with a count. A completion
with `status_` passes 0. -/
def Task.reported : Task → Nat
  | .complete _ _ n => n
  | _ => 0

/-- The byte counts the handlers of a list pass to read handlers. -/
def Task.reportedBytes : List Task → Nat
  | [] => 0
  | t :: ts => t.reported + Task.reportedBytes ts

@[simp] theorem Task.reportedBytes_nil : Task.reportedBytes [] = 0 := rfl

@[simp] theorem Task.reportedBytes_cons (t : Task) (ts : List Task) :
    Task.reportedBytes (t :: ts) = t.reported + Task.reportedBytes ts := rfl

@[simp] theorem Task.reportedBytes_append (ts us : List Task) :
    Task.reportedBytes (ts ++ us) = Task.reportedBytes ts + Task.reportedBytes us := by
  induction ts with
  | nil => simp
  | cons t ts ih => simp [ih, Nat.add_assoc]

/-- The byte counts read handlers were called with. -/
def Invocation.totalLength : List Invocation → Nat
  | [] => 0
  | i :: is => i.length + Invocation.totalLength is

@[simp] theorem Invocation.totalLength_append (is js : List Invocation) :
    Invocation.totalLength (is ++ js) = Invocation.totalLength is + Invocation.totalLength js := by
  induction is with
  | nil => simp [Invocation.totalLength]
  | cons i is ih => simp [Invocation.totalLength, ih, Nat.add_assoc]

namespace Bufferer

/-- The facts about the bytes of the stream that every reachable state satisfies. -/
structure Stream (s : Bufferer) : Prop where
  sublist : (s.copied ++ s.dataQueue).Sublist s.committed
  suffix : s.dataQueue <:+ s.committed
  counts : Invocation.totalLength s.invoked + Task.reportedBytes s.posted = s.copied.length

namespace BytesAux

/-- Handlers that pass no count pass none together. -/
theorem reportedBytes_eq_zero {l : List Task} (h : ∀ t ∈ l, t.reported = 0) : Task.reportedBytes l = 0 := by
  induction l with
  | nil => rfl
  | cons t l ih => simp_all

/-- `s'` has posted, in counts, the bytes it copied since `s`. -/
def ReportsCopies (s s' : Bufferer) : Prop :=
  Task.reportedBytes s'.posted + s.copied.length = Task.reportedBytes s.posted + s'.copied.length

/-- Two steps that post their copies in counts make one. -/
theorem ReportsCopies.trans {s₁ s₂ s₃ : Bufferer} (h : ReportsCopies s₁ s₂) (h' : ReportsCopies s₂ s₃) :
    ReportsCopies s₁ s₃ := by
  unfold ReportsCopies at *
  omega

/-- What holds of one pass of the body of `handle_data_n_ops`, and of two passes when it holds of each, holds of the
loop. -/
theorem loop_induction {R : Bufferer → Bufferer → Prop} (hrefl : ∀ s, R s s)
    (htrans : ∀ s₁ s₂ s₃, R s₁ s₂ → R s₂ s₃ → R s₁ s₃) (hstep : ∀ s, R s s.handleDataNOpsStep.1) :
    ∀ n s, R s (handleDataNOpsLoop n s)
  | 0, s => hrefl s
  | n + 1, s => by
    simp only [handleDataNOpsLoop]
    split
    · exact htrans _ _ _ (hstep s) (loop_induction hrefl htrans hstep n _)
    · exact hstep s

/-- A pass of `handle_data_n_ops` posts, with the completion of the read it serves, the count it copied. -/
theorem reportsCopies_handleDataNOpsStep (s : Bufferer) : ReportsCopies s s.handleDataNOpsStep.1 := by
  have hc : ReportsCopies s (checkPulling s) := by
    unfold checkPulling startPulling
    split_ifs <;> simp [ReportsCopies, Task.reported]
  unfold handleDataNOpsStep
  split
  · refine hc.trans ?_
    unfold serveOldest
    split
    · split
      · simp only [ReportsCopies, Task.reportedBytes_append, Task.reportedBytes_cons, Task.reportedBytes_nil,
          Task.reported, List.length_append]
        omega
      · rfl
    · rfl
  · unfold failOldest
    split <;> simp [ReportsCopies, Task.reported]

/-- `handle_data_n_ops` posts, in counts, the bytes it copies. -/
theorem reportsCopies_handleDataNOps (s : Bufferer) : ReportsCopies s s.handleDataNOps :=
  loop_induction (R := ReportsCopies) (fun _ => rfl) (fun _ _ _ => ReportsCopies.trans) reportsCopies_handleDataNOpsStep
    _ s

/-- A step that leaves the bytes, the calls of read handlers and the counts posted as they were keeps `Stream`. -/
theorem stream_of_eq {s s' : Bufferer} (h : Stream s) (hc : s'.copied = s.copied) (hd : s'.dataQueue = s.dataQueue)
    (hm : s'.committed = s.committed) (hi : s'.invoked = s.invoked)
    (hp : Task.reportedBytes s'.posted = Task.reportedBytes s.posted) : Stream s' :=
  ⟨hc ▸ hd ▸ hm ▸ h.sublist, hd ▸ hm ▸ h.suffix, by rw [hc, hi, hp]; exact h.counts⟩

/-- A step that drops `data_queue_` and leaves the rest of the bytes as they were keeps `Stream`. -/
theorem stream_of_drop {s s' : Bufferer} (h : Stream s) (hc : s'.copied = s.copied) (hd : s'.dataQueue = [])
    (hm : s'.committed = s.committed) (hi : s'.invoked = s.invoked)
    (hp : Task.reportedBytes s'.posted = Task.reportedBytes s.posted) : Stream s' :=
  ⟨by rw [hc, hd, hm, List.append_nil]; exact (List.sublist_append_left _ _).trans h.sublist, hd ▸ List.nil_suffix,
    by rw [hc, hi, hp]; exact h.counts⟩

/-- `handle_data_n_ops` moves bytes from the front of `data_queue_` to those copied, and posts their count. -/
theorem stream_handleDataNOps {s : Bufferer} (h : Stream s) : Stream s.handleDataNOps := by
  have he := hdoEffect_handleDataNOps s
  have hr := reportsCopies_handleDataNOps s
  obtain ⟨x, hx, hd⟩ := he.stream
  obtain ⟨hsub, ⟨p, hp⟩, hcnt⟩ := h
  refine ⟨?_, ⟨p ++ x, ?_⟩, ?_⟩
  · rwa [he.committed, hx, List.append_assoc, ← hd]
  · rw [he.committed, ← hp, hd, List.append_assoc]
  · unfold ReportsCopies at hr
    rw [he.invoked]
    omega

/-- `start_pulling` posts `async_pull_packets`, which passes no count. -/
theorem stream_startPulling {s : Bufferer} (h : Stream s) : Stream s.startPulling := by
  unfold startPulling
  split
  · exact h
  · exact stream_of_eq h rfl rfl rfl rfl (by simp [Task.reported])

/-- A handshake touches no byte. -/
theorem stream_handshakeDone {s : Bufferer} (h : Stream s) (ec : ErrorCode) : Stream (s.handshakeDone ec) := by
  unfold handshakeDone
  split
  · exact stream_startPulling (s := { s with handshaken := true }) ⟨h.1, h.2, h.3⟩
  · exact h

/-- `cancel` drops `data_queue_` and posts completions with no bytes. -/
theorem stream_cancel {s : Bufferer} (h : Stream s) : Stream s.cancel :=
  stream_of_drop h rfl rfl rfl rfl (by
    simp only [cancel, Task.reportedBytes_append, Nat.add_right_eq_self]
    exact reportedBytes_eq_zero fun t ht => by
      obtain ⟨op, -, rfl⟩ := List.mem_map.1 ht
      rfl)

/-- `async_pull_packets` touches no byte. -/
theorem stream_asyncPullPackets {s : Bufferer} (h : Stream s) : Stream s.asyncPullPackets := by
  unfold asyncPullPackets
  split <;> exact stream_of_eq h rfl rfl rfl rfl rfl

/-- Committing a chunk appends it to `data_queue_` and to the bytes committed. -/
theorem stream_commit {s : Bufferer} (h : Stream s) (chunk : List UInt8) :
    Stream { s with dataQueue := s.dataQueue ++ chunk, committed := s.committed ++ chunk } := by
  obtain ⟨hsub, ⟨p, hp⟩, hcnt⟩ := h
  refine ⟨?_, ⟨p, ?_⟩, hcnt⟩
  · rw [← List.append_assoc]
    exact hsub.append (List.Sublist.refl chunk)
  · rw [← List.append_assoc, hp]

/-- The completion handler of a pull read: it commits its chunk, or drops `data_queue_`, then runs
`handle_data_n_ops`. -/
theorem stream_pullHandler {s : Bufferer} (h : Stream s) (ec : ErrorCode) (chunk : List UInt8) :
    Stream (s.pullHandler ec chunk) := by
  unfold pullHandler
  apply stream_handleDataNOps
  cases ec with
  | success =>
    dsimp only
    split
    · exact stream_asyncPullPackets (stream_commit h chunk)
    · exact stream_commit h chunk
  | operationAborted => exact stream_cancel h
  | error v => exact stream_of_drop h rfl rfl rfl rfl rfl

/-- Taking a handler that passes no count off the queue keeps `Stream`. -/
theorem stream_pop {s : Bufferer} {t : Task} {ts : List Task} (h : Stream s) (hp : s.posted = t :: ts)
    (ht : t.reported = 0) : Stream { s with posted := ts } :=
  stream_of_eq h rfl rfl rfl rfl (by simp [hp, ht])

/-- Calling the handler of a read with the count its completion carries keeps `Stream`. -/
theorem stream_invoke {s : Bufferer} {t : Task} {ts : List Task} (h : Stream s) (hp : s.posted = t :: ts)
    (i : Invocation) (hi : i.length = t.reported) : Stream { s with posted := ts, invoked := s.invoked ++ [i] } := by
  refine ⟨h.sublist, h.suffix, ?_⟩
  have hc := h.counts
  simp only [hp, Task.reportedBytes_cons, Invocation.totalLength_append, Invocation.totalLength] at hc ⊢
  omega

/-- Every event keeps `Stream`. -/
theorem stream_step {s s' : Bufferer} {e : Event} (h : Stream s) (hs : s.step e = some s') : Stream s' := by
  rcases step_cases hs with ⟨c, rfl⟩ | ⟨ec, rfl⟩ | rfl | ⟨ec, rfl⟩ | ⟨ec, chunk, -, -, -, rfl⟩ | rfl |
    ⟨t, ts, hp, rfl⟩
  · unfold asyncReadSome
    split <;> exact stream_of_eq h rfl rfl rfl rfl (by simp [Task.reported])
  · exact stream_handshakeDone h ec
  · exact stream_of_eq h rfl rfl rfl rfl rfl
  · exact stream_of_eq h rfl rfl rfl rfl (by simp [Task.reported])
  · exact stream_of_eq h rfl rfl rfl rfl (by simp [Task.reported])
  · exact stream_cancel (s := { s with isOpen := false }) ⟨h.1, h.2, h.3⟩
  · cases t with
    | asyncPullPackets => exact stream_asyncPullPackets (stream_pop h hp rfl)
    | handleDataNOps => exact stream_handleDataNOps (stream_pop h hp rfl)
    | complete op ec n => exact stream_invoke h hp ⟨op, ec, n⟩ rfl
    | completeWithStatus op => exact stream_invoke h hp ⟨op, s.status, 0⟩ rfl
    | emptyRead => exact stream_pop h hp rfl
    | pullHandler ec chunk => exact stream_pullHandler (stream_pop h hp rfl) ec chunk
    | handshakeHandler ec => exact stream_handshakeDone (stream_pop h hp rfl) ec

end BytesAux

open BytesAux

/-- Every reachable state satisfies `Stream`. -/
theorem stream_of_reachable {s : Bufferer} (h : Reachable s) : Stream s :=
  h.inv ⟨List.Sublist.refl _, List.suffix_refl _, rfl⟩ fun _ _ _ _ hi he => stream_step hi he

/-- Over every run, `cancel` and failed pull reads included: the bytes copied into user buffers, followed by those still
in `data_queue_`, are a sublist of the chunks committed in commit order, so no byte reaches a user twice, out of order or
without the stream having delivered it; `data_queue_` holds the last bytes committed; and the counts the read handlers
were called with, and those their posted completions carry, add up to the bytes copied. -/
theorem copied_sublist_committed {s : Bufferer} (h : Reachable s) :
    (s.copied ++ s.dataQueue).Sublist s.committed ∧ s.dataQueue <:+ s.committed ∧
      Invocation.totalLength s.invoked + Task.reportedBytes s.posted = s.copied.length :=
  have hs := stream_of_reachable h
  ⟨hs.sublist, hs.suffix, hs.counts⟩

/-- `copied_sublist_committed` where a read was served: the three bytes copied, then the empty queue, are the three
committed. -/
theorem copied_sublist_committed_servedRead :
    Reachable servedRead ∧ servedRead.copied = [1, 2, 3] ∧
      (servedRead.copied ++ servedRead.dataQueue).Sublist servedRead.committed ∧
      servedRead.dataQueue <:+ servedRead.committed ∧
      Invocation.totalLength servedRead.invoked + Task.reportedBytes servedRead.posted = servedRead.copied.length :=
  ⟨reachable_servedRead, rfl, copied_sublist_committed reachable_servedRead⟩

end Bufferer

end SocketFunneling
