import SocketFunneling.Tls.Chains

/-!
# No read is stranded

A state is quiescent when no handler is posted: only I/O is outstanding. In a reachable quiescent state a queued read
waits only for bytes, and then a pull read is on its way (`quiescent_reads_served`). `Settled` is what makes this true:
`handle_data_n_ops` leaves the queues `Done`, and until it runs again it is posted. After `start_pulling`, and until
`cancel`, a bufferer with `status_` clear pulls or holds `lower_queue_size_bound` bytes: the read that takes a paused
bufferer below the mark resumes it, since `handle_data_n_ops` checks the mark again after every read it serves.
-/

namespace SocketFunneling

namespace Bufferer

/-- The facts about the queues that every reachable state satisfies. -/
structure Settled (s : Bufferer) : Prop where
  queued : s.opQueue = [] ∨ Task.handleDataNOps ∈ s.posted ∨ s.status = .success ∧ s.dataQueue = [] ∧ s.pulling = true
  resumed : s.status = .success → s.cancelled = false → s.started = true →
    s.pulling = true ∨ lowerQueueSizeBound ≤ s.dataQueue.length

namespace SettledAux

/-- A state left by `handle_data_n_ops` is settled. -/
theorem settled_of_done {s : Bufferer} (h : Done s) : Settled s := by
  obtain ⟨h1 | ⟨hs, hd⟩, h2⟩ := h
  · exact ⟨.inl h1, fun hs _ _ => (h2 hs).symm⟩
  · refine ⟨.inr (.inr ⟨hs, hd, ?_⟩), fun hs _ _ => (h2 hs).symm⟩
    simpa [hd, lowerQueueSizeBound] using h2 hs

/-- A step that keeps the queues, `status_` and the history of `start_pulling` and `cancel`, only sets `pulling_`, and
keeps `handle_data_n_ops` posted. -/
theorem settled_mono {s s' : Bufferer} (h : Settled s) (hq : s'.opQueue = s.opQueue) (hd : s'.dataQueue = s.dataQueue)
    (hs : s'.status = s.status) (hc : s'.cancelled = s.cancelled) (hst : s'.started = true → s.started = true ∨ s'.pulling = true)
    (hp : s.pulling = true → s'.pulling = true) (hh : Task.handleDataNOps ∈ s.posted → Task.handleDataNOps ∈ s'.posted) :
    Settled s' := by
  obtain ⟨h1, h2⟩ := h
  refine ⟨?_, fun hs' hc' hst' => ?_⟩
  · rw [hq, hd, hs]
    rcases h1 with h1 | h1 | ⟨h1, h1', h1''⟩
    · exact .inl h1
    · exact .inr (.inl (hh h1))
    · exact .inr (.inr ⟨h1, h1', hp h1''⟩)
  · rw [hd]
    rcases hst hst' with hst' | hst'
    · rcases h2 (hs ▸ hs') (hc ▸ hc') hst' with h2 | h2
      · exact .inl (hp h2)
      · exact .inr h2
    · exact .inl hst'

/-- `start_pulling` keeps `Settled`. -/
theorem settled_startPulling {s : Bufferer} (h : Settled s) : Settled s.startPulling := by
  cases hp : s.pulling
  · exact settled_mono h (by simp [startPulling_of_not_pulling hp]) (by simp [startPulling_of_not_pulling hp])
      (by simp [startPulling_of_not_pulling hp]) (by simp [startPulling_of_not_pulling hp])
      (fun _ => .inr (by simp [startPulling_of_not_pulling hp])) (fun _ => by simp [startPulling_of_not_pulling hp])
      (fun h => by simp [startPulling_of_not_pulling hp, h])
  · simpa [hp] using h

/-- A handshake keeps `Settled`. -/
theorem settled_handshakeDone {s : Bufferer} (h : Settled s) (ec : ErrorCode) : Settled (s.handshakeDone ec) := by
  unfold handshakeDone
  split
  · exact settled_startPulling (s := { s with handshaken := true }) ⟨h.queued, h.resumed⟩
  · exact h

/-- Popping a handler other than `handle_data_n_ops` keeps the state settled. -/
theorem settled_pop {s : Bufferer} {t : Task} {ts : List Task} (h : Settled s) (hp : s.posted = t :: ts)
    (ht : t ≠ .handleDataNOps) : Settled { s with posted := ts } :=
  settled_mono h rfl rfl rfl rfl (fun h => .inl h) id
    (fun h => by rw [hp] at h; exact (List.mem_cons.1 h).resolve_left (Ne.symm ht))

/-- `async_pull_packets` keeps `Settled`. -/
theorem settled_asyncPullPackets {s : Bufferer} (h : Settled s) : Settled s.asyncPullPackets := by
  unfold asyncPullPackets
  split
  · exact settled_mono h rfl rfl rfl rfl (fun h => .inl h) id id
  · rename_i hl
    obtain ⟨h1, h2⟩ := h
    refine ⟨?_, fun _ _ _ => .inr (le_trans (by decide) (not_lt.1 hl))⟩
    rcases h1 with h1 | h1 | ⟨-, hd, -⟩
    · exact .inl h1
    · exact .inr (.inl h1)
    · simp [hd, higherQueueSizeBound] at hl

/-- Every event keeps `Settled`. -/
theorem settled_step {s s' : Bufferer} {e : Event} (h : Settled s) (hs : s.step e = some s') : Settled s' := by
  rcases step_cases hs with ⟨c, rfl⟩ | ⟨ec, rfl⟩ | rfl | ⟨ec, rfl⟩ | ⟨ec, chunk, -, -, -, rfl⟩ | rfl |
    ⟨t, ts, hp, rfl⟩
  · unfold asyncReadSome
    split
    · exact ⟨.inr (.inl (by simp)), fun hs hc hst => h.resumed hs hc hst⟩
    · exact settled_mono h rfl rfl rfl rfl (fun h => .inl h) id (fun h => by simp [h])
  · exact settled_handshakeDone h ec
  · exact ⟨h.queued, h.resumed⟩
  · exact settled_mono h rfl rfl rfl rfl (fun h => .inl h) id (fun h => by simp [h])
  · exact settled_mono h rfl rfl rfl rfl (fun h => .inl h) id (fun h => by simp [h])
  · exact ⟨.inl rfl, fun _ hc => nomatch hc⟩
  · cases t with
    | handleDataNOps => exact settled_of_done (done_handleDataNOps _)
    | pullHandler ec chunk => exact settled_of_done (done_handleDataNOps _)
    | asyncPullPackets => exact settled_asyncPullPackets (settled_pop h hp nofun)
    | complete op ec n =>
      exact settled_mono (settled_pop h hp nofun) rfl rfl rfl rfl (fun h => .inl h) id id
    | completeWithStatus op =>
      exact settled_mono (settled_pop h hp nofun) rfl rfl rfl rfl (fun h => .inl h) id id
    | emptyRead => exact settled_pop h hp nofun
    | handshakeHandler ec => exact settled_handshakeDone (settled_pop h hp nofun) ec

end SettledAux

open SettledAux

/-- Every reachable state is settled. -/
theorem settled_of_reachable {s : Bufferer} (h : Reachable s) : Settled s :=
  h.inv ⟨.inl rfl, fun _ _ hst => nomatch hst⟩ fun _ _ _ _ hi he => settled_step hi he

/-- In a reachable state where no handler is posted, with an error in `status_` no read is queued; with `status_` clear
no read is queued while bytes are, a queued read has a pull read outstanding for it, and once pulling has started and
until `cancel`, a queue below `lower_queue_size_bound` has a pull read outstanding to fill it. -/
theorem quiescent_reads_served {s : Bufferer} (h : Reachable s) (hq : s.posted = []) :
    (s.status ≠ .success → s.opQueue = []) ∧
      (s.status = .success → (s.opQueue = [] ∨ s.dataQueue = []) ∧ (s.opQueue ≠ [] → 0 < s.reads) ∧
        (s.started = true → s.cancelled = false → s.dataQueue.length < lowerQueueSizeBound → 0 < s.reads)) := by
  obtain ⟨h1, h2⟩ := settled_of_reachable h
  have hc := (chains_of_reachable h).pulls
  simp only [pullTokens, hq, List.countP_nil, Nat.add_zero, List.not_mem_nil, false_or] at h1 hc
  refine ⟨fun hs => h1.resolve_right (fun h => hs h.1), fun hs => ⟨?_, fun hne => ?_, fun hst hcn hl => ?_⟩⟩
  · rcases h1 with h1 | h1
    · exact .inl h1
    · exact .inr h1.2.1
  · exact hc hs (h1.resolve_left hne).2.2
  · exact hc hs ((h2 hs hcn hst).resolve_right (not_le.2 hl))

/-- After a handshake and the first pull read, a read of four bytes is queued, and `handle_data_n_ops` finds no byte for
it. -/
def readPending : Bufferer := (init.run [.handshake .success, .run, .asyncReadSome 4, .run]).getD init

/-- `quiescent_reads_served` at `readPending`, a quiescent state with a read queued: no byte is queued beside it, and a
pull read is in flight for it. -/
theorem quiescent_after_handshake :
    Reachable readPending ∧ readPending.posted = [] ∧ readPending.status = .success ∧ readPending.opQueue ≠ [] ∧
      readPending.dataQueue = [] ∧ 0 < readPending.reads :=
  have h : Reachable readPending := Reachable.init.run [.handshake .success, .run, .asyncReadSome 4, .run] rfl
  have hq : readPending.opQueue ≠ [] := by decide
  have hs := (quiescent_reads_served h rfl).2 rfl
  ⟨h, rfl, rfl, hq, hs.1.resolve_left hq, hs.2.1 hq⟩

end Bufferer

end SocketFunneling
