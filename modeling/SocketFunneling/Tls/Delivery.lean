import SocketFunneling.Tls.Chains

/-!
# What the user reads

The bytes the user reads are the bytes the stream delivered, in order: until `cancel` or a failed pull read, the bytes
`fill_buffer` copied followed by those still queued are the chunks committed, in commit order. The reads are served
oldest first and their handlers are called in that order, since every completion goes through the io_service's queue.
A read that completes without error gets between one byte and its capacity (`delivery_in_order`).
-/

namespace SocketFunneling

/-- What a posted handler promises about its call, when `status_` is `st`: a completion without error carries between one
byte and the read's capacity, and a completion with `status_` is posted only once `status_` holds an error. -/
def Task.Counted (st : ErrorCode) : Task → Prop
  | .complete op .success n => 0 < n ∧ n ≤ op.capacity
  | .completeWithStatus _ => st ≠ .success
  | _ => True

namespace Bufferer

/-- The facts about delivery that every reachable state satisfies. -/
structure Delivery (s : Bufferer) : Prop where
  bytes : s.status = .success → s.cancelled = false → s.copied ++ s.dataQueue = s.committed
  order : ∃ popped, popped ++ s.opQueue = s.submitted ∧
    s.invoked.map (·.op) ++ s.posted.filterMap Task.completedRead = popped
  counts : ∀ i ∈ s.invoked, i.ec = .success → 0 < i.length ∧ i.length ≤ i.op.capacity
  posted : ∀ t ∈ s.posted, t.Counted s.status

namespace DeliveryAux

/-- A promise made under `status_` holds under any later `status_`, which only goes from clear to an error. -/
theorem counted_mono {st st' : ErrorCode} {t : Task} (h : t.Counted st) (hst : st ≠ .success → st' ≠ .success) :
    t.Counted st' := by
  cases t with
  | complete op ec n => cases ec <;> exact h
  | completeWithStatus op => exact hst h
  | _ => trivial

/-- What `handle_data_n_ops` posts keeps its promise. -/
theorem counted_of_ofHandleData {st : ErrorCode} {t : Task} (h : t.OfHandleData st) : t.Counted st := by
  rcases h with rfl | ⟨op, n, rfl, h⟩ | ⟨op, rfl, h⟩
  · trivial
  · exact h
  · exact h

/-- `handle_data_n_ops` keeps `Delivery`: the bytes it copies leave the front of `data_queue_`, and the reads it
pops leave the front of `op_queue_`, their completions posted in the same order. -/
theorem delivery_handleDataNOps {s : Bufferer} (h : Delivery s) : Delivery s.handleDataNOps := by
  have he := hdoEffect_handleDataNOps s
  obtain ⟨x, hx, hd⟩ := he.stream
  obtain ⟨new, hp, hq, hn, -⟩ := he.posted
  obtain ⟨hb, ⟨popped, hpop, hinv⟩, hc, hpo⟩ := h
  refine ⟨fun hs hcn => ?_, ⟨popped ++ new.filterMap Task.completedRead, ?_, ?_⟩, ?_, ?_⟩
  · rw [he.committed, ← hb (he.status ▸ hs) (he.cancelled ▸ hcn), hx, hd, List.append_assoc]
  · rw [he.submitted, ← hpop, hq, List.append_assoc]
  · rw [he.invoked, hp, List.filterMap_append, ← List.append_assoc, hinv]
  · rw [he.invoked]
    exact hc
  · rw [hp, he.status]
    intro t ht
    rcases List.mem_append.1 ht with ht | ht
    · exact hpo t ht
    · exact counted_of_ofHandleData (hn t ht)

/-- A step that only posts handlers that call no read's handler, and keeps everything `Delivery` reads. -/
theorem delivery_frame {s s' : Bufferer} (h : Delivery s) (hst : s'.status = s.status) (hc : s'.cancelled = s.cancelled)
    (hd : s'.dataQueue = s.dataQueue) (hcp : s'.copied = s.copied) (hcm : s'.committed = s.committed)
    (hq : s'.opQueue = s.opQueue) (hsub : s'.submitted = s.submitted) (hi : s'.invoked = s.invoked)
    (hp : ∃ new, s'.posted = s.posted ++ new ∧ new.filterMap Task.completedRead = [] ∧ ∀ t ∈ new, t.Counted s.status) :
    Delivery s' := by
  obtain ⟨new, hp, hf, hn⟩ := hp
  obtain ⟨hb, ⟨popped, hpop, hinv⟩, hcs, hpo⟩ := h
  refine ⟨fun hs hcn => ?_, ⟨popped, ?_, ?_⟩, ?_, ?_⟩
  · rw [hd, hcp, hcm]
    exact hb (hst ▸ hs) (hc ▸ hcn)
  · rw [hq, hsub, hpop]
  · rw [hi, hp, List.filterMap_append, hf, List.append_nil, hinv]
  · rw [hi]
    exact hcs
  · rw [hp, hst]
    intro t ht
    rcases List.mem_append.1 ht with ht | ht
    · exact hpo t ht
    · exact hn t ht

/-- `start_pulling` keeps `Delivery`. -/
theorem delivery_startPulling {s : Bufferer} (h : Delivery s) : Delivery s.startPulling := by
  cases hq : s.pulling
  · rw [startPulling_of_not_pulling hq]
    exact delivery_frame h rfl rfl rfl rfl rfl rfl rfl rfl ⟨[.asyncPullPackets], rfl, rfl, by simp [Task.Counted]⟩
  · simpa [hq] using h

/-- A handshake keeps `Delivery`. -/
theorem delivery_handshakeDone {s : Bufferer} (h : Delivery s) (ec : ErrorCode) : Delivery (s.handshakeDone ec) := by
  unfold handshakeDone
  split
  · exact delivery_startPulling (s := { s with handshaken := true }) ⟨h.bytes, h.order, h.counts, h.posted⟩
  · exact h

/-- `async_pull_packets` keeps `Delivery`. -/
theorem delivery_asyncPullPackets {s : Bufferer} (h : Delivery s) : Delivery s.asyncPullPackets := by
  unfold asyncPullPackets
  split <;> exact delivery_frame h rfl rfl rfl rfl rfl rfl rfl rfl ⟨[], by simp, rfl, by simp⟩

/-- `cancel` completes the queued reads, oldest first, with `operation_aborted`. -/
theorem delivery_cancel {s : Bufferer} (h : Delivery s) : Delivery s.cancel := by
  obtain ⟨-, ⟨popped, hpop, hinv⟩, hcs, hpo⟩ := h
  refine ⟨fun _ hcn => (nomatch hcn), ⟨popped ++ s.opQueue, by simp [cancel, hpop], ?_⟩, hcs, ?_⟩
  · simp only [cancel, List.filterMap_append, ← List.append_assoc, hinv]
    simp [List.filterMap_map, Function.comp_def, Task.completedRead]
  · intro t ht
    rcases List.mem_append.1 ht with ht | ht
    · exact hpo t ht
    · obtain ⟨op, -, rfl⟩ := List.mem_map.1 ht
      trivial

/-- Taking off the queue a handler that calls no read's handler. -/
theorem delivery_pop {s : Bufferer} {t : Task} {ts : List Task} (h : Delivery s) (hp : s.posted = t :: ts)
    (ht : t.completedRead = none) : Delivery { s with posted := ts } := by
  obtain ⟨hb, ⟨popped, hpop, hinv⟩, hcs, hpo⟩ := h
  refine ⟨hb, ⟨popped, hpop, ?_⟩, hcs, fun u hu => hpo u (by simp [hp, hu])⟩
  simpa [hp, List.filterMap_cons, ht] using hinv

/-- The completion handler of a pull read, from the state it finds after its pop. -/
theorem delivery_pullHandler {s : Bufferer} {ec : ErrorCode} {chunk : List UInt8} (h : Delivery s) :
    Delivery (s.pullHandler ec chunk) := by
  unfold pullHandler
  apply delivery_handleDataNOps
  cases ec with
  | success =>
    have hw : Delivery { s with dataQueue := s.dataQueue ++ chunk, committed := s.committed ++ chunk } := by
      obtain ⟨hb, ho, hcs, hpo⟩ := h
      exact ⟨fun hs hcn => by simp [← hb hs hcn], ho, hcs, hpo⟩
    dsimp only
    split
    · exact delivery_asyncPullPackets hw
    · exact hw
  | operationAborted => exact delivery_cancel h
  | error v =>
    obtain ⟨-, ho, hcs, hpo⟩ := h
    exact ⟨fun hs => (nomatch hs), ho, hcs, fun t ht => counted_mono (hpo t ht) fun _ => nofun⟩

/-- Running the completion of a read popped earlier: its handler is the next call in the order, with a count that the
completion's promise allows. -/
theorem delivery_invoke {s : Bufferer} {t : Task} {ts : List Task} (h : Delivery s) (hp : s.posted = t :: ts)
    (i : Invocation) (ht : t.completedRead = some i.op)
    (hc : i.ec = .success → 0 < i.length ∧ i.length ≤ i.op.capacity) :
    Delivery { s with posted := ts, invoked := s.invoked ++ [i] } := by
  obtain ⟨hb, ⟨popped, hpop, hinv⟩, hcs, hpo⟩ := h
  refine ⟨hb, ⟨popped, hpop, by simpa [hp, ht] using hinv⟩, fun j hj => ?_, fun u hu => hpo u (by simp [hp, hu])⟩
  rcases List.mem_append.1 hj with hj | hj
  · exact hcs j hj
  · rw [List.mem_singleton.1 hj]
    exact hc

/-- Every event keeps `Delivery`. -/
theorem delivery_step {s s' : Bufferer} {e : Event} (h : Delivery s) (hs : s.step e = some s') : Delivery s' := by
  rcases step_cases hs with ⟨c, rfl⟩ | ⟨ec, rfl⟩ | rfl | ⟨ec, rfl⟩ | ⟨ec, chunk, -, -, -, rfl⟩ | rfl |
    ⟨t, ts, hp, rfl⟩
  · unfold asyncReadSome
    split
    · obtain ⟨hb, ⟨popped, hpop, hinv⟩, hcs, hpo⟩ := h
      refine ⟨hb, ⟨popped, by simp [← hpop], by simp [hinv, Task.completedRead]⟩, hcs, fun t ht => ?_⟩
      rcases List.mem_append.1 ht with ht | ht
      · exact hpo t ht
      · rw [List.mem_singleton.1 ht]
        trivial
    · exact delivery_frame h rfl rfl rfl rfl rfl rfl rfl rfl ⟨[.emptyRead], rfl, rfl, by simp [Task.Counted]⟩
  · exact delivery_handshakeDone h ec
  · exact delivery_frame h rfl rfl rfl rfl rfl rfl rfl rfl ⟨[], by simp, rfl, by simp⟩
  · exact delivery_frame h rfl rfl rfl rfl rfl rfl rfl rfl ⟨[.handshakeHandler ec], rfl, rfl, by simp [Task.Counted]⟩
  · exact delivery_frame h rfl rfl rfl rfl rfl rfl rfl rfl ⟨[.pullHandler ec chunk], rfl, rfl, by simp [Task.Counted]⟩
  · exact delivery_cancel (s := { s with isOpen := false }) ⟨h.bytes, h.order, h.counts, h.posted⟩
  · have hpo : ∀ u ∈ s.posted, u.Counted s.status := h.posted
    rw [hp] at hpo
    cases t with
    | complete op ec n =>
      exact delivery_invoke h hp ⟨op, ec, n⟩ rfl fun he => by
        subst he
        exact hpo _ (List.mem_cons_self _ _)
    | completeWithStatus op =>
      exact delivery_invoke h hp ⟨op, s.status, 0⟩ rfl fun hs => absurd hs (hpo _ (List.mem_cons_self _ _))
    | asyncPullPackets => exact delivery_asyncPullPackets (delivery_pop h hp rfl)
    | handleDataNOps => exact delivery_handleDataNOps (delivery_pop h hp rfl)
    | emptyRead => exact delivery_pop h hp rfl
    | pullHandler ec chunk => exact delivery_pullHandler (delivery_pop h hp rfl)
    | handshakeHandler ec => exact delivery_handshakeDone (delivery_pop h hp rfl) ec

end DeliveryAux

open DeliveryAux

/-- Every reachable state satisfies `Delivery`. -/
theorem delivery_of_reachable {s : Bufferer} (h : Reachable s) : Delivery s :=
  h.inv ⟨fun _ _ => rfl, ⟨[], rfl, rfl⟩, fun _ hi => (nomatch hi), fun _ ht => (nomatch ht)⟩
    fun _ _ _ _ hd he => delivery_step hd he

/-- Until `cancel` and while no pull read has failed, the bytes copied into user buffers followed by the bytes still
queued are the chunks committed, in order; the reads are popped, and their handlers called, in the order of submission;
and a handler called without error gets between one byte and its read's capacity. -/
theorem delivery_in_order {s : Bufferer} (h : Reachable s) :
    (s.status = .success → s.cancelled = false → s.copied ++ s.dataQueue = s.committed) ∧
      (∃ popped, popped ++ s.opQueue = s.submitted ∧ s.invoked.map (·.op) <+: popped) ∧
      ∀ i ∈ s.invoked, i.ec = .success → 0 < i.length ∧ i.length ≤ i.op.capacity := by
  obtain ⟨hb, ⟨popped, hpop, hinv⟩, hc, -⟩ := delivery_of_reachable h
  exact ⟨hb, ⟨popped, hpop, hinv ▸ List.prefix_append _ _⟩, hc⟩

/-- The events that serve a read of four bytes from a first pull read of three. -/
def serveOneRead : List Event :=
  [.handshake .success, .run, .asyncReadSome 4, .pullComplete .success [1, 2, 3], .run, .run, .run]

/-- The socket after `serveOneRead`. -/
def servedRead : Bufferer := (init.run serveOneRead).getD init

/-- `servedRead` is reached by `serveOneRead`. -/
theorem reachable_servedRead : Reachable servedRead := Reachable.init.run serveOneRead rfl

/-- `delivery_in_order` where a read was served: the three bytes the user got are the three committed. -/
theorem delivery_in_order_servedRead :
    Reachable servedRead ∧ servedRead.copied = [1, 2, 3] ∧
      servedRead.copied ++ servedRead.dataQueue = servedRead.committed :=
  ⟨reachable_servedRead, rfl, (delivery_in_order reachable_servedRead).1 rfl rfl⟩

/-! ## Each handler once -/

/-- The reads queued so far are numbered by their place in the order of submission. -/
def Numbered (s : Bufferer) : Prop := s.submitted.map PendingRead.id = List.range s.submitted.length

namespace DeliveryAux

/-- A handshake queues no read. -/
theorem handshakeDone_submitted (s : Bufferer) (ec : ErrorCode) : (s.handshakeDone ec).submitted = s.submitted := by
  unfold handshakeDone
  split
  · exact (EffectsAux.hdoEffect_startPulling _).submitted
  · rfl

/-- No handler but that of `async_read_some` queues a read. -/
theorem runTask_submitted (s : Bufferer) (t : Task) : (s.runTask t).submitted = s.submitted := by
  cases t with
  | asyncPullPackets => exact asyncPullPackets_submitted s
  | handleDataNOps => exact (hdoEffect_handleDataNOps s).submitted
  | pullHandler ec chunk =>
    refine (hdoEffect_handleDataNOps _).submitted.trans ?_
    cases ec with
    | success =>
      dsimp only
      split
      · exact asyncPullPackets_submitted _
      · rfl
    | _ => rfl
  | handshakeHandler ec => exact handshakeDone_submitted s ec
  | _ => rfl

/-- Every event keeps `Numbered`: `async_read_some` numbers a read by the count of those before it. -/
theorem numbered_step {s s' : Bufferer} {e : Event} (h : Numbered s) (hs : s.step e = some s') : Numbered s' := by
  rcases step_cases hs with ⟨c, rfl⟩ | ⟨ec, rfl⟩ | rfl | ⟨ec, rfl⟩ | ⟨ec, chunk, -, -, -, rfl⟩ | rfl |
    ⟨t, ts, hp, rfl⟩
  · unfold asyncReadSome
    split
    · unfold Numbered at h ⊢
      simp only [List.map_append, List.map_cons, List.map_nil, List.length_append, List.length_singleton,
        List.range_succ, h]
    · exact h
  · unfold Numbered
    rw [handshakeDone_submitted]
    exact h
  · exact h
  · exact h
  · exact h
  · exact h
  · unfold Numbered
    rw [runTask_submitted]
    exact h

/-- The reads queued so far are distinct, and each is numbered below their count. -/
theorem submitted_numbered {s : Bufferer} (h : Reachable s) :
    s.submitted.Nodup ∧ ∀ op ∈ s.submitted, op.id < s.submitted.length := by
  have hn : Numbered s := Reachable.inv (P := Numbered) rfl (fun _ _ _ _ hn he => numbered_step hn he) h
  refine ⟨List.Pairwise.of_map PendingRead.id (fun _ _ => mt (congrArg _)) (hn ▸ List.nodup_range _),
    fun op hop => ?_⟩
  have := List.mem_map_of_mem PendingRead.id hop
  rwa [hn, List.mem_range] at this

end DeliveryAux

open DeliveryAux

/-- Every read's handler is called at most once, and only for a read that was queued. -/
theorem read_handler_called_once {s : Bufferer} (h : Reachable s) :
    (s.invoked.map (·.op)).Nodup ∧ ∀ i ∈ s.invoked, i.op ∈ s.submitted := by
  obtain ⟨-, ⟨popped, hpop, hinv⟩, -, -⟩ := delivery_of_reachable h
  have hsub : List.Sublist (s.invoked.map (·.op)) s.submitted := by
    rw [← hpop, ← hinv, List.append_assoc]
    exact List.sublist_append_left _ _
  exact ⟨(submitted_numbered h).1.sublist hsub, fun i hi => hsub.subset (List.mem_map_of_mem _ hi)⟩

/-- `read_handler_called_once` where a read was served. -/
theorem read_handler_called_once_servedRead :
    Reachable servedRead ∧ (servedRead.invoked.map (·.op)).Nodup ∧ ∀ i ∈ servedRead.invoked, i.op ∈ servedRead.submitted :=
  ⟨reachable_servedRead, read_handler_called_once reachable_servedRead⟩

end Bufferer

end SocketFunneling
