import SocketFunneling.Tls.Chains

/-!
# The bound on `data_queue_`

`async_pull_packets` issues a read only below `higher_queue_size_bound`, and a read commits at most `receive_buffer_size`
bytes; so `data_queue_` stays below the sum of the two (`dataQueue_length_lt`). Between the check and the commit the queue
only shrinks, and while the stream is open one chain alone pulls (`Chains`). `pendingBytes` counts the bytes on their way:
posted successful completions, and a whole read for every read in flight while the stream is open. Once it is closed a read
in flight brings none, so the chains that `close` lets run side by side commit nothing more.
-/

namespace SocketFunneling

/-- The bytes a posted handler commits to `data_queue_`: the chunk of a successful pull read. -/
def Task.chunkLength : Task → Nat
  | .pullHandler .success chunk => chunk.length
  | _ => 0

/-- The bytes the handlers of a list commit to `data_queue_` when they run. -/
def Task.chunkBytes : List Task → Nat
  | [] => 0
  | t :: ts => t.chunkLength + Task.chunkBytes ts

@[simp] theorem Task.chunkBytes_nil : Task.chunkBytes [] = 0 := rfl

@[simp] theorem Task.chunkBytes_cons (t : Task) (ts : List Task) :
    Task.chunkBytes (t :: ts) = t.chunkLength + Task.chunkBytes ts := rfl

@[simp] theorem Task.chunkBytes_append (ts us : List Task) :
    Task.chunkBytes (ts ++ us) = Task.chunkBytes ts + Task.chunkBytes us := by
  induction ts with
  | nil => simp
  | cons t ts ih => simp [ih, Nat.add_assoc]

namespace Bufferer

/-- The bytes on their way to `data_queue_`. -/
def pendingBytes (s : Bufferer) : Nat :=
  Task.chunkBytes s.posted + if s.isOpen then receiveBufferSize * s.reads else 0

/-- The queued bytes and those on their way stay below `higher_queue_size_bound + receive_buffer_size`. -/
def Bounded (s : Bufferer) : Prop := s.dataQueue.length + s.pendingBytes < higherQueueSizeBound + receiveBufferSize

namespace BoundAux

/-- Handlers that commit no bytes of their own commit none together. -/
theorem chunkBytes_eq_zero {l : List Task} (h : ∀ t ∈ l, t.chunkLength = 0) : Task.chunkBytes l = 0 := by
  induction l with
  | nil => rfl
  | cons t l ih => simp_all

/-- Only the completion of a pull read brings bytes. -/
theorem chunkLength_of_not_isPull {t : Task} (h : t.isPull = false) : t.chunkLength = 0 := by
  cases t <;> simp_all [Task.chunkLength, Task.isPull]

/-- `handle_data_n_ops` only moves bytes out of `data_queue_` and posts no completion of a pull read. -/
theorem bounded_handleDataNOps {s : Bufferer} (h : Bounded s) : Bounded s.handleDataNOps := by
  have he := hdoEffect_handleDataNOps s
  obtain ⟨x, -, hx⟩ := he.stream
  obtain ⟨new, hp, -, hn, -⟩ := he.posted
  have h0 : Task.chunkBytes new = 0 := chunkBytes_eq_zero fun t ht => by
    rcases hn t ht with rfl | ⟨_, _, rfl, -⟩ | ⟨_, rfl, -⟩ <;> rfl
  unfold Bounded pendingBytes at *
  rw [hp, he.isOpen, he.reads, Task.chunkBytes_append, h0]
  have := congrArg List.length hx
  simp only [List.length_append] at this
  omega

/-- A step that adds no byte to those queued or on their way keeps `Bounded`. -/
theorem bounded_of_le {s s' : Bufferer} (h : Bounded s)
    (hle : s'.dataQueue.length + s'.pendingBytes ≤ s.dataQueue.length + s.pendingBytes) : Bounded s' :=
  Nat.lt_of_le_of_lt hle h

/-- Taking a handler off the queue leaves the bytes it brings to be counted on their own. -/
theorem pendingBytes_pop {s : Bufferer} {t : Task} {ts : List Task} (hp : s.posted = t :: ts) :
    s.pendingBytes = ({ s with posted := ts } : Bufferer).pendingBytes + t.chunkLength := by
  simp only [pendingBytes, hp, Task.chunkBytes_cons]
  omega

/-- While the stream is open, the link of a chain at the head of the queue is the only one: no read is in flight and no
other completion of a pull read is posted. -/
theorem lone_link {s : Bufferer} {t : Task} {ts : List Task} (hc : Chains s) (ho : s.isOpen = true)
    (hp : s.posted = t :: ts) (ht : t.isPull = true) : s.reads = 0 ∧ Task.chunkBytes ts = 0 := by
  have h1 := (hc.one ho).1
  simp only [pullTokens, hp, List.countP_cons, ht, if_true] at h1
  refine ⟨by omega, chunkBytes_eq_zero fun u hu => chunkLength_of_not_isPull ?_⟩
  have h0 : ts.countP Task.isPull = 0 := by omega
  simpa using List.countP_eq_zero.1 h0 u hu

/-- `async_pull_packets` run by the link of a chain taken off the queue, with the bytes that link brought committed: it
issues a read only below `higher_queue_size_bound`, and then, while the stream is open, that read is all that is on its
way. -/
theorem bounded_asyncPullPackets {s s₁ : Bufferer} {t : Task} {ts : List Task} (hc : Chains s) (h : Bounded s)
    (hp : s.posted = t :: ts) (ht : t.isPull = true) (hq : s₁.posted = ts) (hr : s₁.reads = s.reads)
    (ho : s₁.isOpen = s.isOpen) (hle : s₁.dataQueue.length ≤ s.dataQueue.length + t.chunkLength) :
    Bounded s₁.asyncPullPackets := by
  have hpop := pendingBytes_pop hp
  unfold asyncPullPackets
  split
  · rename_i hl
    cases hso : s.isOpen
    · refine bounded_of_le h ?_
      simp only [pendingBytes, hq, ho, hso, Bool.false_eq_true, if_false] at hpop ⊢
      omega
    · obtain ⟨hr0, hs⟩ := lone_link hc hso hp ht
      unfold Bounded pendingBytes
      simp only [hq, ho, hso, hr, hr0, hs, if_true]
      unfold receiveBufferSize higherQueueSizeBound at *
      omega
  · refine bounded_of_le h ?_
    simp only [pendingBytes, hq, ho, hr] at hpop ⊢
    omega

/-- `cancel` drops the queued bytes and brings none. -/
theorem pendingBytes_cancel (s : Bufferer) : s.cancel.pendingBytes = s.pendingBytes := by
  have h0 : Task.chunkBytes (s.opQueue.map fun op => Task.complete op .operationAborted 0) = 0 :=
    chunkBytes_eq_zero fun t ht => by
      obtain ⟨op, -, rfl⟩ := List.mem_map.1 ht
      rfl
  simp only [pendingBytes, cancel, Task.chunkBytes_append, h0, Nat.add_zero]

/-- The completion handler of a pull read run from the queue: it commits the bytes that were on their way, and pulls
again only below `higher_queue_size_bound`. -/
theorem bounded_pullHandler {s : Bufferer} {ts : List Task} {ec : ErrorCode} {chunk : List UInt8} (hc : Chains s)
    (h : Bounded s) (hp : s.posted = .pullHandler ec chunk :: ts) :
    Bounded (({ s with posted := ts } : Bufferer).pullHandler ec chunk) := by
  have hpop := pendingBytes_pop hp
  unfold pullHandler
  apply bounded_handleDataNOps
  cases ec with
  | success =>
    dsimp only
    split
    · exact bounded_asyncPullPackets hc h hp rfl rfl rfl rfl (by simp [Task.chunkLength])
    · exact bounded_of_le h (by simp_all [pendingBytes, Task.chunkLength]; omega)
  | operationAborted =>
    refine bounded_of_le h ?_
    rw [pendingBytes_cancel]
    simp_all [cancel, Task.chunkLength]
  | error v => exact bounded_of_le h (by simp_all [pendingBytes, Task.chunkLength])

/-- `start_pulling` posts `async_pull_packets`, which brings no byte. -/
theorem bounded_startPulling {s : Bufferer} (h : Bounded s) : Bounded s.startPulling := by
  cases hq : s.pulling
  · exact bounded_of_le h (by simp [startPulling_of_not_pulling hq, pendingBytes, Task.chunkLength])
  · simpa [hq] using h

/-- A handshake adds no byte. -/
theorem bounded_handshakeDone {s : Bufferer} (h : Bounded s) (ec : ErrorCode) : Bounded (s.handshakeDone ec) := by
  unfold handshakeDone
  split
  · exact bounded_startPulling (s := { s with handshaken := true }) h
  · exact h

/-- Every event keeps `Bounded`. -/
theorem bounded_step {s s' : Bufferer} {e : Event} (hc : Chains s) (h : Bounded s) (hs : s.step e = some s') :
    Bounded s' := by
  rcases step_cases hs with ⟨c, rfl⟩ | ⟨ec, rfl⟩ | rfl | ⟨ec, rfl⟩ | ⟨ec, chunk, hr, hcl, ho, rfl⟩ | rfl |
    ⟨t, ts, hp, rfl⟩
  · unfold asyncReadSome
    split <;> exact bounded_of_le h (by simp [pendingBytes, Task.chunkLength])
  · exact bounded_handshakeDone h ec
  · exact bounded_of_le h (by simp [pendingBytes])
  · exact bounded_of_le h (by simp [pendingBytes, Task.chunkLength])
  · refine bounded_of_le h ?_
    have hcl' : (Task.pullHandler ec chunk).chunkLength ≤ if s.isOpen then receiveBufferSize else 0 := by
      cases ec <;> cases hio : s.isOpen <;> simp_all [Task.chunkLength]
    simp only [pendingBytes, Task.chunkBytes_append, Task.chunkBytes_cons, Task.chunkBytes_nil] at hcl' ⊢
    unfold receiveBufferSize at *
    split at hcl' <;> simp only [Bool.false_eq_true, if_true, if_false, *] <;> omega
  · refine bounded_of_le h ?_
    unfold close
    rw [pendingBytes_cancel]
    simp only [pendingBytes, cancel, List.length_nil, Nat.zero_add, Bool.false_eq_true, if_false]
    omega
  · have hpop := pendingBytes_pop hp
    cases t with
    | asyncPullPackets => exact bounded_asyncPullPackets hc h hp rfl rfl rfl rfl (by simp [Task.chunkLength])
    | handleDataNOps => exact bounded_handleDataNOps (bounded_of_le h (by simp_all [Task.chunkLength]))
    | pullHandler ec chunk => exact bounded_pullHandler hc h hp
    | handshakeHandler ec => exact bounded_handshakeDone (bounded_of_le h (by simp_all [Task.chunkLength])) ec
    | _ => exact bounded_of_le h (by simp_all [runTask, Task.chunkLength, pendingBytes])

end BoundAux

open BoundAux

/-- In every reachable state `data_queue_` holds fewer than `higher_queue_size_bound + receive_buffer_size` bytes: it
never passes the high-water mark by a whole pull read. -/
theorem dataQueue_length_lt {s : Bufferer} (h : Reachable s) :
    s.dataQueue.length < higherQueueSizeBound + receiveBufferSize := by
  have hb : Bounded s := h.inv (by simp [Bounded, pendingBytes, init]; decide) fun _ _ _ hr hb he => bounded_step (chains_of_reachable hr) hb he
  exact Nat.lt_of_le_of_lt (Nat.le_add_right _ _) hb

/-- `dataQueue_length_lt` at the socket pulling after its handshake. -/
theorem dataQueue_length_lt_after_handshake :
    Reachable pullingAfterHandshake ∧
      pullingAfterHandshake.dataQueue.length < higherQueueSizeBound + receiveBufferSize :=
  ⟨reachable_pullingAfterHandshake, dataQueue_length_lt reachable_pullingAfterHandshake⟩

end Bufferer

end SocketFunneling
