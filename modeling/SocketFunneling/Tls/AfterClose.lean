import SocketFunneling.Tls.Chains

/-!
# What `close` lets through

`close` closes the lowest layer and calls `cancel`, which drops `data_queue_`. A pull read in flight then completes with an
error, but the completion handler of a pull read that succeeded before `close` may still be posted, and it runs: it
commits its chunk after `close`. Nothing else is committed: only the completion of a pull read posts a chunk, and once the
stream is closed a pull read completes only with an error. Since while the stream is open at most one pull read is
outstanding, `close` lets through at most the one chunk the stream had already delivered, at most `receive_buffer_size`
bytes (`close_commits_received`).
-/

namespace SocketFunneling

/-- The chunk a posted handler commits: that of the completion of a successful pull read. -/
def Task.chunk : Task → List UInt8
  | .pullHandler .success chunk => chunk
  | _ => []

/-- The chunks the handlers of a list commit, in order. -/
def Task.chunks : List Task → List UInt8
  | [] => []
  | t :: ts => t.chunk ++ Task.chunks ts

@[simp] theorem Task.chunks_nil : Task.chunks [] = [] := rfl

@[simp] theorem Task.chunks_cons (t : Task) (ts : List Task) : Task.chunks (t :: ts) = t.chunk ++ Task.chunks ts := rfl

@[simp] theorem Task.chunks_append (ts us : List Task) : Task.chunks (ts ++ us) = Task.chunks ts ++ Task.chunks us := by
  induction ts with
  | nil => rfl
  | cons t ts ih => simp [ih]

namespace Bufferer

/-- Every posted completion of a pull read carries at most `receive_buffer_size` bytes. -/
def Chunked (s : Bufferer) : Prop := ∀ t ∈ s.posted, t.chunk.length ≤ receiveBufferSize

namespace AfterCloseAux

/-- Handlers that commit no chunk commit none together. -/
theorem chunks_eq_nil {l : List Task} (h : ∀ t ∈ l, t.chunk = []) : Task.chunks l = [] := by
  induction l with
  | nil => rfl
  | cons t l ih => simp_all

/-- Only a link of a pull chain commits a chunk, each of at most `receive_buffer_size` bytes. -/
theorem chunks_length_le {l : List Task} (h : ∀ t ∈ l, t.chunk.length ≤ receiveBufferSize) :
    (Task.chunks l).length ≤ receiveBufferSize * l.countP Task.isPull := by
  induction l with
  | nil => simp
  | cons t l ih =>
    have hl := ih fun u hu => h u (List.mem_cons_of_mem _ hu)
    rw [Task.chunks_cons, List.length_append, List.countP_cons]
    cases hp : t.isPull
    · have : t.chunk = [] := by cases t <;> first | rfl | cases hp
      simpa [this] using hl
    · have := h t (List.mem_cons_self _ _)
      simp only [if_true, Nat.mul_add, Nat.mul_one]
      omega

/-- `u'` commits `d` on top of what `u` committed, keeps `u`'s posted handlers, and posts after them only handlers that
commit no chunk. -/
def CommitsOnly (u u' : Bufferer) (d : List UInt8) : Prop :=
  u'.committed = u.committed ++ d ∧ ∃ new, u'.posted = u.posted ++ new ∧ ∀ t ∈ new, t.chunk = []

/-- A step that commits nothing and posts nothing. -/
theorem commitsOnly_of_eq {u u' : Bufferer} (hm : u'.committed = u.committed) (hp : u'.posted = u.posted) :
    CommitsOnly u u' [] :=
  ⟨hm.trans (List.append_nil _).symm, [], hp.trans (List.append_nil _).symm, nofun⟩

/-- A step followed by one that commits nothing. -/
theorem CommitsOnly.trans {u₁ u₂ u₃ : Bufferer} {d : List UInt8} (h : CommitsOnly u₁ u₂ d) (h' : CommitsOnly u₂ u₃ []) :
    CommitsOnly u₁ u₃ d := by
  obtain ⟨hm, new, hp, hn⟩ := h
  obtain ⟨hm', new', hp', hn'⟩ := h'
  refine ⟨by rw [hm', hm, List.append_nil], new ++ new', by rw [hp', hp, List.append_assoc], fun t ht => ?_⟩
  rcases List.mem_append.1 ht with ht | ht
  · exact hn t ht
  · exact hn' t ht

/-- The posted chunks are those that were posted. -/
theorem CommitsOnly.chunks {u u' : Bufferer} {d : List UInt8} (h : CommitsOnly u u' d) :
    Task.chunks u'.posted = Task.chunks u.posted := by
  obtain ⟨-, new, hp, hn⟩ := h
  rw [hp, Task.chunks_append, chunks_eq_nil hn, List.append_nil]

/-- Posting handlers that commit no chunk. -/
theorem commitsOnly_posts {u : Bufferer} (new : List Task) (hn : ∀ t ∈ new, t.chunk = []) :
    CommitsOnly u { u with posted := u.posted ++ new } [] :=
  ⟨(List.append_nil _).symm, new, rfl, hn⟩

/-- `start_pulling` posts `async_pull_packets`. -/
theorem commitsOnly_startPulling (u : Bufferer) : CommitsOnly u u.startPulling [] := by
  unfold startPulling
  split
  · exact commitsOnly_of_eq rfl rfl
  · exact commitsOnly_posts (u := u) [.asyncPullPackets] (by simp [Task.chunk])

/-- `async_pull_packets` commits and posts nothing. -/
theorem commitsOnly_asyncPullPackets (u : Bufferer) : CommitsOnly u u.asyncPullPackets [] := by
  unfold asyncPullPackets
  split <;> exact commitsOnly_of_eq rfl rfl

/-- `handle_data_n_ops` posts only `async_pull_packets` and completions of user reads. -/
theorem commitsOnly_handleDataNOps (u : Bufferer) : CommitsOnly u u.handleDataNOps [] := by
  have he := hdoEffect_handleDataNOps u
  obtain ⟨new, hp, -, hn, -⟩ := he.posted
  refine ⟨he.committed.trans (List.append_nil _).symm, new, hp, fun t ht => ?_⟩
  rcases hn t ht with rfl | ⟨_, _, rfl, -⟩ | ⟨_, rfl, -⟩ <;> rfl

/-- `cancel` posts completions of user reads. -/
theorem commitsOnly_cancel (u : Bufferer) : CommitsOnly u u.cancel [] :=
  commitsOnly_posts (u := { u with pulling := false, dataQueue := [], opQueue := [], cancelled := true }) _
    fun t ht => by
      obtain ⟨op, -, rfl⟩ := List.mem_map.1 ht
      rfl

/-- A handshake posts at most `async_pull_packets`. -/
theorem commitsOnly_handshakeDone (u : Bufferer) (ec : ErrorCode) : CommitsOnly u (u.handshakeDone ec) [] := by
  unfold handshakeDone
  split
  · exact commitsOnly_startPulling { u with handshaken := true }
  · exact commitsOnly_of_eq rfl rfl

/-- A posted handler commits its own chunk and posts no other. -/
theorem commitsOnly_runTask (u : Bufferer) (t : Task) : CommitsOnly u (u.runTask t) t.chunk := by
  cases t with
  | asyncPullPackets => exact commitsOnly_asyncPullPackets u
  | handleDataNOps => exact commitsOnly_handleDataNOps u
  | complete op ec n => exact commitsOnly_of_eq rfl rfl
  | completeWithStatus op => exact commitsOnly_of_eq rfl rfl
  | emptyRead => exact commitsOnly_of_eq rfl rfl
  | pullHandler ec chunk =>
    refine CommitsOnly.trans ?_ (commitsOnly_handleDataNOps _)
    cases ec with
    | success =>
      have hc : CommitsOnly u { u with dataQueue := u.dataQueue ++ chunk, committed := u.committed ++ chunk } chunk :=
        ⟨rfl, [], (List.append_nil _).symm, nofun⟩
      dsimp only
      split
      · exact hc.trans (commitsOnly_asyncPullPackets _)
      · exact hc
    | operationAborted => exact commitsOnly_cancel u
    | error v => exact commitsOnly_of_eq rfl rfl
  | handshakeHandler ec => exact commitsOnly_handshakeDone u ec

/-- Every event but the completion of a pull read commits at most the chunk it runs, and posts none. -/
theorem step_commits {t t' : Bufferer} {e : Event} (hs : t.step e = some t') :
    (∃ ec chunk, chunk.length ≤ receiveBufferSize ∧ (t.isOpen = true ∨ ec ≠ .success) ∧
        t' = { t with reads := t.reads - 1, posted := t.posted ++ [.pullHandler ec chunk] }) ∨
      (∃ task ts, t.posted = task :: ts ∧ CommitsOnly { t with posted := ts } t' task.chunk) ∨ CommitsOnly t t' [] := by
  rcases step_cases hs with ⟨c, rfl⟩ | ⟨ec, rfl⟩ | rfl | ⟨ec, rfl⟩ | ⟨ec, chunk, -, hc, ho, rfl⟩ | rfl |
    ⟨task, ts, hp, rfl⟩
  · refine .inr (.inr ?_)
    unfold asyncReadSome
    split
    · exact ⟨(List.append_nil _).symm, [.handleDataNOps], rfl, by simp [Task.chunk]⟩
    · exact commitsOnly_posts (u := t) [.emptyRead] (by simp [Task.chunk])
  · exact .inr (.inr (commitsOnly_handshakeDone t ec))
  · exact .inr (.inr (commitsOnly_of_eq rfl rfl))
  · exact .inr (.inr ⟨(List.append_nil _).symm, [.handshakeHandler ec], rfl, by simp [Task.chunk]⟩)
  · exact .inl ⟨ec, chunk, hc, ho, rfl⟩
  · exact .inr (.inr (commitsOnly_cancel { t with isOpen := false }))
  · exact .inr (.inl ⟨task, ts, hp, commitsOnly_runTask _ task⟩)

/-- Every event keeps `Chunked`: only the completion of a pull read posts a chunk, of at most `receive_buffer_size`
bytes. -/
theorem chunked_step {s s' : Bufferer} {e : Event} (h : Chunked s) (hs : s.step e = some s') : Chunked s' := by
  rcases step_commits hs with ⟨ec, chunk, hc, -, rfl⟩ | ⟨task, ts, hp, -, new, hq, hn⟩ | ⟨-, new, hq, hn⟩
  · exact List.forall_mem_append.2 ⟨h, List.forall_mem_singleton.2 (by cases ec <;> simp [Task.chunk, hc])⟩
  · unfold Chunked
    rw [hq]
    exact List.forall_mem_append.2 ⟨fun t ht => h t (by simp [hp, ht]), fun t ht => by simp [hn t ht]⟩
  · unfold Chunked
    rw [hq]
    exact List.forall_mem_append.2 ⟨h, fun t ht => by simp [hn t ht]⟩

/-- From a closed stream on, every event commits a prefix of the chunks posted, and leaves the rest posted. -/
theorem closed_step {t t' : Bufferer} {e : Event} (ho : t.isOpen = false) (hs : t.step e = some t') :
    t'.isOpen = false ∧ ∃ d, t'.committed = t.committed ++ d ∧ Task.chunks t.posted = d ++ Task.chunks t'.posted := by
  refine ⟨Bool.eq_false_iff.2 fun h => by simp [(grows_step hs).isOpen h] at ho, ?_⟩
  rcases step_commits hs with ⟨ec, chunk, -, hec, rfl⟩ | ⟨task, ts, hp, hc⟩ | hc
  · have hec : ec ≠ .success := hec.resolve_left (by simp [ho])
    refine ⟨[], (List.append_nil _).symm, ?_⟩
    cases ec <;> simp_all [Task.chunk]
  · exact ⟨task.chunk, hc.1, by rw [hp, Task.chunks_cons, hc.chunks]⟩
  · exact ⟨[], hc.1, by rw [hc.chunks, List.nil_append]⟩

/-- From a closed stream on, every run commits a prefix of the chunks posted when it starts. -/
theorem closed_run {t t' : Bufferer} {es : List Event} (ho : t.isOpen = false) (hr : t.run es = some t') :
    ∃ d, t'.committed = t.committed ++ d ∧ Task.chunks t.posted = d ++ Task.chunks t'.posted := by
  induction es generalizing t with
  | nil => cases hr; exact ⟨[], (List.append_nil _).symm, rfl⟩
  | cons e es ih =>
    simp only [Bufferer.run, Option.bind_eq_some] at hr
    obtain ⟨t₁, h₁, hr⟩ := hr
    obtain ⟨ho₁, d, hm, hc⟩ := closed_step ho h₁
    obtain ⟨d', hm', hc'⟩ := ih ho₁ hr
    exact ⟨d ++ d', by rw [hm', hm, List.append_assoc], by rw [hc, hc', List.append_assoc]⟩

end AfterCloseAux

open AfterCloseAux

/-- Every reachable state satisfies `Chunked`. -/
theorem chunked_of_reachable {s : Bufferer} (h : Reachable s) : Chunked s :=
  h.inv (fun _ ht => nomatch ht) fun _ _ _ _ hc he => chunked_step hc he

/-- `close` of an open socket lets through at most the chunk the stream had already delivered: over every run after
`close`, the bytes committed are those committed before it followed by a prefix of the chunks of the pull reads whose
completion handlers were posted at `close`, and those are at most `receive_buffer_size` bytes. -/
theorem close_commits_received {s s' : Bufferer} {es : List Event} (h : Reachable s) (ho : s.isOpen = true)
    (hr : s.close.run es = some s') :
    ∃ c, s'.committed = s.committed ++ c ∧ c <+: Task.chunks s.posted ∧
      (Task.chunks s.posted).length ≤ receiveBufferSize := by
  obtain ⟨c, hm, hc⟩ := closed_run rfl hr
  have hcl : Task.chunks s.close.posted = Task.chunks s.posted := (commitsOnly_cancel { s with isOpen := false }).chunks
  refine ⟨c, hm, ⟨_, by rw [← hcl, hc]⟩, ?_⟩
  have hone := ((chains_of_reachable h).one ho).1
  have := chunks_length_le (chunked_of_reachable h)
  unfold pullTokens at hone
  calc (Task.chunks s.posted).length ≤ receiveBufferSize * s.posted.countP Task.isPull := this
    _ ≤ receiveBufferSize * 1 := Nat.mul_le_mul_left _ (by omega)
    _ = receiveBufferSize := Nat.mul_one _

/-- A pull read completes with three bytes while the socket is open, and its completion handler is posted. -/
def chunkPosted : Bufferer :=
  (init.run [.handshake .success, .run, .pullComplete .success [1, 2, 3]]).getD init

/-- `close_commits_received` at `chunkPosted`: after `close`, the posted completion commits its three bytes. -/
theorem close_commits_received_chunkPosted :
    Reachable chunkPosted ∧ chunkPosted.isOpen = true ∧ Task.chunks chunkPosted.posted = [1, 2, 3] ∧
      ∃ c, ((chunkPosted.close.run [.run]).getD init).committed = chunkPosted.committed ++ c ∧
        c <+: Task.chunks chunkPosted.posted ∧ (Task.chunks chunkPosted.posted).length ≤ receiveBufferSize :=
  have h : Reachable chunkPosted :=
    Reachable.init.run [.handshake .success, .run, .pullComplete .success [1, 2, 3]] rfl
  ⟨h, rfl, rfl, @close_commits_received chunkPosted _ [.run] h rfl rfl⟩

end Bufferer

end SocketFunneling
