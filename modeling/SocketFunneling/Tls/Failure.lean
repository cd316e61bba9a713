import SocketFunneling.Tls.Delivery

/-!
# A failure while the stream is open

A pull read that fails with an error other than `operation_aborted` saves the error in `status_` and ends its chain; the
chain was the only one, so no pull read is left, and `pulling_` stays set, so `start_pulling` and `handle_data_n_ops` start
none. While the stream stays open the error is final (`failure_keeps_status`): `status_` keeps it, no pull read is issued,
and every read pending at the failure or queued after it completes with the error and no byte
(`reads_fail_with_status`). `close` clears `pulling_` and breaks this (`Tls/Close.lean`).
-/

namespace SocketFunneling

namespace Bufferer

/-- While the stream is open, a failed pull read has ended pulling for good: `pulling_` stays set and no link of a pull
chain is left. -/
def Absorbed (s : Bufferer) : Prop := s.isOpen = true → s.status ≠ .success → s.pulling = true ∧ s.pullTokens = 0

namespace FailureAux

/-- A step that keeps `status_` and the stream, keeps a set `pulling_`, and adds a link only when it sets `pulling_`. -/
theorem absorbed_of_tokens {s s' : Bufferer} (h : Absorbed s) (hst : s'.status = s.status) (ho : s'.isOpen = s.isOpen)
    (hp : s.pulling = true → s'.pulling = true)
    (ht : s'.pullTokens = s.pullTokens + if !s.pulling && s'.pulling then 1 else 0) : Absorbed s' := fun hop hs => by
  obtain ⟨h1, h2⟩ := h (ho ▸ hop) (hst ▸ hs)
  simp [hp h1, ht, h1, h2]

/-- A step that keeps `status_` and the stream, from a state where `status_` is clear while the stream is open. -/
theorem absorbed_of_clear {s s' : Bufferer} (hst : s'.status = s.status) (ho : s'.isOpen = s.isOpen)
    (hs : s.isOpen = true → s.status = .success) : Absorbed s' :=
  fun hop hf => absurd (hst ▸ hs (ho ▸ hop)) hf

/-- `start_pulling` keeps `Absorbed`. -/
theorem absorbed_startPulling {s : Bufferer} (h : Absorbed s) : Absorbed s.startPulling := by
  refine absorbed_of_tokens h ?_ ?_ ?_ ?_
  all_goals cases hp : s.pulling <;> simp [startPulling_of_not_pulling, hp, pullTokens, Task.isPull, Nat.add_assoc]

/-- `handle_data_n_ops` keeps `Absorbed`. -/
theorem absorbed_handleDataNOps {s : Bufferer} (h : Absorbed s) : Absorbed s.handleDataNOps := by
  have he := hdoEffect_handleDataNOps s
  obtain ⟨new, hp, -, -, hc⟩ := he.posted
  exact absorbed_of_tokens h he.status he.isOpen he.pulling
    (by simp only [pullTokens, hp, List.countP_append, hc, he.reads]; omega)

/-- A handshake keeps `Absorbed`. -/
theorem absorbed_handshakeDone {s : Bufferer} (h : Absorbed s) (ec : ErrorCode) : Absorbed (s.handshakeDone ec) := by
  unfold handshakeDone
  split
  · exact absorbed_startPulling (s := { s with handshaken := true }) h
  · exact h

/-- While the stream is open, a link of a pull chain is handled only with `status_` clear. -/
theorem status_of_pull {s : Bufferer} {t : Task} {ts : List Task} (h : Absorbed s) (hp : s.posted = t :: ts)
    (ht : t.isPull = true) (ho : s.isOpen = true) : s.status = .success := by
  by_contra hs
  have := ChainsAux.pullTokens_pop hp
  simp only [(h ho hs).2, ht, if_true] at this
  omega

/-- The completion handler of a pull read run from the queue: it fails the bufferer only while a chain is the one link
left, so the failure leaves none. -/
theorem absorbed_pullHandler {s : Bufferer} {ts : List Task} {ec : ErrorCode} {chunk : List UInt8} (hc : Chains s)
    (h : Absorbed s) (hp : s.posted = .pullHandler ec chunk :: ts) :
    Absorbed (({ s with posted := ts } : Bufferer).pullHandler ec chunk) := by
  have hs := status_of_pull h hp rfl
  unfold pullHandler
  apply absorbed_handleDataNOps
  cases ec with
  | success =>
    refine absorbed_of_clear (s := s) ?_ ?_ hs <;> dsimp only <;> split <;>
      simp only [asyncPullPackets_status, asyncPullPackets_isOpen]
  | operationAborted => exact absorbed_of_clear (s := s) rfl rfl hs
  | error v =>
    intro ho _
    obtain ⟨h1, h2⟩ := hc.one ho
    have ht := ChainsAux.pullTokens_pop hp
    simp only [Task.isPull, if_true] at ht
    exact ⟨h2 (by omega), show ({ s with posted := ts } : Bufferer).pullTokens = 0 by omega⟩

/-- Every event keeps `Absorbed`. -/
theorem absorbed_step {s s' : Bufferer} {e : Event} (hc : Chains s) (h : Absorbed s) (hs : s.step e = some s') :
    Absorbed s' := by
  rcases step_cases hs with ⟨c, rfl⟩ | ⟨ec, rfl⟩ | rfl | ⟨ec, rfl⟩ | ⟨ec, chunk, hr, -, -, rfl⟩ | rfl |
    ⟨t, ts, hp, rfl⟩
  · unfold asyncReadSome
    split <;> exact absorbed_of_tokens h rfl rfl id (by simp [pullTokens, Task.isPull])
  · exact absorbed_handshakeDone h ec
  · exact absorbed_of_tokens h rfl rfl id (by simp [pullTokens])
  · exact absorbed_of_tokens h rfl rfl id (by simp [pullTokens, Task.isPull])
  · exact fun ho hf => absurd (h ho hf).2 (by unfold pullTokens; omega)
  · exact fun ho => (nomatch ho)
  · have ht := ChainsAux.pullTokens_pop hp
    cases t with
    | asyncPullPackets =>
      exact absorbed_of_clear (s := s) (asyncPullPackets_status _) (asyncPullPackets_isOpen _) (status_of_pull h hp rfl)
    | handleDataNOps => exact absorbed_handleDataNOps (absorbed_of_tokens h rfl rfl id (by simp_all [Task.isPull]))
    | pullHandler ec chunk => exact absorbed_pullHandler hc h hp
    | handshakeHandler ec =>
      exact absorbed_handshakeDone (s := { s with posted := ts }) (absorbed_of_tokens h rfl rfl id
        (by simp_all [Task.isPull])) ec
    | _ => exact absorbed_of_tokens h rfl rfl id (by simp_all [Task.isPull, runTask, pullTokens])

end FailureAux

open FailureAux

/-- Every reachable state satisfies `Absorbed`. -/
theorem absorbed_of_reachable {s : Bufferer} (h : Reachable s) : Absorbed s :=
  h.inv (fun _ hf => absurd rfl hf) fun _ _ _ hr ha he => absorbed_step (chains_of_reachable hr) ha he

namespace FailureAux

/-- A stream open after a run was open before it. -/
theorem isOpen_of_run {s s' : Bufferer} {es : List Event} (hr : s.run es = some s') (ho : s'.isOpen = true) :
    s.isOpen = true := by
  induction es generalizing s with
  | nil => cases hr; exact ho
  | cons e es ih =>
    simp only [Bufferer.run, Option.bind_eq_some] at hr
    obtain ⟨s₁, h₁, hr⟩ := hr
    exact (grows_step h₁).isOpen (ih hr)

/-- What every step of a reachable bufferer keeps while the stream stays open holds after every run that leaves it open. -/
theorem inv_of_run {P : Bufferer → Prop} {s s' : Bufferer} {es : List Event} (h : Reachable s) (hp : P s)
    (hs : ∀ t t' e, Reachable t → P t → t.step e = some t' → t'.isOpen = true → P t') (hr : s.run es = some s')
    (ho : s'.isOpen = true) : P s' := by
  induction es generalizing s with
  | nil => cases hr; exact hp
  | cons e es ih =>
    simp only [Bufferer.run, Option.bind_eq_some] at hr
    obtain ⟨s₁, h₁, hr⟩ := hr
    exact ih (h.step h₁) (hs _ _ _ h hp h₁ (isOpen_of_run hr ho)) hr

/-- A step of a failed bufferer that leaves the stream open keeps `status_` and issues no pull read. -/
theorem failed_step {s s' : Bufferer} {e : Event} (h : Absorbed s) (hf : s.status ≠ .success)
    (hs : s.step e = some s') (ho : s'.isOpen = true) : s'.status = s.status ∧ s'.issued = s.issued := by
  have hso := (grows_step hs).isOpen ho
  obtain ⟨hpl, hpt⟩ := h hso hf
  rcases step_cases hs with ⟨c, rfl⟩ | ⟨ec, rfl⟩ | rfl | ⟨ec, rfl⟩ | ⟨ec, chunk, hr, -, -, rfl⟩ | rfl |
    ⟨t, ts, hp, rfl⟩
  · unfold asyncReadSome
    split <;> exact ⟨rfl, rfl⟩
  · unfold handshakeDone
    split <;> simp [hpl]
  · exact ⟨rfl, rfl⟩
  · exact ⟨rfl, rfl⟩
  · exact absurd hpt (by unfold pullTokens; omega)
  · exact (nomatch ho)
  · cases t with
    | asyncPullPackets => exact absurd (status_of_pull h hp rfl hso) hf
    | pullHandler ec chunk => exact absurd (status_of_pull h hp rfl hso) hf
    | handleDataNOps =>
      have he := hdoEffect_handleDataNOps { s with posted := ts }
      exact ⟨he.status, he.issued⟩
    | handshakeHandler ec =>
      simp only [runTask, handshakeDone]
      split <;> simp [hpl]
    | _ => exact ⟨rfl, rfl⟩

end FailureAux

open FailureAux

/-- While the stream stays open, a failed bufferer stays failed: over every run after which the stream is still open (no
`close`), `status_` keeps its error and no pull read is issued; `pulling_` stays set and no link of a pull chain is left,
so nothing starts pulling again. -/
theorem failure_keeps_status {s s' : Bufferer} {es : List Event} (h : Reachable s) (hf : s.status ≠ .success)
    (hr : s.run es = some s') (ho : s'.isOpen = true) :
    s'.status = s.status ∧ s'.issued = s.issued ∧ s'.pulling = true ∧ s'.pullTokens = 0 := by
  have hkeep : s'.status = s.status ∧ s'.issued = s.issued := by
    refine inv_of_run (P := fun t => t.status = s.status ∧ t.issued = s.issued) h ⟨rfl, rfl⟩ ?_ hr ho
    intro t t' e ht ⟨hst, hi⟩ hs hto
    obtain ⟨hst', hi'⟩ := failed_step (absorbed_of_reachable ht) (hst ▸ hf) hs hto
    exact ⟨hst'.trans hst, hi'.trans hi⟩
  exact ⟨hkeep.1, hkeep.2, absorbed_of_reachable (h.run es hr) ho (hkeep.1 ▸ hf)⟩

/-- The first pull read after the handshake fails with a reset, and its completion runs. -/
def resetAfterHandshake : List Event :=
  [.handshake .success, .run, .pullComplete (.error 104) [], .run]

/-- The socket after `resetAfterHandshake`. -/
def afterReset : Bufferer := (init.run resetAfterHandshake).getD init

/-- `failure_keeps_status` over a read queued after the reset and served. -/
theorem failure_keeps_status_afterReset :
    Reachable afterReset ∧ afterReset.status = .error 104 ∧
      ∃ s', afterReset.run [.asyncReadSome 5, .run, .run] = some s' ∧ s'.isOpen = true ∧
        s'.status = afterReset.status ∧ s'.issued = afterReset.issued ∧ s'.pulling = true ∧ s'.pullTokens = 0 :=
  have h : Reachable afterReset := Reachable.init.run resetAfterHandshake rfl
  have hr : afterReset.run [.asyncReadSome 5, .run, .run] =
      some ((afterReset.run [.asyncReadSome 5, .run, .run]).getD init) := rfl
  ⟨h, rfl, _, hr, rfl, failure_keeps_status h (by decide) hr rfl⟩

/-! ## The reads after a failure -/

/-- A read pending at `s`, or queued after it. -/
def Later (s : Bufferer) (op : PendingRead) : Prop := op ∈ s.opQueue ∨ s.submitted.length ≤ op.id

/-- What holds from a failure at `s` on, for the reads `Later s`: a posted handler that completes one completes it with
`status_`, and every call of one's handler so far was with the error of `s` and no byte. -/
structure FailedSince (s t : Bufferer) : Prop where
  status : t.status = s.status
  posted : ∀ task ∈ t.posted, ∀ op, task.completedRead = some op → Later s op → task = .completeWithStatus op
  invoked : ∀ i ∈ t.invoked, Later s i.op → i.ec = s.status ∧ i.length = 0

namespace FailureAux

/-- With `status_` holding an error, `handle_data_n_ops` completes every queued read with `status_`, oldest first. -/
theorem handleDataNOpsLoop_of_failed : ∀ (ops : List PendingRead) (n : Nat) (s : Bufferer), s.status ≠ .success →
    s.opQueue = ops → ops.length < n →
      handleDataNOpsLoop n s = { s with opQueue := [], posted := s.posted ++ ops.map .completeWithStatus }
  | _, 0, _, _, _, hl => absurd hl (Nat.not_lt_zero _)
  | [], n + 1, s, hs, hq, _ => by
    simp only [handleDataNOpsLoop, handleDataNOpsStep, if_neg hs, failOldest, hq, Bool.false_eq_true, if_false,
      List.map_nil, List.append_nil]
    rw [← hq]
  | op :: ops, n + 1, s, hs, hq, hl => by
    simp only [handleDataNOpsLoop, handleDataNOpsStep, if_neg hs, failOldest, hq, if_true]
    rw [handleDataNOpsLoop_of_failed ops n { s with opQueue := ops, posted := s.posted ++ [.completeWithStatus op] } hs
      rfl (by simp only [List.length_cons] at hl; omega)]
    simp

/-- `handle_data_n_ops` with an error in `status_`. -/
theorem handleDataNOps_of_failed {s : Bufferer} (hs : s.status ≠ .success) :
    s.handleDataNOps = { s with opQueue := [], posted := s.posted ++ s.opQueue.map .completeWithStatus } :=
  handleDataNOpsLoop_of_failed _ _ s hs rfl (Nat.lt_succ_self _)

/-- A handshake of a bufferer that is pulling posts nothing. -/
theorem handshakeDone_of_pulling {s : Bufferer} (hp : s.pulling = true) (ec : ErrorCode) :
    (s.handshakeDone ec).status = s.status ∧ (s.handshakeDone ec).posted = s.posted ∧
      (s.handshakeDone ec).invoked = s.invoked := by
  unfold handshakeDone
  split
  · rw [startPulling_of_pulling (s := { s with handshaken := true }) hp]
    exact ⟨rfl, rfl, rfl⟩
  · exact ⟨rfl, rfl, rfl⟩

/-- A step that keeps `status_` and the calls made, and posts only handlers that complete no read or complete one with
`status_`. -/
theorem failedSince_of_posts {s t t' : Bufferer} (h : FailedSince s t) (hst : t'.status = t.status)
    (hi : t'.invoked = t.invoked) (new : List Task) (hp : t'.posted = t.posted ++ new)
    (hn : ∀ task ∈ new, ∀ op, task.completedRead = some op → task = .completeWithStatus op) : FailedSince s t' := by
  refine ⟨hst.trans h.status, fun task ht op hc hl => ?_, hi ▸ h.invoked⟩
  rw [hp] at ht
  rcases List.mem_append.1 ht with ht | ht
  · exact h.posted task ht op hc hl
  · exact hn task ht op hc

/-- Running the oldest posted handler. -/
theorem failedSince_pop {s t : Bufferer} {task : Task} {ts : List Task} (h : FailedSince s t)
    (hp : t.posted = task :: ts) : FailedSince s { t with posted := ts } :=
  ⟨h.status, fun u hu => h.posted u (by simp [hp, hu]), h.invoked⟩

/-- Calling the handler of a read keeps `FailedSince` when a `Later` read is called with `status_` and no bytes. -/
theorem failedSince_invoke {s t : Bufferer} (h : FailedSince s t) (i : Invocation)
    (hi : Later s i.op → i.ec = s.status ∧ i.length = 0) : FailedSince s { t with invoked := t.invoked ++ [i] } := by
  refine ⟨h.status, h.posted, fun j hj hl => ?_⟩
  rcases List.mem_append.1 hj with hj | hj
  · exact h.invoked j hj hl
  · obtain rfl := List.mem_singleton.1 hj
    exact hi hl

/-- Every event after the failure that leaves the stream open keeps `FailedSince`. -/
theorem failedSince_step {s t t' : Bufferer} {e : Event} (ht : Reachable t) (h : FailedSince s t)
    (hf : s.status ≠ .success) (hs : t.step e = some t') (ho : t'.isOpen = true) : FailedSince s t' := by
  have htf : t.status ≠ .success := h.status ▸ hf
  have hto := (grows_step hs).isOpen ho
  have ha := absorbed_of_reachable ht
  obtain ⟨hpl, hpt⟩ := ha hto htf
  have none_of : ∀ task ∈ ([] : List Task), ∀ op, task.completedRead = some op → task = .completeWithStatus op :=
    fun _ h => (nomatch h)
  rcases step_cases hs with ⟨c, rfl⟩ | ⟨ec, rfl⟩ | rfl | ⟨ec, rfl⟩ | ⟨ec, chunk, hr, -, -, rfl⟩ | rfl |
    ⟨task, ts, hp, rfl⟩
  · unfold asyncReadSome
    split <;> exact failedSince_of_posts h rfl rfl _ rfl (by simp [Task.completedRead])
  · obtain ⟨h1, h2, h3⟩ := handshakeDone_of_pulling hpl ec
    exact failedSince_of_posts h h1 h3 [] (by rw [h2, List.append_nil]) none_of
  · exact failedSince_of_posts h rfl rfl [] (List.append_nil _).symm none_of
  · exact failedSince_of_posts h rfl rfl [.handshakeHandler ec] rfl (by simp [Task.completedRead])
  · exact absurd hpt (by unfold pullTokens; omega)
  · exact (nomatch ho)
  · have hpop := failedSince_pop h hp
    cases task with
    | asyncPullPackets => exact absurd (status_of_pull ha hp rfl hto) htf
    | pullHandler ec chunk => exact absurd (status_of_pull ha hp rfl hto) htf
    | handleDataNOps =>
      simp only [runTask]
      rw [handleDataNOps_of_failed (s := { t with posted := ts }) htf]
      exact failedSince_of_posts hpop rfl rfl _ rfl (by simp [Task.completedRead])
    | complete op ec n =>
      exact failedSince_invoke hpop _ fun hl => nomatch h.posted (.complete op ec n) (by simp [hp]) op rfl hl
    | completeWithStatus op => exact failedSince_invoke hpop _ fun _ => ⟨h.status, rfl⟩
    | emptyRead => exact hpop
    | handshakeHandler ec =>
      obtain ⟨h1, h2, h3⟩ := handshakeDone_of_pulling (s := { t with posted := ts }) hpl ec
      exact failedSince_of_posts hpop h1 h3 [] (h2.trans (List.append_nil _).symm) none_of

/-- At a reachable state, no read `Later` than it has had its handler called or its completion posted. -/
theorem failedSince_refl {s : Bufferer} (h : Reachable s) : FailedSince s s := by
  obtain ⟨-, ⟨popped, hpop, hinv⟩, -, -⟩ := delivery_of_reachable h
  obtain ⟨hnd, hid⟩ := DeliveryAux.submitted_numbered h
  have early : ∀ op ∈ popped, ¬Later s op := by
    intro op hop hl
    rcases hl with hq | hl
    · rw [← hpop] at hnd
      exact (List.pairwise_append.1 hnd).2.2 op hop op hq rfl
    · have := hid op (hpop ▸ List.mem_append_left _ hop)
      omega
  refine ⟨rfl, fun task ht op hc hl => absurd hl (early op ?_), fun i hi hl => absurd hl (early i.op ?_)⟩
  · rw [← hinv]
    exact List.mem_append_right _ (List.mem_filterMap.2 ⟨task, ht, hc⟩)
  · rw [← hinv]
    exact List.mem_append_left _ (List.mem_map_of_mem _ hi)

end FailureAux

open FailureAux

/-- On a stream that stays open, every read pending at a failure or queued after it has its handler called with the saved
error and no byte. -/
theorem reads_fail_with_status {s s' : Bufferer} {es : List Event} (h : Reachable s) (hf : s.status ≠ .success)
    (hr : s.run es = some s') (ho : s'.isOpen = true) :
    ∀ i ∈ s'.invoked, (i.op ∈ s.opQueue ∨ s.submitted.length ≤ i.op.id) → i.ec = s.status ∧ i.length = 0 :=
  (inv_of_run h (failedSince_refl h) (fun _ _ _ ht hft hs hto => failedSince_step ht hft hf hs hto) hr ho).invoked

/-- `reads_fail_with_status` over a read queued after the reset. -/
theorem reads_fail_with_status_afterReset :
    Reachable afterReset ∧ afterReset.status ≠ .success ∧
      ∃ s', afterReset.run [.asyncReadSome 5, .run, .run] = some s' ∧ s'.isOpen = true ∧ s'.invoked ≠ [] ∧
        ∀ i ∈ s'.invoked, (i.op ∈ afterReset.opQueue ∨ afterReset.submitted.length ≤ i.op.id) →
          i.ec = afterReset.status ∧ i.length = 0 :=
  have h : Reachable afterReset := Reachable.init.run resetAfterHandshake rfl
  have hr : afterReset.run [.asyncReadSome 5, .run, .run] =
      some ((afterReset.run [.asyncReadSome 5, .run, .run]).getD init) := rfl
  ⟨h, by decide, _, hr, rfl, by decide, reads_fail_with_status h (by decide) hr rfl⟩

end Bufferer

end SocketFunneling
