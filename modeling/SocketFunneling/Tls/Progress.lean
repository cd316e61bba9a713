import SocketFunneling.Tls.Quiescent
import SocketFunneling.Tls.Delivery

/-!
# No read is left hanging

`progressMeasure` bounds the work the io_service has left: two for every posted handler, four for the completion of a
pull read, one while `pulling_` is clear, and five for every queued read. Running a posted handler lowers it. A handler
posts at most one `async_pull_packets`, and only by setting `pulling_`; the completion of a pull read may clear `pulling_`
and set it again; and `handle_data_n_ops` and `cancel` post one completion, of weight two, for every read they pop, of
weight five. So with no event from the user or the stream, the io_service always runs out of handlers (`drain`).

After `close` no read is queued, so once the io_service has run out of handlers every read ever queued has had its handler
called (`close_completes_every_read`). While the stream is open, a reachable socket that has run out of handlers with a
read queued has `status_` clear, an empty `data_queue_` and a pull read in flight; when that read brings a byte, its
completion handler commits it and serves the oldest read. So if the stream answers every pull read with a byte, every read
is served, whatever state the socket reached: paused, cancelled by an aborted pull read, failed, or not yet handshaken
(`reads_served_while_open`). A blocking `read_some` waits on the future of its read's handler while another thread runs
the io_service, so it returns there, with between one byte and its buffer's size or with `io_error` and none
(`read_some_returns`).
-/

namespace SocketFunneling

/-- What a posted handler weighs in the work left: the completion of a pull read may clear `pulling_`, through `cancel`
or `async_pull_packets`, and set it again, through `handle_data_n_ops`. -/
def Task.drainWeight : Task → Nat
  | .pullHandler _ _ => 4
  | _ => 2

/-- The weights of the handlers of a list. -/
def Task.drainWeights : List Task → Nat
  | [] => 0
  | t :: ts => t.drainWeight + Task.drainWeights ts

@[simp] theorem Task.drainWeights_nil : Task.drainWeights [] = 0 := rfl

@[simp] theorem Task.drainWeights_cons (t : Task) (ts : List Task) :
    Task.drainWeights (t :: ts) = t.drainWeight + Task.drainWeights ts := rfl

@[simp] theorem Task.drainWeights_append (ts us : List Task) :
    Task.drainWeights (ts ++ us) = Task.drainWeights ts + Task.drainWeights us := by
  induction ts with
  | nil => simp
  | cons t ts ih => simp [ih, Nat.add_assoc]

namespace Bufferer

/-- A bound on the work the io_service has left: the weights of the posted handlers, one while `pulling_` is clear, and
five for every queued read. -/
def progressMeasure (s : Bufferer) : Nat :=
  Task.drainWeights s.posted + (if s.pulling then 0 else 1) + 5 * s.opQueue.length

/-- `read_some` of the buffered socket, once the handler of its read has been called with `ec` and a count `n`: the future
of `use_future` throws on an error, and `read_some` catches it, sets `io_error` (the value `ssf::error` gives it is a
parameter) and returns 0. -/
def readSome (ioError : Nat) (ec : ErrorCode) (n : Nat) : ErrorCode × Nat :=
  if ec = .success then (.success, n) else (.error ioError, 0)

namespace ProgressAux

open EffectsAux

/-- `s'` has only popped reads from the front of `op_queue_`, and its measure is at most `k` above that of `s`. -/
def Lifts (k : Nat) (s s' : Bufferer) : Prop := s'.opQueue <:+ s.opQueue ∧ progressMeasure s' ≤ progressMeasure s + k

/-- Two steps lift the measure by the sum of what each lifts it. -/
theorem Lifts.trans {k k' : Nat} {s₁ s₂ s₃ : Bufferer} (h : Lifts k s₁ s₂) (h' : Lifts k' s₂ s₃) :
    Lifts (k + k') s₁ s₃ :=
  ⟨h'.1.trans h.1, by have := h.2; have := h'.2; omega⟩

/-- A step that lifts the measure by `k` lifts it by anything above. -/
theorem Lifts.mono {k k' : Nat} {s s' : Bufferer} (h : Lifts k s s') (hk : k ≤ k') : Lifts k' s s' :=
  ⟨h.1, by have := h.2; omega⟩

/-- A step that keeps `op_queue_`, the posted handlers and `pulling_`. -/
theorem lifts_of_eq {s s' : Bufferer} (hq : s'.opQueue = s.opQueue) (hp : s'.posted = s.posted)
    (hl : s'.pulling = s.pulling) (k : Nat) : Lifts k s s' :=
  ⟨hq ▸ List.suffix_refl _, by simp only [progressMeasure, hq, hp, hl]; omega⟩

/-- Every posted handler weighs two at least. -/
theorem two_le_drainWeight (t : Task) : 2 ≤ t.drainWeight := by
  cases t <;> simp [Task.drainWeight]

/-- Handlers other than the completion of a pull read weigh two each. -/
theorem drainWeights_of_not_pullHandler {l : List Task} (h : ∀ t ∈ l, t.isPullHandler = false) :
    Task.drainWeights l = 2 * l.length := by
  induction l with
  | nil => rfl
  | cons t l ih =>
    have ht : t.drainWeight = 2 := by
      have := h t (List.mem_cons_self _ _)
      cases t <;> first | rfl | cases this
    rw [Task.drainWeights_cons, ht, ih fun u hu => h u (List.mem_cons_of_mem _ hu), List.length_cons]
    omega

/-- What `handle_data_n_ops` posts: completions of the reads it pops and `async_pull_packets`, no completion of a pull
read. -/
theorem ofHandleData_length {st : ErrorCode} {l : List Task} (h : ∀ t ∈ l, t.OfHandleData st) :
    l.length = (l.filterMap Task.completedRead).length + l.countP Task.isPull ∧ ∀ t ∈ l, t.isPullHandler = false := by
  induction l with
  | nil => simp
  | cons t l ih =>
    obtain ⟨ih1, ih2⟩ := ih fun u hu => h u (List.mem_cons_of_mem _ hu)
    refine ⟨?_, fun u hu => ?_⟩
    · rcases h t (List.mem_cons_self _ _) with rfl | ⟨op, n, rfl, -⟩ | ⟨op, rfl, -⟩ <;>
        simp [Task.completedRead, Task.isPull, ih1] <;> omega
    · rcases List.mem_cons.1 hu with rfl | hu
      · rcases h u (List.mem_cons_self _ _) with rfl | ⟨op, n, rfl, -⟩ | ⟨op, rfl, -⟩ <;> rfl
      · exact ih2 u hu

/-- `handle_data_n_ops` pops reads from the front of `op_queue_`, posts one completion, of weight two, for every read it
pops, of weight five, and at most one `async_pull_packets`, by setting `pulling_`. -/
theorem handleDataNOps_measure (u : Bufferer) :
    u.handleDataNOps.opQueue <:+ u.opQueue ∧
      progressMeasure u.handleDataNOps + 3 * (u.opQueue.length - u.handleDataNOps.opQueue.length) ≤
        progressMeasure u + 1 := by
  have he := hdoEffect_handleDataNOps u
  obtain ⟨new, hp, hq, hn, hc⟩ := he.posted
  obtain ⟨hl, hph⟩ := ofHandleData_length hn
  have hpl := he.pulling
  refine ⟨⟨_, hq.symm⟩, ?_⟩
  simp only [progressMeasure, hp, Task.drainWeights_append, drainWeights_of_not_pullHandler hph, hq,
    List.length_append, hl, hc]
  revert hpl
  cases u.pulling <;> cases u.handleDataNOps.pulling <;> simp <;> omega

/-- `handle_data_n_ops` lifts the measure by one at most. -/
theorem lifts_handleDataNOps (u : Bufferer) : Lifts 1 u u.handleDataNOps :=
  ⟨(handleDataNOps_measure u).1, by have := (handleDataNOps_measure u).2; omega⟩

/-- `start_pulling` posts `async_pull_packets` only by setting `pulling_`. -/
theorem lifts_startPulling (u : Bufferer) : Lifts 1 u u.startPulling := by
  cases hpl : u.pulling
  · rw [startPulling_of_not_pulling hpl]
    refine ⟨List.suffix_refl _, ?_⟩
    simp only [progressMeasure, Task.drainWeights_append, Task.drainWeights_cons, Task.drainWeights_nil,
      Task.drainWeight, hpl, if_true, Bool.false_eq_true, if_false]
    omega
  · rw [startPulling_of_pulling hpl]
    exact lifts_of_eq rfl rfl rfl 1

/-- `async_pull_packets` posts nothing and may clear `pulling_`. -/
theorem lifts_asyncPullPackets (u : Bufferer) : Lifts 1 u u.asyncPullPackets := by
  unfold asyncPullPackets
  split
  · exact lifts_of_eq rfl rfl rfl 1
  · refine ⟨List.suffix_refl _, ?_⟩
    simp only [progressMeasure, Bool.false_eq_true, if_false]
    split <;> omega

/-- `cancel` pops every read, posting a completion for each, and clears `pulling_`. -/
theorem lifts_cancel (u : Bufferer) : Lifts 1 u u.cancel := by
  refine ⟨List.nil_suffix, ?_⟩
  have hw : Task.drainWeights (u.opQueue.map fun op => .complete op .operationAborted 0) = 2 * u.opQueue.length := by
    rw [drainWeights_of_not_pullHandler (by simp [Task.isPullHandler]), List.length_map]
  simp only [progressMeasure, cancel, Task.drainWeights_append, hw, List.length_nil, Bool.false_eq_true, if_false]
  split <;> omega

/-- A handshake posts at most `async_pull_packets`, by setting `pulling_`. -/
theorem lifts_handshakeDone (u : Bufferer) (ec : ErrorCode) : Lifts 1 u (u.handshakeDone ec) := by
  unfold handshakeDone
  split
  · exact lifts_startPulling { u with handshaken := true }
  · exact lifts_of_eq rfl rfl rfl 1

/-- Running a posted handler lifts the measure by less than the handler weighs. -/
theorem runTask_lifts (u : Bufferer) (t : Task) : Lifts (t.drainWeight - 1) u (u.runTask t) := by
  cases t with
  | asyncPullPackets => exact lifts_asyncPullPackets u
  | handleDataNOps => exact lifts_handleDataNOps u
  | complete op ec n => exact lifts_of_eq rfl rfl rfl _
  | completeWithStatus op => exact lifts_of_eq rfl rfl rfl _
  | emptyRead => exact lifts_of_eq rfl rfl rfl _
  | pullHandler ec chunk =>
    refine Lifts.mono (k := 1 + 1) (Lifts.trans ?_ (lifts_handleDataNOps _)) (Nat.le_succ 2)
    cases ec with
    | success =>
      dsimp only
      split
      · exact lifts_asyncPullPackets { u with dataQueue := u.dataQueue ++ chunk, committed := u.committed ++ chunk }
      · exact lifts_of_eq rfl rfl rfl 1
    | operationAborted => exact lifts_cancel u
    | error v => exact lifts_of_eq rfl rfl rfl 1
  | handshakeHandler ec => exact lifts_handshakeDone u ec

/-- A posted handler leaves the stream as it was. -/
theorem runTask_isOpen (u : Bufferer) (t : Task) : (u.runTask t).isOpen = u.isOpen := by
  cases t with
  | asyncPullPackets => exact asyncPullPackets_isOpen u
  | handleDataNOps => exact (hdoEffect_handleDataNOps u).isOpen
  | pullHandler ec chunk =>
    refine (hdoEffect_handleDataNOps _).isOpen.trans ?_
    cases ec with
    | success =>
      dsimp only
      split
      · exact asyncPullPackets_isOpen _
      · rfl
    | operationAborted => rfl
    | error v => rfl
  | handshakeHandler ec =>
    simp only [runTask, handshakeDone]
    split
    · exact (hdoEffect_startPulling _).isOpen
    · rfl
  | _ => rfl

/-- The io_service runs the oldest posted handler. -/
theorem step_run {t : Bufferer} {task : Task} {ts : List Task} (hp : t.posted = task :: ts) :
    t.step .run = some ({ t with posted := ts }.runTask task) := by
  simp [step, hp]

/-- Taking the oldest handler off the queue takes its weight off the measure. -/
theorem progressMeasure_pop {t : Bufferer} {task : Task} {ts : List Task} (hp : t.posted = task :: ts) :
    progressMeasure t = progressMeasure { t with posted := ts } + task.drainWeight := by
  simp only [progressMeasure, hp, Task.drainWeights_cons]
  omega

/-- Running one posted handler lowers the measure, pops reads only, and queues none. -/
theorem runTask_lowers {t : Bufferer} {task : Task} {ts : List Task} (hp : t.posted = task :: ts) :
    progressMeasure ({ t with posted := ts }.runTask task) < progressMeasure t ∧
      ({ t with posted := ts }.runTask task).opQueue <:+ t.opQueue := by
  obtain ⟨hq, hm⟩ := runTask_lifts { t with posted := ts } task
  have := progressMeasure_pop hp
  have := two_le_drainWeight task
  exact ⟨by omega, hq⟩

/-- With no event from the user or the stream, the io_service runs out of handlers: after as many runs as the measure
allows nothing is posted, and reads have only been popped. -/
theorem drain : ∀ (k : Nat) (t : Bufferer), progressMeasure t < k →
    ∃ n t', t.run (List.replicate n .run) = some t' ∧ t'.posted = [] ∧ t'.opQueue <:+ t.opQueue ∧
      t'.submitted = t.submitted
  | 0, _, hk => absurd hk (Nat.not_lt_zero _)
  | k + 1, t, hk => by
    cases hp : t.posted with
    | nil => exact ⟨0, t, rfl, hp, List.suffix_refl _, rfl⟩
    | cons task ts =>
      obtain ⟨hm, hq⟩ := runTask_lowers hp
      obtain ⟨n, t', hr, hp', hq', hs⟩ := drain k ({ t with posted := ts }.runTask task) (by omega)
      refine ⟨n + 1, t', by rw [List.replicate_succ, Bufferer.run, step_run hp]; exact hr, hp', hq'.trans hq,
        by rw [hs, DeliveryAux.runTask_submitted]⟩

/-- `handle_data_n_ops` with `status_` clear, `pulling_` set, a read queued and bytes queued serves that read. -/
theorem handleDataNOps_pops {z : Bufferer} {op : PendingRead} {ops : List PendingRead} (hs : z.status = .success)
    (hp : z.pulling = true) (hq : z.opQueue = op :: ops) (hd : z.dataQueue ≠ []) :
    z.handleDataNOps.opQueue.length < z.opQueue.length := by
  have h2 : z.handleDataNOpsStep.2 = true := by
    simp [handleDataNOpsStep, hs, checkPulling, hp, serveOldest, hq, hd]
  have hlt := (handleDataNOpsStep_cases z).1 h2
  obtain ⟨new, -, hq', -⟩ := (hdoEffect_loop z.opQueue.length z.handleDataNOpsStep.1).posted
  have := congrArg List.length hq'
  unfold handleDataNOps
  simp only [handleDataNOpsLoop, h2, if_true]
  simp only [List.length_append] at this
  omega

/-- Running events one list after another. -/
theorem run_append (t : Bufferer) (es es' : List Event) : t.run (es ++ es') = (t.run es).bind (·.run es') := by
  induction es generalizing t with
  | nil => rfl
  | cons e es ih =>
    simp only [List.cons_append, Bufferer.run]
    cases t.step e with
    | none => rfl
    | some t₁ => exact ih t₁

/-- A reachable open socket that has run out of handlers with a read queued has a pull read in flight; when it brings a
byte, its completion handler commits it and serves the oldest read. -/
theorem serve_quiescent {t : Bufferer} {op : PendingRead} {ops : List PendingRead} (h : Reachable t)
    (ho : t.isOpen = true) (hp : t.posted = []) (hq : t.opQueue = op :: ops) :
    ∃ t', t.run [.pullComplete .success [0], .run] = some t' ∧ progressMeasure t' < progressMeasure t ∧
      t'.isOpen = true ∧ t'.submitted = t.submitted := by
  obtain ⟨hst, hd, hpl⟩ : t.status = .success ∧ t.dataQueue = [] ∧ t.pulling = true := by
    rcases (settled_of_reachable h).queued with h1 | h1 | h1
    · simp [hq] at h1
    · simp [hp] at h1
    · exact h1
  have hr : 0 < t.reads := by simpa [pullTokens, hp] using (chains_of_reachable h).pulls hst hpl
  let z : Bufferer := { t with
    reads := t.reads - 1 + 1, issued := t.issued + 1, dataQueue := [0], committed := t.committed ++ [0], posted := [] }
  have hz : t.run [.pullComplete .success [0], .run] = some z.handleDataNOps := by
    simp [Bufferer.run, step, hr, ho, hp, runTask, pullHandler, hst, hd, asyncPullPackets, receiveBufferSize,
      higherQueueSizeBound, z]
  have hpop := handleDataNOps_pops (z := z) hst hpl hq (List.cons_ne_nil _ _)
  have hm := (handleDataNOps_measure z).2
  have hmz : progressMeasure z = progressMeasure t := by simp [progressMeasure, z, hp]
  refine ⟨_, hz, by omega, (hdoEffect_handleDataNOps z).isOpen.trans ho, (hdoEffect_handleDataNOps z).submitted⟩

/-- While the stream is open, if it answers every pull read with a byte, the io_service reaches a state where nothing is
posted and no read is queued. -/
theorem serve_while_open : ∀ (k : Nat) (t : Bufferer), Reachable t → t.isOpen = true → progressMeasure t < k →
    ∃ es t', t.run es = some t' ∧ (∀ e ∈ es, e = .run ∨ e = .pullComplete .success [0]) ∧ t'.posted = [] ∧
      t'.opQueue = [] ∧ t'.submitted = t.submitted
  | 0, _, _, _, hk => absurd hk (Nat.not_lt_zero _)
  | k + 1, t, h, ho, hk => by
    cases hp : t.posted with
    | cons task ts =>
      obtain ⟨hm, -⟩ := runTask_lowers hp
      obtain ⟨es, t', hr, he, hp', hq', hs⟩ :=
        serve_while_open k _ (h.step (step_run hp)) (by rw [runTask_isOpen]; exact ho) (by omega)
      refine ⟨.run :: es, t', by rw [Bufferer.run, step_run hp]; exact hr, List.forall_mem_cons.2 ⟨.inl rfl, he⟩, hp',
        hq', by rw [hs, DeliveryAux.runTask_submitted]⟩
    | nil =>
      cases hq : t.opQueue with
      | nil => exact ⟨[], t, rfl, nofun, hp, hq, rfl⟩
      | cons op ops =>
        obtain ⟨t₂, hr₂, hm₂, ho₂, hs₂⟩ := serve_quiescent h ho hp hq
        obtain ⟨es, t', hr, he, hp', hq', hs⟩ := serve_while_open k t₂ (h.run _ hr₂) ho₂ (by omega)
        refine ⟨[.pullComplete .success [0], .run] ++ es, t', by rw [run_append, hr₂]; exact hr,
          List.forall_mem_append.2 ⟨by simp, he⟩, hp', hq', hs.trans hs₂⟩

/-- At a reachable state where nothing is posted and no read is queued, the handler of every read ever queued has been
called, once each and in submission order. -/
theorem invoked_of_idle {s : Bufferer} (h : Reachable s) (hp : s.posted = []) (hq : s.opQueue = []) :
    s.invoked.map (·.op) = s.submitted := by
  obtain ⟨-, ⟨popped, hpop, hinv⟩, -, -⟩ := delivery_of_reachable h
  rw [hp, List.filterMap_nil, List.append_nil] at hinv
  rw [hq, List.append_nil] at hpop
  rw [hinv, hpop]

end ProgressAux

open ProgressAux

/-- `close` lets every read complete: from every reachable state, after `close` the io_service runs out of handlers after
finitely many runs, with no event from the stream, and by then the handler of every read ever queued has been called,
once each and in submission order. -/
theorem close_completes_every_read {s : Bufferer} (h : Reachable s) :
    ∃ n s', s.close.run (List.replicate n .run) = some s' ∧ s'.posted = [] ∧ s'.invoked.map (·.op) = s.submitted := by
  obtain ⟨n, s', hr, hp, hq, hs⟩ := drain _ s.close (Nat.lt_succ_self _)
  have hr' : Reachable s' := (h.step (show s.step .close = some s.close from rfl)).run _ hr
  exact ⟨n, s', hr, hp, (invoked_of_idle hr' hp (List.suffix_nil.1 hq)).trans hs⟩

/-- A read of four bytes queued before any handshake. -/
def readQueued : Bufferer := (init.run [.asyncReadSome 4]).getD init

/-- `close_completes_every_read` at `readQueued`: `close` aborts the read and the io_service completes it. -/
theorem close_completes_every_read_readQueued :
    Reachable readQueued ∧ readQueued.submitted ≠ [] ∧
      ∃ n s', readQueued.close.run (List.replicate n .run) = some s' ∧ s'.posted = [] ∧
        s'.invoked.map (·.op) = readQueued.submitted :=
  have h : Reachable readQueued := Reachable.init.run [.asyncReadSome 4] rfl
  ⟨h, by decide, close_completes_every_read h⟩

/-- No read starves while the stream stays open and delivers bytes: from every reachable state whose stream is open, if
the stream answers each pull read with a byte, the io_service's runs reach, after finitely many events, a state where
nothing is posted and no read is queued, and the handler of every read ever queued has been called, once each and in
submission order. -/
theorem reads_served_while_open {s : Bufferer} (h : Reachable s) (ho : s.isOpen = true) :
    ∃ es s', s.run es = some s' ∧ (∀ e ∈ es, e = .run ∨ e = .pullComplete .success [0]) ∧ s'.posted = [] ∧
      s'.invoked.map (·.op) = s.submitted := by
  obtain ⟨es, s', hr, he, hp, hq, hs⟩ := serve_while_open _ s h ho (Nat.lt_succ_self _)
  exact ⟨es, s', hr, he, hp, (invoked_of_idle (h.run es hr) hp hq).trans hs⟩

/-- `reads_served_while_open` at `readQueued`: the read queued before any handshake starts pulling, and is served. -/
theorem reads_served_while_open_readQueued :
    Reachable readQueued ∧ readQueued.isOpen = true ∧ readQueued.submitted ≠ [] ∧
      ∃ es s', readQueued.run es = some s' ∧ (∀ e ∈ es, e = .run ∨ e = .pullComplete .success [0]) ∧
        s'.posted = [] ∧ s'.invoked.map (·.op) = readQueued.submitted :=
  have h : Reachable readQueued := Reachable.init.run [.asyncReadSome 4] rfl
  ⟨h, rfl, by decide, reads_served_while_open h rfl⟩

/-- A blocking `read_some` of a non-empty buffer returns while another thread runs the io_service and the stream stays
open and delivers bytes: `read_some` blocks on the future of its read's handler, which only a thread running the
io_service can call. From every reachable state whose stream is open, once its read is queued, a finite run of the
io_service and of pull completions carrying one byte calls the read's handler, and `read_some` then returns success
with between one byte and the buffer's size, or `io_error` with none. -/
theorem read_some_returns {s : Bufferer} (h : Reachable s) (ho : s.isOpen = true) {c : Nat} (hc : 0 < c)
    (ioError : Nat) :
    ∃ es s' i, s.run (.asyncReadSome c :: es) = some s' ∧ (∀ e ∈ es, e = .run ∨ e = .pullComplete .success [0]) ∧
      i ∈ s'.invoked ∧ i.op.id = s.submitted.length ∧ i.op.capacity = c ∧
      ((readSome ioError i.ec i.length).1 = .success ∧ 0 < (readSome ioError i.ec i.length).2 ∧
          (readSome ioError i.ec i.length).2 ≤ c ∨
        readSome ioError i.ec i.length = (.error ioError, 0)) := by
  have h₁ : Reachable (s.asyncReadSome c) := h.step (show s.step (.asyncReadSome c) = some _ from rfl)
  have ho₁ : (s.asyncReadSome c).isOpen = true := by simp [asyncReadSome, hc, ho]
  obtain ⟨es, s', hr, he, hp, hq, hs⟩ := serve_while_open _ _ h₁ ho₁ (Nat.lt_succ_self _)
  have hr' : Reachable s' := h₁.run es hr
  have hmem : (⟨s.submitted.length, c, hc⟩ : PendingRead) ∈ s'.invoked.map (·.op) := by
    rw [invoked_of_idle hr' hp hq, hs]
    simp [asyncReadSome, hc]
  obtain ⟨i, hi, hop⟩ := List.mem_map.1 hmem
  have hcap : i.op.capacity = c := congrArg PendingRead.capacity hop
  refine ⟨es, s', i, hr, he, hi, congrArg PendingRead.id hop, hcap, ?_⟩
  unfold readSome
  split
  · exact .inl ⟨rfl, hcap ▸ (delivery_of_reachable hr').counts i hi ‹_›⟩
  · exact .inr rfl

/-- `read_some_returns` on a fresh socket: a read of two bytes queued before any handshake starts pulling, and
`read_some` returns. -/
theorem read_some_returns_init :
    Reachable init ∧ init.isOpen = true ∧ 0 < 2 ∧
      ∃ es s' i, init.run (.asyncReadSome 2 :: es) = some s' ∧ (∀ e ∈ es, e = .run ∨ e = .pullComplete .success [0]) ∧
        i ∈ s'.invoked ∧ i.op.id = init.submitted.length ∧ i.op.capacity = 2 ∧
        ((readSome 5 i.ec i.length).1 = .success ∧ 0 < (readSome 5 i.ec i.length).2 ∧ (readSome 5 i.ec i.length).2 ≤ 2 ∨
          readSome 5 i.ec i.length = (.error 5, 0)) :=
  ⟨Reachable.init, rfl, by decide, read_some_returns Reachable.init rfl (by decide) 5⟩

end Bufferer

end SocketFunneling
