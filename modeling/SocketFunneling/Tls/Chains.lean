import SocketFunneling.Tls.Effects

/-!
# Pull chains

`start_pulling` begins a chain of pull reads: `async_pull_packets`, a read in flight, its completion handler, and
`async_pull_packets` again while the handler finds `status_` clear. `pullTokens` counts the links. Two facts hold of every
reachable state (`Chains`): with `status_` clear, a set `pulling_` has a chain behind it; and while the stream is open there
is at most one chain, and `pulling_` is set while there is one.

The second does not survive `close`: `cancel` clears `pulling_` while the completion handler of a pull read may still be
posted, that handler pulls again, and a user read can start a second chain (`Tls/Close.lean`).
-/

namespace SocketFunneling

namespace Bufferer

/-- The facts about pull chains that every reachable state satisfies. -/
structure Chains (s : Bufferer) : Prop where
  pulls : s.status = .success → s.pulling = true → 0 < s.pullTokens
  one : s.isOpen = true → s.pullTokens ≤ 1 ∧ (s.pullTokens = 1 → s.pulling = true)

namespace ChainsAux

/-- A step that keeps `status_` and the stream, sets `pulling_` or keeps it, and adds a link exactly when it sets it. -/
theorem chains_of_tokens {s s' : Bufferer} (h : Chains s) (hst : s'.status = s.status) (ho : s'.isOpen = s.isOpen)
    (hp : s.pulling = true → s'.pulling = true)
    (ht : s'.pullTokens = s.pullTokens + if !s.pulling && s'.pulling then 1 else 0) : Chains s' := by
  obtain ⟨h1, h2⟩ := h
  constructor
  · intro hs hq'
    rw [ht]
    cases hq : s.pulling
    · simp [hq']
    · have := h1 (hst ▸ hs) hq
      omega
  · intro hop
    have := h2 (ho ▸ hop)
    cases hq : s.pulling
    · have : s.pullTokens = 0 := by simp_all; omega
      cases hq' : s'.pulling <;> simp_all
    · simp_all

/-- A step that takes one link away and leaves no chain to account for a set `pulling_`. -/
theorem chains_of_drop {s s' : Bufferer} (h : Chains s) (ho : s'.isOpen = s.isOpen)
    (hp : s'.status = .success → s'.pulling = false) (ht : s'.pullTokens + 1 = s.pullTokens) : Chains s' := by
  refine ⟨fun hs hq => by simp [hp hs] at hq, fun hop => ?_⟩
  have := (h.one (ho ▸ hop)).1
  omega

/-- `start_pulling` keeps `Chains`. -/
theorem chains_startPulling {s : Bufferer} (h : Chains s) : Chains s.startPulling := by
  refine chains_of_tokens h ?_ ?_ ?_ ?_
  all_goals cases hp : s.pulling <;> simp [startPulling_of_not_pulling, hp, pullTokens, Task.isPull, Nat.add_assoc]

/-- `handle_data_n_ops` keeps `Chains`: it adds a link only with `start_pulling`. -/
theorem chains_handleDataNOps {s : Bufferer} (h : Chains s) : Chains s.handleDataNOps := by
  have he := hdoEffect_handleDataNOps s
  obtain ⟨new, hp, -, -, hc⟩ := he.posted
  exact chains_of_tokens h he.status he.isOpen he.pulling
    (by simp only [pullTokens, hp, List.countP_append, hc, he.reads]; omega)

/-- A handshake keeps `Chains`. -/
theorem chains_handshakeDone {s : Bufferer} (h : Chains s) (ec : ErrorCode) : Chains (s.handshakeDone ec) := by
  unfold handshakeDone
  split
  · exact chains_startPulling (s := { s with handshaken := true }) ⟨h.pulls, h.one⟩
  · exact h

/-- A link is taken off the front of the queue of posted handlers. -/
theorem pullTokens_pop {s : Bufferer} {t : Task} {ts : List Task} (hp : s.posted = t :: ts) :
    s.pullTokens = ({ s with posted := ts } : Bufferer).pullTokens + if t.isPull then 1 else 0 := by
  simp [pullTokens, hp, List.countP_cons, Nat.add_assoc]

/-- `async_pull_packets` run from the queue: it issues a read, keeping the chain, or clears `pulling_` and ends it. -/
theorem chains_asyncPullPackets {s : Bufferer} {ts : List Task} (h : Chains s) (hp : s.posted = .asyncPullPackets :: ts) :
    Chains ({ s with posted := ts } : Bufferer).asyncPullPackets := by
  have ht := pullTokens_pop hp
  unfold asyncPullPackets
  split
  · exact chains_of_tokens h rfl rfl id (by simp_all [pullTokens, Task.isPull]; omega)
  · exact chains_of_drop h rfl (fun _ => rfl) (by simp_all [pullTokens, Task.isPull])

/-- The completion handler of a pull read run from the queue. -/
theorem chains_pullHandler {s : Bufferer} {ts : List Task} {ec : ErrorCode} {chunk : List UInt8} (h : Chains s)
    (hp : s.posted = .pullHandler ec chunk :: ts) : Chains (({ s with posted := ts } : Bufferer).pullHandler ec chunk) := by
  have ht := pullTokens_pop hp
  simp only [Task.isPull, if_true] at ht
  unfold pullHandler
  apply chains_handleDataNOps
  cases ec with
  | success =>
    simp only
    split
    · unfold asyncPullPackets
      split
      · exact chains_of_tokens h rfl rfl id (by simp_all [pullTokens]; omega)
      · exact chains_of_drop h rfl (fun _ => rfl) (by simp_all [pullTokens])
    · exact chains_of_drop h rfl (fun hs => absurd hs ‹_›) (by simp_all [pullTokens])
  | operationAborted => exact chains_of_drop h rfl (fun _ => rfl) (by simp_all [pullTokens, cancel, List.countP_append, Task.isPull])
  | error v => exact chains_of_drop h rfl (fun hs => nomatch hs) (by simp_all [pullTokens])

/-- Every event keeps `Chains`. -/
theorem chains_step {s s' : Bufferer} {e : Event} (h : Chains s) (hs : s.step e = some s') : Chains s' := by
  rcases step_cases hs with ⟨c, rfl⟩ | ⟨ec, rfl⟩ | rfl | ⟨ec, rfl⟩ | ⟨ec, chunk, hr, -, -, rfl⟩ | rfl |
    ⟨t, ts, hp, rfl⟩
  · unfold asyncReadSome
    split <;> exact chains_of_tokens h rfl rfl id (by simp [pullTokens, Task.isPull])
  · exact chains_handshakeDone h ec
  · exact chains_of_tokens h rfl rfl id (by simp [pullTokens])
  · exact chains_of_tokens h rfl rfl id (by simp [pullTokens, Task.isPull])
  · exact chains_of_tokens h rfl rfl id (by simp [pullTokens, Task.isPull]; omega)
  · exact ⟨fun _ hq => (nomatch hq), fun ho => (nomatch ho)⟩
  · have ht := pullTokens_pop hp
    cases t with
    | asyncPullPackets => exact chains_asyncPullPackets h hp
    | handleDataNOps => exact chains_handleDataNOps (chains_of_tokens h rfl rfl id (by simp_all [Task.isPull]))
    | pullHandler ec chunk => exact chains_pullHandler h hp
    | handshakeHandler ec =>
      exact chains_handshakeDone (s := { s with posted := ts }) (chains_of_tokens h rfl rfl id (by simp_all [Task.isPull])) ec
    | _ => exact chains_of_tokens h rfl rfl id (by simp_all [Task.isPull, runTask, pullTokens])

end ChainsAux

open ChainsAux

/-- Every reachable state satisfies `Chains`. -/
theorem chains_of_reachable {s : Bufferer} (h : Reachable s) : Chains s :=
  h.inv ⟨fun _ hq => (nomatch hq), fun _ => by simp [init, pullTokens]⟩ fun _ _ _ _ hi he => chains_step hi he

/-- The socket after a successful handshake and the run of `async_pull_packets`: its first pull read is in flight. -/
def pullingAfterHandshake : Bufferer :=
  { init with pulling := true, reads := 1, issued := 1, started := true, handshaken := true }

/-- `pullingAfterHandshake` is reached by a handshake and one run of the io_service. -/
theorem reachable_pullingAfterHandshake : Reachable pullingAfterHandshake :=
  Reachable.init.run [.handshake .success, .run] rfl

end Bufferer

end SocketFunneling
