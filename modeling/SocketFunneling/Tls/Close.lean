import SocketFunneling.Tls.Chains

/-!
# `close` against a posted completion

While the stream is open one pull read at most is outstanding (`outstandingPulls_le_one`), and a failed pull read ends
pulling for good (`Tls/Failure.lean`).

`close` breaks both. It calls `cancel`, which clears `pulling_` whatever the pull chain is doing. If the completion handler
of a pull read is posted at that moment, it still runs: on success it commits its chunk and calls `async_pull_packets`,
which checks `status_` and not `pulling_`, and meanwhile a user read posted before `close` has found `pulling_` clear and
started a second chain. Two pull reads are then outstanding at once (`closeRace`), and once the io_service has run the
handlers posted at `close`, both are in flight on the stream (`closeRaceInFlight`). If the posted completion carries an
error instead, `status_` takes it, and the second chain issues a read after it, whose own error replaces it
(`errorRace`).
-/

namespace SocketFunneling

namespace Bufferer

namespace CloseAux

/-- A completion handler of a pull read is a link of a chain. -/
theorem countP_isPullHandler_le (l : List Task) : l.countP Task.isPullHandler ≤ l.countP Task.isPull :=
  List.countP_mono_left fun t _ h => by cases t <;> simp_all [Task.isPull, Task.isPullHandler]

end CloseAux

open CloseAux

/-- While the stream is open, at most one pull read is outstanding. -/
theorem outstandingPulls_le_one {s : Bufferer} (h : Reachable s) (ho : s.isOpen = true) : s.outstandingPulls ≤ 1 :=
  Nat.le_trans (Nat.add_le_add_left (countP_isPullHandler_le s.posted) _) ((chains_of_reachable h).one ho).1

/-- `outstandingPulls_le_one` at the socket pulling after its handshake. -/
theorem outstandingPulls_le_one_after_handshake :
    Reachable pullingAfterHandshake ∧ pullingAfterHandshake.isOpen = true ∧ pullingAfterHandshake.outstandingPulls ≤ 1 :=
  ⟨reachable_pullingAfterHandshake, rfl, outstandingPulls_le_one reachable_pullingAfterHandshake rfl⟩

/-- A read is queued while a pull read is in flight; the pull read brings a byte; the socket is closed before its
completion runs. `handle_data_n_ops` then starts a chain, the completion pulls again, the read it issues fails on the
closed stream, and before that failure is handled the new chain issues its own read. -/
def closeRace : List Event :=
  [.handshake .success, .run, .asyncReadSome 10, .pullComplete .success [7], .close, .run, .run,
    .pullComplete (.error 9) [], .run, .run]

/-- The socket after `closeRace`. -/
def afterCloseRace : Bufferer := (init.run closeRace).getD init

/-- The race of `closeRace` up to the runs of the handlers posted at `close`: `handle_data_n_ops`, the completion of the
pull read, the aborted user read, and the new chain's `async_pull_packets`. -/
def closeRaceInFlight : List Event :=
  [.handshake .success, .run, .asyncReadSome 10, .pullComplete .success [7], .close, .run, .run, .run, .run]

/-- The socket after `closeRaceInFlight`. -/
def afterCloseRaceInFlight : Bufferer := (init.run closeRaceInFlight).getD init

/-- After `closeRace` two pull reads are outstanding: one in flight, and one whose completion is posted; and after
`closeRaceInFlight` two pull reads are in flight on the stream at once. -/
theorem two_pulls_after_close :
    Reachable afterCloseRace ∧ afterCloseRace.outstandingPulls = 2 ∧
      Reachable afterCloseRaceInFlight ∧ afterCloseRaceInFlight.reads = 2 :=
  ⟨Reachable.init.run closeRace rfl, rfl, Reachable.init.run closeRaceInFlight rfl, rfl⟩

/-- A read is queued while a pull read is in flight; the pull read fails with a reset; the socket is closed before its
completion runs. `handle_data_n_ops` starts a chain, and the completion then sets `status_`. -/
def errorRace : List Event :=
  [.handshake .success, .run, .asyncReadSome 10, .pullComplete (.error 104) [], .close, .run, .run]

/-- The socket after `errorRace`: `status_` holds the reset. -/
def afterErrorRace : Bufferer := (init.run errorRace).getD init

/-- After the failure, with no `close`: the aborted read's handler runs, the new chain issues a read, which fails on the
closed stream, and a read queued afterwards is completed. -/
def afterFailure : List Event :=
  [.run, .run, .pullComplete (.error 9) [], .run, .asyncReadSome 5, .run, .run]

/-- With `status_` set by the failed read and no `cancel` after it, a pull read is still issued, `status_` changes, and
the read queued later completes with the new error. -/
theorem pull_after_failure :
    Reachable afterErrorRace ∧ afterErrorRace.status = .error 104 ∧
      ∃ s', afterErrorRace.run afterFailure = some s' ∧ s'.issued = afterErrorRace.issued + 1 ∧
        s'.status = .error 9 ∧ (s'.invoked.getLast?.map fun i => (i.ec, i.length)) = some (.error 9, 0) :=
  ⟨Reachable.init.run errorRace rfl, rfl, _, rfl, rfl, rfl, rfl⟩

end Bufferer

end SocketFunneling
