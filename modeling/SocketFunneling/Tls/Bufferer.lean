import Mathlib.Data.List.Basic

/-!
# The buffered TLS socket: state and operations

`TLSStreamBufferer` (ssf/layer/cryptography/tls/OpenSSL/impl.h) pulls the records of a TLS stream into `data_queue_` and
serves the user reads queued in `op_queue_` from it; `basic_buffered_tls_socket` owns one and starts it on a successful
handshake. `Bufferer` is the bufferer's state together with what it acts on: the io_service's queue of posted handlers,
run one at a time in the order they were posted, and the pull reads issued on the TLS stream that have not completed. A
`dispatch` from inside a handler runs at once, as it does on the io_service's thread, and so does the strand's.

The environment acts by `Event`s: the user calls the socket (a read, a handshake, `close`), the stream completes what was
issued on it, or the io_service runs its oldest handler (`Event.run`). A stream whose lowest layer is closed delivers no
more bytes: a pull read that completes after `close` completes with an error.

The fields of `Bufferer` from `issued` on are history, not state of the C++ objects: what the run has done so far, which
the statements of the later modules read.
-/

namespace SocketFunneling

/-- `boost::system::error_code` as the bufferer reads it: success (`!ec`), `operation_aborted`, or another error, by its
value. -/
inductive ErrorCode where
  | success
  | operationAborted
  | error (value : Nat)
  deriving DecidableEq, Repr

/-- `lower_queue_size_bound`: below it a paused bufferer pulls again. -/
def lowerQueueSizeBound : Nat := 1 * 1024 * 1024

/-- `higher_queue_size_bound`: from it on the bufferer stops pulling. -/
def higherQueueSizeBound : Nat := 16 * 1024 * 1024

/-- `receive_buffer_size`: the most bytes one pull read commits. -/
def receiveBufferSize : Nat := 50 * 1024

/-- A queued user read (`io::pending_read_stream_operation`): its place in the order of submission and the size of its
buffers, which is not zero (`async_read_some` queues only reads with a non-empty buffer). -/
structure PendingRead where
  id : Nat
  capacity : Nat
  capacity_pos : 0 < capacity
  deriving DecidableEq, Repr

/-- A handler posted to the io_service: `async_pull_packets` and `handle_data_n_ops` of the bufferer; the completion of a
queued read with a code and a count fixed when it was posted (`complete`), or with `status_` read when it runs (the error
branch of `handle_data_n_ops`); the user's handler of a read with an empty buffer; the strand-wrapped completion handler of
a pull read, with the read's result; and `do_user_handler` of `async_handshake`, with the handshake's result. -/
inductive Task where
  | asyncPullPackets
  | handleDataNOps
  | complete (op : PendingRead) (ec : ErrorCode) (length : Nat)
  | completeWithStatus (op : PendingRead)
  | emptyRead
  | pullHandler (ec : ErrorCode) (chunk : List UInt8)
  | handshakeHandler (ec : ErrorCode)
  deriving DecidableEq, Repr

/-- A call of a queued read's handler: the read, and the code and byte count it was called with. -/
structure Invocation where
  op : PendingRead
  ec : ErrorCode
  length : Nat
  deriving DecidableEq, Repr

/-- The bufferer (`status_`, `data_queue_`, `op_queue_`, `pulling_`), the io_service's queue, the TLS stream as the socket
sees it, and the history of the run. -/
structure Bufferer where
  status : ErrorCode
  dataQueue : List UInt8
  opQueue : List PendingRead
  pulling : Bool
  /-- The handlers posted to the io_service and not yet run, oldest first. -/
  posted : List Task
  /-- Pull reads issued on `socket_` that have not completed. -/
  reads : Nat
  /-- `is_open()`: the lowest layer of the stream has not been closed. -/
  isOpen : Bool
  /-- Handshakes started by `async_handshake` that have not completed. -/
  handshakes : Nat
  /-- Pull reads issued so far. -/
  issued : Nat
  /-- The chunks committed to `data_queue_`, in commit order. -/
  committed : List UInt8
  /-- The bytes `fill_buffer` copied into user buffers, in copy order. -/
  copied : List UInt8
  /-- Every queued read, in submission order. -/
  submitted : List PendingRead
  /-- The calls of queued reads' handlers so far, in call order. -/
  invoked : List Invocation
  /-- `start_pulling` has set `pulling_`. -/
  started : Bool
  /-- `cancel` has run. -/
  cancelled : Bool
  /-- A handshake has completed without error. -/
  handshaken : Bool
  deriving DecidableEq, Repr

namespace Bufferer

/-- A socket just built: nothing received, queued, posted or issued, and the stream open. -/
def init : Bufferer where
  status := .success
  dataQueue := []
  opQueue := []
  pulling := false
  posted := []
  reads := 0
  isOpen := true
  handshakes := 0
  issued := 0
  committed := []
  copied := []
  submitted := []
  invoked := []
  started := false
  cancelled := false
  handshaken := false

/-- `start_pulling`: set `pulling_` and post `async_pull_packets`, unless `pulling_` is already set. -/
def startPulling (s : Bufferer) : Bufferer :=
  if s.pulling then s else { s with pulling := true, posted := s.posted ++ [.asyncPullPackets], started := true }

/-- `async_read_some` of the bufferer: a read with a non-empty buffer is queued and `handle_data_n_ops` posted; the handler
of a read with an empty buffer is posted at once. -/
def asyncReadSome (capacity : Nat) (s : Bufferer) : Bufferer :=
  if h : 0 < capacity then
    let op : PendingRead := ⟨s.submitted.length, capacity, h⟩
    { s with opQueue := s.opQueue ++ [op], posted := s.posted ++ [.handleDataNOps], submitted := s.submitted ++ [op] }
  else { s with posted := s.posted ++ [.emptyRead] }

/-- `cancel`: clear `pulling_` and `data_queue_`, and post the completion of every queued read, oldest first, with
`operation_aborted`. -/
def cancel (s : Bufferer) : Bufferer :=
  { s with pulling := false, dataQueue := [], opQueue := [],
           posted := s.posted ++ s.opQueue.map (fun op => .complete op .operationAborted 0), cancelled := true }

/-- Modelled from the spec: `fill_buffer` of `io::pending_read_stream_operation`, whose source (ssf/io/read_stream_op.h)
is not in the repository, copies up to the size of the read's buffers from the front of `data_queue_` and consumes what
it copied. The bytes copied, and the queue left. -/
def fillBuffer (op : PendingRead) (data : List UInt8) : List UInt8 × List UInt8 :=
  (data.take op.capacity, data.drop op.capacity)

/-- The first block of `handle_data_n_ops` with `status_` clear: start pulling below `lower_queue_size_bound`. -/
def checkPulling (s : Bufferer) : Bufferer :=
  if s.dataQueue.length < lowerQueueSizeBound ∧ !s.pulling then s.startPulling else s

/-- The second block of `handle_data_n_ops` with `status_` clear: if a read is queued and bytes are, pop the read, fill
its buffer and post its completion with the count copied; and whether it popped. -/
def serveOldest (s : Bufferer) : Bufferer × Bool :=
  match s.opQueue with
  | op :: ops =>
    if s.dataQueue ≠ [] then
      let filled := fillBuffer op s.dataQueue
      ({ s with opQueue := ops, dataQueue := filled.2, posted := s.posted ++ [.complete op .success filled.1.length],
                copied := s.copied ++ filled.1 }, true)
    else (s, false)
  | [] => (s, false)

/-- `handle_data_n_ops` with an error in `status_`: pop the oldest read, if any, and post its completion with `status_`;
and whether it popped. -/
def failOldest (s : Bufferer) : Bufferer × Bool :=
  match s.opQueue with
  | op :: ops => ({ s with opQueue := ops, posted := s.posted ++ [.completeWithStatus op] }, true)
  | [] => (s, false)

/-- One run of the body of `handle_data_n_ops`, and whether it ends by dispatching `handle_data_n_ops` again, which it does
after popping a read. -/
def handleDataNOpsStep (s : Bufferer) : Bufferer × Bool :=
  if s.status = .success then (checkPulling s).serveOldest else s.failOldest

/-- `handle_data_n_ops` with at most `fuel` runs of its body. -/
def handleDataNOpsLoop : Nat → Bufferer → Bufferer
  | 0, s => s
  | fuel + 1, s => if (handleDataNOpsStep s).2 then handleDataNOpsLoop fuel (handleDataNOpsStep s).1
    else (handleDataNOpsStep s).1

/-- `handle_data_n_ops`. Its dispatch of itself runs at once and follows a pop of `op_queue_`, so it runs its body at most
`opQueue.length + 1` times. -/
def handleDataNOps (s : Bufferer) : Bufferer := handleDataNOpsLoop (s.opQueue.length + 1) s

/-- `async_pull_packets`: below `higher_queue_size_bound` issue a pull read on `socket_` (through the strand, at once);
from it on clear `pulling_`. `data_queue_.prepare` changes no byte of the queue. -/
def asyncPullPackets (s : Bufferer) : Bufferer :=
  if s.dataQueue.length < higherQueueSizeBound then { s with reads := s.reads + 1, issued := s.issued + 1 }
  else { s with pulling := false }

/-- The completion handler of a pull read: on success commit the chunk and, while `status_` is clear, pull again; on
`operation_aborted` cancel; on another error drop the queued bytes and save the error. Then `handle_data_n_ops`. -/
def pullHandler (ec : ErrorCode) (chunk : List UInt8) (s : Bufferer) : Bufferer :=
  handleDataNOps <| match ec with
    | .success =>
      let s := { s with dataQueue := s.dataQueue ++ chunk, committed := s.committed ++ chunk }
      if s.status = .success then s.asyncPullPackets else s
    | .operationAborted => s.cancel
    | .error v => { s with dataQueue := [], status := .error v }

/-- What the socket does when a handshake completes with `ec` (`handshake`, and `do_user_handler` of `async_handshake`):
start pulling on success. -/
def handshakeDone (ec : ErrorCode) (s : Bufferer) : Bufferer :=
  if ec = .success then { s with handshaken := true }.startPulling else s

/-- `close` of the socket: close the lowest layer of the stream, then `cancel` the bufferer. -/
def close (s : Bufferer) : Bufferer := { s with isOpen := false }.cancel

/-- Run one posted handler; the handler of a queued read records its call. -/
def runTask (s : Bufferer) : Task → Bufferer
  | .asyncPullPackets => s.asyncPullPackets
  | .handleDataNOps => s.handleDataNOps
  | .complete op ec n => { s with invoked := s.invoked ++ [⟨op, ec, n⟩] }
  | .completeWithStatus op => { s with invoked := s.invoked ++ [⟨op, s.status, 0⟩] }
  | .emptyRead => s
  | .pullHandler ec chunk => s.pullHandler ec chunk
  | .handshakeHandler ec => s.handshakeDone ec

end Bufferer

/-- What can happen to a socket: the user reads into a buffer of `capacity` bytes, handshakes (at once, with the result
`ec`, or by `async_handshake`) or closes it; the stream completes a handshake or a pull read; or the io_service runs its
oldest handler. -/
inductive Event where
  | asyncReadSome (capacity : Nat)
  | handshake (ec : ErrorCode)
  | asyncHandshake
  | handshakeComplete (ec : ErrorCode)
  | pullComplete (ec : ErrorCode) (chunk : List UInt8)
  | close
  | run
  deriving DecidableEq, Repr

namespace Bufferer

/-- One event, if it can happen: the stream completes only what was issued on it, a pull read at most
`receive_buffer_size` bytes, and once closed with an error; the io_service runs a handler only if one is posted. -/
def step (s : Bufferer) : Event → Option Bufferer
  | .asyncReadSome c => some (s.asyncReadSome c)
  | .handshake ec => some (s.handshakeDone ec)
  | .asyncHandshake => some { s with handshakes := s.handshakes + 1 }
  | .handshakeComplete ec =>
    if 0 < s.handshakes then some { s with handshakes := s.handshakes - 1, posted := s.posted ++ [.handshakeHandler ec] }
    else none
  | .pullComplete ec chunk =>
    if 0 < s.reads ∧ chunk.length ≤ receiveBufferSize ∧ (s.isOpen ∨ ec ≠ .success) then
      some { s with reads := s.reads - 1, posted := s.posted ++ [.pullHandler ec chunk] }
    else none
  | .close => some s.close
  | .run =>
    match s.posted with
    | t :: ts => some ({ s with posted := ts }.runTask t)
    | [] => none

/-- The state after a sequence of events, if each can happen. -/
def run (s : Bufferer) : List Event → Option Bufferer
  | [] => some s
  | e :: es => (s.step e).bind (fun s' => s'.run es)

end Bufferer

/-- The states a socket can reach from `Bufferer.init`. -/
inductive Reachable : Bufferer → Prop where
  | init : Reachable Bufferer.init
  | step {s s' : Bufferer} {e : Event} : Reachable s → s.step e = some s' → Reachable s'

/-- A sequence of events that can happen from a reachable state ends in a reachable state. -/
theorem Reachable.run {s s' : Bufferer} (es : List Event) (h : Reachable s) (hr : s.run es = some s') :
    Reachable s' := by
  induction es generalizing s with
  | nil => cases hr; exact h
  | cons e es ih =>
    simp only [Bufferer.run, Option.bind_eq_some] at hr
    obtain ⟨s₁, h₁, hr⟩ := hr
    exact ih (h.step h₁) hr

end SocketFunneling
