import Mathlib.Logic.Function.Basic

/-!
# The admin service's command table

`Admin` (services/admin/admin.h) sends commands on fiber 0 and keeps the handler of each in `command_handlers_`, a map from
the command's serial to its handler. `Command` takes a serial from `GetAvailableSerial`, registers the handler under it and
writes the command; when a reply is read, `ExecuteAndRemoveCommandHandler` posts the handler registered under the serial of
the command received and erases it.

`GetAvailableSerial` tries `serial + !!is_server_` for `serial` from 3 up to `uint32_t`'s maximum, one at a time, and
takes the first that has no handler, or returns 0 when all are taken. The handlers are `std::function`s; the model knows a
handler by its identity, the index of the `Command` call that registered it.
-/

namespace SocketFunneling

/-- A value of `command_handlers_`: the empty lambda `GetAvailableSerial` reserves a serial with, or the handler of the
`Command` call of that index. -/
inductive CommandHandler where
  | reserved
  | handler (id : Nat)
  deriving DecidableEq, Repr

/-- `std::numeric_limits<uint32_t>::max()`, `2 ^ 32 - 1`. -/
def uint32Max : Nat := 4294967295

/-- An admin command, whose class (services/admin/admin_command.h) is not in the repository: the tuple
`(serial, command_id, payload_len, payload_bytes)` that `Command` builds from the serial, the request's id, the size of
its parameters cast to `uint32_t`, and the parameters. -/
structure AdminCommand where
  serial : Nat
  commandId : Nat
  size : Nat
  parameters : List UInt8
  deriving DecidableEq, Repr

/-- The part of an `Admin` its command table is made of: `is_server_`, `command_serial_received_`, `command_handlers_`,
the handlers posted to the io_service and the commands written to the fiber, oldest first. -/
structure Admin where
  isServer : Bool
  commandSerialReceived : Nat
  commandHandlers : Nat → Option CommandHandler
  posted : List CommandHandler
  sent : List AdminCommand

namespace Admin

/-- An admin service just built: no handler registered, nothing posted or sent. -/
def init (isServer : Bool) : Admin :=
  ⟨isServer, 0, fun _ => none, [], []⟩

/-- `InsertHandler`. -/
def insertHandler (serial : Nat) (handler : CommandHandler) (a : Admin) : Admin :=
  { a with commandHandlers := Function.update a.commandHandlers serial (some handler) }

/-- `EraseHandler`. -/
def eraseHandler (serial : Nat) (a : Admin) : Admin :=
  { a with commandHandlers := Function.update a.commandHandlers serial none }

/-- `ExecuteAndRemoveCommandHandler(serial)`: if a handler is registered under `command_serial_received_`, post it and
erase it. The argument is not read. -/
def executeAndRemoveCommandHandler (_serial : Nat) (a : Admin) : Admin :=
  match a.commandHandlers a.commandSerialReceived with
  | some handler => { a with posted := a.posted ++ [handler] }.eraseHandler a.commandSerialReceived
  | none => a

/-- `ExecuteAndRemoveCommandHandler` posts what is registered under `command_serial_received_` and erases that serial. -/
theorem executeAndRemoveCommandHandler_eq (a : Admin) (serial : Nat) :
    a.executeAndRemoveCommandHandler serial =
      { a with
        posted := a.posted ++ (a.commandHandlers a.commandSerialReceived).toList
        commandHandlers := Function.update a.commandHandlers a.commandSerialReceived none } := by
  unfold executeAndRemoveCommandHandler eraseHandler
  split
  · simp [*]
  · rename_i h
    rw [← h, Function.update_eq_self, h, Option.toList_none, List.append_nil]

/-- `!!is_server_`. -/
def offset (a : Admin) : Nat := if a.isServer then 1 else 0

/-- The loop of `GetAvailableSerial` from `serial` on, with `fuel` candidates left: the first `serial + offset` with no
handler. -/
def availableSerialFrom (offset : Nat) (handlers : Nat → Option CommandHandler) : Nat → Nat → Option Nat
  | _, 0 => none
  | serial, fuel + 1 =>
    if handlers (serial + offset) = none then some (serial + offset)
    else availableSerialFrom offset handlers (serial + 1) fuel

/-- `GetAvailableSerial`: the first free `serial + !!is_server_` for `serial` from 3 below `uint32Max`, reserved with an
empty handler; 0, and nothing reserved, if every one is taken. -/
def getAvailableSerial (a : Admin) : Nat × Admin :=
  match availableSerialFrom a.offset a.commandHandlers 3 (uint32Max - 3) with
  | some serial => (serial, a.insertHandler serial .reserved)
  | none => (0, a)

/-- `Command(request, handler)`: take a serial, register the handler under it, and write the command. -/
def command (commandId : Nat) (parameters : List UInt8) (a : Admin) : Admin :=
  let serial := a.getAvailableSerial.1
  let a' := a.getAvailableSerial.2.insertHandler serial (.handler a.sent.length)
  { a' with sent := a'.sent ++ [⟨serial, commandId, parameters.length % (uint32Max + 1), parameters⟩] }

/-- `GetAvailableSerial` returns the table unchanged or with the serial it returns reserved. -/
theorem getAvailableSerial_snd (a : Admin) :
    a.getAvailableSerial.2 = a ∨ a.getAvailableSerial.2 = a.insertHandler a.getAvailableSerial.1 .reserved := by
  unfold getAvailableSerial
  split
  · exact .inr rfl
  · exact .inl rfl

/-- `Command` leaves everything but the table and the commands written as it was. -/
theorem command_eq (a : Admin) (commandId : Nat) (parameters : List UInt8) :
    a.command commandId parameters =
      { a with
        commandHandlers := Function.update a.commandHandlers a.getAvailableSerial.1 (some (.handler a.sent.length))
        sent := a.sent ++ [⟨a.getAvailableSerial.1, commandId, parameters.length % (uint32Max + 1), parameters⟩] } := by
  rcases getAvailableSerial_snd a with h | h <;>
    simp only [command, insertHandler, h, Function.update_idem]

@[simp] theorem command_isServer (a : Admin) (i : Nat) (p : List UInt8) : (a.command i p).isServer = a.isServer := by
  rw [command_eq]

@[simp] theorem command_offset (a : Admin) (i : Nat) (p : List UInt8) : (a.command i p).offset = a.offset := by
  simp [offset]

@[simp] theorem command_commandSerialReceived (a : Admin) (i : Nat) (p : List UInt8) :
    (a.command i p).commandSerialReceived = a.commandSerialReceived := by
  rw [command_eq]

@[simp] theorem command_posted (a : Admin) (i : Nat) (p : List UInt8) : (a.command i p).posted = a.posted := by
  rw [command_eq]

@[simp] theorem command_sent_length (a : Admin) (i : Nat) (p : List UInt8) :
    (a.command i p).sent.length = a.sent.length + 1 := by
  simp [command_eq]

@[simp] theorem command_commandHandlers (a : Admin) (i : Nat) (p : List UInt8) :
    (a.command i p).commandHandlers =
      Function.update a.commandHandlers a.getAvailableSerial.1 (some (.handler a.sent.length)) := by
  rw [command_eq]

end Admin

/-- What can happen to an admin service's table: a `Command` call, a reply handled by `ExecuteAndRemoveCommandHandler`
(with any argument), a handler erased, or the header of a received command read, which sets
`command_serial_received_` (admin.ipp, not in the repository). -/
inductive AdminEvent where
  | command (commandId : Nat) (parameters : List UInt8)
  | executeAndRemove (serial : Nat)
  | erase (serial : Nat)
  | receive (serial : Nat)
  deriving DecidableEq, Repr

namespace Admin

/-- One event. -/
def step (a : Admin) : AdminEvent → Admin
  | .command id parameters => a.command id parameters
  | .executeAndRemove serial => a.executeAndRemoveCommandHandler serial
  | .erase serial => a.eraseHandler serial
  | .receive serial => { a with commandSerialReceived := serial }

/-- The state after a sequence of events. -/
def run (a : Admin) (es : List AdminEvent) : Admin := es.foldl step a

end Admin

/-- The tables an admin service of either role can reach. -/
inductive AdminReachable : Admin → Prop where
  | init (isServer : Bool) : AdminReachable (Admin.init isServer)
  | step {a : Admin} (e : AdminEvent) : AdminReachable a → AdminReachable (a.step e)

/-- A client and a server, each driven by its own events, in any interleaving. -/
inductive PairReachable : Admin → Admin → Prop where
  | init : PairReachable (Admin.init false) (Admin.init true)
  | client {c s : Admin} (e : AdminEvent) : PairReachable c s → PairReachable (c.step e) s
  | server {c s : Admin} (e : AdminEvent) : PairReachable c s → PairReachable c (s.step e)

end SocketFunneling
