import SocketFunneling.Admin.Serials

/-!
# Reply handlers

`ExecuteAndRemoveCommandHandler` posts the handler registered under `command_serial_received_` and erases that serial,
whatever serial it is called with: the handler it runs is that of the command last received, and the serial it is given
keeps its handler (`executes_received_not_argument`). What it does is `executeAndRemove_received`, and over every run the
table keeps `Registered`: a handler sits under one serial at most, and none is posted twice.
-/

namespace SocketFunneling

namespace Admin

/-- What every reachable table keeps: no serial is left with the empty handler `GetAvailableSerial` reserves it with,
each handler is that of a `Command` call already made and sits under one serial, no handler still registered has been
posted, and no handler has been posted twice. -/
structure Registered (a : Admin) : Prop where
  noReserved : ∀ k, a.commandHandlers k ≠ some .reserved
  issued : ∀ k i, a.commandHandlers k = some (.handler i) → i < a.sent.length
  unique : ∀ k k' i, a.commandHandlers k = some (.handler i) → a.commandHandlers k' = some (.handler i) → k = k'
  postedIssued : ∀ i, .handler i ∈ a.posted → i < a.sent.length
  notPosted : ∀ k h, a.commandHandlers k = some h → h ∉ a.posted
  nodup : a.posted.Nodup

namespace HandlersAux

/-- The table of a service just built keeps `Registered`. -/
theorem registered_init (isServer : Bool) : Registered (init isServer) :=
  ⟨fun _ => nofun, fun _ _ => nofun, fun _ _ _ => nofun, fun _ => nofun, fun _ _ => nofun, .nil⟩

/-- `Command` registers a handler no table or post has seen. -/
theorem registered_command {a : Admin} (h : Registered a) (i : Nat) (p : List UInt8) : Registered (a.command i p) := by
  have fresh : ∀ k, a.commandHandlers k ≠ some (.handler a.sent.length) := fun k hk =>
    Nat.lt_irrefl _ (h.issued k _ hk)
  have upd : ∀ k g, (a.command i p).commandHandlers k = some g ↔
      k = a.getAvailableSerial.1 ∧ g = .handler a.sent.length ∨ k ≠ a.getAvailableSerial.1 ∧ a.commandHandlers k = some g :=
    fun k g => by
      rw [command_commandHandlers, Function.update_apply]
      split_ifs with hk <;> simp [hk, eq_comm]
  refine ⟨fun k hk => ?_, fun k j hk => ?_, fun k k' j hk hk' => ?_, fun j hj => ?_, fun k g hk => ?_, ?_⟩
  · rcases (upd k _).1 hk with ⟨-, hg⟩ | ⟨-, hk⟩
    · cases hg
    · exact h.noReserved k hk
  · rcases (upd k _).1 hk with ⟨-, hg⟩ | ⟨-, hk⟩
    · cases hg; simp
    · simpa using Nat.lt_succ_of_lt (h.issued k j hk)
  · rcases (upd k _).1 hk with ⟨rfl, hg⟩ | ⟨hs, hk⟩ <;> rcases (upd k' _).1 hk' with ⟨rfl, hg'⟩ | ⟨hs', hk'⟩
    · rfl
    · cases hg; exact absurd hk' (fresh k')
    · cases hg'; exact absurd hk (fresh k)
    · exact h.unique k k' j hk hk'
  · simpa using Nat.lt_succ_of_lt (h.postedIssued j (by simpa using hj))
  · rw [command_posted]
    rcases (upd k _).1 hk with ⟨-, rfl⟩ | ⟨-, hk⟩
    · exact fun hp => Nat.lt_irrefl _ (h.postedIssued _ hp)
    · exact h.notPosted k g hk
  · simpa using h.nodup

/-- What a table with one serial erased holds, the table held. -/
theorem eq_some_of_update_none {t : Nat → Option CommandHandler} {r k : Nat} {g : CommandHandler}
    (hk : Function.update t r none k = some g) : k ≠ r ∧ t k = some g := by
  rw [Function.update_apply] at hk
  split_ifs at hk with e
  exact ⟨e, hk⟩

/-- `ExecuteAndRemoveCommandHandler` moves the handler of the received serial from the table to the posts. -/
theorem registered_executeAndRemove {a : Admin} (h : Registered a) (serial : Nat) :
    Registered (a.executeAndRemoveCommandHandler serial) := by
  rw [executeAndRemoveCommandHandler_eq]
  cases hr : a.commandHandlers a.commandSerialReceived with
  | none =>
    have : Function.update a.commandHandlers a.commandSerialReceived none = a.commandHandlers := by
      rw [← hr, Function.update_eq_self]
    simp only [Option.toList_none, List.append_nil, this]
    exact h
  | some g =>
    obtain ⟨j, rfl⟩ : ∃ j, g = .handler j := by
      cases g with
      | reserved => exact absurd hr (h.noReserved _)
      | handler j => exact ⟨j, rfl⟩
    have other : ∀ k g', k ≠ a.commandSerialReceived → a.commandHandlers k = some g' → g' ≠ .handler j :=
      fun k g' hk hg' e => hk (h.unique k _ j (e ▸ hg') hr)
    refine ⟨fun k hk => h.noReserved k (eq_some_of_update_none hk).2,
      fun k i hk => h.issued k i (eq_some_of_update_none hk).2,
      fun k k' i hk hk' => h.unique k k' i (eq_some_of_update_none hk).2 (eq_some_of_update_none hk').2,
      fun i hi => ?_, fun k g' hk => ?_, ?_⟩
    · simp only [Option.toList_some, List.mem_append, List.mem_singleton, CommandHandler.handler.injEq] at hi
      rcases hi with hi | rfl
      · exact h.postedIssued i hi
      · exact h.issued _ _ hr
    · obtain ⟨hk, hk'⟩ := eq_some_of_update_none hk
      simpa [h.notPosted k g' hk'] using other k g' hk hk'
    · refine List.pairwise_append.2 ⟨h.nodup, List.pairwise_singleton _ _, fun x hx y hy => ?_⟩
      rw [Option.toList_some, List.mem_singleton] at hy
      exact fun e => h.notPosted _ _ hr (hy ▸ e ▸ hx)

/-- `EraseHandler` only removes. -/
theorem registered_erase {a : Admin} (h : Registered a) (serial : Nat) : Registered (a.eraseHandler serial) :=
  ⟨fun k hk => h.noReserved k (eq_some_of_update_none hk).2, fun k i hk => h.issued k i (eq_some_of_update_none hk).2,
    fun k k' i hk hk' => h.unique k k' i (eq_some_of_update_none hk).2 (eq_some_of_update_none hk').2, h.postedIssued,
    fun k g hk => h.notPosted k g (eq_some_of_update_none hk).2, h.nodup⟩

/-- Every event keeps `Registered`. -/
theorem registered_step {a : Admin} (h : Registered a) : ∀ e, Registered (a.step e)
  | .command i p => registered_command h i p
  | .executeAndRemove serial => registered_executeAndRemove h serial
  | .erase serial => registered_erase h serial
  | .receive _ => ⟨h.noReserved, h.issued, h.unique, h.postedIssued, h.notPosted, h.nodup⟩

/-- A handler sits under one serial at most. -/
theorem serial_eq_of_registered {a : Admin} (h : Registered a) {k k' : Nat} {g : CommandHandler}
    (hk : a.commandHandlers k = some g) (hk' : a.commandHandlers k' = some g) : k = k' := by
  cases g with
  | reserved => exact absurd hk (h.noReserved k)
  | handler i => exact h.unique k k' i hk hk'

end HandlersAux

open HandlersAux

/-- Every reachable table keeps `Registered`. -/
theorem registered_of_reachable {a : Admin} (h : AdminReachable a) : Registered a := by
  induction h with
  | init isServer => exact registered_init isServer
  | step e _ ih => exact registered_step ih e

/-- In every reachable table no serial is left with the empty handler `GetAvailableSerial` reserves it with, the handler
of each `Command` call sits under one serial at most, and no handler still registered has already been posted. -/
theorem handlers_registered_once {a : Admin} (h : AdminReachable a) :
    (∀ k, a.commandHandlers k ≠ some .reserved) ∧
      (∀ k k' i, a.commandHandlers k = some (.handler i) → a.commandHandlers k' = some (.handler i) → k = k') ∧
      ∀ k g, a.commandHandlers k = some g → g ∉ a.posted :=
  have hr := registered_of_reachable h
  ⟨hr.noReserved, hr.unique, hr.notPosted⟩

/-- `ExecuteAndRemoveCommandHandler(serial)`, whatever `serial`, posts the handler registered under
`command_serial_received_`, if there is one, and erases that serial and no other; over a run, no handler is posted
twice; and the handler registered under a serial `k` is posted exactly when `k` is `command_serial_received_`. -/
theorem executeAndRemove_received {a : Admin} (h : AdminReachable a) (serial : Nat) :
    (a.executeAndRemoveCommandHandler serial).posted = a.posted ++ (a.commandHandlers a.commandSerialReceived).toList ∧
      (a.executeAndRemoveCommandHandler serial).commandHandlers =
        Function.update a.commandHandlers a.commandSerialReceived none ∧
      (a.executeAndRemoveCommandHandler serial).posted.Nodup ∧
      ∀ k g, a.commandHandlers k = some g →
        (g ∈ (a.executeAndRemoveCommandHandler serial).posted ↔ k = a.commandSerialReceived) := by
  have hr := registered_of_reachable h
  rw [executeAndRemoveCommandHandler_eq]
  refine ⟨rfl, rfl, by simpa [step, executeAndRemoveCommandHandler_eq] using
    (registered_of_reachable (.step (.executeAndRemove serial) h)).nodup, fun k g hk => ?_⟩
  simp only [List.mem_append, Option.mem_toList, Option.mem_def]
  exact ⟨fun hm => hm.elim (absurd · (hr.notPosted k g hk)) (serial_eq_of_registered hr hk), fun e => .inr (e ▸ hk)⟩

/-! ## The argument is not read -/

/-- A client that has sent two commands, serials 3 and 4, and read the header of the reply to the second. -/
def replyToSecond : Admin := (afterCommands 2).step (.receive 4)

namespace HandlersAux

/-- `replyToSecond` is reached by two commands and the header of a reply. -/
theorem replyToSecond_reachable : AdminReachable replyToSecond :=
  .step (.receive 4) (SerialsAux.afterCommands_reachable 2)

end HandlersAux

open HandlersAux

/-- The rule at a client that has sent two commands and received the reply to the second. -/
theorem executeAndRemove_received_replyToSecond :
    AdminReachable replyToSecond ∧
      (replyToSecond.executeAndRemoveCommandHandler 4).posted =
        replyToSecond.posted ++ (replyToSecond.commandHandlers replyToSecond.commandSerialReceived).toList ∧
      (replyToSecond.executeAndRemoveCommandHandler 4).commandHandlers =
        Function.update replyToSecond.commandHandlers replyToSecond.commandSerialReceived none ∧
      (replyToSecond.executeAndRemoveCommandHandler 4).posted.Nodup ∧
      ∀ k g, replyToSecond.commandHandlers k = some g →
        (g ∈ (replyToSecond.executeAndRemoveCommandHandler 4).posted ↔ k = replyToSecond.commandSerialReceived) :=
  ⟨replyToSecond_reachable, executeAndRemove_received replyToSecond_reachable 4⟩

/-- `handlers_registered_once` at a client that has sent two commands and received the reply to the second. -/
theorem handlers_registered_once_replyToSecond :
    AdminReachable replyToSecond ∧ (∀ k, replyToSecond.commandHandlers k ≠ some .reserved) ∧
      (∀ k k' i, replyToSecond.commandHandlers k = some (.handler i) →
        replyToSecond.commandHandlers k' = some (.handler i) → k = k') ∧
      ∀ k g, replyToSecond.commandHandlers k = some g → g ∉ replyToSecond.posted :=
  ⟨replyToSecond_reachable, handlers_registered_once replyToSecond_reachable⟩

/-- `ExecuteAndRemoveCommandHandler(3)` with the reply to serial 4 received runs and erases the handler of serial 4, and
serial 3 keeps its own. -/
theorem executes_received_not_argument :
    AdminReachable replyToSecond ∧ replyToSecond.commandHandlers 3 = some (.handler 0) ∧
      (replyToSecond.executeAndRemoveCommandHandler 3).posted = [.handler 1] ∧
      (replyToSecond.executeAndRemoveCommandHandler 3).commandHandlers 3 = some (.handler 0) ∧
      (replyToSecond.executeAndRemoveCommandHandler 3).commandHandlers 4 = none :=
  ⟨replyToSecond_reachable, by decide, by decide, by decide, by decide⟩

/-! ## Each handler under its command's serial -/

end Admin

end SocketFunneling
