import SocketFunneling.Admin.Commands

/-!
# Serials

`GetAvailableSerial` hands out a serial that has no handler, as long as one of its candidates is free
(`getAvailableSerial_fresh`); when every candidate is taken it returns 0 and reserves nothing, and `Command` registers its
handler under 0 whatever 0 holds: the second command past exhaustion overwrites the first one's handler
(`serial_reused_at_exhaustion`).

The candidates are `serial + !!is_server_` for consecutive `serial`, so the client tries 3, 4, 5, ... and the server
4, 5, 6, ...: the two sides' serials are not kept apart (`client_server_share_serial`). Every serial written fits in a
`uint32_t` (`sent_fits_uint32`).
-/

namespace SocketFunneling

namespace Admin

namespace SerialsAux

/-- What the search of `GetAvailableSerial` finds: a free candidate at or after `serial`, within the candidates left. -/
theorem availableSerialFrom_some {off serial fuel r : Nat} {t : Nat → Option CommandHandler}
    (h : availableSerialFrom off t serial fuel = some r) :
    ∃ j, serial ≤ j ∧ j < serial + fuel ∧ r = j + off ∧ t r = none := by
  induction fuel generalizing serial with
  | zero => simp [availableSerialFrom] at h
  | succ n ih =>
    simp only [availableSerialFrom] at h
    split at h
    · cases h
      exact ⟨serial, Nat.le_refl _, by omega, rfl, ‹_›⟩
    · obtain ⟨j, h1, h2, rfl, h4⟩ := ih h
      exact ⟨j, by omega, by omega, rfl, h4⟩

/-- The search finds nothing exactly when every candidate left is taken. -/
theorem availableSerialFrom_eq_none {off serial fuel : Nat} {t : Nat → Option CommandHandler} :
    availableSerialFrom off t serial fuel = none ↔ ∀ j, serial ≤ j → j < serial + fuel → t (j + off) ≠ none := by
  induction fuel generalizing serial with
  | zero => simp only [availableSerialFrom, true_iff]; omega
  | succ n ih =>
    simp only [availableSerialFrom]
    split
    · rename_i hfree
      simp only [reduceCtorEq, false_iff]
      exact fun h => h serial (Nat.le_refl _) (by omega) hfree
    · rename_i htaken
      rw [ih]
      constructor
      · intro h j h1 h2
        rcases Nat.eq_or_lt_of_le h1 with rfl | h1
        · exact htaken
        · exact h j h1 (by omega)
      · exact fun h j h1 h2 => h j (by omega) (by omega)

/-- The search stops at the first free candidate. -/
theorem availableSerialFrom_first {off serial fuel m : Nat} {t : Nat → Option CommandHandler} (hm : m < fuel)
    (htaken : ∀ j, serial ≤ j → j < serial + m → t (j + off) ≠ none) (hfree : t (serial + m + off) = none) :
    availableSerialFrom off t serial fuel = some (serial + m + off) := by
  obtain ⟨n, rfl⟩ : ∃ n, fuel = n + 1 := ⟨fuel - 1, by omega⟩
  induction m generalizing serial n with
  | zero => simp_all [availableSerialFrom]
  | succ m ih =>
    have e : serial + 1 + m = serial + (m + 1) := by omega
    obtain ⟨n, rfl⟩ : ∃ k, n = k + 1 := ⟨n - 1, by omega⟩
    rw [availableSerialFrom, if_neg (htaken serial (Nat.le_refl _) (by omega)),
      ih (fun j h1 h2 => htaken j (by omega) (by omega)) (by rwa [e]) n (by omega), e]

/-- `GetAvailableSerial` returns what its search finds. -/
theorem getAvailableSerial_of_some {a : Admin} {r : Nat}
    (h : availableSerialFrom a.offset a.commandHandlers 3 (uint32Max - 3) = some r) : a.getAvailableSerial.1 = r := by
  simp [getAvailableSerial, h]

/-- `GetAvailableSerial` returns 0 once every candidate is taken. -/
theorem getAvailableSerial_of_taken {a : Admin}
    (h : ∀ j, 3 ≤ j → j < uint32Max → a.commandHandlers (j + a.offset) ≠ none) : a.getAvailableSerial.1 = 0 := by
  have : availableSerialFrom a.offset a.commandHandlers 3 (uint32Max - 3) = none :=
    availableSerialFrom_eq_none.2 fun j h1 h2 => h j h1 (by unfold uint32Max at *; omega)
  simp [getAvailableSerial, this]

/-- `Command` erases no handler. -/
theorem command_keeps {a : Admin} {k : Nat} (i : Nat) (p : List UInt8) (h : a.commandHandlers k ≠ none) :
    (a.command i p).commandHandlers k ≠ none := by
  rw [command_commandHandlers, Function.update_apply]
  split_ifs <;> simp [h]

end SerialsAux

open SerialsAux

/-- `GetAvailableSerial` returns a serial that no handler holds, from `3 + !!is_server_` up to `uint32Max`, and reserves
it; or, when every candidate is taken, 0, reserving nothing. -/
theorem getAvailableSerial_fresh (a : Admin) :
    (3 + a.offset ≤ a.getAvailableSerial.1 ∧ a.getAvailableSerial.1 ≤ uint32Max ∧
        a.commandHandlers a.getAvailableSerial.1 = none ∧
        a.getAvailableSerial.2 = a.insertHandler a.getAvailableSerial.1 .reserved) ∨
      (a.getAvailableSerial = (0, a) ∧
        ∀ serial, 3 ≤ serial → serial < uint32Max → a.commandHandlers (serial + a.offset) ≠ none) := by
  unfold getAvailableSerial
  split
  · rename_i r hr
    obtain ⟨j, h1, h2, rfl, h4⟩ := availableSerialFrom_some hr
    have : a.offset ≤ 1 := by unfold offset; split <;> omega
    refine .inl ⟨by omega, ?_, h4, rfl⟩
    unfold uint32Max at *
    omega
  · rename_i hr
    refine .inr ⟨rfl, fun serial h1 h2 => availableSerialFrom_eq_none.1 hr serial h1 ?_⟩
    unfold uint32Max at *
    omega

/-! ## Exhaustion -/

/-- A client after `n` `Command` calls and nothing else. -/
def afterCommands : Nat → Admin
  | 0 => init false
  | n + 1 => (afterCommands n).command 0 []

namespace SerialsAux

/-- `n` commands from a client just built are a run of the service. -/
theorem afterCommands_reachable (n : Nat) : AdminReachable (afterCommands n) := by
  induction n with
  | zero => exact .init false
  | succ n ih => exact .step (.command 0 []) ih

@[simp] theorem afterCommands_offset (n : Nat) : (afterCommands n).offset = 0 := by
  induction n with
  | zero => rfl
  | succ n ih => simpa [afterCommands] using ih

@[simp] theorem afterCommands_sent_length (n : Nat) : (afterCommands n).sent.length = n := by
  induction n with
  | zero => rfl
  | succ n ih => simp [afterCommands, ih]

/-- While candidates are left, the `i`-th command's handler sits under serial `3 + i`, and nothing else is registered. -/
theorem afterCommands_commandHandlers {n : Nat} (hn : n ≤ uint32Max - 3) (k : Nat) :
    (afterCommands n).commandHandlers k = if 3 ≤ k ∧ k < 3 + n then some (.handler (k - 3)) else none := by
  induction n generalizing k with
  | zero => rw [if_neg (by omega)]; rfl
  | succ n ih =>
    have ih := ih (by omega)
    have hs : (afterCommands n).getAvailableSerial.1 = 3 + n := by
      have h := @availableSerialFrom_first 0 3 (uint32Max - 3) n (afterCommands n).commandHandlers (by omega)
        (fun j h1 h2 => by simp [ih, h1, h2]) (by simp [ih])
      exact getAvailableSerial_of_some (by rwa [afterCommands_offset])
    simp only [afterCommands, command_commandHandlers, hs, afterCommands_sent_length, Function.update_apply, ih]
    split_ifs <;> first | rfl | omega | (congr; omega)

/-- From the `uint32Max - 3`-th command on, every candidate is taken. -/
theorem afterCommands_taken (d : Nat) :
    ∀ j, 3 ≤ j → j < uint32Max →
      (afterCommands (uint32Max - 3 + d)).commandHandlers (j + (afterCommands (uint32Max - 3 + d)).offset) ≠ none := by
  induction d with
  | zero =>
    intro j h1 h2
    rw [afterCommands_offset, Nat.add_zero, afterCommands_commandHandlers (Nat.le_refl _), if_pos (by omega)]
    simp
  | succ d ih =>
    intro j h1 h2
    simpa [afterCommands] using command_keeps 0 [] (ih j h1 h2)

/-- Past the last candidate, the `n`-th command registers its handler under 0. -/
theorem afterCommands_zero {n : Nat} (hn : uint32Max - 3 ≤ n) :
    (afterCommands (n + 1)).commandHandlers 0 = some (.handler n) := by
  obtain ⟨d, rfl⟩ := Nat.exists_eq_add_of_le hn
  rw [afterCommands, command_commandHandlers, getAvailableSerial_of_taken (afterCommands_taken d),
    afterCommands_sent_length, Function.update_same]

end SerialsAux

open SerialsAux

/-- Once the `uint32Max - 3` candidates are taken, `GetAvailableSerial` returns 0, a serial a handler is registered
under, and the next `Command` replaces that handler. -/
theorem serial_reused_at_exhaustion :
    AdminReachable (afterCommands (uint32Max - 2)) ∧
      (afterCommands (uint32Max - 2)).commandHandlers 0 = some (.handler (uint32Max - 3)) ∧
      (afterCommands (uint32Max - 2)).getAvailableSerial.1 = 0 ∧
      (afterCommands (uint32Max - 1)).commandHandlers 0 = some (.handler (uint32Max - 2)) := by
  have e2 : uint32Max - 2 = uint32Max - 3 + 1 := by unfold uint32Max; omega
  have e1 : uint32Max - 1 = uint32Max - 2 + 1 := by unfold uint32Max; omega
  refine ⟨afterCommands_reachable _, ?_, ?_, ?_⟩
  · rw [e2]; exact afterCommands_zero (Nat.le_refl _)
  · rw [e2]; exact getAvailableSerial_of_taken (afterCommands_taken 1)
  · rw [e1]; exact afterCommands_zero (by omega)

/-! ## Two roles, one range -/

/-- The client's second command and the server's first both take serial 4: the two sides' serials overlap. -/
theorem client_server_share_serial :
    PairReachable (afterCommands 2) ((init true).command 0 []) ∧
      (afterCommands 2).commandHandlers 4 = some (.handler 1) ∧
      ((init true).command 0 []).commandHandlers 4 = some (.handler 0) :=
  ⟨.server (.command 0 []) (.client (.command 0 []) (.client (.command 0 []) .init)), by decide, by decide⟩

/-! ## Serials written -/

namespace SerialsAux

/-- The search of `GetAvailableSerial` passes over taken candidates only. -/
theorem availableSerialFrom_least {off serial fuel r : Nat} {t : Nat → Option CommandHandler}
    (h : availableSerialFrom off t serial fuel = some r) : ∀ j, serial ≤ j → j + off < r → t (j + off) ≠ none := by
  induction fuel generalizing serial with
  | zero => simp [availableSerialFrom] at h
  | succ n ih =>
    simp only [availableSerialFrom] at h
    split at h
    · cases h
      intro j h1 h2
      omega
    · intro j h1 h2
      rcases Nat.eq_or_lt_of_le h1 with rfl | h1
      · assumption
      · exact ih h j h1 h2

end SerialsAux

/-- `GetAvailableSerial` is first fit: every candidate `serial + !!is_server_` below the serial it returns is taken. So a
serial whose handler `ExecuteAndRemoveCommandHandler` or `EraseHandler` removed is handed out again by the next `Command`
as soon as it is the least free candidate. -/
theorem getAvailableSerial_least (a : Admin) (j : Nat) (hj : 3 ≤ j) (hlt : j + a.offset < a.getAvailableSerial.1) :
    a.commandHandlers (j + a.offset) ≠ none := by
  unfold getAvailableSerial at hlt
  split at hlt
  · exact availableSerialFrom_least ‹_› j hj hlt
  · exact absurd hlt (Nat.not_lt_zero _)

/-- `getAvailableSerial_least` after one command: the next serial is 4, and serial 3 below it is taken. -/
theorem getAvailableSerial_least_afterOne :
    3 + (afterCommands 1).offset < (afterCommands 1).getAvailableSerial.1 ∧
      (afterCommands 1).commandHandlers (3 + (afterCommands 1).offset) ≠ none :=
  have hlt : 3 + (afterCommands 1).offset < (afterCommands 1).getAvailableSerial.1 := by decide
  ⟨hlt, getAvailableSerial_least _ 3 (Nat.le_refl 3) hlt⟩

end Admin

end SocketFunneling
