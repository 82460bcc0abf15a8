import CoapsClient.Model.Shell.Text

/-! # Dispatching a command

`sh_cmd` looks a text up in the command table, checks its parameter and the unlock window, and then
runs the entry's handler or hands an AT command to the modem. `dispatch` is the part before the
handler; `Handler.run` is what the handlers of the shell itself do to the unlock window. The command
table is a parameter, since a link section collects it from all modules.

The model is that of a build with `CONFIG_SH_CMD_UNLOCK`.
-/

namespace CoapsClient.ShCmd

/-- `CONFIG_SH_CMD_UNLOCK_SECONDS` in milliseconds. -/
def unlockMillis : ℕ := 60 * 1000

/-- The handlers that matter here: those of `unlock` and `lock`, and all others by a number. -/
inductive Handler where
  | unlock
  | lock
  | other (number : ℕ)
deriving DecidableEq, Repr

/-- `struct sh_cmd_entry`; of the help only whether there is a handler for it. -/
structure Entry where
  cmd : Text
  atCmd : Option Text
  handler : Option Handler
  helpHandler : Bool
  protect : Bool
deriving DecidableEq, Repr

/-- `e->at_cmd && e->at_cmd[0]`. -/
def Entry.atText (entry : Entry) : Option Text := entry.atCmd.filter fun text => !text.isEmpty

/-- The index behind the command, or zero when the entry does not match. -/
def Entry.index (entry : Entry) (text : Text) : ℕ :=
  let index := strstartsep text entry.cmd true [' ']
  if index = 0 then
    match entry.atText with
    | some atText => strstartsep text atText true [' ', '=']
    | none => 0
  else index

/-- `sh_cmd_get`. -/
def shCmdGet (table : List Entry) (text : Text) : Option Entry :=
  table.find? fun entry => 0 < entry.index text

/-- `sh_cmd_unlocked` and the `PROTECTED` bit of `sh_cmd_state`. -/
structure Window where
  unlocked : ℕ := 0
  isProtected : Bool := true
deriving DecidableEq, Repr

/-- What `sh_cmd` decides before it runs anything. -/
inductive Branch where
  | unsupported (entry : Entry)
  | refused (entry : Entry)
  | handled (entry : Entry) (parameter : Text) (usesAt : Bool)
  | modem (text : Text)
deriving DecidableEq, Repr

/-- The unlock check of `sh_cmd`: the window expires or is extended. -/
def Window.check (window : Window) (now : ℕ) : Window :=
  if window.unlocked < now then { window with isProtected := true }
  else { window with unlocked := now + unlockMillis }

/-- `sh_cmd` up to the point where a handler or the modem is called. -/
def dispatch (table : List Entry) (window : Window) (now : ℕ) (text : Text) (insecure : Bool) :
    Branch × Window :=
  match shCmdGet table text with
  | none => (.modem text, window)
  | some entry =>
      let parameter := text.drop (entry.index text)
      if parameter ≠ [] ∧ entry.helpHandler = false then (.unsupported entry, window)
      else if window.unlocked < now ∧ entry.protect ∧ insecure then (.refused entry, window.check now)
      else match entry.atCmd, entry.atText, entry.handler with
        | some _, some atText, none => (.modem atText, window.check now)
        | atCmd, _, _ => (.handled entry parameter atCmd.isSome, window.check now)

/-- `appl_settings_unlock`: an empty text never unlocks. -/
def settingsUnlock (password parameter : Text) : Bool := !parameter.isEmpty && password == parameter

/-- A password is right when it is that of the settings, and not empty. -/
theorem settingsUnlock_eq_true_iff {password parameter : Text} :
    settingsUnlock password parameter = true ↔ parameter = password ∧ parameter ≠ [] := by
  rw [settingsUnlock, Bool.and_eq_true, Bool.not_eq_true', List.isEmpty_eq_false_iff, beq_iff_eq, and_comm, eq_comm]

/-- `sh_cmd_unlock`; `now` is its own reading of the clock. -/
def shCmdUnlock (window : Window) (now : ℕ) (password parameter : Text) : Window :=
  if settingsUnlock password parameter then
    { window with unlocked := now + unlockMillis, isProtected := false }
  else { window with unlocked := 0, isProtected := true }

/-- `sh_cmd_lock`. -/
def shCmdLock (window : Window) : Window := { window with unlocked := 0, isProtected := true }

/-- What running a handler does to the window. -/
def Handler.run (handler : Handler) (window : Window) (now : ℕ) (password parameter : Text) : Window :=
  match handler with
  | .unlock => shCmdUnlock window now password parameter
  | .lock => shCmdLock window
  | .other _ => window

/-- `sh_protected`. -/
def shProtected (window : Window) : Bool := window.isProtected

def unlockEntry : Entry :=
  { cmd := "unlock".toList, atCmd := none, handler := some .unlock, helpHandler := true, protect := false }

def lockEntry : Entry :=
  { cmd := "lock".toList, atCmd := none, handler := some .lock, helpHandler := false, protect := false }

/-- A protected entry, as that of `del`. -/
def delEntry : Entry :=
  { cmd := "del".toList, atCmd := none, handler := some (.other 0), helpHandler := true, protect := true }

/-- A table of these. -/
def smallTable : List Entry := [unlockEntry, lockEntry, delEntry]

end CoapsClient.ShCmd
