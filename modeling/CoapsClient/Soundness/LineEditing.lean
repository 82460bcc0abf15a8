import CoapsClient.Machine.Path
import CoapsClient.Model.Shell.Editor

/-! # Editing a line of the console

The editor keeps the text that was typed in front of its buffer, and whether the text has an open quote. A backspace looks
for the quote behind the character that it takes back, so that an old character of the buffer decides; and a text with a
zero in it is handed over up to the zero.
-/

namespace CoapsClient.LineEditor

open Machine (Path guarded put cstring)

/-- The characters that were typed since the last line end or timeout, and when the last one was. -/
structure Line where
  text : List UInt8 := []
  last : ℤ := 0
deriving DecidableEq

/-- A text has an open quote. -/
def openQuote (text : List UInt8) : Bool := text.count quote % 2 == 1

/-- A text that is entered, if there is something to see in it. -/
def entered (text : List UInt8) : Option (List UInt8) := if text.any visible then some text else none

/-- A character that is typed: a backspace takes the last one back, a line end outside of quotes enters the text, any other
is appended if there is room. -/
def typeCharacter (text : List UInt8) (character : UInt8) : List UInt8 × Option (List UInt8) :=
  if isBackspace character then (text.dropLast, none)
  else if isLineEnd character ∧ openQuote text = false then ([], entered text)
  else if text.length < uartCmdMaxLen - 1 then (text ++ [character], none)
  else (text, none)

/-- The text at a key, which is empty after a timeout. -/
def Line.current (line : Line) (now : ℤ) : List UInt8 :=
  if timedOut now line.last then [] else line.text

def Line.type (line : Line) (key : Key) : Line × Option (List UInt8) :=
  let (text, handed) := typeCharacter (line.current key.now) key.character
  ({ text, last := key.now }, handed)

/-- The buffer begins with the typed text. -/
structure Keeps (editor : Editor) (text : List UInt8) : Prop where
  size : editor.uartCmdBuf.length = uartCmdMaxLen
  len : editor.atCmdLen = text.length
  short : text.length ≤ uartCmdMaxLen - 1
  front : text <+: editor.uartCmdBuf
  inside : editor.insideQuotes = openQuote text

section Editing

variable {editor : Editor} {text : List UInt8} {character : UInt8}

private theorem openQuote_concat :
    openQuote (text ++ [character]) = if character = quote then !openQuote text else openQuote text := by
  unfold openQuote
  rw [List.count_append, List.count_singleton]
  by_cases same : character = quote
  · rw [if_pos same, if_pos (by simpa using same)]
    rcases Nat.mod_two_eq_zero_or_one (text.count quote) with even | odd
    · simp [Nat.add_mod, even]
    · simp [Nat.add_mod, odd]
  · rw [if_neg same, if_neg (by simpa using same), Nat.add_zero]

theorem Keeps.timeout (keeps : Keeps editor text) : ∃ next, editor.timeout = some next ∧ Keeps next [] := by
  have size := keeps.size
  have short := keeps.short
  unfold Editor.timeout
  split
  · rw [Machine.put_eq (by rw [keeps.len, size]; unfold uartCmdMaxLen at *; omega)]
    exact ⟨_, rfl, ⟨by rw [List.length_set, size], rfl, Nat.zero_le _, List.nil_prefix, rfl⟩⟩
  · next zero => exact ⟨_, rfl, ⟨size, not_not.mp zero, Nat.zero_le _, List.nil_prefix, rfl⟩⟩

/-- What the editor reads of the buffer for a backspace tells what it takes back. -/
def BackspaceFinds (editor : Editor) : Prop :=
  0 < editor.atCmdLen →
    (editor.uartCmdBuf[editor.atCmdLen]? = some quote ↔ editor.uartCmdBuf[editor.atCmdLen - 1]? = some quote)

theorem Keeps.backspace (keeps : Keeps editor text) (finds : BackspaceFinds editor) :
    ∃ next, editor.backspace = some next ∧ Keeps next text.dropLast := by
  have size := keeps.size
  have len := keeps.len
  have short := keeps.short
  rcases List.eq_nil_or_concat text with rfl | ⟨front, character, rfl⟩
  · rw [List.length_nil] at len
    exact ⟨editor, if_neg (by omega), keeps⟩
  · rw [List.concat_eq_append] at *
    obtain ⟨rest, buffer⟩ := keeps.front
    rw [List.length_append, List.length_singleton] at len short
    have behind : editor.atCmdLen < editor.uartCmdBuf.length := by
      rw [size, len]
      unfold uartCmdMaxLen at *
      omega
    have deleted : editor.uartCmdBuf[editor.atCmdLen - 1]? = some character := by
      rw [len, ← buffer, List.append_assoc]
      simp
    have same := finds (by omega)
    rw [deleted, List.getElem?_eq_getElem behind, Option.some_inj, Option.some_inj] at same
    have inside := keeps.inside
    rw [openQuote_concat] at inside
    have run : editor.backspace = some { editor with
        atCmdLen := editor.atCmdLen - 1
        insideQuotes := if editor.uartCmdBuf[editor.atCmdLen] = quote then !editor.insideQuotes else editor.insideQuotes } := by
      rw [Editor.backspace, if_pos (by omega), List.getElem?_eq_getElem behind]
      rfl
    refine ⟨_, run, size, ?_, ?_, ?_, ?_⟩
    · simp [len]
    · rw [List.dropLast_concat]
      omega
    · rw [List.dropLast_concat]
      exact ⟨[character] ++ rest, by rw [← buffer, List.append_assoc]⟩
    · rw [List.dropLast_concat]
      dsimp only
      by_cases quoted : character = quote
      · rw [if_pos (same.mpr quoted), inside, if_pos quoted, Bool.not_not]
      · rw [if_neg (mt same.mp quoted), inside, if_neg quoted]

/-- A zero is not in front of what is entered. -/
def ZeroFree (text : List UInt8) : Prop := 0 ∈ text → text.any visible = false

theorem Keeps.endLine (keeps : Keeps editor text) (free : ZeroFree text) (outside : openQuote text = false) :
    ∃ next, editor.endLine = some (next, entered text) ∧ Keeps next [] := by
  have size := keeps.size
  have len := keeps.len
  have short := keeps.short
  obtain ⟨rest, buffer⟩ := keeps.front
  have total := congrArg List.length buffer
  rw [List.length_append] at total
  have room : text.length < uartCmdMaxLen := by
    unfold uartCmdMaxLen at *
    omega
  obtain ⟨old, rest, rfl⟩ := List.exists_cons_of_length_pos (l := rest) (by omega)
  have stored : put editor.uartCmdBuf editor.atCmdLen 0 = some (text ++ 0 :: rest) := by
    have behind := @Machine.put_append _ text (old :: rest) 0 0
    rwa [buffer, Nat.add_zero, ← len] at behind
  unfold Editor.endLine
  rw [stored, Option.map_some]
  have next : Keeps { editor with uartCmdBuf := text ++ 0 :: rest, atCmdLen := 0 } [] := by
    refine ⟨?_, rfl, Nat.zero_le _, List.nil_prefix, keeps.inside.trans outside⟩
    rw [← size, ← total, List.length_append]
    rfl
  refine ⟨_, ?_, next⟩
  dsimp only
  rw [Machine.cstring_append_zero, entered]
  by_cases zero : 0 ∈ text
  · have none : (cstring text).any visible = false := by
      have nothing := List.any_eq_false.mp (free zero)
      exact List.any_eq_false.mpr fun byte found => nothing byte ((List.takeWhile_prefix _).subset found)
    rw [none, free zero]
    rfl
  · rw [Machine.cstring_eq zero]

theorem Keeps.append (keeps : Keeps editor text) :
    ∃ next, editor.append character = some next ∧
      Keeps next (if text.length < uartCmdMaxLen - 1 then text ++ [character] else text) := by
  have size := keeps.size
  have len := keeps.len
  obtain ⟨rest, buffer⟩ := keeps.front
  have total := congrArg List.length buffer
  rw [List.length_append] at total
  unfold Editor.append
  by_cases room : text.length < uartCmdMaxLen - 1
  · have less : ¬ editor.atCmdLen > uartCmdMaxLen - 2 := by omega
    obtain ⟨old, rest, rfl⟩ := List.exists_cons_of_length_pos (l := rest) (by omega)
    have stored : put editor.uartCmdBuf editor.atCmdLen character = some (text ++ character :: rest) := by
      have behind := @Machine.put_append _ text (old :: rest) 0 character
      rwa [buffer, Nat.add_zero, ← len] at behind
    rw [if_neg less, stored, if_pos room]
    refine ⟨_, rfl, ?_, ?_, ?_, ?_, ?_⟩
    · rw [← size, ← buffer]
      simp
    · simp [len]
    · rw [List.length_append, List.length_singleton]
      omega
    · exact ⟨rest, by simp⟩
    · rw [openQuote_concat, keeps.inside]
  · have full : editor.atCmdLen > uartCmdMaxLen - 2 := by
      have limit : uartCmdMaxLen = 2048 := rfl
      omega
    rw [if_pos full, if_neg room]
    exact ⟨editor, rfl, keeps⟩

end Editing

/-- The editor, the text that was typed, and what was handed over and entered so far. -/
structure Session where
  editor : Editor
  line : Line := {}
  handed : List (List UInt8) := []
  entered : List (List UInt8) := []
deriving DecidableEq

/-- A character is received. -/
def Session.next (session : Session) (key : Key) : Option Session :=
  (uartReceiverHandler key session.editor).map fun (editor, handed) =>
    { editor
      line := (session.line.type key).1
      handed := session.handed ++ handed.toList
      entered := session.entered ++ (session.line.type key).2.toList }

def Step (session : Session) (key : Key) (next : Session) : Prop := session.next key = some next

/-- A backspace finds what it takes back behind it, and there is no zero in a text that is entered. The line of a key that
comes too late is dropped first. -/
structure Regular (session : Session) (key : Key) : Prop where
  backspace : isBackspace key.character = true → timedOut key.now session.editor.last = false →
    BackspaceFinds session.editor
  lineEnd : isLineEnd key.character = true → session.editor.insideQuotes = false → timedOut key.now session.editor.last = false →
    ZeroFree (session.editor.uartCmdBuf.take session.editor.atCmdLen)

instance (editor : Editor) : Decidable (BackspaceFinds editor) := inferInstanceAs (Decidable (_ → (_ ↔ _)))

instance (text : List UInt8) : Decidable (ZeroFree text) := inferInstanceAs (Decidable (_ → _))

instance (session : Session) (key : Key) : Decidable (Regular session key) :=
  decidable_of_iff ((_ → _ → _) ∧ (_ → _ → _ → _)) ⟨fun both => ⟨both.1, both.2⟩, fun regular => ⟨regular.1, regular.2⟩⟩

/-- The editor follows what is typed. -/
structure Session.Follows (session : Session) : Prop where
  keeps : Keeps session.editor session.line.text
  last : session.editor.last = session.line.last
  handed : session.handed = session.entered

section Runs

variable {session next : Session} {key : Key} {keys : List Key} {bytes : List UInt8}

theorem Keeps.setLast {editor : Editor} {text : List UInt8} (keeps : Keeps editor text) (now : ℤ) :
    Keeps { editor with last := now } text := ⟨keeps.size, keeps.len, keeps.short, keeps.front, keeps.inside⟩

/-- A character behind the timeout. -/
theorem Keeps.handle {editor : Editor} {text : List UInt8} (keeps : Keeps editor text) (character : UInt8)
    (finds : isBackspace character = true → BackspaceFinds editor)
    (free : isLineEnd character = true → openQuote text = false → ZeroFree text) :
    ∃ next, editor.handle character = some (next, (typeCharacter text character).2) ∧
      Keeps next (typeCharacter text character).1 := by
  unfold Editor.handle typeCharacter
  by_cases back : isBackspace character = true
  · obtain ⟨next, run, kept⟩ := keeps.backspace (finds back)
    rw [if_pos back, if_pos back, run]
    exact ⟨next, rfl, kept⟩
  · rw [if_neg back, if_neg back, keeps.inside]
    by_cases ends : isLineEnd character = true ∧ openQuote text = false
    · obtain ⟨next, run, kept⟩ := keeps.endLine (free ends.1 ends.2) ends.2
      rw [if_pos ends, if_pos ends]
      exact ⟨next, run, kept⟩
    · obtain ⟨next, run, kept⟩ := @Keeps.append _ _ character keeps
      rw [if_neg ends, if_neg ends, run]
      refine ⟨next, ?_, ?_⟩
      · split <;> rfl
      · split at kept
        · next room => rwa [if_pos room]
        · next full => rwa [if_neg full]

/-- The time is set by each character only. -/
theorem Editor.handle_last {editor next : Editor} {character : UInt8} {handed : Option (List UInt8)}
    (run : editor.handle character = some (next, handed)) : next.last = editor.last := by
  unfold Editor.handle at run
  split at run
  · obtain ⟨moved, back, same⟩ := Option.map_eq_some_iff.mp run
    obtain ⟨rfl, -⟩ := Prod.mk.inj same
    unfold Editor.backspace at back
    split at back
    · obtain ⟨_, _, rfl⟩ := Option.map_eq_some_iff.mp back
      rfl
    · rw [← Option.some_inj.mp back]
  split at run
  · obtain ⟨_, _, same⟩ := Option.map_eq_some_iff.mp run
    obtain ⟨rfl, -⟩ := Prod.mk.inj same
    rfl
  · obtain ⟨moved, stored, same⟩ := Option.map_eq_some_iff.mp run
    obtain ⟨rfl, -⟩ := Prod.mk.inj same
    unfold Editor.append at stored
    split at stored
    · rw [← Option.some_inj.mp stored]
    · obtain ⟨_, _, rfl⟩ := Option.map_eq_some_iff.mp stored
      rfl

/-- One character. -/
theorem Session.Follows.step (follows : session.Follows) (regular : Regular session key) :
    ∃ next, Step session key next ∧ next.Follows := by
  obtain ⟨keeps, last, handed⟩ := follows
  obtain ⟨editor, timed, kept, finds, free⟩ : ∃ editor,
      (if timedOut key.now session.editor.last then session.editor.timeout else some session.editor) = some editor ∧
        Keeps editor (session.line.current key.now) ∧ (isBackspace key.character = true → BackspaceFinds editor) ∧
        (isLineEnd key.character = true → openQuote (session.line.current key.now) = false →
          ZeroFree (session.line.current key.now)) := by
    rw [Line.current, ← last]
    by_cases late : timedOut key.now session.editor.last = true
    · obtain ⟨editor, run, kept⟩ := keeps.timeout
      rw [if_pos late, if_pos late]
      exact ⟨editor, run, kept, fun _ some' => absurd some' (by simp [kept.len]), fun _ _ zero => by simp at zero⟩
    · rw [if_neg late, if_neg late]
      refine ⟨session.editor, rfl, keeps, fun back => regular.backspace back (by simpa using late), fun ends outside => ?_⟩
      have free := regular.lineEnd ends (keeps.inside.trans outside) (by simpa using late)
      rwa [keeps.len, ← List.prefix_iff_eq_take.mp keeps.front] at free
  obtain ⟨next, run, kept⟩ := (kept.setLast key.now).handle key.character finds free
  have handler : uartReceiverHandler key session.editor = some (next, (session.line.type key).2) := by
    rw [uartReceiverHandler, timed]
    exact run
  refine ⟨_, by rw [Step, Session.next, handler]; rfl, kept, Editor.handle_last run, ?_⟩
  rw [handed]

/-- The loop hands the characters of a buffer to the handler, up to one that enters a text; that is the text that it hands
over. -/
theorem receiveAll_path {editor : Editor} {handed : Option (List UInt8)}
    (ran : receiveAll keys session.editor = some (editor, handed)) :
    ∃ front next, front <+: keys ∧ Path Step session front next ∧ next.editor = editor ∧
      next.handed = session.handed ++ handed.toList := by
  induction keys generalizing session with
  | nil =>
    obtain ⟨rfl, rfl⟩ := Prod.mk.inj (Option.some_inj.mp ran)
    exact ⟨[], session, List.nil_prefix, .nil session, rfl, (List.append_nil _).symm⟩
  | cons key keys ih =>
    obtain ⟨⟨first, text⟩, run, rest⟩ := Option.bind_eq_some_iff.mp ran
    obtain ⟨middle, moved, same, all⟩ : ∃ middle, Step session key middle ∧ middle.editor = first ∧
        middle.handed = session.handed ++ text.toList := by
      refine ⟨_, by rw [Step, Session.next, run]; rfl, rfl, rfl⟩
    dsimp only at rest
    split at rest
    · obtain ⟨rfl, rfl⟩ := Prod.mk.inj (Option.some_inj.mp rest)
      exact ⟨[key], middle, by simp, .cons moved (.nil middle), same, all⟩
    · next silent =>
      obtain rfl : text = none := by simpa using silent
      obtain ⟨front, next, starts, path, same', all'⟩ := ih (same.symm ▸ rest)
      refine ⟨key :: front, next, (List.prefix_cons_inj key).mpr starts, .cons moved path, same', ?_⟩
      rw [all', all]
      simp

theorem follows_init (size : bytes.length = uartCmdMaxLen) : Session.Follows { editor := { uartCmdBuf := bytes } } :=
  ⟨⟨size, rfl, Nat.zero_le _, List.nil_prefix, rfl⟩, rfl, rfl⟩

private theorem follows_of_path (size : bytes.length = uartCmdMaxLen)
    (path : Path (guarded Step Regular) { editor := { uartCmdBuf := bytes } } keys session) : session.Follows := by
  refine path.invariant Session.Follows (fun before key behind follows moved => ?_) (follows_init size)
  obtain ⟨next, moved', follows'⟩ := follows.step moved.1
  exact Option.some_inj.mp (moved'.symm.trans moved.2) ▸ follows'

end Runs

/-- Along regular characters nothing is stored outside of the buffer, the text fits with its zero, the quotes are those of
the text in the buffer, and what is handed over is what was entered. -/
theorem line_editing {bytes : List UInt8} {keys : List Key} {session : Session} (size : bytes.length = uartCmdMaxLen)
    (path : Path (guarded Step Regular) { editor := { uartCmdBuf := bytes } } keys session) :
    session.editor.atCmdLen ≤ uartCmdMaxLen - 1 ∧
    session.editor.insideQuotes = openQuote (session.editor.uartCmdBuf.take session.editor.atCmdLen) ∧
    session.editor.uartCmdBuf.take session.editor.atCmdLen = session.line.text ∧ session.handed = session.entered ∧
    ∀ key, Regular session key → ∃ next, Step session key next := by
  have follows := follows_of_path size path
  have keeps := follows.keeps
  have text : session.editor.uartCmdBuf.take session.editor.atCmdLen = session.line.text := by
    rw [keeps.len]
    exact (List.prefix_iff_eq_take.mp keeps.front).symm
  refine ⟨keeps.len ▸ keeps.short, text ▸ keeps.inside, text, follows.handed, fun key regular => ?_⟩
  obtain ⟨next, moved, _⟩ := follows.step regular
  exact ⟨next, moved⟩

/-- A console with an empty buffer. -/
def console : Session := { editor := { uartCmdBuf := List.replicate uartCmdMaxLen 0 } }

/-- Characters that come without a pause. -/
def keysOf (text : String) : List Key := text.toList.map fun char => ⟨0, char.toNat.toUInt8⟩

/-- A quoted text with a character that is taken back. -/
theorem line_editing_quoted : ∃ session, Path (guarded Step Regular) console (keysOf "a\"b\x08\"\n") session ∧
    session.handed = session.entered ∧ session.entered = [(keysOf "a\"\"").map Key.character] := by
  have run : ((keysOf "a\"b\x08\"\n").foldlM
      (fun session key => if Regular session key then session.next key else none) console).map Session.entered =
        some [(keysOf "a\"\"").map Key.character] := by decide +kernel
  obtain ⟨session, ran, entered⟩ := Option.map_eq_some_iff.mp run
  have path : Path (guarded Step Regular) console (keysOf "a\"b\x08\"\n") session := Path.guarded_of_foldlM ran
  exact ⟨session, path, (line_editing (List.length_replicate ..) path).2.2.2.1, entered⟩

/-- The quote that was opened is taken back but stays open, so that the line behind it is not entered; and a text is cut off
at its zero. -/
theorem quote_stays_open :
    (∃ session, Path Step console (keysOf "\"\x08ls\n") session ∧ session.editor.insideQuotes = true ∧
      openQuote (session.editor.uartCmdBuf.take session.editor.atCmdLen) = false ∧
      session.handed = [] ∧ session.entered = [(keysOf "ls").map Key.character]) ∧
    ∃ session, Path Step console (keysOf "a\x00b\n") session ∧
      session.handed = [(keysOf "a").map Key.character] ∧ session.entered = [(keysOf "a\x00b").map Key.character] := by
  constructor
  · have run : ((keysOf "\"\x08ls\n").foldlM Session.next console).map (fun session =>
        (session.editor.insideQuotes, openQuote (session.editor.uartCmdBuf.take session.editor.atCmdLen), session.handed,
          session.entered)) = some (true, false, [], [(keysOf "ls").map Key.character]) := by decide +kernel
    obtain ⟨session, ran, values⟩ := Option.map_eq_some_iff.mp run
    simp only [Prod.mk.injEq] at values
    exact ⟨session, Path.of_foldlM ran, values⟩
  · have run : ((keysOf "a\x00b\n").foldlM Session.next console).map (fun session => (session.handed, session.entered)) =
        some ([(keysOf "a").map Key.character], [(keysOf "a\x00b").map Key.character]) := by decide +kernel
    obtain ⟨session, ran, values⟩ := Option.map_eq_some_iff.mp run
    simp only [Prod.mk.injEq] at values
    exact ⟨session, Path.of_foldlM ran, values⟩

end CoapsClient.LineEditor
