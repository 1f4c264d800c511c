import ScriptConsole.Console
import ScriptConsole.History

/-!
# Editors

An editor gives the lines of input, one after the other.  Every read has a
prompt before it, which may have been shown ahead of the read.
-/

namespace ScriptConsole

inductive InputSource where
  /-- Events that are replayed and echoed. -/
  | scripted (events : List InputEvent)
  /-- Bytes that are piped in. -/
  | piped (bytes : List UInt8)
  deriving DecidableEq, Repr

namespace InputSource

/-- The bytes of the first line, with its line feed, and the bytes after it. -/
def cutLine : List UInt8 → List UInt8 × List UInt8
  | [] => ([], [])
  | byte :: rest =>
      if byte = 10 then ([byte], rest)
      else
        let (line, after) := cutLine rest
        (byte :: line, after)

/-- A line without the line feeds and carriage returns at its end. -/
def withoutBreak (line : List Char) : List Char :=
  (line.reverse.dropWhile fun c => c = '\n' || c = '\r').reverse

/-- What the bytes of a line give; bytes that are no text give nothing. -/
def eventOfBytes? (line : List UInt8) : Option InputEvent :=
  if line.isEmpty then some .endOfInput
  else
    (Text.decode? ⟨line.toArray⟩).map fun text =>
      .line (String.ofList (withoutBreak text.toList))

/-- The next event of a source, and what is left of it. -/
def next : InputSource → Option InputEvent × InputSource
  | .scripted [] => (some .endOfInput, .scripted [])
  | .scripted (event :: events) => (some event, .scripted events)
  | .piped bytes => (eventOfBytes? (cutLine bytes).1, .piped (cutLine bytes).2)

def echoes : InputSource → Bool
  | .scripted _ => true
  | .piped _ => false

theorem cutLine_append (bytes : List UInt8) :
    (cutLine bytes).1 ++ (cutLine bytes).2 = bytes := by
  induction bytes with
  | nil => rfl
  | cons byte rest ih => by_cases h : byte = 10 <;> simp [cutLine, h, ih]

theorem cutLine_length (bytes : List UInt8) :
    (cutLine bytes).1.length + (cutLine bytes).2.length = bytes.length := by
  rw [← List.length_append, cutLine_append]

def remaining : InputSource → Nat
  | scripted events => events.length
  | piped bytes => bytes.length

theorem remaining_next_lt {source rest : InputSource} {event : InputEvent}
    (h : source.next = (some event, rest)) (he : event ≠ .endOfInput) :
    rest.remaining < source.remaining := by
  cases source with
  | scripted events =>
      cases events with
      | nil =>
          simp only [next, Prod.mk.injEq, Option.some.injEq] at h
          exact absurd h.1.symm he
      | cons first events =>
          simp only [next, Prod.mk.injEq] at h
          simp [← h.2, remaining]
  | piped bytes =>
      have hl := cutLine_length bytes
      simp only [next, Prod.mk.injEq] at h
      have hne : (cutLine bytes).1 ≠ [] := by
        intro hnil
        simp only [eventOfBytes?, hnil, List.isEmpty_nil, if_true, Option.some.injEq] at h
        exact he h.1.symm
      have hpos := List.length_pos_iff.2 hne
      simp only [← h.2, remaining]
      omega

end InputSource

structure Editor where
  source : InputSource
  history : History
  /-- The prompt of the next read is shown already. -/
  promptShown : Bool
  /-- The names that are offered to complete input. -/
  completions : List String
  deriving DecidableEq, Repr

namespace Editor

/-- The number of entries that a scripted editor keeps. -/
def scriptedHistoryLimit : Nat := 1000

def scripted (events : List InputEvent) : Editor :=
  ⟨.scripted events, .empty scriptedHistoryLimit, false, []⟩

def piped (bytes : List UInt8) (historyLimit : Nat) : Editor :=
  ⟨.piped bytes, .empty historyLimit, false, []⟩

def remaining (editor : Editor) : Nat :=
  editor.source.remaining

def displayPrompt (editor : Editor) (prompt : String) (console : Console) :
    Editor × Console :=
  ({ editor with promptShown := true }, console.printPrompt prompt)

/-- Show the prompt of a read, unless it is shown already. -/
def ensurePrompt (editor : Editor) (prompt : String) (console : Console) : Console :=
  if editor.promptShown then console else console.printPrompt prompt

/-- Read an event, after a prompt; nothing if the input is no text. -/
def read (editor : Editor) (prompt : String) (console : Console) :
    Option InputEvent × Editor × Console :=
  match editor.source.next with
  | (none, source) =>
      (none, { editor with source := source, promptShown := false },
        editor.ensurePrompt prompt console)
  | (some event, source) =>
      (some event, { editor with source := source, promptShown := false },
        (editor.ensurePrompt prompt console).record (.read event source.echoes))

def remember (editor : Editor) (line : String) : Editor :=
  { editor with history := editor.history.add line }

/-- Offer names to complete input; piped input is not completed. -/
def setCompletions (editor : Editor) (names : List String) : Editor :=
  match editor.source with
  | .scripted _ => { editor with completions := names }
  | .piped _ => editor

theorem remaining_read_lt {editor next : Editor} {prompt : String}
    {console after : Console} {event : InputEvent}
    (h : editor.read prompt console = (some event, next, after))
    (he : event ≠ .endOfInput) : next.remaining < editor.remaining := by
  unfold read at h
  split at h
  · simp at h
  · rename_i found source hn
    simp only [Prod.mk.injEq, Option.some.injEq] at h
    rw [← h.2.1]
    exact InputSource.remaining_next_lt (h.1 ▸ hn) he

end Editor

end ScriptConsole
