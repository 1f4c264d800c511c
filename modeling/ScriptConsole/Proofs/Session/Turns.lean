import ScriptConsole.Proofs.Server.Interrupts
import ScriptConsole.Proofs.Session.Lines
import ScriptConsole.Proofs.Session.Performing

/-!
# No line is lost or mixed up

A run of a session reads one event after the other, and what an event is decides what
follows: a line of code is evaluated at once, together with the lines that wait, a directive
is followed, and the loop ends with the input or as it is asked to.  The events that a session
has read are the first ones of its input.
-/

namespace ScriptConsole

namespace InputSource

/-- What was read of a source, in order, and what is left of it; a piece of input that is
no text gives nothing. -/
inductive Yields (source : InputSource) : List (Option InputEvent) → InputSource → Prop where
  | nil : Yields source [] source
  | concat {events : List (Option InputEvent)} {event? : Option InputEvent}
      {middle rest : InputSource} (earlier : Yields source events middle)
      (last : middle.next = (event?, rest)) : Yields source (events ++ [event?]) rest

end InputSource

namespace Editor

variable {editor next : Editor} {prompt : String} {console after : Console}

theorem next_source_of_read {event? : Option InputEvent}
    (h : editor.read prompt console = (event?, next, after)) :
    editor.source.next = (event?, next.source) := by
  unfold read at h
  split at h <;> rename_i taken <;> cases h <;> exact taken

end Editor

namespace Server

variable {α : Type} (server : Server α) (console : Console)

/-- An event that ends the reading: the end of the input, one more interrupt at an empty
buffer, or a directive to leave. -/
def Leaves : InputEvent → Prop
  | .line line =>
      ∃ keyword arguments directive,
        Directive.ofLine? (Text.trim line.toList) = some (keyword, arguments) ∧
          Dictionary.find? keyword server.directives = some directive ∧
          directive.action = .leave
  | .interrupt => server.buffer = [] ∧ server.interrupted = true
  | .endOfInput => True

/-- A line that is a directive of the embedding, with the text after its keyword. -/
def Directs (event : InputEvent) (action : α) (arguments : String) : Prop :=
  ∃ line keyword directive, event = .line line ∧
    Directive.ofLine? (Text.trim line.toList) = some (keyword, arguments) ∧
    Dictionary.find? keyword server.directives = some directive ∧
    directive.action = .custom action

/-- Which input an event makes for the session, and the buffered lines after it. -/
inductive Makes : InputEvent → Option (ServerInput α) → List String → Prop where
  | statement {line : String} (isCode : server.IsCode line) :
      Makes (.line line) (some (.statement ("\n".intercalate (server.buffer ++ [line]))))
        (server.buffer ++ [line])
  | directive {event : InputEvent} {action : α} {arguments : String}
      (directs : server.Directs event action arguments) :
      Makes event (some (.directive action arguments)) []
  | leave {event : InputEvent} (leaves : server.Leaves event) :
      Makes event (some .leave) server.buffer
  /-- No other event makes one. -/
  | nothing {event : InputEvent} {buffer : List String}
      (noCode : ∀ line, event = .line line → ¬server.IsCode line)
      (noDirective : ∀ action arguments, ¬server.Directs event action arguments)
      (stays : ¬server.Leaves event) : Makes event none buffer

def Reaction.Fits (reaction : Reaction α) (event : InputEvent) : Prop :=
  server.Makes event reaction.input? reaction.server.buffer

variable {server}

end Server

namespace Session

variable {ν : Type}

/-! ## What was read -/

def Deed.inputs : Deed → List (Option InputEvent)
  | read _ event _ _ _ => [some event]
  | unreadable _ => [none]
  | wrote _ | launched _ | evaluated _ _ _ _ => []

/-- All that was read of the input, in order. -/
def inputs (log : List Deed) : List (Option InputEvent) :=
  log.reverse.flatMap Deed.inputs

theorem Quiet.source_eq {before after : Session ν} {written : List ConsoleEvent}
    (quiet : Quiet before written after) :
    after.currentEditor.source = before.currentEditor.source := by
  obtain ⟨closed, closed'⟩ | ⟨server, next, isOpen, isOpen', kept⟩ := quiet.closed_or_open
  · rw [currentEditor_of_closed closed, currentEditor_of_closed closed', quiet.editor]
  · rw [currentEditor_of_open isOpen, currentEditor_of_open isOpen', kept.source]

theorem source_handleStatement (session : Session ν) (code : String) :
    (session.handleStatement code).currentEditor.source = session.currentEditor.source := by
  have untouched := untouched_handleStatement session code
  have related := untouched.server
  cases h : session.world.server <;> cases h' : (session.handleStatement code).world.server <;>
    rw [h, h'] at related <;> cases related
  · rw [currentEditor_of_closed h, currentEditor_of_closed h', untouched.editor]
  · rename_i same
    rw [currentEditor_of_open h, currentEditor_of_open h', same.source]

theorem Does.yields {before after : Session ν} {deed : Deed} (does : Does before deed after)
    {source : InputSource} {events : List (Option InputEvent)}
    (earlier : source.Yields events before.currentEditor.source) :
    source.Yields (events ++ deed.inputs) after.currentEditor.source := by
  cases does with
  | wrote quiet => simpa [Deed.inputs, quiet.source_eq] using earlier
  | launched closed _ _ =>
      rw [currentEditor_of_closed closed] at earlier
      rw [Deed.inputs, List.append_nil]
      exact earlier
  | evaluated _ _ _ => simpa [Deed.inputs, source_handleStatement] using earlier
  | unreadable isOpen taken =>
      rw [currentEditor_of_open isOpen] at earlier
      exact earlier.concat (Editor.next_source_of_read taken)
  | read isOpen _ taken _ _ reacts =>
      rw [currentEditor_of_open isOpen] at earlier
      have next := earlier.concat (Editor.next_source_of_read taken)
      rwa [← reacts.source] at next

theorem Course.yields {start finish : Session ν} {log : List Deed}
    (course : Course start log finish) :
    start.currentEditor.source.Yields (inputs log) finish.currentEditor.source := by
  induction course with
  | refl => exact .nil
  | step _ does ih =>
      have split : ∀ (deed : Deed) log, inputs (deed :: log) = inputs log ++ deed.inputs := by
        simp [inputs]
      rw [split]
      exact does.yields ih

/-! ## Turns -/

end Session

end ScriptConsole
