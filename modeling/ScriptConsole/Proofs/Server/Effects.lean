import ScriptConsole.Proofs.World.Writing

/-!
# What an event does to the buffered lines

An event of input adds a line to the statement, leaves the statement as it is or
drops it.  Nothing else about the server that a later read depends on changes.
-/

namespace ScriptConsole

/-- What an event of input does to the buffered lines. -/
inductive Effect where
  /-- A line is buffered after the others. -/
  | takes (line : String)
  | keeps
  | drops
  deriving DecidableEq, Repr

namespace Effect

def apply : Effect → List String → List String
  | takes line, buffer => buffer ++ [line]
  | keeps, buffer => buffer
  | drops, _ => []

end Effect

namespace Server

variable {α : Type} (server : Server α) (console : Console)

def lineEffect (line : String) : Effect :=
  match Directive.ofLine? (Text.trim line.toList) with
  | none => if server.buffer.isEmpty && Text.isAllBlank line.toList then .keeps else .takes line
  | some (keyword, _) =>
      match Dictionary.find? keyword server.directives with
      | none => if server.buffer.isEmpty then .keeps else .takes line
      | some directive =>
          match directive.action with
          | .dropBuffer | .custom _ => .drops
          | .leave | .showHelp => .keeps

/-- What an event does to the buffered lines. -/
def effect : InputEvent → Effect
  | .line line => server.lineEffect line
  | .interrupt => .drops
  | .endOfInput => .keeps

/-- A line of code: not of the form of a directive, nor blank before a statement; or,
inside a statement, of the form of a directive that is not defined. -/
def IsCode (line : String) : Prop :=
  match Directive.ofLine? (Text.trim line.toList) with
  | none => server.buffer = [] → Text.isAllBlank line.toList = false
  | some (keyword, _) =>
      Dictionary.find? keyword server.directives = none ∧ server.buffer ≠ []

/-- An event that drops the buffered lines: an interrupt, or a directive to do so or
of the embedding. -/
def DropsAt : InputEvent → Prop
  | .line line =>
      ∃ keyword arguments,
        Directive.ofLine? (Text.trim line.toList) = some (keyword, arguments) ∧
          (keyword = "break" ∨ keyword = "clear" ∨
            ∃ directive action, Dictionary.find? keyword server.directives = some directive ∧
              directive.action = .custom action)
  | .interrupt => True
  | .endOfInput => False

theorem eq_of_effect_takes {event : InputEvent} {line : String}
    (h : server.effect event = .takes line) : event = .line line ∧ server.IsCode line := by
  cases event with
  | interrupt => cases h
  | endOfInput => cases h
  | line text =>
      simp only [effect, lineEffect] at h
      unfold IsCode
      split at h
      · rename_i plain
        split at h
        · cases h
        · rename_i visible
          obtain rfl := Effect.takes.inj h
          rw [plain]
          exact ⟨rfl, by simpa using visible⟩
      · rename_i directive
        split at h
        · rename_i unknown
          split at h
          · cases h
          · rename_i begun
            obtain rfl := Effect.takes.inj h
            rw [directive]
            exact ⟨rfl, unknown, by simpa using begun⟩
        · split at h <;> cases h

theorem not_isCode_of_effect_keeps {line : String}
    (h : server.effect (.line line) = .keeps) : ¬server.IsCode line := by
  simp only [effect, lineEffect] at h
  unfold IsCode
  split at h
  · split at h
    · rename_i blank
      simp_all
    · cases h
  · split at h
    · split at h
      · rename_i empty
        simp_all
      · cases h
    · rename_i known
      simp [known]

theorem dropsAt_of_effect_drops (named : Directive.DropsByName server.directives)
    {event : InputEvent} (h : server.effect event = .drops) : server.DropsAt event := by
  cases event with
  | interrupt => trivial
  | endOfInput => cases h
  | line line =>
      simp only [effect, lineEffect] at h
      split at h
      · split at h <;> cases h
      · rename_i keyword arguments form
        refine ⟨keyword, arguments, form, ?_⟩
        split at h
        · split at h <;> cases h
        · rename_i directive found
          cases action : directive.action with
          | dropBuffer =>
              exact (named _ (Dictionary.mem_of_find? found) action).imp id .inl
          | custom custom => exact .inr (.inr ⟨directive, custom, found, action⟩)
          | leave => simp [action] at h
          | showHelp => simp [action] at h

/-- What a server does about an event, apart from the input it makes of it. -/
structure Reacts (event : InputEvent) (after : Server α) (printed : List ConsoleEvent) :
    Prop where
  buffer : after.buffer = (server.effect event).apply server.buffer
  prompt : after.prompt = server.prompt
  continuationPrompt : after.continuationPrompt = server.continuationPrompt
  directives : after.directives = server.directives
  promptShown : after.editor.promptShown = server.editor.promptShown
  source : after.editor.source = server.editor.source
  lines : ∀ event ∈ printed, event.isLine = true

def Reaction.IsOf (reaction : Reaction α) (event : InputEvent) : Prop :=
  ∃ printed, reaction.console = ⟨printed ++ console.events⟩ ∧
    server.Reacts event reaction.server printed ∧
    ∀ code, reaction.input? = some (.statement code) →
      code = "\n".intercalate reaction.server.buffer

theorem exists_printLines (lines : List String) :
    ∃ printed, console.printLines lines = ⟨printed ++ console.events⟩ ∧
      ∀ event ∈ printed, event.isLine = true := by
  unfold Console.printLines
  induction lines generalizing console with
  | nil => exact ⟨[], rfl, by simp⟩
  | cons line lines ih =>
      obtain ⟨printed, hconsole, isLine⟩ := ih (console.printLine line)
      refine ⟨printed ++ [.line line], ?_, ?_⟩
      · rw [List.foldl_cons, hconsole, List.append_assoc]
        rfl
      · intro event mem
        rcases List.mem_append.1 mem with mem | mem
        · exact isLine event mem
        · rw [List.mem_singleton.1 mem]
          rfl

variable {server console}

theorem Reacts.of_keeps {event : InputEvent} {after : Server α} {printed : List ConsoleEvent}
    (keeps : server.effect event = .keeps) (buffer : after.buffer = server.buffer)
    (prompt : after.prompt = server.prompt)
    (continuationPrompt : after.continuationPrompt = server.continuationPrompt)
    (directives : after.directives = server.directives)
    (promptShown : after.editor.promptShown = server.editor.promptShown)
    (source : after.editor.source = server.editor.source)
    (lines : ∀ event ∈ printed, event.isLine = true) : server.Reacts event after printed where
  buffer := by rw [keeps, buffer]; rfl
  prompt := prompt
  continuationPrompt := continuationPrompt
  directives := directives
  promptShown := promptShown
  source := source
  lines := lines

variable (server console)

theorem isOf_takeCode {event : InputEvent} {line : String}
    (h : server.effect event =
      if server.buffer.isEmpty && Text.isAllBlank line.toList then .keeps else .takes line) :
    Reaction.IsOf server console (server.takeCode console line) event := by
  unfold takeCode
  split at h
  · rename_i blank
    rw [if_pos blank]
    exact ⟨[], rfl, .of_keeps h rfl rfl rfl rfl rfl rfl (by simp), by simp⟩
  · rename_i visible
    rw [if_neg visible]
    refine ⟨[], rfl, ⟨?_, rfl, rfl, rfl, rfl, rfl, by simp⟩, ?_⟩
    · rw [h]
      rfl
    · rintro code ⟨⟩
      rfl

theorem exists_takeCode_of_visible {line : String}
    (visible : (server.buffer.isEmpty && Text.isAllBlank line.toList) = false) :
    ∃ next, next.buffer = server.buffer ++ [line] ∧
      server.takeCode console line =
        ⟨some (.statement ("\n".intercalate next.buffer)), next, console⟩ := by
  refine ⟨{ server.remember line with buffer := server.buffer ++ [line] }, rfl, ?_⟩
  simp [takeCode, visible]

theorem exists_takeLine_of_isCode {line : String} (isCode : server.IsCode line) :
    ∃ next, next.buffer = server.buffer ++ [line] ∧
      server.takeLine console line =
        ⟨some (.statement ("\n".intercalate next.buffer)), next, console⟩ := by
  unfold takeLine
  match form : Directive.ofLine? (Text.trim line.toList) with
  | none =>
      simp only [IsCode, form] at isCode
      refine server.exists_takeCode_of_visible console ?_
      cases buffer : server.buffer with
      | nil => simpa using isCode buffer
      | cons first rest => rfl
  | some (keyword, arguments) =>
      simp only [IsCode, form] at isCode
      obtain ⟨unknown, begun⟩ := isCode
      have visible : server.buffer.isEmpty = false := by simpa using begun
      simp only [takeDirective, unknown, visible, Bool.false_eq_true, if_false]
      exact server.exists_takeCode_of_visible console (by rw [visible]; rfl)

/-- A line of code is given to the session together with the lines that wait. -/
theorem exists_react_of_isCode {line : String} (isCode : server.IsCode line) :
    ∃ next, next.buffer = server.buffer ++ [line] ∧
      server.react console (.line line) =
        ⟨some (.statement ("\n".intercalate next.buffer)), next, console⟩ :=
  exists_takeLine_of_isCode { server with interrupted := false } console isCode

theorem isOf_followDirective {event : InputEvent} {action : DirectiveAction α}
    (h : server.effect event = match action with
      | .dropBuffer | .custom _ => .drops
      | .leave | .showHelp => .keeps) (line arguments : String) :
    Reaction.IsOf server console
      ((server.remember line).followDirective console arguments action) event := by
  cases action with
  | dropBuffer =>
      exact ⟨[], rfl, ⟨by rw [h]; rfl, rfl, rfl, rfl, rfl, rfl, by simp⟩,
        by simp [followDirective]⟩
  | leave =>
      exact ⟨[], rfl, .of_keeps h rfl rfl rfl rfl rfl rfl (by simp), by simp [followDirective]⟩
  | showHelp =>
      obtain ⟨printed, hconsole, isLine⟩ :=
        exists_printLines console (Directive.helpLines server.directives)
      exact ⟨printed, hconsole, .of_keeps h rfl rfl rfl rfl rfl rfl isLine,
        by simp [followDirective]⟩
  | custom action =>
      exact ⟨[], rfl, ⟨by rw [h]; rfl, rfl, rfl, rfl, rfl, rfl, by simp⟩,
        by simp [followDirective]⟩

theorem isOf_takeLine (line : String) :
    Reaction.IsOf server console (server.takeLine console line) (.line line) := by
  unfold takeLine
  split
  · rename_i plain
    exact isOf_takeCode server console (by simp [effect, lineEffect, plain])
  · rename_i keyword arguments form
    unfold takeDirective
    split
    · rename_i directive found
      exact isOf_followDirective server console (by simp [effect, lineEffect, form, found]) _ _
    · rename_i unknown
      split
      · rename_i empty
        refine ⟨[.line unknownDirective], rfl,
          .of_keeps (by simp [effect, lineEffect, form, unknown, empty]) rfl rfl rfl rfl rfl rfl ?_,
          by simp⟩
        intro event mem
        rw [List.mem_singleton.1 mem]
        rfl
      · rename_i begun
        exact isOf_takeCode server console (by simp [effect, lineEffect, form, unknown, begun])

theorem isOf_takeInterrupt :
    Reaction.IsOf server console (server.takeInterrupt console) .interrupt := by
  unfold takeInterrupt
  split
  · exact ⟨[], rfl, ⟨rfl, rfl, rfl, rfl, rfl, rfl, by simp⟩, by simp⟩
  · rename_i empty
    have none : server.buffer = [] := by simpa using empty
    split
    · exact ⟨[], rfl, ⟨none, rfl, rfl, rfl, rfl, rfl, by simp⟩, by simp⟩
    · refine ⟨[.line leaveHint], rfl, ⟨none, rfl, rfl, rfl, rfl, rfl, ?_⟩, by simp⟩
      intro event mem
      rw [List.mem_singleton.1 mem]
      rfl

/-- A server does about an event what the effect of the event says. -/
theorem isOf_react (event : InputEvent) :
    Reaction.IsOf server console (server.react console event) event := by
  cases event with
  | line line =>
      obtain ⟨printed, hconsole, reacts, code⟩ :=
        isOf_takeLine { server with interrupted := false } console line
      exact ⟨printed, hconsole, ⟨reacts.buffer, reacts.prompt, reacts.continuationPrompt,
        reacts.directives, reacts.promptShown, reacts.source, reacts.lines⟩, code⟩
  | interrupt => exact isOf_takeInterrupt server console
  | endOfInput =>
      exact ⟨[], rfl, .of_keeps rfl rfl rfl rfl rfl rfl rfl (by simp), by simp [react]⟩

/-! ## Reads, event by event -/

theorem readInput_of_read_none {server : Server α} {console shown : Console} {editor : Editor}
    (read : server.editor.read server.currentPrompt console = (none, editor, shown)) :
    server.readInput console = (none, { server with editor := editor }, shown) := by
  rw [readInput]
  split <;> rename_i h <;> rw [read] at h <;> cases h
  rfl

theorem readInput_of_react {server next : Server α} {console shown printed : Console}
    {event : InputEvent} {editor : Editor} {input : ServerInput α}
    (taken : server.editor.read server.currentPrompt console = (some event, editor, shown))
    (reacted : { server with editor := editor }.react shown event =
      ⟨some input, next, printed⟩) :
    server.readInput console = (some input, next, printed) := by
  rw [readInput]
  split <;> rename_i h <;> rw [taken] at h <;> cases h
  split <;> rename_i h <;> rw [reacted] at h <;> cases h
  rfl

theorem readInput_of_react_none {server next : Server α}
    {console shown printed : Console} {event : InputEvent} {editor : Editor}
    (taken : server.editor.read server.currentPrompt console = (some event, editor, shown))
    (reacted : { server with editor := editor }.react shown event = ⟨none, next, printed⟩) :
    server.readInput console = next.readInput printed := by
  rw [readInput]
  split <;> rename_i h <;> rw [taken] at h <;> cases h
  split <;> rename_i h <;> rw [reacted] at h <;> cases h
  rfl

end Server

end ScriptConsole
