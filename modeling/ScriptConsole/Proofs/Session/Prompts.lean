import ScriptConsole.Proofs.Session.Execution

/-!
# Prompts

Every read has a prompt before it.  A prompt that is shown ahead of the read is
remembered in one bit: the read shows none of its own then, however many there
are and whatever was written after them.
-/

namespace ScriptConsole.Session

variable {ν : Type}

namespace Deed

/-- What a deed writes; for a read, what it writes afterwards. -/
def written : Deed → List ConsoleEvent
  | wrote written | launched written => written
  | read _ _ _ _ printed => printed
  | unreadable _ => []
  | evaluated _ _ written reported => reported ++ written

def shown? : Deed → Option (List ConsoleEvent)
  | read shown _ _ _ _ | unreadable shown => some shown
  | wrote _ | launched _ | evaluated _ _ _ _ => none

end Deed

/-- What was written since the last read, latest first. -/
def ahead : List Deed → List ConsoleEvent
  | [] => []
  | deed :: earlier => deed.written ++ if deed.shown?.isSome then [] else ahead earlier

/-- Whether the editor tells that a prompt was shown since the last read, and a prompt
that was the last thing written is the one for the next line. -/
structure Prompting (events : List ConsoleEvent) (session : Session ν) : Prop where
  shown : session.currentEditor.promptShown = events.any ConsoleEvent.isPrompt
  latest : ∀ text, events.head? = some (.prompt text) →
    ∃ server, session.world.server = some server ∧ text = server.currentPrompt

theorem exists_eq_prompt {event : ConsoleEvent} (isPrompt : event.isPrompt = true) :
    ∃ text, event = .prompt text := by
  cases event with
  | prompt text => exact ⟨text, rfl⟩
  | line | message | read | evaluated => cases isPrompt

theorem countP_prompt_cons_eq_one {text : String} {events : List ConsoleEvent} :
    (.prompt text :: events).countP ConsoleEvent.isPrompt = 1 ↔
      ∀ event ∈ events, event.isPrompt = false := by
  have counted : (.prompt text :: events).countP ConsoleEvent.isPrompt =
      events.countP ConsoleEvent.isPrompt + 1 := List.countP_cons_of_pos rfl
  rw [counted, Nat.add_eq_right, List.countP_eq_zero]
  simp only [Bool.not_eq_true]

theorem any_isPrompt_of_lines {events : List ConsoleEvent}
    (lines : ∀ event ∈ events, event.isLine = true) :
    events.any ConsoleEvent.isPrompt = false :=
  List.any_eq_false.2 fun event mem => by simp [ConsoleEvent.isPrompt_of_isLine (lines event mem)]

namespace Prompting

variable {before after : Session ν} {events written : List ConsoleEvent}

theorem ne_prompt_of_lines (lines : ∀ event ∈ written, event.isLine = true) {text : String}
    (first : (written ++ events).head? = some (.prompt text)) :
    written = [] ∧ events.head? = some (.prompt text) := by
  cases written with
  | nil => exact ⟨rfl, first⟩
  | cons event written =>
      obtain rfl := Option.some.inj first
      cases lines _ List.mem_cons_self

theorem of_closed (prompting : Prompting events before) (closed : before.world.server = none)
    (lines : ∀ event ∈ written, event.isLine = true)
    (editor : after.currentEditor.promptShown = before.editor.promptShown) :
    Prompting (written ++ events) after where
  shown := by
    rw [editor, List.any_append, any_isPrompt_of_lines lines, ← prompting.shown,
      currentEditor_of_closed closed]
    rfl
  latest text first := by
    obtain ⟨server, isOpen, -⟩ := prompting.latest text (ne_prompt_of_lines lines first).2
    rw [closed] at isOpen
    cases isOpen

theorem of_open (prompting : Prompting events before) {server next : Server (SessionAction ν)}
    (isOpen : before.world.server = some server) (isOpen' : after.world.server = some next)
    (kept : Server.Kept written server next)
    (allowed : ∀ event ∈ written, World.MayWrite (some server) event) :
    Prompting (written ++ events) after where
  shown := by
    rw [currentEditor_of_open isOpen', kept.promptShown, ← currentEditor_of_open isOpen,
      prompting.shown, List.any_append, Bool.or_comm]
  latest text first := by
    refine ⟨next, isOpen', ?_⟩
    rw [kept.currentPrompt_eq]
    cases written with
    | nil =>
        obtain ⟨present, isOpen'', rfl⟩ := prompting.latest text first
        rw [Option.some.inj (isOpen.symm.trans isOpen'')]
    | cons event written =>
        obtain rfl := Option.some.inj first
        obtain ⟨⟨⟩⟩ | ⟨_, ⟨⟩, same⟩ := allowed _ List.mem_cons_self
        exact ConsoleEvent.prompt.inj same

theorem of_read {server : Server (SessionAction ν)} (isOpen : after.world.server = some server)
    (hidden : server.editor.promptShown = false)
    (lines : ∀ event ∈ written, event.isLine = true) : Prompting written after where
  shown := by rw [currentEditor_of_open isOpen, hidden, any_isPrompt_of_lines lines]
  latest text first := by
    rw [← List.append_nil written] at first
    cases (ne_prompt_of_lines lines first).2

end Prompting

/-- What is written by an embedding keeps the account of prompts. -/
theorem Prompting.of_quiet {before after : Session ν} {events written : List ConsoleEvent}
    (prompting : Prompting events before) (quiet : Quiet before written after) :
    Prompting (written ++ events) after := by
  have allowed := quiet.allowed
  obtain ⟨closed, closed'⟩ | ⟨server, next, isOpen, isOpen', kept⟩ := quiet.closed_or_open
  · rw [closed] at allowed
    refine prompting.of_closed closed (fun event mem => ?_) ?_
    · obtain isLine | ⟨_, ⟨⟩, _⟩ := allowed event mem
      exact isLine
    · rw [currentEditor_of_closed closed', quiet.editor]
  · rw [isOpen] at allowed
    exact prompting.of_open isOpen isOpen' kept allowed

theorem Prompting.of_report {before : Session ν} {server : Server (SessionAction ν)}
    {events : List ConsoleEvent} {code : String}
    (prompting : Prompting events (before.evaluated code))
    (isOpen : (before.evaluated code).world.server = some server) :
    Prompting (before.reported code ++ events) (before.handleStatement code) := by
  have concluded (text : String) :
      Prompting (.line text :: events) ((before.evaluated code).conclude text) := by
    refine ⟨?_, by simp⟩
    rw [currentEditor_of_open (server_conclude isOpen text)]
    exact (congrArg Editor.promptShown (currentEditor_of_open isOpen)).symm.trans prompting.shown
  rw [handleStatement_eq, reported]
  cases before.outcome code with
  | ok value => exact concluded _
  | error failure =>
      cases failure with
      | failed error => exact concluded _
      | unfinished error => exact prompting

theorem Prompting.of_does {before after : Session ν} {deed : Deed} {earlier : List Deed}
    (prompting : Prompting (ahead earlier) before) (does : Does before deed after) :
    Prompting (ahead (deed :: earlier)) after := by
  cases does with
  | wrote quiet => exact prompting.of_quiet quiet
  | launched closed _ lines => exact prompting.of_closed closed lines rfl
  | read _ _ taken _ _ reacts =>
      have hidden := (Editor.eq_of_read_some taken).1
      simp only [ahead, Deed.written, Deed.shown?, Option.isSome_some, if_true, List.append_nil]
      exact .of_read rfl (reacts.promptShown.trans hidden) reacts.lines
  | unreadable _ taken =>
      have hidden := (Editor.eq_of_read_none taken).1
      exact .of_read rfl hidden (by simp [ahead, Deed.written, Deed.shown?])
  | @evaluated server code written isOpen _ writes =>
      obtain ⟨next, isOpen', left⟩ := exists_server_evaluated isOpen writes
      have allowed := writes.events
      rw [show (before.noting code).world.server = some server from isOpen] at allowed
      have evaluated := prompting.of_open isOpen isOpen' left.toKept allowed
      have reported := evaluated.of_report isOpen'
      rwa [← List.append_assoc] at reported

theorem Course.prompting {start finish : Session ν} {log : List Deed}
    (course : Course start log finish) (closed : start.world.server = none)
    (fresh : start.editor.promptShown = false) : Prompting (ahead log) finish := by
  induction course with
  | refl =>
      refine ⟨?_, fun _ first => by cases first⟩
      rw [currentEditor_of_closed closed, fresh]
      rfl
  | step _ does ih => exact ih.of_does does

/-- What was written since the last read holds a prompt, and if a prompt is the last
thing written it is the one for the next line. -/
structure Prompted (server : Server (SessionAction ν)) (events : List ConsoleEvent) : Prop where
  shown : events.any ConsoleEvent.isPrompt = true
  right : ∀ text, events.head? = some (.prompt text) → text = server.currentPrompt

/-- What was written since the last read holds one prompt, which is the last thing
written and the one for the next line. -/
structure OnePrompt (server : Server (SessionAction ν)) (events : List ConsoleEvent) : Prop where
  one : events.countP ConsoleEvent.isPrompt = 1
  last : events.head? = some (.prompt server.currentPrompt)

theorem Does.eq_ownPrompt {before after : Session ν} {deed : Deed} {shown : List ConsoleEvent}
    (does : Does before deed after) (reads : deed.shown? = some shown) :
    ∃ server, before.world.server = some server ∧
      shown = server.editor.ownPrompt server.currentPrompt := by
  cases does with
  | read isOpen => exact ⟨_, isOpen, (Option.some.inj reads).symm⟩
  | unreadable isOpen => exact ⟨_, isOpen, (Option.some.inj reads).symm⟩
  | wrote | launched | evaluated => cases reads

namespace Prompting

variable {before : Session ν} {server : Server (SessionAction ν)} {events : List ConsoleEvent}

theorem right_of_open (prompting : Prompting events before)
    (isOpen : before.world.server = some server) {text : String}
    (last : events.head? = some (.prompt text)) : text = server.currentPrompt := by
  obtain ⟨present, isOpen', rfl⟩ := prompting.latest text last
  rw [Option.some.inj (isOpen.symm.trans isOpen')]

theorem ownPrompt_eq (prompting : Prompting events before)
    (isOpen : before.world.server = some server) :
    server.editor.ownPrompt server.currentPrompt =
      if events.any ConsoleEvent.isPrompt then [] else [.prompt server.currentPrompt] := by
  rw [Editor.ownPrompt, ← currentEditor_of_open isOpen, prompting.shown]

theorem prompted (prompting : Prompting events before)
    (isOpen : before.world.server = some server) :
    Prompted server (server.editor.ownPrompt server.currentPrompt ++ events) := by
  rw [prompting.ownPrompt_eq isOpen]
  split
  · rename_i shown
    exact ⟨shown, fun _ last => prompting.right_of_open isOpen last⟩
  · exact ⟨rfl, fun _ last => (ConsoleEvent.prompt.inj (Option.some.inj last)).symm⟩

/-- There is one prompt exactly if nothing was written after a prompt. -/
theorem onePrompt_iff (prompting : Prompting events before)
    (isOpen : before.world.server = some server) :
    OnePrompt server (server.editor.ownPrompt server.currentPrompt ++ events) ↔
      ∀ event ∈ events.tail, event.isPrompt = false := by
  rw [prompting.ownPrompt_eq isOpen]
  cases shown : events.any ConsoleEvent.isPrompt with
  | false =>
      have none : ∀ event ∈ events, event.isPrompt = false := by simpa using shown
      refine ⟨fun _ event mem => none event (List.mem_of_mem_tail mem), fun _ => ⟨?_, rfl⟩⟩
      exact countP_prompt_cons_eq_one.2 none
  | true =>
      cases events with
      | nil => cases shown
      | cons first events =>
          constructor
          · rintro ⟨one, last⟩
            obtain rfl := Option.some.inj last
            exact countP_prompt_cons_eq_one.1 one
          · intro none
            have isPrompt : first.isPrompt = true := by
              have rest : events.any ConsoleEvent.isPrompt = false := by simpa using none
              rw [List.any_cons, rest, Bool.or_false] at shown
              exact shown
            obtain ⟨text, rfl⟩ := exists_eq_prompt isPrompt
            obtain rfl := prompting.right_of_open isOpen rfl
            exact ⟨countP_prompt_cons_eq_one.2 none, rfl⟩

end Prompting

/-- Every read has a prompt before it, and if a prompt is the last thing written it is
the one for the next line.  It is the only one since the read before exactly if
nothing was written after a prompt that was shown ahead. -/
theorem exists_course_of_prompts (host : Execution (SessionAction ν)) (options : SessionOptions)
    (uses : List (Use ν)) (fresh : options.editor.promptShown = false) :
    ∃ log, Course (ofOptions host options) log (ofUses host options uses) ∧
      (ofUses host options uses).world.console.events = log.flatMap Deed.events ∧
      ∀ later deed earlier shown, log = later ++ deed :: earlier → deed.shown? = some shown →
        ∃ before after server, Course (ofOptions host options) earlier before ∧
          Does before deed after ∧ Course after later (ofUses host options uses) ∧
          before.world.server = some server ∧ Prompted server (shown ++ ahead earlier) ∧
          (OnePrompt server (shown ++ ahead earlier) ↔
            ∀ event ∈ (ahead earlier).tail, event.isPrompt = false) := by
  obtain ⟨log, course⟩ := exists_course host options uses
  refine ⟨log, course, course.events_eq.trans (List.append_nil _), ?_⟩
  rintro later deed earlier shown rfl reads
  obtain ⟨before, after, first, does, rest⟩ := course.exists_of_append
  obtain ⟨server, isOpen, rfl⟩ := does.eq_ownPrompt reads
  have prompting := first.prompting rfl fresh
  exact ⟨before, after, server, first, does, rest, isOpen, prompting.prompted isOpen,
    prompting.onePrompt_iff isOpen⟩

/-- A session that is started and run, and reads the end of its input. -/
theorem exists_course_of_prompts_empty :
    (Editor.scripted []).promptShown = false ∧
      ∃ log : List Deed, log.flatMap Deed.events =
          [.read .endOfInput true, .prompt "> (js) ",
            .line "Type \".ls\" to a view list of available context methods/properties",
            .line ""] ∧
        ∀ later deed earlier shown, log = later ++ deed :: earlier → deed.shown? = some shown →
          ∃ server : Server (SessionAction Unit), Prompted server (shown ++ ahead earlier) ∧
            (OnePrompt server (shown ++ ahead earlier) ↔
              ∀ event ∈ (ahead earlier).tail, event.isPrompt = false) := by
  obtain ⟨log, -, events, reads⟩ := @exists_course_of_prompts Unit
    (Host.execution fun _ _ => .give .undefined)
    ⟨none, none, .plain, .scripted [], .empty, [], .empty, {}⟩
    ([.start] ++ [.run]) rfl
  refine ⟨rfl, log, ?_, ?_⟩
  · rw [← events, ofUses_concat, use, run_of_remaining rfl rfl,
      loop_of_end ((turn_of_input rfl (Server.readInput_of_react rfl rfl)).trans rfl)]
    rfl
  · intro later deed earlier shown split isRead
    obtain ⟨-, -, server, -, -, -, -, prompted, iff⟩ :=
      reads later deed earlier shown split isRead
    exact ⟨server, prompted, iff⟩

/-- A statement calls the helper `clear`: the helper shows the continuation prompt, the
result comes after it, and the next read shows no prompt. -/
theorem events_clear :
    (ofUses (Host.execution fun _ _ => .callName "clear" [] .done)
      ⟨none, none, .plain, .scripted [.line "clear()"], .empty, [], .empty, {}⟩
      [.start] : Session Unit).run.2.world.console.events =
      [.read .endOfInput true, .line "undefined", .prompt "... ",
        .line "Define a property name to remove from the context", .evaluated "clear()",
        .read (.line "clear()") true, .prompt "> (js) ",
        .line "Type \".ls\" to a view list of available context methods/properties",
        .line ""] := by
  rw [@run_of_remaining Unit _ 1 rfl rfl,
    loop_of_turn 1 ((turn_of_input rfl (Server.readInput_of_react rfl rfl)).trans
      (obey_of_value rfl rfl (by simp))),
    loop_of_end ((turn_of_input rfl (Server.readInput_of_react rfl rfl)).trans rfl)]
  rfl

end ScriptConsole.Session
