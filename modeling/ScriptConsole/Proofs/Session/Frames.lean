import ScriptConsole.Proofs.Session.Execution

/-!
# What operations leave as it is

An operation of a session that neither reads nor starts it leaves the input, the
history and the file of the history alone.  It may write to the console, and its server
may note that a prompt is shown.
-/

namespace ScriptConsole

namespace ConsoleEvent

def isRead : ConsoleEvent → Bool
  | read _ _ => true
  | _ => false

end ConsoleEvent

/-- A server that has read nothing and has the same history. -/
structure Server.Untouched {α : Type} (before after : Server α) : Prop where
  source : after.editor.source = before.editor.source
  history : after.editor.history = before.editor.history
  historyPath : after.historyPath = before.historyPath

namespace Server.Untouched

variable {α : Type} {before middle after : Server α}

theorem refl (server : Server α) : Untouched server server :=
  ⟨rfl, rfl, rfl⟩

theorem trans (first : Untouched before middle) (second : Untouched middle after) :
    Untouched before after where
  source := second.source.trans first.source
  history := second.history.trans first.history
  historyPath := second.historyPath.trans first.historyPath

theorem of_leftAlone {written : List ConsoleEvent} (left : LeftAlone written before after) :
    Untouched before after :=
  ⟨left.source, left.history, left.historyPath⟩

theorem setCompletions (server : Server α) (names : List String) :
    Untouched server (server.setCompletions names) := by
  unfold Server.setCompletions Editor.setCompletions
  split <;> exact ⟨rfl, rfl, rfl⟩

end Server.Untouched

namespace Session

variable {ν : Type}

/-- A session that has read nothing, written no file and neither started nor ended, and
in which the same callbacks wait for the start. -/
structure Untouched (before after : Session ν) : Prop where
  server : Option.Rel Server.Untouched before.world.server after.world.server
  editor : after.editor = before.editor
  historyPath : after.historyPath = before.historyPath
  ready : after.ready = before.ready
  phase : after.phase = before.phase
  disk : after.disk = before.disk
  written : ∃ written, after.world.console.events = written ++ before.world.console.events ∧
    ∀ event ∈ written, event.isRead = false

namespace Untouched

variable {before middle after : Session ν}

theorem relServer_refl {α : Type} (server : Option (Server α)) :
    Option.Rel Server.Untouched server server := by
  cases server with
  | none => exact .none
  | some server => exact .some (.refl server)

theorem relServer_of_leftAlone {α : Type} {written : List ConsoleEvent}
    {server next : Option (Server α)} :
    Option.Rel (Server.LeftAlone written) server next → Option.Rel Server.Untouched server next
  | .none => .none
  | .some left => .some (.of_leftAlone left)

theorem of_eq (world : after.world.server = before.world.server)
    (console : after.world.console = before.world.console) (editor : after.editor = before.editor)
    (historyPath : after.historyPath = before.historyPath) (ready : after.ready = before.ready)
    (phase : after.phase = before.phase) (disk : after.disk = before.disk) :
    Untouched before after :=
  ⟨world ▸ relServer_refl _, editor, historyPath, ready, phase, disk, [], by simp [console],
    by simp⟩

theorem refl (session : Session ν) : Untouched session session :=
  of_eq rfl rfl rfl rfl rfl rfl rfl

theorem trans (first : Untouched before middle) (second : Untouched middle after) :
    Untouched before after where
  server := by
    have related := first.server
    have related' := second.server
    cases h : before.world.server <;> cases h' : middle.world.server <;>
      cases h'' : after.world.server <;> rw [h, h'] at related <;> rw [h', h''] at related' <;>
      cases related <;> cases related'
    · exact .none
    · rename_i first second
      exact .some (first.trans second)
  editor := second.editor.trans first.editor
  historyPath := second.historyPath.trans first.historyPath
  ready := second.ready.trans first.ready
  phase := second.phase.trans first.phase
  disk := second.disk.trans first.disk
  written := by
    obtain ⟨written, events, noRead⟩ := first.written
    obtain ⟨more, events', noRead'⟩ := second.written
    refine ⟨more ++ written, by rw [events', events, List.append_assoc], ?_⟩
    exact List.forall_mem_append.2 ⟨noRead', noRead⟩

theorem of_prints {world : World (SessionAction ν)} (prints : before.world.Prints world) :
    Untouched before { before with world := world } := by
  obtain ⟨written, writes⟩ := prints
  refine ⟨relServer_of_leftAlone writes.server, rfl, rfl, rfl, rfl, rfl, written,
    congrArg Console.events writes.console, fun event mem => ?_⟩
  rcases writes.events event mem with isLine | ⟨server, -, rfl⟩
  · cases event <;> cases isLine <;> rfl
  · rfl

theorem of_server {server next : Server (SessionAction ν)}
    (isOpen : before.world.server = some server) (untouched : Server.Untouched server next) :
    Untouched before (before.withServer next before.world.console) := by
  refine ⟨?_, rfl, rfl, rfl, rfl, rfl, [], rfl, by simp⟩
  rw [isOpen]
  exact .some untouched

theorem remaining_eq (untouched : Untouched before after) :
    after.remaining = before.remaining := by
  have related := untouched.server
  have editor := untouched.editor
  cases h : before.world.server <;> cases h' : after.world.server <;> rw [h, h'] at related <;>
    cases related
  · simp [remaining, currentEditor, h, h', editor]
  · rename_i same
    simp [remaining, currentEditor, h, h', Editor.remaining, same.source]

theorem foldl {β : Type} {step : Session ν → β → Session ν}
    (each : ∀ session item, Untouched session (step session item)) (items : List β)
    (session : Session ν) : Untouched session (items.foldl step session) := by
  induction items generalizing session with
  | nil => exact .refl session
  | cons item items ih => exact (each session item).trans (ih _)

end Untouched

theorem untouched_printLine (session : Session ν) (text : String) :
    Untouched session (session.printLine text) :=
  .of_prints (World.prints_printLine _ _)

theorem untouched_showPrompt (session : Session ν) : Untouched session session.showPrompt :=
  .of_prints (World.prints_showPrompt _)

theorem untouched_notify (session : Session ν) (text : String) :
    Untouched session (session.notify text) :=
  .of_prints (World.prints_notify _ _)

theorem untouched_list (session : Session ν) : Untouched session session.list :=
  (Untouched.foldl untouched_printLine _ session).trans (untouched_showPrompt _)

theorem untouched_evaluateAs (session : Session ν) (label code : String) :
    Untouched session (session.evaluateAs label code).2 :=
  .of_prints (World.prints_evaluate ..)

theorem untouched_evaluate (session : Session ν) (code : String) :
    Untouched session (session.evaluate code).2 := by
  have counted : Untouched session { session with evaluations := session.evaluations + 1 } :=
    .of_eq rfl rfl rfl rfl rfl rfl rfl
  exact counted.trans (untouched_evaluateAs _ _ _)

theorem untouched_publishCompletions (session : Session ν) :
    Untouched session session.publishCompletions := by
  unfold publishCompletions
  split
  · exact .refl session
  · rename_i server isOpen
    exact .of_server isOpen (.setCompletions server _)

theorem untouched_define (session : Session ν) (name help : String) (action : SessionAction ν) :
    Untouched session (session.define name help action).2 := by
  unfold define
  split
  · exact .refl session
  · rename_i server isOpen
    have untouched : Server.Untouched server (server.define name help action) := ⟨rfl, rfl, rfl⟩
    exact .of_server isOpen untouched

theorem untouched_settleDown (session : Session ν) : Untouched session session.settleDown := by
  have turned : Untouched session { session with world := session.world.round } :=
    .of_prints (World.prints_round _)
  exact turned.trans (untouched_publishCompletions _)

theorem untouched_conclude (session : Session ν) (text : String) :
    Untouched session (session.conclude text) := by
  unfold conclude
  split
  · exact .refl session
  · rename_i server isOpen
    have cleared : Server.Untouched server server.clearBuffer := ⟨rfl, rfl, rfl⟩
    exact (Untouched.of_server isOpen cleared).trans (untouched_printLine _ text)

theorem untouched_handleStatement (session : Session ν) (code : String) :
    Untouched session (session.handleStatement code) := by
  have noted : Untouched session (session.noting code) :=
    ⟨Untouched.relServer_refl _, rfl, rfl, rfl, rfl, rfl, [.evaluated code], rfl, by
      simp [ConsoleEvent.isRead]⟩
  have evaluated : Untouched session (session.evaluated code) :=
    noted.trans (untouched_evaluate _ code)
  rw [handleStatement_eq]
  match session.outcome code with
  | .ok value => exact evaluated.trans (untouched_conclude _ _)
  | .error (.failed error) => exact evaluated.trans (untouched_conclude _ _)
  | .error (.unfinished error) => exact evaluated

/-- Closing ends the session, and writes only the file of the history. -/
theorem close_eq (session : Session ν) :
    ∃ disk, session.close.2 = { session with phase := .terminated, disk := disk } ∧
      ((∀ server, session.world.server = some server → server.historyPath = none) →
        disk = session.disk) := by
  unfold close
  dsimp only
  split
  · exact ⟨session.disk, rfl, fun _ => rfl⟩
  · rename_i server isOpen
    split
    · exact ⟨session.disk, rfl, fun _ => rfl⟩
    · rename_i disk saved
      refine ⟨disk, rfl, fun noFile => ?_⟩
      rw [Server.close, noFile server isOpen] at saved
      cases saved
      rfl

end Session

end ScriptConsole
