import ScriptConsole.World

/-!
# What programs print

A program prints lines and shows the prompt.  It reads no input, and of the server it
changes only that a prompt may be shown ahead of the next read.
-/

namespace ScriptConsole

namespace Server

variable {α : Type}

/-- A server that was left to its session while some events were written.  Directives may
have been defined, and names offered to complete input. -/
structure Kept (written : List ConsoleEvent) (before after : Server α) : Prop where
  buffer : after.buffer = before.buffer
  prompt : after.prompt = before.prompt
  continuationPrompt : after.continuationPrompt = before.continuationPrompt
  source : after.editor.source = before.editor.source
  promptShown :
    after.editor.promptShown =
      (before.editor.promptShown || written.any ConsoleEvent.isPrompt)
  named : Directive.DropsByName before.directives → Directive.DropsByName after.directives

/-- A server whose history was left alone too. -/
structure LeftAlone (written : List ConsoleEvent) (before after : Server α) : Prop extends
    Kept written before after where
  history : after.editor.history = before.editor.history
  historyPath : after.historyPath = before.historyPath

variable {written more : List ConsoleEvent} {before middle after : Server α}

theorem Kept.refl (server : Server α) : Kept [] server server :=
  ⟨rfl, rfl, rfl, rfl, by simp, id⟩

theorem Kept.trans (first : Kept written before middle) (second : Kept more middle after) :
    Kept (more ++ written) before after where
  buffer := second.buffer.trans first.buffer
  prompt := second.prompt.trans first.prompt
  continuationPrompt := second.continuationPrompt.trans first.continuationPrompt
  source := second.source.trans first.source
  promptShown := by
    rw [second.promptShown, first.promptShown, List.any_append, Bool.or_assoc]
    exact congrArg _ (Bool.or_comm _ _)
  named := fun named => second.named (first.named named)

theorem Kept.currentPrompt_eq (kept : Kept written before after) :
    after.currentPrompt = before.currentPrompt := by
  unfold currentPrompt
  rw [kept.buffer, kept.prompt, kept.continuationPrompt]

namespace LeftAlone

theorem refl (server : Server α) : LeftAlone [] server server :=
  ⟨.refl server, rfl, rfl⟩

theorem trans (first : LeftAlone written before middle) (second : LeftAlone more middle after) :
    LeftAlone (more ++ written) before after where
  toKept := first.toKept.trans second.toKept
  history := second.history.trans first.history
  historyPath := second.historyPath.trans first.historyPath

theorem line {event : ConsoleEvent} (isLine : event.isLine = true) (server : Server α) :
    LeftAlone [event] server server := by
  refine ⟨⟨rfl, rfl, rfl, rfl, ?_, id⟩, rfl, rfl⟩
  simp [ConsoleEvent.isPrompt_of_isLine isLine]

theorem displayPrompt (server : Server α) (console : Console) :
    LeftAlone [.prompt server.currentPrompt] server (server.displayPrompt console).1 := by
  refine ⟨⟨rfl, rfl, rfl, rfl, ?_, id⟩, rfl, rfl⟩
  simp [Server.displayPrompt, Editor.displayPrompt, ConsoleEvent.isPrompt]

theorem rel_refl (server : Option (Server α)) : Option.Rel (LeftAlone []) server server := by
  cases server with
  | none => exact .none
  | some server => exact .some (refl server)

theorem rel_trans {first second third : Option (Server α)} :
    Option.Rel (LeftAlone written) first second → Option.Rel (LeftAlone more) second third →
      Option.Rel (LeftAlone (more ++ written)) first third
  | .none, .none => .none
  | .some left, .some right => .some (left.trans right)

theorem rel_kept {first second : Option (Server α)} :
    Option.Rel (LeftAlone written) first second → Option.Rel (Kept written) first second
  | .none => .none
  | .some left => .some left.toKept

end LeftAlone

end Server

namespace World

variable {α : Type}

/-- Whether an event may be written in a world: a line, or the prompt of its server. -/
def MayWrite (server : Option (Server α)) (event : ConsoleEvent) : Prop :=
  event.isLine = true ∨ ∃ open', server = some open' ∧ event = .prompt open'.currentPrompt

theorem MayWrite.of_rel {before after : Option (Server α)} {written : List ConsoleEvent}
    {event : ConsoleEvent} (may : MayWrite after event)
    (related : Option.Rel (Server.LeftAlone written) before after) : MayWrite before event := by
  rcases may with isLine | ⟨server, rfl, rfl⟩
  · exact .inl isLine
  · cases related with
    | some left => exact .inr ⟨_, rfl, by rw [left.currentPrompt_eq]⟩

/-- A world after some events were written, whose server was left alone. -/
structure Writes (before : World α) (written : List ConsoleEvent) (after : World α) :
    Prop where
  console : after.console = ⟨written ++ before.console.events⟩
  server : Option.Rel (Server.LeftAlone written) before.server after.server
  events : ∀ event ∈ written, MayWrite before.server event

namespace Writes

variable {before middle after : World α}

theorem of_eq (console : after.console = before.console) (server : after.server = before.server) :
    Writes before [] after where
  console := console
  server := server ▸ Server.LeftAlone.rel_refl _
  events := List.forall_mem_nil _

theorem refl (world : World α) : Writes world [] world :=
  of_eq rfl rfl

theorem trans {written more : List ConsoleEvent} (first : Writes before written middle)
    (second : Writes middle more after) : Writes before (more ++ written) after where
  console := by rw [second.console, first.console, List.append_assoc]
  server := Server.LeftAlone.rel_trans first.server second.server
  events := by
    refine List.forall_mem_append.2 ⟨fun event mem => ?_, first.events⟩
    exact (second.events event mem).of_rel first.server

theorem of_line {event : ConsoleEvent} (isLine : event.isLine = true)
    (console : after.console = before.console.record event)
    (server : after.server = before.server) : Writes before [event] after where
  console := console
  server := by
    rw [server]
    cases before.server with
    | none => exact .none
    | some server => exact .some (.line isLine server)
  events := List.forall_mem_singleton.2 (.inl isLine)

theorem exists_server {written : List ConsoleEvent} (writes : Writes before written after)
    {server : Server α} (isOpen : before.server = some server) :
    ∃ next, after.server = some next ∧ Server.LeftAlone written server next := by
  have related := writes.server
  rw [isOpen] at related
  cases h : after.server with
  | none =>
      rw [h] at related
      cases related
  | some next =>
      rw [h] at related
      obtain ⟨left⟩ := related
      exact ⟨next, rfl, left⟩

end Writes

def Prints (before after : World α) : Prop :=
  ∃ written, Writes before written after

namespace Prints

variable {before middle after : World α}

theorem refl (world : World α) : Prints world world :=
  ⟨[], .refl world⟩

theorem trans (first : Prints before middle) (second : Prints middle after) :
    Prints before after := by
  obtain ⟨written, first⟩ := first
  obtain ⟨more, second⟩ := second
  exact ⟨more ++ written, first.trans second⟩

theorem of_eq (console : after.console = before.console) (server : after.server = before.server) :
    Prints before after :=
  ⟨[], .of_eq console server⟩

end Prints

theorem writes_printLine (world : World α) (text : String) :
    Writes world [.line text] (world.printLine text) :=
  .of_line rfl rfl rfl

theorem prints_printLine (world : World α) (text : String) :
    Prints world (world.printLine text) :=
  ⟨_, writes_printLine world text⟩

theorem prints_printMessage (world : World α) (text : String) :
    Prints world (world.printMessage text) :=
  ⟨[.message text], .of_line rfl rfl rfl⟩

theorem prints_showPrompt (world : World α) : Prints world world.showPrompt := by
  unfold showPrompt
  split
  · exact .refl world
  · rename_i server isOpen
    refine ⟨[.prompt server.currentPrompt], rfl, ?_, List.forall_mem_singleton.2 ?_⟩
    · rw [isOpen]
      exact .some (.displayPrompt server _)
    · exact .inr ⟨server, isOpen, rfl⟩

theorem prints_notify (world : World α) (text : String) : Prints world (world.notify text) :=
  (prints_printLine world _).trans (prints_showPrompt _)

def OnlyPrints (caller : Caller α) : Prop :=
  ∀ function arguments world, Prints world (caller function arguments world).2

theorem onlyPrints_refuseCall : OnlyPrints (refuseCall : Caller α) :=
  fun _ _ world => .refl world

theorem prints_callName {caller : Caller α} (only : OnlyPrints caller) (name : String)
    (arguments : List Value) (world : World α) :
    Prints world (callName caller name arguments world).2 := by
  unfold callName
  split
  · exact only ..
  · exact .refl world
  · exact .refl world

theorem prints_runWith {caller : Caller α} (only : OnlyPrints caller) (program : Program)
    (world : World α) : Prints world (runWith caller program world).2 := by
  induction program generalizing world with
  | done outcome => exact .refl world
  | getName name next ih => exact ih _ world
  | setName name value next ih =>
      have named : Prints world (world.setName name value) := .of_eq rfl rfl
      exact named.trans (ih _)
  | removeName name next ih =>
      have removed : Prints world { world with workspace := world.workspace.removeName name } :=
        .of_eq rfl rfl
      exact removed.trans (ih _ _)
  | names next ih => exact ih _ world
  | helperNames next ih => exact ih _ world
  | call function arguments next ih => exact (only function arguments world).trans (ih _ _)
  | callName name arguments next ih =>
      exact (prints_callName only name arguments world).trans (ih _ _)
  | printLine text next ih => exact (prints_printLine world text).trans (ih _)
  | printMessage text next ih => exact (prints_printMessage world text).trans (ih _)
  | notify text next ih => exact (prints_notify world text).trans (ih _)
  | showPrompt next ih => exact (prints_showPrompt world).trans (ih _)
  | palette next ih => exact ih _ world
  | bufferedLines next ih => exact ih _ world
  | makePromise state next ih =>
      have made : Prints world (world.makePromise state).2 := .of_eq rfl rfl
      exact made.trans (ih _ _)
  | spawn rounds lines settlement next ih =>
      have spawned : Prints world (world.spawn rounds lines settlement).2 := .of_eq rfl rfl
      exact spawned.trans (ih _ _)

theorem onlyPrints_callWith {caller : Caller α} (only : OnlyPrints caller) :
    OnlyPrints (callWith caller) := by
  intro function
  induction function with
  | native name identity =>
      intro arguments world
      simp only [callWith]
      split
      · exact prints_runWith only _ world
      · exact .refl world
  | helper name command =>
      intro arguments world
      simp only [callWith]
      split
      · exact prints_runWith only _ world
      · exact .refl world
  | settler promise => exact fun _ _ => .of_eq rfl rfl
  | promisified target ih =>
      intro arguments world
      have called := ih (arguments ++ [.function (.settler (world.makePromise .pending).1)])
        (world.makePromise .pending).2
      have made : Prints world (world.makePromise .pending).2 := .of_eq rfl rfl
      simp only [callWith]
      split
      · rename_i h
        rw [h] at called
        exact made.trans called
      · rename_i h
        rw [h] at called
        exact (made.trans called).trans (.of_eq rfl rfl)

theorem onlyPrints_callAt (depth : Nat) : OnlyPrints (callAt depth : Caller α) := by
  induction depth with
  | zero => exact onlyPrints_callWith onlyPrints_refuseCall
  | succ depth ih => exact onlyPrints_callWith ih

theorem prints_run (program : Program) (world : World α) :
    Prints world (run program world).2 :=
  prints_runWith (onlyPrints_callAt world.limits.callDepth) program world

end World

end ScriptConsole
