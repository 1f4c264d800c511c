import ScriptConsole.Proofs.Server.Effects

/-!
# Interrupts

An interrupt drops the statement that is being typed.  At an empty buffer it asks
to leave, and it is obeyed if the event before it asked as well.  The server
remembers that by a mark, which every line and every interrupt sets anew; here
the mark is compared with a log of all that was typed, over any sequence of calls.
-/

namespace ScriptConsole

namespace Server

variable {α : Type}

/-! ## What is typed, and the calls that take it -/

/-- A line or an interrupt that is taken, with the server and the console as it comes. -/
structure Taken (α : Type) where
  server : Server α
  console : Console
  event : InputEvent

namespace Taken

/-- What the server makes of the event; an input of it is what the read returns. -/
def reaction (taken : Taken α) : Reaction α :=
  taken.server.react taken.console taken.event

/-- An interrupt at an empty buffer. -/
def AsksToLeave (taken : Taken α) : Prop :=
  taken.event = .interrupt ∧ taken.server.buffer = []

end Taken

/-- A read with the lines and interrupts that it takes.  It returns with the first of them
that makes an input, or as the input ends. -/
inductive Reads : Server α → Console → List (Taken α) → Option (ServerInput α) → Server α →
    Console → Prop where
  | unreadable {server : Server α} {console shown : Console} {editor : Editor}
      (read : server.editor.read server.currentPrompt console = (none, editor, shown)) :
      Reads server console [] none { server with editor := editor } shown
  | ends {server : Server α} {console shown : Console} {editor : Editor}
      (read : server.editor.read server.currentPrompt console =
        (some .endOfInput, editor, shown)) :
      Reads server console [] (some .leave) { server with editor := editor } shown
  | answers {server next : Server α} {console shown printed : Console} {editor : Editor}
      {event : InputEvent} {input : ServerInput α}
      (read : server.editor.read server.currentPrompt console = (some event, editor, shown))
      (typed : event ≠ .endOfInput)
      (reacts : { server with editor := editor }.react shown event =
        ⟨some input, next, printed⟩) :
      Reads server console [⟨{ server with editor := editor }, shown, event⟩] (some input) next
        printed
  | goesOn {server next after : Server α} {console shown printed last : Console}
      {editor : Editor} {event : InputEvent} {log : List (Taken α)}
      {input : Option (ServerInput α)}
      (read : server.editor.read server.currentPrompt console = (some event, editor, shown))
      (typed : event ≠ .endOfInput)
      (reacts : { server with editor := editor }.react shown event = ⟨none, next, printed⟩)
      (further : Reads next printed log input after last) :
      Reads server console (⟨{ server with editor := editor }, shown, event⟩ :: log) input after
        last

inductive Call (α : Type) where
  | readInput
  | clearBuffer
  | displayPrompt
  | define (name help : String) (action : α)
  | setCompletions (names : List String)

/-- A call with what is typed in it. -/
inductive Does : Call α → Server α → Console → List (Taken α) → Server α → Console → Prop where
  | readInput {server next : Server α} {console shown : Console} {log : List (Taken α)}
      {input : Option (ServerInput α)}
      (returns : server.readInput console = (input, next, shown))
      (reads : Reads server console log input next shown) :
      Does .readInput server console log next shown
  | clearBuffer (server : Server α) (console : Console) :
      Does .clearBuffer server console [] server.clearBuffer console
  | displayPrompt (server : Server α) (console : Console) :
      Does .displayPrompt server console [] (server.displayPrompt console).1
        (server.displayPrompt console).2
  | define (server : Server α) (console : Console) (name help : String) (action : α) :
      Does (.define name help action) server console [] (server.define name help action) console
  | setCompletions (server : Server α) (console : Console) (names : List String) :
      Does (.setCompletions names) server console [] (server.setCompletions names) console

/-- Calls on a server, one after the other, with all that is typed in them. -/
inductive Serves : Server α → Console → List (Call α) → List (Taken α) → Server α → Console →
    Prop where
  | done (server : Server α) (console : Console) : Serves server console [] [] server console
  | call {server next after : Server α} {console shown last : Console} {call : Call α}
      {calls : List (Call α)} {first log : List (Taken α)}
      (does : Does call server console first next shown)
      (further : Serves next shown calls log after last) :
      Serves server console (call :: calls) (first ++ log) after last

theorem Reads.readInput_eq {server next : Server α} {console shown : Console}
    {log : List (Taken α)} {input : Option (ServerInput α)}
    (reads : Reads server console log input next shown) :
    server.readInput console = (input, next, shown) := by
  induction reads with
  | unreadable read => exact readInput_of_read_none read
  | ends read => exact readInput_of_react read rfl
  | answers read _ reacts => exact readInput_of_react read reacts
  | goesOn read _ reacts _ ih => exact (readInput_of_react_none read reacts).trans ih

theorem exists_reads (server : Server α) (console : Console) :
    ∃ log input next shown, Reads server console log input next shown := by
  fun_induction server.readInput console with
  | case1 server console editor shown read => exact ⟨_, _, _, _, .unreadable read⟩
  | case2 server console event editor shown read input next printed reacts =>
      by_cases ended : event = .endOfInput
      · subst ended
        exact ⟨_, _, _, _, .ends read⟩
      · exact ⟨_, _, _, _, .answers read ended reacts⟩
  | case3 server console event editor shown read next printed reacts ih =>
      obtain ⟨log, input, after, last, further⟩ := ih
      have typed : event ≠ .endOfInput := by
        rintro rfl
        cases reacts
      exact ⟨_, _, _, _, .goesOn read typed reacts further⟩

theorem Does.of_reads {server next : Server α} {console shown : Console}
    {log : List (Taken α)} {input : Option (ServerInput α)}
    (reads : Reads server console log input next shown) :
    Does .readInput server console log next shown :=
  .readInput reads.readInput_eq reads

theorem exists_does (call : Call α) (server : Server α) (console : Console) :
    ∃ log next shown, Does call server console log next shown := by
  cases call with
  | readInput =>
      obtain ⟨log, input, next, shown, reads⟩ := exists_reads server console
      exact ⟨log, next, shown, .of_reads reads⟩
  | clearBuffer => exact ⟨_, _, _, .clearBuffer server console⟩
  | displayPrompt => exact ⟨_, _, _, .displayPrompt server console⟩
  | define name help action => exact ⟨_, _, _, .define server console name help action⟩
  | setCompletions names => exact ⟨_, _, _, .setCompletions server console names⟩

theorem exists_serves (calls : List (Call α)) (server : Server α) (console : Console) :
    ∃ log after last, Serves server console calls log after last := by
  induction calls generalizing server console with
  | nil => exact ⟨_, _, _, .done server console⟩
  | cons call calls ih =>
      obtain ⟨first, next, shown, does⟩ := exists_does call server console
      obtain ⟨log, after, last, further⟩ := ih next shown
      exact ⟨_, _, _, .call does further⟩

/-! ## The mark -/

section

variable (server : Server α) (console : Console)

theorem interrupted_followDirective (arguments : String) (action : DirectiveAction α) :
    (server.followDirective console arguments action).server.interrupted =
      server.interrupted := by
  cases action <;> rfl

theorem interrupted_takeCode (line : String) :
    (server.takeCode console line).server.interrupted = server.interrupted := by
  unfold takeCode
  split <;> rfl

theorem interrupted_takeDirective (line keyword arguments : String) :
    (server.takeDirective console line keyword arguments).server.interrupted =
      server.interrupted := by
  unfold takeDirective
  split
  · simp only [interrupted_followDirective, remember]
  · split
    · rfl
    · exact interrupted_takeCode ..

theorem interrupted_takeLine (line : String) :
    (server.takeLine console line).server.interrupted = server.interrupted := by
  unfold takeLine
  split
  · exact interrupted_takeCode ..
  · exact interrupted_takeDirective ..

/-- An interrupt inside a statement drops it, and nothing else comes of it. -/
theorem takeInterrupt_of_begun (begun : server.buffer ≠ []) :
    server.takeInterrupt console =
      ⟨none, { server with buffer := [], interrupted := false }, console⟩ := by
  simp [takeInterrupt, begun]

/-- An interrupt before a statement leaves if the mark is set, and sets it. -/
theorem takeInterrupt_of_empty (empty : server.buffer = []) :
    (server.takeInterrupt console).server.interrupted = true ∧
      ((server.takeInterrupt console).input? = some .leave ↔ server.interrupted = true) := by
  cases marked : server.interrupted <;> simp [takeInterrupt, empty, marked]

theorem leave_takeInterrupt_iff :
    (server.takeInterrupt console).input? = some .leave ↔
      server.buffer = [] ∧ server.interrupted = true := by
  by_cases empty : server.buffer = []
  · simp [(server.takeInterrupt_of_empty console empty).2, empty]
  · simp [server.takeInterrupt_of_begun console empty, empty]

end

namespace Taken

variable (taken : Taken α)

/-- The mark that an event leaves tells whether it asked to leave. -/
theorem interrupted_reaction_iff (typed : taken.event ≠ .endOfInput) :
    taken.reaction.server.interrupted = true ↔ taken.AsksToLeave := by
  obtain ⟨server, console, event⟩ := taken
  cases event with
  | line line => simp [reaction, react, AsksToLeave, interrupted_takeLine]
  | interrupt =>
      by_cases empty : server.buffer = []
      · simp [reaction, react, AsksToLeave, empty, (server.takeInterrupt_of_empty console empty).1]
      · simp [reaction, react, AsksToLeave, empty, server.takeInterrupt_of_begun console empty]
  | endOfInput => exact absurd rfl typed

theorem buffer_reaction_of_interrupt (interrupt : taken.event = .interrupt) :
    taken.reaction.server.buffer = [] := by
  obtain ⟨_, _, reacts, _⟩ := taken.server.isOf_react taken.console taken.event
  rw [reaction, reacts.buffer, interrupt]
  rfl

end Taken

/-- The mark of a server after a log: it is set if the latest event asked to leave, and
only at an empty buffer. -/
structure Marks (log : List (Taken α)) (server : Server α) : Prop where
  interrupted_iff : server.interrupted = true ↔ ∃ latest ∈ log.getLast?, latest.AsksToLeave
  empty : server.interrupted = true → server.buffer = []

theorem marks_ofEditor (prompt continuationPrompt : String) (editor : Editor) :
    Marks [] (ofEditor prompt continuationPrompt editor : Server α) :=
  ⟨by simp [ofEditor], by simp [ofEditor]⟩

theorem Marks.of_eq {log : List (Taken α)} {server after : Server α} (marks : Marks log server)
    (interrupted : after.interrupted = server.interrupted)
    (buffer : server.buffer = [] → after.buffer = []) : Marks log after :=
  ⟨interrupted ▸ marks.interrupted_iff, fun marked => buffer (marks.empty (interrupted ▸ marked))⟩

/-- Whatever the mark was, an event sets it right. -/
theorem Taken.marks_reaction (log : List (Taken α)) (taken : Taken α)
    (typed : taken.event ≠ .endOfInput) : Marks (log ++ [taken]) taken.reaction.server where
  interrupted_iff := by simp [taken.interrupted_reaction_iff typed]
  empty marked :=
    taken.buffer_reaction_of_interrupt ((taken.interrupted_reaction_iff typed).1 marked).1

/-- A log that fits a server: its events came as the mark was right, and so it is now. -/
structure Fits (log : List (Taken α)) (server : Server α) : Prop where
  marks : Marks log server
  events : ∀ earlier taken, earlier ++ [taken] <+: log →
    taken.event ≠ .endOfInput ∧ Marks earlier taken.server

namespace Fits

variable {before log : List (Taken α)} {server after : Server α} {console last : Console}

theorem ofEditor (prompt continuationPrompt : String) (editor : Editor) :
    Fits [] (ofEditor prompt continuationPrompt editor : Server α) where
  marks := marks_ofEditor ..
  events := by simp

theorem of_eq (fits : Fits log server) (interrupted : after.interrupted = server.interrupted)
    (buffer : server.buffer = [] → after.buffer = []) : Fits log after :=
  ⟨fits.marks.of_eq interrupted buffer, fits.events⟩

theorem reaction (fits : Fits log server) (taken : Taken α) (typed : taken.event ≠ .endOfInput)
    (interrupted : taken.server.interrupted = server.interrupted)
    (buffer : taken.server.buffer = server.buffer) :
    Fits (log ++ [taken]) taken.reaction.server where
  marks := taken.marks_reaction log typed
  events earlier latest isPrefix := by
    rcases List.prefix_concat_iff.1 isPrefix with whole | isPrefix
    · obtain ⟨rfl, rfl⟩ : earlier = log ∧ latest = taken := by simpa using whole
      exact ⟨typed, fits.marks.of_eq interrupted fun empty => buffer.trans empty⟩
    · exact fits.events earlier latest isPrefix

/-- One read more; by induction on the events that it takes. -/
theorem reads (fits : Fits before server) {input : Option (ServerInput α)}
    (reads : Reads server console log input after last) : Fits (before ++ log) after := by
  induction reads generalizing before with
  | unreadable read =>
      rw [List.append_nil]
      exact fits.of_eq rfl id
  | ends read =>
      rw [List.append_nil]
      exact fits.of_eq rfl id
  | @answers server next console shown printed editor event input read typed reacts =>
      have fits := fits.reaction ⟨{ server with editor := editor }, shown, event⟩ typed rfl rfl
      rwa [Taken.reaction, reacts] at fits
  | @goesOn server next after console shown printed last editor event log input read typed reacts
      further ih =>
      have fits := fits.reaction ⟨{ server with editor := editor }, shown, event⟩ typed rfl rfl
      rw [Taken.reaction, reacts] at fits
      simpa using ih fits

theorem does (fits : Fits before server) {call : Call α}
    (does : Does call server console log after last) : Fits (before ++ log) after := by
  cases does with
  | readInput _ reads => exact fits.reads reads
  | clearBuffer =>
      rw [List.append_nil]
      exact fits.of_eq rfl fun _ => rfl
  | displayPrompt | define | setCompletions =>
      rw [List.append_nil]
      exact fits.of_eq rfl id

theorem serves (fits : Fits before server) {calls : List (Call α)}
    (serves : Serves server console calls log after last) : Fits (before ++ log) after := by
  induction serves generalizing before with
  | done => simpa using fits
  | call does _ ih =>
      rw [← List.append_assoc]
      exact ih (fits.does does)

end Fits

/-- Whatever calls are made on a server and whatever is typed, an interrupt makes a read
return with an end exactly if it comes at an empty buffer right after another that came
at an empty buffer.  An interrupt inside a statement drops it, prints nothing and leaves
no mark; and the mark is set only at an empty buffer, after every event and every call. -/
theorem leave_iff_interrupted_twice (prompt continuationPrompt : String) (editor : Editor)
    (console : Console) (calls : List (Call α)) :
    (∃ log after last,
      Serves (ofEditor prompt continuationPrompt editor) console calls log after last) ∧
    ∀ log after last,
      Serves (ofEditor prompt continuationPrompt editor) console calls log after last →
        (∀ earlier taken, earlier ++ [taken] <+: log →
          (taken.event = .interrupt →
            (taken.reaction.input? = some .leave ↔
              taken.server.buffer = [] ∧ ∃ previous ∈ earlier.getLast?,
                previous.event = .interrupt ∧ previous.server.buffer = []) ∧
            (taken.server.buffer ≠ [] →
              taken.reaction.server.buffer = [] ∧ taken.reaction.console = taken.console ∧
                taken.reaction.input? = none ∧ taken.reaction.server.interrupted = false)) ∧
          (taken.reaction.server.interrupted = true → taken.reaction.server.buffer = [])) ∧
        (after.interrupted = true → after.buffer = []) := by
  refine ⟨exists_serves calls _ console, fun log after last serves => ?_⟩
  have fits := (Fits.ofEditor prompt continuationPrompt editor).serves serves
  refine ⟨fun earlier taken isPrefix => ?_, fits.marks.empty⟩
  obtain ⟨typed, marks⟩ := fits.events earlier taken isPrefix
  refine ⟨fun interrupt => ?_, (taken.marks_reaction earlier typed).empty⟩
  have reacts : taken.reaction = taken.server.takeInterrupt taken.console := by
    rw [Taken.reaction, interrupt]
    rfl
  rw [reacts]
  constructor
  · rw [leave_takeInterrupt_iff, marks.interrupted_iff]
    rfl
  · intro begun
    rw [taken.server.takeInterrupt_of_begun taken.console begun]
    exact ⟨rfl, rfl, rfl, rfl⟩

/-- A line and three interrupts: the first drops the line, the second asks to leave and
the third leaves. -/
theorem leave_iff_interrupted_twice_scripted :
    ∃ (first second third fourth : Taken Unit) (after : Server Unit) (last : Console),
      Serves (ofEditor "> " "... "
          (.scripted [.line "f(", .interrupt, .interrupt, .interrupt])) .empty
        [.readInput, .readInput] [first, second, third, fourth] after last ∧
      second.reaction.server.buffer = [] ∧ third.reaction.input? ≠ some .leave ∧
      fourth.reaction.input? = some .leave := by
  have typed : InputEvent.interrupt ≠ .endOfInput := by decide
  obtain ⟨first, second, third, fourth, after, last, serves, begun, asks, again⟩ :
      ∃ (first second third fourth : Taken Unit) (after : Server Unit) (last : Console),
        Serves (ofEditor "> " "... "
            (.scripted [.line "f(", .interrupt, .interrupt, .interrupt])) .empty
          [.readInput, .readInput] [first, second, third, fourth] after last ∧
        (second.event = .interrupt ∧ second.server.buffer = ["f("]) ∧ third.AsksToLeave ∧
        fourth.AsksToLeave :=
    ⟨_, _, _, _, _, _, .call (.of_reads (.answers rfl (by decide) rfl))
      (.call (.of_reads
        (.goesOn rfl typed rfl (.goesOn rfl typed rfl (.answers rfl typed rfl)))) (.done _ _)),
      ⟨rfl, rfl⟩, ⟨rfl, rfl⟩, rfl, rfl⟩
  have events := ((leave_iff_interrupted_twice "> " "... " _ .empty _).2 _ _ _ serves).1
  have dropped := ((events [first] second ⟨[third, fourth], rfl⟩).1 begun.1).2
  have refused := ((events [first, second] third ⟨[fourth], rfl⟩).1 asks.1).1
  have obeyed := ((events [first, second, third] fourth List.prefix_rfl).1 again.1).1
  refine ⟨first, second, third, fourth, after, last, serves, (dropped (by simp [begun.2])).1,
    fun leave => ?_, obeyed.2 ⟨again.2, third, rfl, asks⟩⟩
  obtain ⟨previous, latest, _, empty⟩ := (refused.1 leave).2
  obtain rfl : second = previous := by simpa using latest
  simp [begun.2] at empty

end Server

end ScriptConsole
