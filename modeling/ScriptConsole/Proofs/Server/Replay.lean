import ScriptConsole.Proofs.History.File
import ScriptConsole.Proofs.Server.Effects

/-!
# Replayed and piped lines

A server does not look at where its lines come from.  Lines that are replayed and the same
lines piped in, each with a line feed behind it, give the session the same inputs and leave
the same behind, but for the echo of what is replayed.
-/

namespace ScriptConsole

/-! ## Without the echo -/

def ConsoleEvent.unechoed : ConsoleEvent → ConsoleEvent
  | read event _ => read event false
  | event => event

namespace Console

/-- A transcript from which the echo of all that was read is removed. -/
def unechoed (console : Console) : Console :=
  ⟨console.events.map ConsoleEvent.unechoed⟩

/-- A view of transcripts that every line is written into as it is. -/
def KeepsLines (view : Console → Console) : Prop :=
  ∀ console text, view (printLine console text) = (view console).printLine text

theorem keepsLines_id : KeepsLines id := fun _ _ => rfl

theorem keepsLines_unechoed : KeepsLines unechoed := fun _ _ => rfl

theorem KeepsLines.printLines {view : Console → Console} (keeps : KeepsLines view)
    (console : Console) (lines : List String) :
    view (console.printLines lines) = (view console).printLines lines := by
  unfold Console.printLines
  induction lines generalizing console with
  | nil => rfl
  | cons line lines ih => rw [List.foldl_cons, ih, keeps, List.foldl_cons]

end Console

/-! ## The two sources -/

namespace InputSource

/-- The bytes of some lines, each with a line feed behind it. -/
def bytesOf (lines : List String) : List UInt8 :=
  (Text.encode (String.join (lines.map (· ++ "\n")))).data.toList

def replaying (lines : List String) : InputSource :=
  .scripted (lines.map .line)

def piping (lines : List String) : InputSource :=
  .piped (bytesOf lines)

def firstOf : List String → InputEvent
  | [] => .endOfInput
  | line :: _ => .line line

theorem next_replaying (lines : List String) :
    (replaying lines).next = (some (firstOf lines), replaying lines.tail) := by
  cases lines <;> rfl

theorem eq_lineFeed_of_mem_encode {c : Char} (mem : 10 ∈ String.utf8EncodeChar c) : c = '\n' := by
  have byte : ∀ n : Nat, n < 256 → (10 : UInt8) = UInt8.ofNat n → n = 10 := by
    intro n small same
    have value := congrArg UInt8.toNat same
    rw [UInt8.toNat_ofNat', Nat.mod_eq_of_lt small] at value
    exact value.symm
  suffices value : c.val.toNat = 10 from Char.ext (UInt32.toNat_inj.1 value)
  unfold String.utf8EncodeChar at mem
  dsimp only at mem
  split at mem
  · exact byte _ (by omega) (List.mem_singleton.1 mem)
  -- All bytes of a longer character are at least 128.
  · exfalso
    split at mem
    · simp only [List.mem_cons, List.not_mem_nil, or_false] at mem
      rcases mem with same | same <;> have := byte _ (by omega) same <;> omega
    · split at mem <;> simp only [List.mem_cons, List.not_mem_nil, or_false] at mem
      · rcases mem with same | same | same <;> have := byte _ (by omega) same <;> omega
      · rcases mem with same | same | same | same <;> have := byte _ (by omega) same <;> omega

theorem cutLine_append_lineFeed {line : List UInt8} (noFeed : 10 ∉ line) (rest : List UInt8) :
    cutLine (line ++ 10 :: rest) = (line ++ [10], rest) := by
  induction line with
  | nil => rfl
  | cons byte line ih =>
      rw [List.mem_cons, not_or] at noFeed
      rw [List.cons_append, cutLine, if_neg (Ne.symm noFeed.1), ih noFeed.2]
      rfl

theorem bytesOf_cons (line : String) (lines : List String) :
    bytesOf (line :: lines) =
      line.toList.flatMap String.utf8EncodeChar ++ 10 :: bytesOf lines := by
  rw [bytesOf, Text.toList_encode, bytesOf, Text.toList_encode]
  simp [String.toList_join, encode_lineFeed]

section Line

variable {line : String} (isLine : History.IsLine line)

include isLine

theorem cutLine_bytesOf_cons (lines : List String) :
    cutLine (bytesOf (line :: lines)) =
      (line.toList.flatMap String.utf8EncodeChar ++ [10], bytesOf lines) := by
  have noFeed : 10 ∉ line.toList.flatMap String.utf8EncodeChar := by
    intro mem
    obtain ⟨c, inLine, feed⟩ := List.mem_flatMap.1 mem
    exact isLine.1 (eq_lineFeed_of_mem_encode feed ▸ inLine)
  rw [bytesOf_cons, cutLine_append_lineFeed noFeed]

theorem withoutBreak_append_lineFeed :
    withoutBreak (line.toList ++ ['\n']) = line.toList := by
  have kept : line.toList.rdropWhile (fun c => c = '\n' || c = '\r') = line.toList := by
    refine List.rdropWhile_eq_self_iff.2 fun ne_nil => ?_
    have noFeed : line.toList.getLast ne_nil ≠ '\n' :=
      fun feed => isLine.1 (feed ▸ List.getLast_mem ne_nil)
    have noReturn : line.toList.getLast ne_nil ≠ '\r' :=
      fun last => isLine.2 (last ▸ List.getLast?_eq_some_getLast ne_nil)
    simp [noFeed, noReturn]
  exact (List.rdropWhile_concat_pos _ _ _ rfl).trans kept

theorem eventOfBytes?_line :
    eventOfBytes? (line.toList.flatMap String.utf8EncodeChar ++ [10]) = some (.line line) := by
  have bytes : (line.toList.flatMap String.utf8EncodeChar ++ [10]).toArray =
      (Text.encode (line ++ "\n")).data := by
    rw [← Array.toList_inj, Text.toList_encode]
    simp [encode_lineFeed]
  have inhabited : (line.toList.flatMap String.utf8EncodeChar ++ [10]).isEmpty = false := by simp
  have decoded : Text.decode? ⟨(Text.encode (line ++ "\n")).data⟩ = some (line ++ "\n") :=
    Text.decode?_encode _
  have text : (line ++ "\n").toList = line.toList ++ ['\n'] := String.toList_append
  rw [eventOfBytes?, inhabited, if_neg Bool.false_ne_true, bytes, decoded, Option.map_some, text,
    withoutBreak_append_lineFeed isLine, String.ofList_toList]

end Line

theorem next_piping {lines : List String} (areLines : ∀ line ∈ lines, History.IsLine line) :
    (piping lines).next = (some (firstOf lines), piping lines.tail) := by
  cases lines with
  | nil => rfl
  | cons line lines =>
      have isLine := areLines line List.mem_cons_self
      rw [piping, next, cutLine_bytesOf_cons isLine, eventOfBytes?_line isLine]
      rfl

end InputSource

/-! ## A server with another source -/

namespace Server

variable {α : Type}

/-- A server whose input comes from somewhere else. -/
def withSource (server : Server α) (source : InputSource) : Server α :=
  { server with editor := { server.editor with source := source } }

section Fields

variable (server : Server α) (source : InputSource)

@[simp] theorem buffer_withSource : (server.withSource source).buffer = server.buffer := rfl

@[simp] theorem directives_withSource :
    (server.withSource source).directives = server.directives := rfl

@[simp] theorem interrupted_withSource :
    (server.withSource source).interrupted = server.interrupted := rfl

@[simp] theorem currentPrompt_withSource :
    (server.withSource source).currentPrompt = server.currentPrompt := rfl

@[simp] theorem remember_withSource (line : String) :
    (server.withSource source).remember line = (server.remember line).withSource source := rfl

end Fields

/-- A reaction with another source of input and a view of what is printed. -/
def Reaction.seenBy (reaction : Reaction α) (source : InputSource) (view : Console → Console) :
    Reaction α :=
  ⟨reaction.input?, reaction.server.withSource source, view reaction.console⟩

section

variable {view : Console → Console} (keeps : Console.KeepsLines view) (server : Server α)
  (source : InputSource) (console : Console)

theorem takeCode_withSource (line : String) :
    (server.withSource source).takeCode (view console) line =
      (server.takeCode console line).seenBy source view := by
  rw [takeCode, takeCode, buffer_withSource]
  by_cases quiet : (server.buffer.isEmpty && Text.isAllBlank line.toList) = true
  · rw [if_pos quiet, if_pos quiet]
    rfl
  · rw [if_neg quiet, if_neg quiet]
    rfl

include keeps

theorem followDirective_withSource (arguments : String) (action : DirectiveAction α) :
    (server.withSource source).followDirective (view console) arguments action =
      (server.followDirective console arguments action).seenBy source view := by
  cases action with
  | showHelp =>
      simp only [followDirective, Reaction.seenBy, directives_withSource, keeps.printLines]
  | _ => rfl

theorem takeDirective_withSource (line keyword arguments : String) :
    (server.withSource source).takeDirective (view console) line keyword arguments =
      (server.takeDirective console line keyword arguments).seenBy source view := by
  rw [takeDirective, takeDirective, directives_withSource]
  cases Dictionary.find? keyword server.directives with
  | some directive =>
      simp only [remember_withSource]
      exact followDirective_withSource keeps (server.remember _) source console arguments _
  | none =>
      by_cases empty : server.buffer.isEmpty = true
      · simp only [buffer_withSource, empty, if_true, ← keeps console, Reaction.seenBy]
      · simp only [buffer_withSource, empty]
        exact takeCode_withSource server source console line

/-- What a server makes of an event does not depend on where its input comes from, nor on
what else was printed. -/
theorem react_withSource (event : InputEvent) :
    (server.withSource source).react (view console) event =
      (server.react console event).seenBy source view := by
  cases event with
  | endOfInput => rfl
  | interrupt =>
      simp only [react, takeInterrupt, buffer_withSource, interrupted_withSource,
        ← keeps console]
      cases server.buffer.isEmpty <;> cases server.interrupted <;> rfl
  | line line =>
      have unmarked : { server.withSource source with interrupted := false } =
          { server with interrupted := false }.withSource source := rfl
      simp only [react, takeLine, unmarked]
      split
      · exact takeCode_withSource _ source console line
      · exact takeDirective_withSource keeps _ source console line _ _

end

/-! ## Reads -/

/-- A server once it has read, so that no prompt is shown ahead. -/
def unprompted (server : Server α) : Server α :=
  { server with editor := { server.editor with promptShown := false } }

theorem read_withSource (server : Server α) {source rest : InputSource} {event : InputEvent}
    (next : source.next = (some event, rest)) (prompt : String) (console : Console) :
    (server.withSource source).editor.read prompt console =
      (some event, (server.unprompted.withSource rest).editor,
        (server.editor.ensurePrompt prompt console).record (.read event rest.echoes)) := by
  have found : (server.withSource source).editor.source.next = (some event, rest) := next
  rw [Editor.read, found]
  rfl

/-- A read from a source, told by what a server makes of the event without it. -/
theorem readInput_withSource {view : Console → Console} (keeps : Console.KeepsLines view)
    (server : Server α) {source rest : InputSource} {event : InputEvent}
    (next : source.next = (some event, rest)) {console shown : Console}
    (shows : view shown = (server.editor.ensurePrompt server.currentPrompt console).record
      (.read event rest.echoes)) :
    (server.withSource source).readInput console =
      match server.unprompted.react shown event with
      | ⟨some input, after, printed⟩ => (some input, after.withSource rest, view printed)
      | ⟨none, after, printed⟩ => (after.withSource rest).readInput (view printed) := by
  have read := server.read_withSource next server.currentPrompt console
  have reacts := react_withSource keeps server.unprompted rest shown event
  rw [← shows] at read
  cases reaction : server.unprompted.react shown event with
  | mk input after printed =>
      rw [reaction] at reacts
      cases input with
      | some input => exact readInput_of_react read reacts
      | none => exact readInput_of_react_none read reacts

theorem unechoed_ensurePrompt (editor : Editor) (prompt : String) (console : Console) :
    (editor.ensurePrompt prompt console).unechoed =
      editor.ensurePrompt prompt console.unechoed := by
  unfold Editor.ensurePrompt
  split <;> rfl

/-- The transcript once the first of some lines is replayed. -/
def replayedTo (server : Server α) (console : Console) (lines : List String) : Console :=
  (server.editor.ensurePrompt server.currentPrompt console).record
    (.read (InputSource.firstOf lines) true)

theorem readInput_replaying (server : Server α) (console : Console) (lines : List String) :
    (server.withSource (.replaying lines)).readInput console =
      match server.unprompted.react (server.replayedTo console lines)
        (InputSource.firstOf lines) with
      | ⟨some input, after, printed⟩ =>
          (some input, after.withSource (.replaying lines.tail), printed)
      | ⟨none, after, printed⟩ => (after.withSource (.replaying lines.tail)).readInput printed :=
  readInput_withSource Console.keepsLines_id server (InputSource.next_replaying lines) rfl

theorem readInput_piping (server : Server α) (console : Console) {lines : List String}
    (areLines : ∀ line ∈ lines, History.IsLine line) :
    (server.withSource (.piping lines)).readInput console.unechoed =
      match server.unprompted.react (server.replayedTo console lines)
        (InputSource.firstOf lines) with
      | ⟨some input, after, printed⟩ =>
          (some input, after.withSource (.piping lines.tail), printed.unechoed)
      | ⟨none, after, printed⟩ =>
          (after.withSource (.piping lines.tail)).readInput printed.unechoed := by
  refine readInput_withSource Console.keepsLines_unechoed server
    (InputSource.next_piping areLines) ?_
  rw [← unechoed_ensurePrompt]
  rfl

/-- A read of replayed lines and one of the same lines piped in give the same and leave the
same; by induction on the lines. -/
theorem exists_readInput {lines : List String} (areLines : ∀ line ∈ lines, History.IsLine line)
    (server : Server α) (console : Console) :
    ∃ (input : ServerInput α) (after : Server α) (shown : Console) (rest : List String),
      rest <:+ lines ∧
      (server.withSource (.replaying lines)).readInput console =
        (some input, after.withSource (.replaying rest), shown) ∧
      (server.withSource (.piping lines)).readInput console.unechoed =
        (some input, after.withSource (.piping rest), shown.unechoed) := by
  induction lines generalizing server console with
  | nil =>
      exact ⟨_, _, _, [], List.suffix_refl _, readInput_replaying server console [],
        readInput_piping server console areLines⟩
  | cons line lines ih =>
      have replayed := readInput_replaying server console (line :: lines)
      have piped := readInput_piping server console areLines
      cases reaction : server.unprompted.react (server.replayedTo console (line :: lines))
          (.line line) with
      | mk input after printed =>
          simp only [InputSource.firstOf, reaction] at replayed piped
          cases input with
          | some input =>
              exact ⟨input, after, printed, lines, List.suffix_cons _ _, replayed, piped⟩
          | none =>
              obtain ⟨input, last, shown, rest, ends, again, alike⟩ :=
                ih (List.forall_mem_of_forall_mem_cons areLines) after printed
              exact ⟨input, last, shown, rest, ends.trans (List.suffix_cons _ _),
                replayed.trans again, piped.trans alike⟩

/-! ## Calls -/

inductive Request (α : Type) where
  | readInput
  | displayPrompt
  | clearBuffer
  | printResult (palette : Palette) (promises : Promises) (value : Value)
  | define (name help : String) (action : α)

inductive Answer (α : Type) where
  /-- A read gives an input for the session. -/
  | input (input : ServerInput α)
  /-- What is read is no text. -/
  | unreadable
  /-- Nothing is read. -/
  | done

def answer (server : Server α) (console : Console) : Request α → Answer α × Server α × Console
  | .readInput =>
      match server.readInput console with
      | (some input, server, console) => (.input input, server, console)
      | (none, server, console) => (.unreadable, server, console)
  | .displayPrompt => (.done, server.displayPrompt console)
  | .clearBuffer => (.done, server.clearBuffer, console)
  | .printResult palette promises value =>
      (.done, server, console.printLine (resultLine palette promises value))
  | .define name help action => (.done, server.define name help action, console)

/-- What can be seen of a server after a request. -/
structure Observation (α : Type) where
  answer : Answer α
  buffer : List String
  /-- The entries of the history. -/
  entries : List String
  /-- All that was written and read so far. -/
  console : Console

/-- What is seen without the echo of what was read. -/
def Observation.unechoed (observation : Observation α) : Observation α :=
  { observation with console := observation.console.unechoed }

/-- What is seen after each of some requests. -/
def observe (server : Server α) (console : Console) : List (Request α) → List (Observation α)
  | [] => []
  | request :: requests =>
      let (answer, server, console) := server.answer console request
      ⟨answer, server.buffer, server.editor.history.entries, console⟩ ::
        server.observe console requests

theorem exists_answer {lines : List String} (areLines : ∀ line ∈ lines, History.IsLine line)
    (server : Server α) (console : Console) (request : Request α) :
    ∃ (answer : Answer α) (after : Server α) (shown : Console) (rest : List String),
      rest <:+ lines ∧ answer ≠ .unreadable ∧
      (server.withSource (.replaying lines)).answer console request =
        (answer, after.withSource (.replaying rest), shown) ∧
      (server.withSource (.piping lines)).answer console.unechoed request =
        (answer, after.withSource (.piping rest), shown.unechoed) := by
  cases request with
  | readInput =>
      obtain ⟨input, after, shown, rest, ends, replayed, piped⟩ :=
        exists_readInput areLines server console
      refine ⟨.input input, after, shown, rest, ends, nofun, ?_, ?_⟩
      · rw [answer, replayed]
      · rw [answer, piped]
  | displayPrompt =>
      exact ⟨.done, (server.displayPrompt console).1, (server.displayPrompt console).2, lines,
        List.suffix_refl _, nofun, rfl, rfl⟩
  | clearBuffer =>
      exact ⟨.done, server.clearBuffer, console, lines, List.suffix_refl _, nofun, rfl, rfl⟩
  | printResult palette promises value =>
      exact ⟨.done, server, _, lines, List.suffix_refl _, nofun, rfl, rfl⟩
  | define name help action =>
      exact ⟨.done, server.define name help action, console, lines, List.suffix_refl _, nofun,
        rfl, rfl⟩

/-- All requests are answered alike; by induction on them. -/
theorem observe_replaying {lines : List String} (areLines : ∀ line ∈ lines, History.IsLine line)
    (server : Server α) (console : Console) (requests : List (Request α)) :
    ((server.withSource (.replaying lines)).observe console requests).map Observation.unechoed =
        (server.withSource (.piping lines)).observe console.unechoed requests ∧
      ∀ observation ∈ (server.withSource (.piping lines)).observe console.unechoed requests,
        observation.answer ≠ .unreadable := by
  induction requests generalizing lines server console with
  | nil => exact ⟨rfl, List.forall_mem_nil _⟩
  | cons request requests ih =>
      obtain ⟨answer, after, shown, rest, ends, readable, replayed, piped⟩ :=
        exists_answer areLines server console request
      obtain ⟨same, others⟩ :=
        ih (fun line mem => areLines line (ends.subset mem)) after shown
      rw [observe, observe, replayed, piped]
      refine ⟨?_, List.forall_mem_cons.2 ⟨readable, others⟩⟩
      rw [List.map_cons, same]
      rfl

/-- A server that replays lines and one that the same lines are piped into, each with a line
feed behind it, answer any requests alike: the same statements, directives and ends, with the
same lines buffered and the same history.  The transcripts are the same, and so is what is
written, once the echo of each line and of the end of input is removed. -/
theorem observe_piped (prompt continuationPrompt : String) {lines : List String}
    (areLines : ∀ line ∈ lines, '\n' ∉ line.toList ∧ line.toList.getLast? ≠ some '\r')
    (requests : List (Request α)) :
    let replayed : Server α :=
      ofEditor prompt continuationPrompt (.scripted (lines.map .line))
    let piped : Server α :=
      ofEditor prompt continuationPrompt (.piped (InputSource.bytesOf lines) 1000)
    (replayed.observe .empty requests).map Observation.unechoed = piped.observe .empty requests ∧
      (∀ observation ∈ piped.observe .empty requests, observation.answer ≠ .unreadable) ∧
      (piped.observe .empty requests).map (·.console.output) =
        (replayed.observe .empty requests).map (·.console.unechoed.output) := by
  intro replayed piped
  obtain ⟨same, readable⟩ := observe_replaying areLines piped .empty requests
  refine ⟨same, readable, ?_⟩
  rw [show piped.observe .empty requests = _ from same.symm, List.map_map]
  rfl

section Several

/-- A server with a directive of the embedding. -/
private def loading (buffer entries : List String) : Server Unit :=
  { (ofEditor "> " "... " (.scripted [])).define "load" "" () with
    buffer := buffer
    editor := ⟨.scripted [], ⟨entries, 1000⟩, false, []⟩ }

private theorem find?_loading (buffer entries : List String) (keyword : String) :
    Dictionary.find? keyword (loading buffer entries).directives =
      if keyword = "load" then some ⟨"", .custom ()⟩
      else Dictionary.find? keyword Directive.standard :=
  Directive.find?_define (by decide) "load" _ keyword

private theorem react_statement {line : String} {entries after : List String}
    (plain : Directive.ofLine? (Text.trim line.toList) = none)
    (visible : Text.isAllBlank line.toList = false)
    (added : History.add ⟨entries, 1000⟩ line = ⟨after, 1000⟩) (console : Console) :
    (loading [] entries).react console (.line line) =
      ⟨some (.statement line), loading [line] after, console⟩ := by
  have remembered : (loading [] entries).remember line = loading [] after := by
    simp only [remember, Editor.remember, loading, added]
  have taken : (loading [] entries).takeCode console line =
      ⟨some (.statement line),
        { (loading [] entries).remember line with buffer := [line] }, console⟩ := by
    rw [takeCode, visible]
    rfl
  have unmarked : { loading [] entries with interrupted := false } = loading [] entries := rfl
  rw [react, unmarked, takeLine, plain]
  simp only [taken, remembered]
  rfl

private theorem react_directive {line keyword arguments : String}
    {buffer entries after : List String} {directive : Directive Unit}
    (form : Directive.ofLine? (Text.trim line.toList) = some (keyword, arguments))
    (found : Dictionary.find? keyword (loading buffer entries).directives = some directive)
    (added : History.add ⟨entries, 1000⟩ (String.ofList (Text.trim line.toList)) =
      ⟨after, 1000⟩) (console : Console) :
    (loading buffer entries).react console (.line line) =
      (loading buffer after).followDirective console arguments directive.action := by
  have unmarked : { loading buffer entries with interrupted := false } =
      loading buffer entries := rfl
  have remembered : (loading buffer entries).remember (String.ofList (Text.trim line.toList)) =
      loading buffer after := by
    simp only [remember, Editor.remember, loading, added]
  rw [react, unmarked, takeLine, form]
  simp only [takeDirective, found, remembered]

private theorem readInput_line {buffer entries lines : List String} {line : String}
    {after : Server Unit} {input : ServerInput Unit} {console shown printed : Console}
    (shows : (loading buffer entries).replayedTo console (line :: lines) = shown)
    (reacts : (loading buffer entries).react shown (.line line) = ⟨some input, after, printed⟩) :
    ((loading buffer entries).withSource (.replaying (line :: lines))).readInput console =
      (some input, after.withSource (.replaying lines), printed) := by
  have unprompted : (loading buffer entries).unprompted = loading buffer entries := rfl
  rw [readInput_replaying, unprompted, shows]
  simp only [InputSource.firstOf, reacts]
  rfl

private theorem readInput_pass {buffer entries lines : List String} {line : String}
    {after : Server Unit} {console shown printed : Console}
    (shows : (loading buffer entries).replayedTo console (line :: lines) = shown)
    (reacts : (loading buffer entries).react shown (.line line) = ⟨none, after, printed⟩) :
    ((loading buffer entries).withSource (.replaying (line :: lines))).readInput console =
      (after.withSource (.replaying lines)).readInput printed := by
  have unprompted : (loading buffer entries).unprompted = loading buffer entries := rfl
  rw [readInput_replaying, unprompted, shows]
  simp only [InputSource.firstOf, reacts]
  rfl

/-- A blank line, a statement that a directive drops, another whose line is cleared, and a
directive of the embedding; then the end of input. -/
theorem observe_piped_several :
    let lines := ["", "f(", ".break", "x", ".load a b"]
    let requests : List (Request Unit) :=
      [.define "load" "" (), .readInput, .readInput, .clearBuffer, .readInput, .readInput]
    ∃ replayed piped : List (Observation Unit),
      replayed = (ofEditor "> " "... " (.scripted (lines.map .line))).observe .empty requests ∧
      piped = (ofEditor "> " "... " (.piped (InputSource.bytesOf lines) 1000)).observe .empty
        requests ∧
      replayed.map Observation.unechoed = piped ∧
      piped.map (·.answer) =
        [.done, .input (.statement "f("), .input (.statement "x"), .done,
          .input (.directive () "a b"), .input .leave] ∧
      piped.map (·.buffer) = [[], ["f("], ["x"], [], [], []] ∧
      piped.map (·.entries) =
        [[], ["f("], ["f(", ".break", "x"], ["f(", ".break", "x"],
          ["f(", ".break", "x", ".load a b"], ["f(", ".break", "x", ".load a b"]] ∧
      (replayed.map (·.console.output)).getLast? =
        some "> \n> f(\n... .break\n> x\n> .load a b\n> \n" ∧
      (piped.map (·.console.output)).getLast? = some "> > ... > > > " := by
  intro lines requests
  let blank : Console := (Console.empty.printPrompt "> ").record (.read (.line "") true)
  let begun : Console := (blank.printPrompt "> ").record (.read (.line "f(") true)
  let dropped : Console := (begun.printPrompt "... ").record (.read (.line ".break") true)
  let further : Console := (dropped.printPrompt "> ").record (.read (.line "x") true)
  let loaded : Console := (further.printPrompt "> ").record (.read (.line ".load a b") true)
  let ended : Console := (loaded.printPrompt "> ").record (.read .endOfInput true)
  have stop : Dictionary.find? "break" (loading ["f("] ["f("]).directives =
      some ⟨"Sometimes you get stuck, this gets you out", .dropBuffer⟩ := by
    rw [find?_loading]
    rfl
  have load : Dictionary.find? "load" (loading [] ["f(", ".break", "x"]).directives =
      some ⟨"", .custom ()⟩ := by
    rw [find?_loading]
    rfl
  have passes : (loading [] []).react blank (.line "") = ⟨none, loading [] [], blank⟩ := rfl
  have first : ((loading [] []).withSource (.replaying lines)).readInput .empty =
      (some (.statement "f("),
        (loading ["f("] ["f("]).withSource (.replaying [".break", "x", ".load a b"]), begun) :=
    (readInput_pass rfl passes).trans
      (readInput_line rfl (react_statement (by decide) (by decide) (by decide) begun))
  have drops : (loading ["f("] ["f("]).react dropped (.line ".break") =
      ⟨none, loading [] ["f(", ".break"], dropped⟩ := by
    have form : Directive.ofLine? (Text.trim ".break".toList) = some ("break", "") := by decide
    exact react_directive form stop (by decide) dropped
  have second : ((loading ["f("] ["f("]).withSource
      (.replaying [".break", "x", ".load a b"])).readInput begun =
        (some (.statement "x"),
          (loading ["x"] ["f(", ".break", "x"]).withSource (.replaying [".load a b"]), further) :=
    (readInput_pass rfl drops).trans
      (readInput_line rfl (react_statement (by decide) (by decide) (by decide) further))
  have loads : (loading [] ["f(", ".break", "x"]).react loaded (.line ".load a b") =
      ⟨some (.directive () "a b"), loading [] ["f(", ".break", "x", ".load a b"], loaded⟩ := by
    have form : Directive.ofLine? (Text.trim ".load a b".toList) = some ("load", "a b") := by
      decide
    have added : History.add ⟨["f(", ".break", "x"], 1000⟩ ".load a b" =
        ⟨["f(", ".break", "x", ".load a b"], 1000⟩ := by
      decide
    exact react_directive form load added loaded
  have third : ((loading [] ["f(", ".break", "x"]).withSource
      (.replaying [".load a b"])).readInput further =
        (some (.directive () "a b"),
          (loading [] ["f(", ".break", "x", ".load a b"]).withSource (.replaying []), loaded) :=
    readInput_line rfl loads
  have last : ((loading [] ["f(", ".break", "x", ".load a b"]).withSource
      (.replaying [])).readInput loaded =
        (some .leave,
          (loading [] ["f(", ".break", "x", ".load a b"]).withSource (.replaying []), ended) :=
    readInput_replaying _ loaded []
  have defined : (ofEditor "> " "... " (.scripted (lines.map .line)) : Server Unit).define
      "load" "" () = (loading [] []).withSource (.replaying lines) := rfl
  have cleared : ((loading ["x"] ["f(", ".break", "x"]).withSource
      (.replaying [".load a b"])).clearBuffer =
        (loading [] ["f(", ".break", "x"]).withSource (.replaying [".load a b"]) := rfl
  have replayed : (ofEditor "> " "... " (.scripted (lines.map .line)) : Server Unit).observe
      .empty requests =
        [⟨.done, [], [], .empty⟩, ⟨.input (.statement "f("), ["f("], ["f("], begun⟩,
          ⟨.input (.statement "x"), ["x"], ["f(", ".break", "x"], further⟩,
          ⟨.done, [], ["f(", ".break", "x"], further⟩,
          ⟨.input (.directive () "a b"), [], ["f(", ".break", "x", ".load a b"], loaded⟩,
          ⟨.input .leave, [], ["f(", ".break", "x", ".load a b"], ended⟩] := by
    simp only [requests, observe, answer, defined, first, second, cleared, third, last]
    rfl
  have areLines : ∀ line ∈ lines, '\n' ∉ line.toList ∧ line.toList.getLast? ≠ some '\r' := by
    decide
  have same : ((ofEditor "> " "... " (.scripted (lines.map .line)) : Server Unit).observe
      .empty requests).map Observation.unechoed = _ :=
    (observe_piped "> " "... " areLines requests).1
  rw [replayed] at same
  refine ⟨_, _, replayed.symm, same, rfl, rfl, rfl, rfl, ?_, ?_⟩
  · decide
  · decide

end Several

end Server

end ScriptConsole
