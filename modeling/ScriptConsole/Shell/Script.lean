import ScriptConsole.Shell.Utility

/-!
# Shell scripts

A script is a list of commands, run in order.  A command may depend on whether
the one before it succeeded, pass its output on to the next one, and send its
output or its messages elsewhere.  The parameters of a script are known when it
is read, so its words are expanded then.
-/

namespace ScriptConsole.Shell

inductive Sink where
  | output
  | messages
  | nowhere
  deriving DecidableEq, Repr

/-- What joins a command to the one before it. -/
inductive Joint where
  | always
  | onSuccess
  | onFailure
  | pipe
  deriving DecidableEq, Repr

inductive ScriptToken where
  | word (text : String)
  | joint (joint : Joint)
  /-- Send what a channel carries, 1 for output and 2 for messages, to a sink. -/
  | redirect (channel : Nat) (sink : Sink)
  /-- Take no input. -/
  | noInput
  deriving DecidableEq, Repr

/-- The parameter of a script that a character names. -/
def parameter (parameters : List String) (c : Char) : Option String :=
  if '0' ≤ c ∧ c ≤ '9' then some ((parameters[c.toNat - '0'.toNat]?).getD "")
  else if c = '@' ∨ c = '*' then some (" ".intercalate parameters.tail)
  else if c = '#' then some (toString (parameters.length - 1))
  else none

/-- What the reader of a word is inside of. -/
inductive ScriptMode where
  | bare
  | single
  | double
  deriving DecidableEq, Repr

def isScriptSeparator (c : Char) : Bool :=
  c == ' ' || c == '\t' || c == '\n' || c == ';' || c == '&' || c == '|' || c == '<' ||
    c == '>'

/-- A word of a script with its parameters, and what follows it.  None if a
quote is not closed. -/
def readWord (parameters : List String) (mode : ScriptMode) :
    List Char → Option (List Char × List Char)
  | [] => if mode = .bare then some ([], []) else none
  | '$' :: c :: cs =>
      match mode, parameter parameters c with
      | .single, _ =>
          (readWord parameters mode (c :: cs)).map fun parts => ('$' :: parts.1, parts.2)
      | _, some text =>
          (readWord parameters mode cs).map fun parts => (text.toList ++ parts.1, parts.2)
      | _, none =>
          (readWord parameters mode (c :: cs)).map fun parts => ('$' :: parts.1, parts.2)
  | '\\' :: c :: cs =>
      if mode = .single ∨
          (mode = .double ∧ ¬(c = '$' ∨ c = '"' ∨ c = '\\' ∨ c = '\x60')) then
        (readWord parameters mode (c :: cs)).map fun parts => ('\\' :: parts.1, parts.2)
      else (readWord parameters mode cs).map fun parts => (c :: parts.1, parts.2)
  | c :: cs =>
      let keep mode := readWord parameters mode cs
      let push mode := (keep mode).map fun parts => (c :: parts.1, parts.2)
      match mode with
      | .bare =>
          if c = '\'' then keep .single
          else if c = '"' then keep .double
          else if isScriptSeparator c then some ([], c :: cs)
          else push .bare
      | .single => if c = '\'' then keep .bare else push .single
      | .double => if c = '"' then keep .bare else push .double

/-- The sink that the target of a redirection names; none for a file. -/
def sink? (target : String) : Option Sink :=
  if target = "/dev/null" then some .nowhere
  else if target = "/dev/stderr" then some .messages
  else if target = "/dev/stdout" then some .output
  else none

/-- The tokens of a script.  None if it cannot be read. -/
def scriptTokens (parameters : List String) (fuel : Nat) (cs : List Char) :
    Option (List ScriptToken) :=
  match fuel with
  | 0 => none
  | fuel + 1 =>
      let further := scriptTokens parameters fuel
      let redirection (channel : Nat) (cs : List Char) :=
        match cs with
        | '&' :: '1' :: cs => (further cs).map (.redirect channel .output :: ·)
        | '&' :: '2' :: cs => (further cs).map (.redirect channel .messages :: ·)
        | cs => do
            let (target, rest) ← readWord parameters .bare (cs.dropWhile (· == ' '))
            let sink ← sink? (String.ofList target)
            (further rest).map (.redirect channel sink :: ·)
      match cs with
      | [] => some []
      | '&' :: '&' :: cs => (further cs).map (.joint .onSuccess :: ·)
      | '|' :: '|' :: cs => (further cs).map (.joint .onFailure :: ·)
      | '|' :: cs => (further cs).map (.joint .pipe :: ·)
      | ';' :: cs | '\n' :: cs => (further cs).map (.joint .always :: ·)
      | '1' :: '>' :: cs => redirection 1 cs
      | '2' :: '>' :: cs => redirection 2 cs
      | '>' :: cs => redirection 1 cs
      | '<' :: cs => do
          let (target, rest) ← readWord parameters .bare (cs.dropWhile (· == ' '))
          if String.ofList target = "/dev/null" then (further rest).map (.noInput :: ·)
          else none
      | '&' :: _ => none
      | '#' :: cs => further (cs.dropWhile (· != '\n'))
      | c :: cs =>
          if c = ' ' ∨ c = '\t' then further cs
          else do
            let (word, rest) ← readWord parameters .bare (c :: cs)
            (further rest).map (.word (String.ofList word) :: ·)

/-- A program with its arguments and its redirections. -/
structure SimpleCommand where
  joint : Joint
  words : List String
  redirects : List (Nat × Sink)
  noInput : Bool
  deriving Repr

def commandsFrom (current : SimpleCommand) : List ScriptToken → List SimpleCommand
  | [] => [current]
  | .word text :: rest =>
      commandsFrom { current with words := current.words ++ [text] } rest
  | .redirect channel sink :: rest =>
      commandsFrom { current with redirects := current.redirects ++ [(channel, sink)] } rest
  | .noInput :: rest => commandsFrom { current with noInput := true } rest
  | .joint joint :: rest => current :: commandsFrom ⟨joint, [], [], false⟩ rest

/-- The sinks of output and of messages after some redirections. -/
def sinksAfter (sinks : Sink × Sink) : List (Nat × Sink) → Sink × Sink
  | [] => sinks
  | (channel, target) :: rest =>
      let resolved :=
        match target with
        | .output => sinks.1
        | .messages => sinks.2
        | .nowhere => .nowhere
      sinksAfter (if channel = 1 then (resolved, sinks.2) else (sinks.1, resolved)) rest

structure Progress where
  input : ByteArray
  output : ByteArray
  messages : ByteArray
  status : Nat
  /-- What the last command passes to the next one of its pipe. -/
  piped : ByteArray
  ended : Bool

namespace Progress

def write (sink : Sink) (bytes : ByteArray) (progress : Progress) : Progress :=
  match sink with
  | .output => { progress with output := progress.output ++ bytes }
  | .messages => { progress with messages := progress.messages ++ bytes }
  | .nowhere => progress

/-- Run one program of a script called `name`; `pipes` tells that its output
goes to the next one. -/
def run (name : String) (command : SimpleCommand) (pipes : Bool)
    (progress : Progress) : Progress :=
  match command.words with
  | [] => { progress with status := 0, piped := .empty }
  | "exit" :: rest =>
      { progress with
        status := ((rest.head?.bind String.toNat?).getD progress.status) % 256
        ended := true }
  | ":" :: _ => { progress with status := 0, piped := .empty }
  | program :: arguments =>
      let fromPipe := command.joint = .pipe
      let input :=
        if command.noInput then .empty
        else if fromPipe then progress.piped
        else progress.input
      let readsInput := programName program = "cat" && arguments.isEmpty && !command.noInput
      let outcome := (utility? program true arguments input).getD
        (.complaint 127 (name ++ ": 1: " ++ program ++ ": not found"))
      let sinks := sinksAfter (.output, .messages) command.redirects
      let progress :=
        if readsInput && !fromPipe then { progress with input := .empty } else progress
      let progress := progress.write sinks.2 outcome.messages
      let progress :=
        if pipes && sinks.1 = .output then { progress with piped := outcome.output }
        else { progress.write sinks.1 outcome.output with piped := .empty }
      { progress with status := outcome.status }

/-- Run the commands of a script called `name`. -/
def runAll (name : String) (progress : Progress) : List SimpleCommand → Progress
  | [] => progress
  | command :: rest =>
      let pipes := rest.head?.any fun next => next.joint = .pipe
      let skipped :=
        (command.joint = .onSuccess && progress.status != 0) ||
          (command.joint = .onFailure && progress.status == 0)
      if progress.ended then progress
      else if skipped then runAll name progress rest
      else runAll name (progress.run name command pipes) rest

end Progress

/-- Run a script with its parameters, the first of which is its name. -/
def runScript (script : String) (parameters : List String) (input : ByteArray) :
    Outcome :=
  let name := parameters.head?.getD "sh"
  match scriptTokens parameters (script.length + 1) script.toList with
  | none => .complaint 2 (name ++ ": 1: Syntax error")
  | some tokens =>
      let progress := Progress.runAll name ⟨input, .empty, .empty, 0, .empty, false⟩
        (commandsFrom ⟨.always, [], [], false⟩ tokens)
      ⟨progress.status, progress.output, progress.messages⟩

/-- Run a program with its arguments; none if there is no such program. -/
def run? (program : String) (arguments : List String) (input : ByteArray) :
    Option Outcome :=
  match programName program, arguments with
  | "sh", "-c" :: script :: parameters =>
      some (runScript script (if parameters.isEmpty then ["sh"] else parameters) input)
  | "sh", _ => some (.silent 0)
  | _, _ => utility? program false arguments input

end ScriptConsole.Shell
