import ScriptConsole.Text.Utf8

/-!
# Utilities

The small programs that a compiler command may be made of.  A program turns its
arguments and its input into output, messages and an exit status.
-/

namespace ScriptConsole.Shell

structure Outcome where
  status : Nat
  output : ByteArray
  messages : ByteArray
  deriving Inhabited

namespace Outcome

def silent (status : Nat) : Outcome :=
  ⟨status, .empty, .empty⟩

def printed (output : ByteArray) : Outcome :=
  ⟨0, output, .empty⟩

def complaint (status : Nat) (message : String) : Outcome :=
  ⟨status, .empty, Text.encode (message ++ "\n")⟩

end Outcome

def octalDigit? (c : Char) : Option Nat :=
  if '0' ≤ c ∧ c ≤ '7' then some (c.toNat - '0'.toNat) else none

/-- The byte of an octal number of at most `places` digits that opens a text,
and what follows it. -/
def octalByte (places value : Nat) : List Char → Nat × List Char
  | [] => (value % 256, [])
  | c :: cs =>
      match places, octalDigit? c with
      | places + 1, some digit => octalByte places (value * 8 + digit) cs
      | _, _ => (value % 256, c :: cs)

theorem octalByte_length_le (places value : Nat) (cs : List Char) :
    (octalByte places value cs).2.length ≤ cs.length := by
  induction cs generalizing places value with
  | nil => simp [octalByte]
  | cons c cs ih =>
      unfold octalByte
      split
      · exact Nat.le_succ_of_le (ih _ _)
      · exact Nat.le_refl _

/-- The byte that a backslash and a letter stand for. -/
def letterEscape? (c : Char) : Option Nat :=
  if c = 'a' then some 7
  else if c = 'b' then some 8
  else if c = 'f' then some 12
  else if c = 'n' then some 10
  else if c = 'r' then some 13
  else if c = 't' then some 9
  else if c = 'v' then some 11
  else if c = '\\' then some 0x5c
  else none

def charBytes (c : Char) : ByteArray :=
  Text.encode (String.singleton c)

def oneByte (n : Nat) : ByteArray :=
  .mk #[n.toUInt8]

/-- How a text writes octal escapes: at once after the backslash, or after a
zero. -/
inductive OctalStyle where
  | plain
  | afterZero
  deriving DecidableEq, Repr

/-- The bytes of a text with its backslash escapes. -/
def unescape (style : OctalStyle) (cs : List Char) : ByteArray :=
  match cs with
  | [] => .empty
  | '\\' :: c :: rest =>
      match letterEscape? c with
      | some byte => oneByte byte ++ unescape style rest
      | none =>
          if style = .plain ∧ (octalDigit? c).isSome then
            oneByte (octalByte 3 0 (c :: rest)).1 ++
              unescape style (octalByte 2 0 rest).2
          else if style = .afterZero ∧ c = '0' then
            oneByte (octalByte 3 0 rest).1 ++ unescape style (octalByte 3 0 rest).2
          else charBytes '\\' ++ charBytes c ++ unescape style rest
  | c :: rest => charBytes c ++ unescape style rest
termination_by cs.length
decreasing_by
  all_goals simp only [List.length_cons]
  · omega
  · have := octalByte_length_le 2 0 rest
    omega
  · have := octalByte_length_le 3 0 rest
    omega
  · omega
  · omega

/-- Whether an argument of `echo` is made of option letters. -/
def isEchoOption (argument : String) : Bool :=
  match argument.toList with
  | '-' :: c :: cs => (c :: cs).all fun c => c == 'n' || c == 'e' || c == 'E'
  | _ => false

/-- The options of `echo`.  The one inside of a shell knows a single `-n` only. -/
def echoOptions (builtin : Bool) (arguments : List String) : List String :=
  if builtin then (arguments.take 1).filter (· = "-n") else arguments.takeWhile isEchoOption

/-- Write arguments in one line.  The `echo` inside of a shell always reads
escapes, the other one if the last of its letters for them says so. -/
def echo (builtin : Bool) (arguments : List String) : Outcome :=
  let options := echoOptions builtin arguments
  let letters := options.flatMap fun option => option.toList
  let escapes := builtin || (letters.filter fun c => c == 'e' || c == 'E').getLast? == some 'e'
  let text := " ".intercalate (arguments.drop options.length)
  let body := if escapes then unescape .afterZero text.toList else Text.encode text
  .printed (if letters.contains 'n' then body else body ++ oneByte 10)

/-- A format up to its first directive for an argument, the letter of the
directive, and what follows it. -/
def splitDirective : List Char → List Char × Option (Char × List Char)
  | [] => ([], none)
  | '%' :: '%' :: cs => ('%' :: (splitDirective cs).1, (splitDirective cs).2)
  | ['%'] => (['%'], none)
  | '%' :: c :: cs => ([], some (c, cs))
  | c :: cs => (c :: (splitDirective cs).1, (splitDirective cs).2)

def formatArgument (directive : Char) (argument : Option String) : ByteArray :=
  match argument with
  | none => if directive = 'd' then Text.encode "0" else .empty
  | some argument =>
      if directive = 'b' then unescape .afterZero argument.toList
      else if directive = 'c' then Text.encode (String.ofList (argument.toList.take 1))
      else Text.encode argument

/-- Write a format once, and the arguments that it leaves. -/
def formatOnce (fuel : Nat) (format : List Char) (arguments : List String) :
    ByteArray × List String :=
  match fuel with
  | 0 => (.empty, arguments)
  | fuel + 1 =>
      match splitDirective format with
      | (plain, none) => (unescape .plain plain, arguments)
      | (plain, some (directive, rest)) =>
          let (after, left) := formatOnce fuel rest arguments.tail
          (unescape .plain plain ++ formatArgument directive arguments.head? ++ after, left)

/-- Write a format as often as its arguments need. -/
def formatAll (fuel : Nat) (format : List Char) (arguments : List String) : ByteArray :=
  let (bytes, left) := formatOnce (format.length + 1) format arguments
  match fuel with
  | 0 => bytes
  | fuel + 1 =>
      if left.isEmpty || left.length = arguments.length then bytes
      else bytes ++ formatAll fuel format left

def printf : List String → Outcome
  | [] => .complaint 1 "printf: missing operand"
  | format :: arguments =>
      .printed (formatAll arguments.length format.toList arguments)

/-- Copy the input, or complain about each file, as there are none. -/
def cat (arguments : List String) (input : ByteArray) : Outcome :=
  match arguments.filter (· ≠ "/dev/null") with
  | [] => if arguments.isEmpty then .printed input else .silent 0
  | files =>
      let missing := files.filter (· ≠ "-")
      let messages := missing.map fun file =>
        "cat: " ++ file ++ ": No such file or directory\n"
      ⟨if missing.isEmpty then 0 else 1,
        if files.contains "-" then input else .empty,
        Text.encode (String.join messages)⟩

/-- The name of a program, without the directory that all programs are in. -/
def programName (program : String) : String :=
  if program.startsWith "/usr/bin/" then (program.drop 9).toString
  else if program.startsWith "/bin/" then (program.drop 5).toString
  else program

/-- Run a program by its name; none if there is no such program. -/
def utility? (program : String) (builtin : Bool) (arguments : List String)
    (input : ByteArray) : Option Outcome :=
  match programName program with
  | "cat" => some (cat arguments input)
  | "echo" => some (echo (builtin && program = "echo") arguments)
  | "printf" => some (printf arguments)
  | "true" => some (.silent 0)
  | "false" => some (.silent 1)
  | _ => none

end ScriptConsole.Shell
