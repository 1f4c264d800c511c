import ScriptConsole.Session

/-!
# Steps

A callback may be written as steps in a row, each with a reply.
-/

namespace ScriptConsole

abbrev SessionStep (ν : Type) : Type :=
  (ν → Callback ν) → Callback ν

namespace SessionStep

variable {ν : Type}

def look (reply : Snapshot → ν) : SessionStep ν :=
  fun next => .look fun snapshot => next (reply snapshot)

/-- Reply with what there is to see in an editor that replays events. -/
def lookAtReplay (reply : Editor → ν) (otherwise : ν) : SessionStep ν :=
  look fun snapshot =>
    match snapshot.editor.source with
    | .scripted _ => reply snapshot.editor
    | .piped _ => otherwise

def act (reply : ν) (action : Callback ν → Callback ν) : SessionStep ν :=
  fun next => action (next reply)

/-- Evaluate a statement, and reply with the value as it is afterwards. -/
def evaluate (reply : Promises → Except EvalError Value → ν) (label : Option String)
    (code : String) : SessionStep ν :=
  fun next => .evaluate label code fun result =>
    .look fun snapshot => next (reply snapshot.promises result)

/-- Run steps in turn and note the reply of each. -/
def noteAll : List (SessionStep ν) → Callback ν → Callback ν
  | [], last => last
  | step :: rest, last => step fun reply => .note reply (noteAll rest last)

/-- Take a step: its reply, the notes that were taken before it, and the session. -/
def take (step : SessionStep ν) (session : Session ν) : Option ν × List ν × Session ν :=
  let (_, after) := session.perform (step fun reply => .note reply (.done none))
  let notes := after.notes.drop session.notes.length
  (notes.getLast?, notes.dropLast, after)

end SessionStep

end ScriptConsole
