import ScriptConsole.Proofs.Disk.Opening
import ScriptConsole.Proofs.Session.Frames

/-!
# A history file that cannot be used

A session whose history file cannot be opened, or is no text, does not start.  It keeps
the history that it had, has no file to save it to, and reads nothing from then on, so
that the file stays as it is.
-/

namespace ScriptConsole

namespace Server

variable {α : Type}

/-- The setup fails for the reason that there is, and no file is changed. -/
theorem setupHistory_of_failure {disk : Disk} {path : String} {failure : HistoryFailure}
    (h : disk.historyFailure? path = some failure) (server : Server α) :
    ∃ after, server.setupHistory disk path = (.error failure, after) ∧
      ∀ place, after.find? place = disk.find? place := by
  unfold Disk.historyFailure? at h
  split at h
  · rename_i fault opened
    cases h
    exact ⟨disk, by simp [setupHistory, Disk.touch, opened], fun _ => rfl⟩
  · rename_i place bytes opened
    split at h
    · rename_i noText
      cases h
      have full : bytes ≠ ByteArray.empty := by
        rintro rfl
        have empty : Text.decode? ByteArray.empty = some "" := Text.decode?_encode ""
        rw [empty] at noText
        cases noText
      refine ⟨disk.put place (.file bytes), ?_, Disk.find?_put_of_openFile opened full⟩
      simp [setupHistory, Disk.touch, opened, History.load, Disk.read_put_of_openFile opened,
        noText]
    · cases h

/-- The setup loads the lines of the file, if nothing is wrong with it. -/
theorem setupHistory_of_text {disk : Disk} {path : String}
    (h : disk.historyFailure? path = none) (server : Server α) :
    ∃ place bytes text, disk.openFile path = .ok (place, bytes) ∧
      Text.decode? bytes = some text ∧
      server.setupHistory disk path =
        (.ok { server with
          editor := { server.editor with
            history := server.editor.history.addAll (History.linesOf text.toList) }
          historyPath := some path }, disk.put place (.file bytes)) := by
  unfold Disk.historyFailure? at h
  split at h
  · cases h
  · rename_i place bytes opened
    split at h
    · cases h
    · rename_i text isText
      refine ⟨place, bytes, text, opened, isText, ?_⟩
      simp [setupHistory, Disk.touch, opened, History.load, Disk.read_put_of_openFile opened,
        isText]

end Server

namespace Session

variable {ν : Type}

/-- The setup of a session fails as that of its server does, which stays as it was. -/
theorem setupHistory_of_failure {session : Session ν} {server : Server (SessionAction ν)}
    {path : String} {failure : HistoryFailure} (isOpen : session.world.server = some server)
    (kept : session.historyPath = some path)
    (h : session.disk.historyFailure? path = some failure) :
    ∃ after, session.setupHistory = (.error failure, after) ∧
      after.world.server = some server ∧ after.editor = session.editor ∧
      after.ready = session.ready ∧ after.notes = session.notes ∧
      ∀ place, after.disk.find? place = session.disk.find? place := by
  obtain ⟨disk, refused, same⟩ := Server.setupHistory_of_failure h server
  let told := session.world.printLine (session.world.palette.paint .red historyNotice)
  refine ⟨{ session with disk := disk, world := told.printMessage failure.message }, ?_, isOpen,
    rfl, rfl, rfl, same⟩
  simp only [setupHistory, kept, isOpen, refused]
  rfl

theorem server_launch (session : Session ν) :
    ∃ server, session.launch.world.server = some server ∧ server.historyPath = none ∧
      server.editor = session.editor :=
  ⟨_, rfl, rfl, rfl⟩

/-- A session that ended and has no file for its history. -/
structure Failed (session : Session ν) : Prop where
  phase : session.phase = .terminated
  noFile : ∀ server, session.world.server = some server → server.historyPath = none

namespace Failed

variable {session after : Session ν}

theorem of_untouched (failed : session.Failed) (untouched : Untouched session after) :
    after.Failed where
  phase := untouched.phase.trans failed.phase
  noFile := by
    intro next isOpen
    have related := untouched.server
    cases before : session.world.server with
    | none =>
        rw [before, isOpen] at related
        cases related
    | some server =>
        rw [before, isOpen] at related
        obtain ⟨same⟩ := related
        exact same.historyPath.trans (failed.noFile server before)

theorem startWith (failed : session.Failed) (perform : Performer ν) :
    session.startWith perform = (.error .alreadyStarted, session) := by
  simp [Session.startWith, failed.phase]

theorem runWith (failed : session.Failed) (perform : Performer ν) :
    session.runWith perform = (.ok (), session) := by
  simp [Session.runWith, failed.phase]

end Failed

/-- A session that was left as it is, but for what waits for a start. -/
def Unharmed (before after : Session ν) : Prop :=
  ∃ ready, Untouched { before with ready := ready } after

namespace Unharmed

variable {before middle after : Session ν}

theorem of_untouched (untouched : Untouched before after) : Unharmed before after :=
  ⟨before.ready, untouched⟩

theorem refl (session : Session ν) : Unharmed session session :=
  .of_untouched (.refl session)

theorem trans (first : Unharmed before middle) (second : Unharmed middle after) :
    Unharmed before after := by
  obtain ⟨ready, first⟩ := first
  obtain ⟨more, second⟩ := second
  have alike : Untouched { before with ready := more } { middle with ready := more } :=
    { first with ready := rfl }
  exact ⟨more, alike.trans second⟩

theorem failed (unharmed : Unharmed before after) (failed : before.Failed) : after.Failed := by
  obtain ⟨ready, untouched⟩ := unharmed
  have same : ({ before with ready := ready } : Session ν).Failed := ⟨failed.phase, failed.noFile⟩
  exact same.of_untouched untouched

end Unharmed

end Session

/-- A callback that does not itself read from the server. -/
def Callback.ReadsNothing {ν : Type} : Callback ν → Prop
  | .done _ => True
  | .note _ next | .addHelper _ next | .useCompiler _ next | .notify _ next | .list next
  | .setName _ _ next | .onReady _ next => next.ReadsNothing
  | .look next => ∀ snapshot, (next snapshot).ReadsNothing
  | .start next | .run next | .close next => ∀ result, (next result).ReadsNothing
  | .evaluate _ _ next => ∀ result, (next result).ReadsNothing
  | .read _ => False
  | .define _ _ _ next => ∀ defined, (next defined).ReadsNothing

namespace Session

variable {ν : Type}

/-- A use of a session that does not itself read from the server. -/
def Use.ReadsNothing : Use ν → Prop
  | .start | .run => True
  | .perform callback => callback.ReadsNothing

theorem server_of_setupHistory {session after : Session ν} {failure : HistoryFailure}
    (h : session.setupHistory = (.error failure, after)) :
    after.world.server = session.world.server ∧ after.editor = session.editor ∧
      ∀ place, after.disk.find? place = session.disk.find? place := by
  cases kept : session.historyPath with
  | none =>
      simp only [setupHistory, kept] at h
      cases h
  | some path =>
      cases isOpen : session.world.server with
      | none =>
          simp only [setupHistory, kept, isOpen] at h
          cases h
      | some server =>
          cases reason : session.disk.historyFailure? path with
          | none =>
              obtain ⟨place, bytes, text, -, -, loaded⟩ :=
                Server.setupHistory_of_text reason server
              simp only [setupHistory, kept, isOpen, loaded] at h
              cases h
          | some other =>
              obtain ⟨failed, refused, isOpen', editor, -, -, same⟩ :=
                setupHistory_of_failure isOpen kept reason
              cases h.symm.trans refused
              exact ⟨isOpen', editor, same⟩

end Session

end ScriptConsole
