import ScriptConsole.Compiler.Substitution
import ScriptConsole.Completion
import ScriptConsole.Host.Action
import ScriptConsole.Host.Rules
import ScriptConsole.LogLevel
import ScriptConsole.Main
import ScriptConsole.Session.Step
import ScriptConsole.Token.Span
import ScriptConsole.Proofs.Nesting
import ScriptConsole.Proofs.Suspension.Bodies
import ScriptConsole.Proofs.Suspension.Finished
import ScriptConsole.Proofs.Statement.Cuts
import ScriptConsole.Proofs.AsyncWrap.Account
import ScriptConsole.Proofs.Token.Cursor
import ScriptConsole.Proofs.Token.Gaps
import ScriptConsole.Proofs.Token.Partition
import ScriptConsole.Proofs.Token.Reading
import ScriptConsole.Proofs.Token.Runs
import ScriptConsole.Proofs.Token.Texts
import ScriptConsole.Proofs.Pattern.Names
import ScriptConsole.Proofs.Pattern.Position
import ScriptConsole.Proofs.AsyncWrap.Rendered
import ScriptConsole.Proofs.AsyncWrap.Body
import ScriptConsole.Proofs.AsyncWrap.Brackets
import ScriptConsole.Proofs.AsyncWrap.Complete
import ScriptConsole.Proofs.AsyncWrap.OpenEnd
import ScriptConsole.Proofs.AsyncWrap.Unfinished
import ScriptConsole.Proofs.Statement.Members
import ScriptConsole.Proofs.Statement.Semicolons
import ScriptConsole.Proofs.Import.Reading
import ScriptConsole.Proofs.Import.Grammar
import ScriptConsole.Proofs.Import.Pieces
import ScriptConsole.Proofs.Import.RoundTrip
import ScriptConsole.Proofs.Import.Joining
import ScriptConsole.Proofs.Import.Following
import ScriptConsole.Proofs.Server.Effects
import ScriptConsole.Proofs.Server.Interrupts
import ScriptConsole.Proofs.Server.Replay
import ScriptConsole.Proofs.Completion
import ScriptConsole.Proofs.Session.Course
import ScriptConsole.Proofs.Session.Execution
import ScriptConsole.Proofs.Session.Turns
import ScriptConsole.Proofs.Session.Prompts
import ScriptConsole.Proofs.Statement.DoWhile
import ScriptConsole.Proofs.Declaration.Grammar
import ScriptConsole.Proofs.Disk.Opening
import ScriptConsole.Proofs.Session.Frames
import ScriptConsole.Proofs.Session.History
import ScriptConsole.Proofs.Session.Performing
import ScriptConsole.Proofs.Session.Life
import ScriptConsole.Proofs.Nesting.Outside
import ScriptConsole.Proofs.Completeness
import ScriptConsole.Proofs.Suspension.Arrows
import ScriptConsole.Proofs.Suspension.Methods
import ScriptConsole.Proofs.Statement.Unbraced
import ScriptConsole.Proofs.Token.Lines
import ScriptConsole.Proofs.Token.Literals
import ScriptConsole.Proofs.Token.Templates
import ScriptConsole.Proofs.Completeness.Literals
import ScriptConsole.Proofs.Completeness.Substitutions
import ScriptConsole.Proofs.Import.Enclosed
import ScriptConsole.Proofs.Import.Items
import ScriptConsole.Proofs.Import.Legal
import ScriptConsole.Proofs.Import.Types
import ScriptConsole.Proofs.Import.NextLine
import ScriptConsole.Proofs.Import.Inserted
import ScriptConsole.Proofs.Import.Fresh
import ScriptConsole.Proofs.Token.Places
import ScriptConsole.Proofs.SourceMap
import ScriptConsole.Proofs.World.Settling
import ScriptConsole.Proofs.World.Waiting
import ScriptConsole.Proofs.Session.Promises
import ScriptConsole.Proofs.Session.Rejection
import ScriptConsole.Proofs.Text.Cutting
import ScriptConsole.Proofs.Text.Escape
import ScriptConsole.Proofs.Text.Width
import ScriptConsole.Proofs.History.Stream
import ScriptConsole.Proofs.History.File
import ScriptConsole.Proofs.Workspace.Listing
import ScriptConsole.Proofs.Value.Shown
import ScriptConsole.Proofs.Value.Held
import ScriptConsole.Proofs.Value.Colours
import ScriptConsole.Proofs.Value.Equality
import ScriptConsole.Proofs.Value.Unambiguous
import ScriptConsole.Proofs.Value.Cycles
