import AutomatonShell.Archive.Array
import AutomatonShell.Archive.ArrayFile
import AutomatonShell.Archive.Bytes
import AutomatonShell.Archive.Directory
import AutomatonShell.Archive.ElementType
import AutomatonShell.Archive.Header
import AutomatonShell.Archive.Inflate
import AutomatonShell.Archive.Layout
import AutomatonShell.Archive.Lexeme
import AutomatonShell.Archive.Literal
import AutomatonShell.Archive.LiteralReader
import AutomatonShell.Archive.Scanner
import AutomatonShell.Archive.Stored
import AutomatonShell.Archive.Unreadable
import AutomatonShell.Assembler
import AutomatonShell.Automaton.Basic
import AutomatonShell.Automaton.Listing
import AutomatonShell.Automaton.Matrix
import AutomatonShell.Automaton.Run
import AutomatonShell.CommandLine.Arguments
import AutomatonShell.CommandLine.Run
import AutomatonShell.Config
import AutomatonShell.Decimal.Shortest
import AutomatonShell.LogSink
import AutomatonShell.Main
import AutomatonShell.Message
import AutomatonShell.Name
import AutomatonShell.Outcome
import AutomatonShell.Path
import AutomatonShell.Pattern.Basic
import AutomatonShell.Pattern.Parser
import AutomatonShell.Proofs.Acceptance
import AutomatonShell.Proofs.ClosedForm
import AutomatonShell.Proofs.CommandArguments
import AutomatonShell.Proofs.CommandText
import AutomatonShell.Proofs.Cutting
import AutomatonShell.Proofs.Declaring
import AutomatonShell.Proofs.Ending
import AutomatonShell.Proofs.Events
import AutomatonShell.Proofs.Execution
import AutomatonShell.Proofs.Faults
import AutomatonShell.Proofs.Framing
import AutomatonShell.Proofs.ListingBytes
import AutomatonShell.Proofs.ListingReplay
import AutomatonShell.Proofs.ListingText
import AutomatonShell.Proofs.Names
import AutomatonShell.Proofs.Nesting
import AutomatonShell.Proofs.Outcomes
import AutomatonShell.Proofs.Overlay
import AutomatonShell.Proofs.ProgramEnding
import AutomatonShell.Proofs.ProgramRuns
import AutomatonShell.Proofs.Reachable
import AutomatonShell.Proofs.Recording
import AutomatonShell.Proofs.Redeclaring
import AutomatonShell.Proofs.Refusals
import AutomatonShell.Proofs.Restoring
import AutomatonShell.Proofs.Runs
import AutomatonShell.Proofs.Sessions
import AutomatonShell.Proofs.SnapshotContent
import AutomatonShell.Proofs.SnapshotRoundTrip
import AutomatonShell.Proofs.StoredTexts
import AutomatonShell.Proofs.Table
import AutomatonShell.Proofs.TaskFaults
import AutomatonShell.Proofs.TransitionGroups
import AutomatonShell.Proofs.WellFormed
import AutomatonShell.Proofs.WholeText
import AutomatonShell.Session.Basic
import AutomatonShell.Session.Command
import AutomatonShell.Session.Declare
import AutomatonShell.Session.Diagnostic
import AutomatonShell.Session.Files
import AutomatonShell.Session.Process
import AutomatonShell.Shell
import AutomatonShell.Snapshot
import AutomatonShell.Text.Blank
import AutomatonShell.Text.Case
import AutomatonShell.Text.Digit
import AutomatonShell.Text.Encoding
import AutomatonShell.Text.Lines
import AutomatonShell.Text.LowerTable
import AutomatonShell.Text.Marker
import AutomatonShell.Text.Quoted
import AutomatonShell.Text.Unprintable
import AutomatonShell.Text.WordEnd
import AutomatonShell.TextFile
import AutomatonShell.Transition
import AutomatonShell.Workspace
import AutomatonShell.Proofs.Replacement
import AutomatonShell.Proofs.LetterCase
import AutomatonShell.Proofs.LetterCaseRuns
import AutomatonShell.Proofs.Inlining
import AutomatonShell.Proofs.LogContents
import AutomatonShell.Proofs.CommandLines
import AutomatonShell.Proofs.InlineRuns
import AutomatonShell.Proofs.GivenNames
import AutomatonShell.Proofs.CheckedWords
import AutomatonShell.Proofs.HeaderScan
import AutomatonShell.Proofs.HeaderText
import AutomatonShell.Proofs.ArchiveMembers
import AutomatonShell.Proofs.ArrayFiles
import AutomatonShell.Proofs.SnapshotFiles
import AutomatonShell.Proofs.SpelledPaths
import AutomatonShell.Proofs.FileNames
import AutomatonShell.Proofs.StoredFiles
import AutomatonShell.Proofs.CompileLoad
import AutomatonShell.Proofs.DefinedSessions
import AutomatonShell.Proofs.RoundTrips
import AutomatonShell.Proofs.CompletedRuns
import AutomatonShell.Proofs.FoundNames
import AutomatonShell.Proofs.Repetition
import AutomatonShell.Proofs.DeclarationOrder
import AutomatonShell.Proofs.Extensions
import AutomatonShell.Proofs.WordAccounts
import AutomatonShell.Proofs.EditedParts
import AutomatonShell.Proofs.WrittenFiles
import AutomatonShell.Proofs.Exits
import AutomatonShell.Proofs.Dialogues
import AutomatonShell.Proofs.TypedScripts
import AutomatonShell.Proofs.CompiledTables
import AutomatonShell.Proofs.LogHistories
import AutomatonShell.Proofs.RequestedLogs
import AutomatonShell.Proofs.LineTexts
import AutomatonShell.Proofs.SnapshotWording
import AutomatonShell.Proofs.MessageLines
