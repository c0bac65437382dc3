import FirmwareMatrix.Artifact
import FirmwareMatrix.Board
import FirmwareMatrix.Command
import FirmwareMatrix.CommandLine
import FirmwareMatrix.Console
import FirmwareMatrix.Declarations
import FirmwareMatrix.Discovery
import FirmwareMatrix.Disk
import FirmwareMatrix.DryRun
import FirmwareMatrix.Error
import FirmwareMatrix.Failure
import FirmwareMatrix.FileSystem
import FirmwareMatrix.Glob
import FirmwareMatrix.Launch
import FirmwareMatrix.Log
import FirmwareMatrix.Main
import FirmwareMatrix.Matrix
import FirmwareMatrix.Options
import FirmwareMatrix.Outcome
import FirmwareMatrix.Path
import FirmwareMatrix.Screen
import FirmwareMatrix.ScriptedTool
import FirmwareMatrix.Settings
import FirmwareMatrix.Shell.Builtin
import FirmwareMatrix.Shell.Bytes
import FirmwareMatrix.Shell.Condition
import FirmwareMatrix.Shell.Decimal
import FirmwareMatrix.Shell.Expansion
import FirmwareMatrix.Shell.Format
import FirmwareMatrix.Shell.Machine
import FirmwareMatrix.Shell.Numeral
import FirmwareMatrix.Shell.Pattern
import FirmwareMatrix.Shell.Program
import FirmwareMatrix.Shell.Run
import FirmwareMatrix.Shell.Script
import FirmwareMatrix.Shell.ScriptText
import FirmwareMatrix.Shell.Signal
import FirmwareMatrix.Shell.Start
import FirmwareMatrix.Shell.Sum
import FirmwareMatrix.Shell.Installation
import FirmwareMatrix.Shell.Utility
import FirmwareMatrix.Simulation
import FirmwareMatrix.StatusLine
import FirmwareMatrix.Terminal
import FirmwareMatrix.Text.Blank
import FirmwareMatrix.Text.Escape
import FirmwareMatrix.Text.Quoted
import FirmwareMatrix.Text.Reader
import FirmwareMatrix.Text.Utf8
import FirmwareMatrix.Toml.Document
import FirmwareMatrix.Toml.Literal
import FirmwareMatrix.Toml.Scalar
import FirmwareMatrix.ToolOutput
import FirmwareMatrix.Tree
import FirmwareMatrix.Workspace
import FirmwareMatrix.Shell.Digest
import FirmwareMatrix.Shell.Utility.Checksum
import FirmwareMatrix.Proofs.PathJoin
import FirmwareMatrix.Proofs.TreeLookup
import FirmwareMatrix.Proofs.TreeOutputs
import FirmwareMatrix.Proofs.Mirroring
import FirmwareMatrix.Proofs.Observed
import FirmwareMatrix.Proofs.Turns
import FirmwareMatrix.Proofs.Protocol
import FirmwareMatrix.Proofs.Separation
import FirmwareMatrix.Proofs.TreeTurns
import FirmwareMatrix.Proofs.Delivery
import FirmwareMatrix.Proofs.CacheText
import FirmwareMatrix.Proofs.Scripted
import FirmwareMatrix.Proofs.Configured
import FirmwareMatrix.Proofs.BarEvents
import FirmwareMatrix.Proofs.BarLifecycle
import FirmwareMatrix.Proofs.Interruption
import FirmwareMatrix.Proofs.Restart
import FirmwareMatrix.Proofs.Confinement
import FirmwareMatrix.Proofs.Overlap
import FirmwareMatrix.Proofs.SharedDirectory
import FirmwareMatrix.Proofs.Rehearsal
import FirmwareMatrix.Proofs.Utf8Order
import FirmwareMatrix.Proofs.BoardOrder
import FirmwareMatrix.Proofs.FirstWins
import FirmwareMatrix.Proofs.HeaderGrammar
import FirmwareMatrix.Proofs.HeaderPattern
import FirmwareMatrix.Proofs.HeadersFound
import FirmwareMatrix.Proofs.FewestSetUps
import FirmwareMatrix.Proofs.Stages
import FirmwareMatrix.Proofs.Passage
import FirmwareMatrix.Proofs.FailedDelivery
import FirmwareMatrix.Proofs.ScreenIndependence
import FirmwareMatrix.Proofs.WholeWalk
import FirmwareMatrix.Proofs.TreeGrowth
import FirmwareMatrix.Proofs.FilesFound
import FirmwareMatrix.Proofs.FirstDefine
import FirmwareMatrix.Proofs.CacheEntries
import FirmwareMatrix.Proofs.Forwarding
import FirmwareMatrix.Proofs.BarDrawings
import FirmwareMatrix.Proofs.BarFaults
import FirmwareMatrix.Proofs.Looking
import FirmwareMatrix.Proofs.StartUp
import FirmwareMatrix.Proofs.EffectiveSettings
import FirmwareMatrix.Proofs.Utf8Infix
import FirmwareMatrix.Proofs.HeaderSelection
import FirmwareMatrix.Proofs.Moments
import FirmwareMatrix.Proofs.StatusTexts
import FirmwareMatrix.Proofs.AcceptedOutputs
import FirmwareMatrix.Proofs.Clearing
import FirmwareMatrix.Proofs.ConsoleLines
import FirmwareMatrix.Proofs.TruncatedOutput
import FirmwareMatrix.Proofs.FinalReport
import FirmwareMatrix.Proofs.StatusRow
import FirmwareMatrix.Proofs.TreeOperations
import FirmwareMatrix.Proofs.GenuineListings
import FirmwareMatrix.Proofs.MatchingListings
import FirmwareMatrix.Proofs.UnboundedWalk
import FirmwareMatrix.Proofs.EndOfWalk
import FirmwareMatrix.Proofs.BoardSorting
