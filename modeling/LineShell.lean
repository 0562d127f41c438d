import LineShell.Main
import LineShell.Progress
import LineShell.Proofs.Words.Spelling
import LineShell.Proofs.World
import LineShell.Proofs.Execution.Closing
import LineShell.Proofs.Execution.Course
import LineShell.Proofs.Path.Join
import LineShell.Proofs.Words.Rendering
import LineShell.Proofs.Execution.TypeReport
import LineShell.Proofs.TwoRuns.InStep
import LineShell.Proofs.TwoRuns.Builtins
import LineShell.Proofs.TwoRuns.Launches
import LineShell.Proofs.ReadLoop.Terminals
import LineShell.Proofs.ReadLoop.Lines
import LineShell.Proofs.ReadLoop.Transcript
import LineShell.Proofs.ReadLoop.Script
import LineShell.Proofs.ReadLoop.Run
import LineShell.Proofs.FileSystem.Veils
import LineShell.Proofs.FileSystem.Edits
import LineShell.Proofs.FileSystem.Contents
import LineShell.Proofs.OpenFile
import LineShell.Proofs.Path.Canonical
import LineShell.Proofs.FileSystem.Passage
import LineShell.Proofs.Redirection.Opening
import LineShell.Proofs.Redirection.Noted
import LineShell.Proofs.Redirection.Beside
import LineShell.Proofs.Redirection.Children
import LineShell.Proofs.Redirection.Work
import LineShell.Proofs.Redirection.Mirrors
import LineShell.Proofs.Redirection.Transparency
import LineShell.Proofs.Redirection.Pooled
import LineShell.Proofs.Words.Grammar
import LineShell.Proofs.Words.Reading
import LineShell.Proofs.Words.Positions
import LineShell.Proofs.FileSystem.Steps
import LineShell.Proofs.OneRun.Commands
import LineShell.Proofs.Path.Normal
import LineShell.Proofs.Session.Children
import LineShell.Proofs.Session.Invariant
import LineShell.Proofs.Session.Status
import LineShell.Proofs.FileSystem.Growth
import LineShell.Proofs.FileSystem.Development
import LineShell.Proofs.Redirection.Targets
import LineShell.Proofs.TwoRuns.Alone
import LineShell.Proofs.Execution.Frame
import LineShell.Proofs.Words.Superseded
import LineShell.Proofs.Redirection.Lines
import LineShell.Proofs.Redirection.Refused
import LineShell.Proofs.Redirection.History
import LineShell.Proofs.FileSystem.Tree
import LineShell.Proofs.Path.Below
import LineShell.Proofs.FileSystem.Resolution
import LineShell.Proofs.Session.Directory
import LineShell.Proofs.TwoRuns.Sharing
import LineShell.Proofs.ReadLoop.Errors
import LineShell.Proofs.ReadLoop.InputLines
import LineShell.Proofs.ReadLoop.Process
import LineShell.Proofs.FileSystem.Overlay
import LineShell.Proofs.Execution.Handles
import LineShell.Proofs.Redirection.Account
import LineShell.Proofs.Redirection.Settled
import LineShell.Proofs.Path.Composition
import LineShell.Proofs.FileSystem.PlainTexts
import LineShell.Proofs.Redirection.Reports
import LineShell.Proofs.Redirection.DirectoryTargets
import LineShell.Proofs.Session.Going
import LineShell.Proofs.Session.Stages
import LineShell.Proofs.Words.Division
import LineShell.Proofs.Words.Order
import LineShell.Proofs.Path.Shape
import LineShell.Proofs.Execution.Search
import LineShell.Proofs.Words.Image
import LineShell.Proofs.FileSystem.Agreement
import LineShell.Proofs.Redirection.Speech
import LineShell.Proofs.Execution.TypeNames
import LineShell.Proofs.Execution.Concatenation
import LineShell.Proofs.Redirection.Faults
import LineShell.Proofs.Execution.HalfWay
import LineShell.Proofs.Execution.Outcomes
import LineShell.Proofs.Text.Numerals
import LineShell.Proofs.Execution.Exit
import LineShell.Proofs.ReadLoop.BlankLines
import LineShell.Proofs.Text.Utf8
import LineShell.Proofs.TwoRuns.Characters
import LineShell.Proofs.ReadLoop.ColorWishes
import LineShell.Proofs.Words.Description
