import LintGate.Text.Blank
import LintGate.Text.Cut
import LintGate.Text.Utf8
import LintGate.Number.Shortest
import LintGate.Json.Printer
import LintGate.Json.Reader
import LintGate.Json.Fault
import LintGate.Profile
import LintGate.Glob.Match
import LintGate.Main
import LintGate.Diff.Filter
import LintGate.Diff.Operation
import LintGate.Linter.Basic
import LintGate.Path.Absolute
import LintGate.Report.Line
import LintGate.Report.Cppcheck
import LintGate.Report.Rats
import LintGate.Proofs.IssueOrder
import LintGate.Proofs.RunProgress
import LintGate.Proofs.SettlementOrder
import LintGate.Analysis.Interleaving
import LintGate.Proofs.CompletionBarrier
import LintGate.Diff.Validity
import LintGate.Proofs.UnchangedRuns
import LintGate.Proofs.Fields
import LintGate.Proofs.LintForm
import LintGate.Proofs.CppcheckReport
import LintGate.Proofs.RatsReport
import LintGate.Proofs.EchoedPath
import LintGate.Proofs.StartedFile
import LintGate.Proofs.ReportAccounting
import LintGate.Proofs.RuleNamespace
import LintGate.File.Names
import LintGate.Proofs.WalkedOnce
import LintGate.Proofs.SamePlace
import LintGate.Proofs.DirectorySpelling
import LintGate.Proofs.PathOrder
import LintGate.Proofs.Trails
import LintGate.Proofs.EntryNames
import LintGate.Proofs.IgnoreViews
import LintGate.Proofs.BracketedGrammar
import LintGate.Proofs.JsonTokens
import LintGate.Proofs.IssueRoundTrip
import LintGate.Proofs.SchemaFits
import LintGate.Proofs.DocumentMembers
import LintGate.Proofs.FittingSettings
import LintGate.Proofs.ConfigAcceptance
import LintGate.Proofs.AnalyzeCommand
import LintGate.Proofs.LocatedGrammar
import LintGate.Proofs.ChangedFindings
import LintGate.Proofs.IsolatedRecords
import LintGate.Proofs.LineEnds
import LintGate.Proofs.ListedRules
import LintGate.Proofs.NormalForms
import LintGate.Proofs.ComponentKeys
import LintGate.Proofs.ComparedWithCopy
import LintGate.Proofs.QuotedLine
import LintGate.Proofs.InlineEnvironment
import LintGate.Proofs.WalkedUnion
import LintGate.Proofs.SurroundedReport
import LintGate.File.Inode
import LintGate.CommandLine.Contention
import LintGate.Proofs.RepeatedSettlement
import LintGate.Proofs.ContendedConfig
import LintGate.Proofs.NamedFiles
import LintGate.Proofs.ArgumentSplitting
