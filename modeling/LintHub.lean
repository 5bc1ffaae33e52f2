import LintHub.Cache.Basic
import LintHub.Cache.Entry
import LintHub.Checking.Checker
import LintHub.Checking.Error
import LintHub.CommandLine.Listing
import LintHub.CommandLine.Options
import LintHub.CommandLine.Request
import LintHub.CommandLine.Running
import LintHub.Digest.Blake3
import LintHub.Discovery
import LintHub.Disk.Basic
import LintHub.Disk.Changes
import LintHub.Disk.Error
import LintHub.Editor.Action
import LintHub.Editor.Call
import LintHub.Editor.Frame
import LintHub.Editor.Mark
import LintHub.Editor.Method
import LintHub.Editor.Mold
import LintHub.Editor.Range
import LintHub.Editor.Server
import LintHub.Editor.Session
import LintHub.Finding
import LintHub.Finding.Json
import LintHub.Glob.Matching
import LintHub.Glob.Pattern
import LintHub.IgnoreFile
import LintHub.Json.Commented
import LintHub.Json.Double
import LintHub.Json.Printer
import LintHub.Json.Reader
import LintHub.Json.Record
import LintHub.Json.Schema
import LintHub.Json.Value
import LintHub.Main
import LintHub.Path.Basic
import LintHub.Path.Normal
import LintHub.Program
import LintHub.Proofs.Cache.Filling
import LintHub.Proofs.Cache.RoundTrip
import LintHub.Proofs.Cache.Stored
import LintHub.Proofs.Cache.Switch
import LintHub.Proofs.Cache.Versions
import LintHub.Proofs.Checking.Accepted
import LintHub.Proofs.Checking.Agreement
import LintHub.Proofs.Checking.Batch
import LintHub.Proofs.Checking.Echo
import LintHub.Proofs.Checking.History
import LintHub.Proofs.Checking.Isolation
import LintHub.Proofs.Checking.Lifetime
import LintHub.Proofs.Checking.Recall
import LintHub.Proofs.Checking.Roots
import LintHub.Proofs.Checking.SettingsHash
import LintHub.Proofs.Checking.Steady
import LintHub.Proofs.CommandLine.Exit
import LintHub.Proofs.Discovery
import LintHub.Proofs.Discovery.Found
import LintHub.Proofs.Disk.Entering
import LintHub.Proofs.Disk.Names
import LintHub.Proofs.Disk.Parents
import LintHub.Proofs.Disk.Places
import LintHub.Proofs.Disk.Respelled
import LintHub.Proofs.Editor.Closing
import LintHub.Proofs.Editor.Conversation
import LintHub.Proofs.Editor.Messages
import LintHub.Proofs.Editor.Offers
import LintHub.Proofs.Editor.Ranges
import LintHub.Proofs.Editor.Suppression
import LintHub.Proofs.Finding.Json
import LintHub.Proofs.Finding.Order
import LintHub.Proofs.Finding.Sound
import LintHub.Proofs.IgnoreFile
import LintHub.Proofs.IgnoreFile.Calls
import LintHub.Proofs.IgnoreFile.Verbatim
import LintHub.Proofs.Json.Canonical
import LintHub.Proofs.Json.Commented
import LintHub.Proofs.Json.Grammar
import LintHub.Proofs.Json.Head
import LintHub.Proofs.Json.Reading
import LintHub.Proofs.Json.Schema
import LintHub.Proofs.Json.Wanted
import LintHub.Proofs.Path.Lexical
import LintHub.Proofs.Path.Normal
import LintHub.Proofs.Path.Segments
import LintHub.Proofs.Report.Attribution
import LintHub.Proofs.Report.ByFile
import LintHub.Proofs.Report.Clean
import LintHub.Proofs.Report.Columns
import LintHub.Proofs.Report.Decoration
import LintHub.Proofs.Report.FirstValue
import LintHub.Proofs.Report.HookLines
import LintHub.Proofs.Report.HookRuns
import LintHub.Proofs.Report.Interchange
import LintHub.Proofs.Report.Labels
import LintHub.Proofs.Report.LastFeed
import LintHub.Proofs.Report.LogLines
import LintHub.Proofs.Report.Merging
import LintHub.Proofs.Report.Named
import LintHub.Proofs.Report.Numerals
import LintHub.Proofs.Report.Pairing
import LintHub.Proofs.Report.Printed
import LintHub.Proofs.Report.RuleTable
import LintHub.Proofs.Report.Soundness
import LintHub.Proofs.Report.Stamping
import LintHub.Proofs.Report.Struck
import LintHub.Proofs.Report.Summary
import LintHub.Proofs.Report.Transcript
import LintHub.Proofs.Settings.Documents
import LintHub.Proofs.Settings.Reload
import LintHub.Proofs.Text.Rows
import LintHub.Proofs.Text.Search
import LintHub.Proofs.Text.Units
import LintHub.Proofs.Text.Words
import LintHub.Report.Columns
import LintHub.Report.Dialect
import LintHub.Report.Escapes
import LintHub.Report.Issues
import LintHub.Report.Reading
import LintHub.Report.Result
import LintHub.Report.Sarif
import LintHub.Report.Transcript
import LintHub.Rule
import LintHub.Running.Command
import LintHub.Running.Host
import LintHub.Running.Locator
import LintHub.Script.Printing
import LintHub.Script.Reading
import LintHub.Script.Regex
import LintHub.Script.Running
import LintHub.Script.Shell
import LintHub.Script.Syntax
import LintHub.Script.Utility
import LintHub.Settings.Basic
import LintHub.Settings.Discovery
import LintHub.Settings.Reading
import LintHub.Severity
import LintHub.Table
import LintHub.Text.Blank
import LintHub.Text.Digit
import LintHub.Text.Numeral
import LintHub.Text.Search
import LintHub.Text.Units
import LintHub.Text.Utf8
import LintHub.Text.Word
import LintHub.Tool
import LintHub.Url.Basic
import LintHub.Url.Host
import LintHub.Url.Reading
import LintHub.Url.Refusal
