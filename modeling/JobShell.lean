import JobShell.Barrier
import JobShell.Descriptor
import JobShell.Environment
import JobShell.Failure
import JobShell.Host
import JobShell.Host.Start
import JobShell.Job
import JobShell.Job.Execution
import JobShell.Line
import JobShell.Line.Lexer
import JobShell.Line.Scanner
import JobShell.Line.Token
import JobShell.Log
import JobShell.Machine.Calls
import JobShell.Machine.Image
import JobShell.Machine.Keyboard
import JobShell.Machine.ProcessInfo
import JobShell.Machine.Program
import JobShell.Machine.Schedule
import JobShell.Machine.Setup
import JobShell.Machine.Slots
import JobShell.Machine.Tree
import JobShell.Machine.World
import JobShell.Main
import JobShell.Name
import JobShell.NoticeQueue
import JobShell.OsError
import JobShell.Path
import JobShell.Pipeline
import JobShell.Proofs.Accounting
import JobShell.Proofs.Appending
import JobShell.Proofs.Building
import JobShell.Proofs.Calls
import JobShell.Proofs.Changes
import JobShell.Proofs.Closing
import JobShell.Proofs.Commands
import JobShell.Proofs.Configuration
import JobShell.Proofs.Crashing
import JobShell.Proofs.Decimals
import JobShell.Proofs.Description
import JobShell.Proofs.Displacement
import JobShell.Proofs.Ending
import JobShell.Proofs.Environments
import JobShell.Proofs.Exchange
import JobShell.Proofs.Explanation
import JobShell.Proofs.Failing
import JobShell.Proofs.Grammar
import JobShell.Proofs.Growth
import JobShell.Proofs.Handover
import JobShell.Proofs.Histories
import JobShell.Proofs.Inheritance
import JobShell.Proofs.Installation
import JobShell.Proofs.Joining
import JobShell.Proofs.Leaving
import JobShell.Proofs.Ledger
import JobShell.Proofs.Listing
import JobShell.Proofs.Maps
import JobShell.Proofs.Names
import JobShell.Proofs.Numbering
import JobShell.Proofs.Openings
import JobShell.Proofs.Overriding
import JobShell.Proofs.Ownership
import JobShell.Proofs.Parsed
import JobShell.Proofs.Publication
import JobShell.Proofs.Qualified
import JobShell.Proofs.Refusals
import JobShell.Proofs.Release
import JobShell.Proofs.Renumbering
import JobShell.Proofs.Reporting
import JobShell.Proofs.Resolution
import JobShell.Proofs.Results
import JobShell.Proofs.Routing
import JobShell.Proofs.Runs
import JobShell.Proofs.Scanning
import JobShell.Proofs.Serving
import JobShell.Proofs.Splitting
import JobShell.Proofs.Succession
import JobShell.Proofs.Supervision
import JobShell.Proofs.Tables
import JobShell.Proofs.Traffic
import JobShell.Proofs.Trees
import JobShell.Proofs.Trimming
import JobShell.Proofs.Truncation
import JobShell.Proofs.Updates
import JobShell.Proofs.Utf8
import JobShell.Proofs.Waiting
import JobShell.Proofs.Wiring
import JobShell.Proofs.Writing
import JobShell.Proofs.Zeros
import JobShell.Resolve
import JobShell.Script.Arithmetic
import JobShell.Script.Builtin
import JobShell.Script.Builtin.Arguments
import JobShell.Script.Builtin.Directory
import JobShell.Script.Builtin.Leaving
import JobShell.Script.Builtin.Parameters
import JobShell.Script.Builtin.Printing
import JobShell.Script.Builtin.Processes
import JobShell.Script.Builtin.Reading
import JobShell.Script.Expansion
import JobShell.Script.Interpreter
import JobShell.Script.Pattern
import JobShell.Script.Reader
import JobShell.Script.Redirection
import JobShell.Script.Source
import JobShell.Script.Startup
import JobShell.Script.State
import JobShell.Script.Syntax
import JobShell.Session
import JobShell.Session.Builtin
import JobShell.Session.State
import JobShell.Settings
import JobShell.Shell
import JobShell.Signal
import JobShell.Status
import JobShell.Supervisor
import JobShell.Terminal
import JobShell.Text.Blank
import JobShell.Text.Bytes
import JobShell.Text.Decimal
import JobShell.Text.Floating
import JobShell.Text.Regex
import JobShell.Text.Regex.Reader
import JobShell.Text.Version
import JobShell.Tool.Basic
import JobShell.Tool.Calculation
import JobShell.Tool.Columnar
import JobShell.Tool.Columns
import JobShell.Tool.Condition
import JobShell.Tool.Copy
import JobShell.Tool.Count
import JobShell.Tool.Difference
import JobShell.Tool.Editing
import JobShell.Tool.Editing.Feed
import JobShell.Tool.Editing.Passage
import JobShell.Tool.Editing.Reader
import JobShell.Tool.Editing.Run
import JobShell.Tool.Editing.Script
import JobShell.Tool.Encoded
import JobShell.Tool.Entries
import JobShell.Tool.Feeding
import JobShell.Tool.Folding
import JobShell.Tool.Format
import JobShell.Tool.Launch
import JobShell.Tool.Listing
import JobShell.Tool.Mode
import JobShell.Tool.Moving
import JobShell.Tool.NamePattern
import JobShell.Tool.Naming
import JobShell.Tool.Numbering
import JobShell.Tool.Order
import JobShell.Tool.Part
import JobShell.Tool.Print
import JobShell.Tool.Quoted
import JobShell.Tool.Range
import JobShell.Tool.Removing
import JobShell.Tool.Reversed
import JobShell.Tool.Runs
import JobShell.Tool.Search
import JobShell.Tool.Sending
import JobShell.Tool.Table
import JobShell.Tool.Tally
import JobShell.Tool.Target
import JobShell.Tool.Timing
import JobShell.Tool.Translate
import JobShell.Variables
