import SdkGlue.Calendar
import SdkGlue.Catalog
import SdkGlue.Catalog.Sdk
import SdkGlue.Command.Argument
import SdkGlue.Command.Host
import SdkGlue.Command.Invocation
import SdkGlue.Command.Name
import SdkGlue.Command.Report
import SdkGlue.Command.Run
import SdkGlue.Command.Usage
import SdkGlue.Decimal
import SdkGlue.Decimal.Shortest
import SdkGlue.Document
import SdkGlue.Document.Literal
import SdkGlue.Fault
import SdkGlue.Glue
import SdkGlue.Glue.Write
import SdkGlue.Include
import SdkGlue.Json.Error
import SdkGlue.Json.Number
import SdkGlue.Json.Reader
import SdkGlue.Json.Text
import SdkGlue.Json.Writer
import SdkGlue.Keyed
import SdkGlue.Layout
import SdkGlue.Layout.Load
import SdkGlue.Main
import SdkGlue.Markup
import SdkGlue.Markup.Style
import SdkGlue.Note
import SdkGlue.Path
import SdkGlue.Project
import SdkGlue.Scan
import SdkGlue.Script
import SdkGlue.Sources
import SdkGlue.Store
import SdkGlue.Store.Access
import SdkGlue.Store.Walk
import SdkGlue.Table
import SdkGlue.Table.Columns
import SdkGlue.Text.Blank
import SdkGlue.Text.Digits
import SdkGlue.Text.Lines
import SdkGlue.Text.Position
import SdkGlue.Text.Printable
import SdkGlue.Text.Quoted
import SdkGlue.Text.Ranges
import SdkGlue.Text.Utf8
import SdkGlue.Text.Width
import SdkGlue.Text.Wrap
import SdkGlue.Toml.Error
import SdkGlue.Toml.Lexical
import SdkGlue.Toml.Reader
import SdkGlue.Toml.Scalar
import SdkGlue.Toml.Tables
import SdkGlue.Proofs.Path.Components
import SdkGlue.Proofs.Store.Change
import SdkGlue.Proofs.Store.Resolve
import SdkGlue.Proofs.Store.Entries
import SdkGlue.Proofs.Sources.Entries
import SdkGlue.Proofs.Sources.Visit
import SdkGlue.Proofs.Sources.Waiting
import SdkGlue.Proofs.Sources.Clean
import SdkGlue.Proofs.Sources.Owned
import SdkGlue.Proofs.Catalog.Libraries
import SdkGlue.Proofs.Glue.Tokens
import SdkGlue.Proofs.Scan
import SdkGlue.Proofs.Sources.Collect
import SdkGlue.Proofs.Project.Generate
import SdkGlue.Proofs.Project.Libraries
import SdkGlue.Proofs.Glue.Sibling
import SdkGlue.Proofs.Glue.Install
import SdkGlue.Proofs.Project.Failure
import SdkGlue.Proofs.Store.Replace
import SdkGlue.Proofs.Glue.Opened
import SdkGlue.Proofs.Store.Straight
import SdkGlue.Proofs.Glue.Ready
import SdkGlue.Proofs.Glue.Exact
import SdkGlue.Proofs.Project.Again
import SdkGlue.Proofs.Store.Lawful
import SdkGlue.Proofs.Project.Lawful
import SdkGlue.Proofs.Glue.Frame
import SdkGlue.Proofs.Glue.Links
import SdkGlue.Proofs.Script.Directories
import SdkGlue.Proofs.Project.Session
import SdkGlue.Proofs.Project.Sources
import SdkGlue.Proofs.Sources.Cleaned
import SdkGlue.Proofs.Project.Cleaned
import SdkGlue.Proofs.Catalog.Order
import SdkGlue.Proofs.Catalog.Linked
import SdkGlue.Proofs.Project.Aliases
import SdkGlue.Proofs.Except
import SdkGlue.Proofs.Text.Wrap
import SdkGlue.Proofs.Table.Rows
import SdkGlue.Proofs.Text.Blank
import SdkGlue.Proofs.Toml.Nested
import SdkGlue.Proofs.Json.Object
import SdkGlue.Proofs.Layout.Format
import SdkGlue.Proofs.Layout.Load
import SdkGlue.Proofs.Layout.Written
import SdkGlue.Proofs.Layout.Inline
import SdkGlue.Proofs.Markup.Dialect
import SdkGlue.Proofs.Markup.Plain
import SdkGlue.Proofs.Command.Host
import SdkGlue.Proofs.Command.Screen
import SdkGlue.Proofs.Command.Report
import SdkGlue.Proofs.Command.Work
import SdkGlue.Proofs.Sources.Each
import SdkGlue.Proofs.Project.Scan
import SdkGlue.Proofs.Command.Ending
import SdkGlue.Proofs.Command.Verbatim
import SdkGlue.Proofs.Text.Upto
import SdkGlue.Proofs.Text.Split
import SdkGlue.Proofs.Include.Directive
import SdkGlue.Proofs.Catalog.Keys
import SdkGlue.Proofs.Catalog.Index
import SdkGlue.Proofs.Include.Spelling
import SdkGlue.Proofs.Text.Lossy
import SdkGlue.Proofs.Text.Lines
import SdkGlue.Proofs.Scan.Lines
import SdkGlue.Proofs.Sources.Concatenation
import SdkGlue.Proofs.Sources.LineEnds
import SdkGlue.Proofs.Keyed
import SdkGlue.Proofs.Sources.Listing
import SdkGlue.Proofs.Json.Text
import SdkGlue.Proofs.Json.Number
import SdkGlue.Proofs.Json.Written
import SdkGlue.Proofs.Store.Reordered
import SdkGlue.Proofs.Layout.Fields
import SdkGlue.Proofs.Layout.Places
