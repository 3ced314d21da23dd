import CriticalCss.Browser.Blocklist
import CriticalCss.Browser.Device
import CriticalCss.Browser.Error
import CriticalCss.Browser.Page
import CriticalCss.Browser.Session
import CriticalCss.Config.Basic
import CriticalCss.Config.Record
import CriticalCss.Data.Decode
import CriticalCss.Data.Json
import CriticalCss.Data.Toml
import CriticalCss.Data.Toml.Scalar
import CriticalCss.Data.Toml.Table
import CriticalCss.Data.Toml.Text
import CriticalCss.Data.Value
import CriticalCss.Decimal.Nearest
import CriticalCss.Decimal.Shortest
import CriticalCss.Document.Geometry
import CriticalCss.Document.Layout
import CriticalCss.Document.Match
import CriticalCss.Document.Picture
import CriticalCss.Document.Record
import CriticalCss.Document.RowMatch
import CriticalCss.Document.Snapshot
import CriticalCss.Files
import CriticalCss.Probe.Basic
import CriticalCss.Probe.Evaluate
import CriticalCss.Probe.Pattern
import CriticalCss.Probe.Watch
import CriticalCss.Proofs.Browser.Actions
import CriticalCss.Proofs.Browser.Endings
import CriticalCss.Proofs.Browser.Events
import CriticalCss.Proofs.Browser.Histories
import CriticalCss.Proofs.Browser.Openings
import CriticalCss.Proofs.Browser.Operations
import CriticalCss.Proofs.Browser.Prospects
import CriticalCss.Proofs.Data.Documents
import CriticalCss.Proofs.Data.Fields
import CriticalCss.Proofs.Data.Scalars
import CriticalCss.Proofs.Document.Entering
import CriticalCss.Proofs.Document.Matching
import CriticalCss.Proofs.Document.Places
import CriticalCss.Proofs.Document.Preorder
import CriticalCss.Proofs.Document.Records
import CriticalCss.Proofs.Document.RowMatching
import CriticalCss.Proofs.Document.Structural
import CriticalCss.Proofs.Probe.Findings
import CriticalCss.Proofs.Probe.Handover
import CriticalCss.Proofs.Probe.Patterns
import CriticalCss.Proofs.Probe.Recording
import CriticalCss.Proofs.Probe.Stripping
import CriticalCss.Proofs.Probe.Watching
import CriticalCss.Proofs.RuleMap.Assembly
import CriticalCss.Proofs.RuleMap.Changes
import CriticalCss.Proofs.RuleMap.Merging
import CriticalCss.Proofs.RuleMap.Slots
import CriticalCss.Proofs.RuleMap.Sound
import CriticalCss.Proofs.Run.Acquiring
import CriticalCss.Proofs.Run.Budget
import CriticalCss.Proofs.Run.Chronicle
import CriticalCss.Proofs.Run.Critical
import CriticalCss.Proofs.Run.Fold
import CriticalCss.Proofs.Run.Lives
import CriticalCss.Proofs.Run.Outcome
import CriticalCss.Proofs.Run.Overlap
import CriticalCss.Proofs.Run.Release
import CriticalCss.Proofs.Run.Schedule
import CriticalCss.Proofs.Run.States
import CriticalCss.Proofs.Selector.Colons
import CriticalCss.Proofs.Selector.Extending
import CriticalCss.Proofs.Selector.Filled
import CriticalCss.Proofs.Selector.Plain
import CriticalCss.Proofs.Selector.Positions
import CriticalCss.Proofs.Selector.PseudoElements
import CriticalCss.Proofs.Selector.RoundTrip
import CriticalCss.Proofs.Selector.RowCounts
import CriticalCss.Proofs.Selector.Rows
import CriticalCss.Proofs.Selector.Spacing
import CriticalCss.Proofs.Selector.Steps
import CriticalCss.Proofs.Split.Exact
import CriticalCss.Proofs.Split.Exclusive
import CriticalCss.Proofs.Split.Parts
import CriticalCss.Proofs.Split.Shape
import CriticalCss.Proofs.Stylesheet.Blocks
import CriticalCss.Proofs.Stylesheet.JoinedLists
import CriticalCss.Proofs.Stylesheet.Keywords
import CriticalCss.Proofs.Stylesheet.Portions
import CriticalCss.Proofs.Stylesheet.Printable
import CriticalCss.Proofs.Stylesheet.Progress
import CriticalCss.Proofs.Stylesheet.Recasing
import CriticalCss.Proofs.Stylesheet.Rejoining
import CriticalCss.Proofs.Stylesheet.Rereading
import CriticalCss.Proofs.Stylesheet.RoundTrip
import CriticalCss.Proofs.Stylesheet.Rules
import CriticalCss.Proofs.Stylesheet.SourceOrder
import CriticalCss.Proofs.Stylesheet.Splitting
import CriticalCss.Proofs.Token.Calm
import CriticalCss.Proofs.Token.Clean
import CriticalCss.Proofs.Token.Closing
import CriticalCss.Proofs.Token.Forming
import CriticalCss.Proofs.Token.Lexemes
import CriticalCss.Proofs.Token.Outline
import CriticalCss.Proofs.Token.Recasing
import CriticalCss.Proofs.Token.Skipping
import CriticalCss.Proofs.Tree.Contexts
import CriticalCss.Proofs.Tree.Narrowing
import CriticalCss.Proofs.Tree.Positions
import CriticalCss.Proofs.Tree.Records
import CriticalCss.Proofs.Tree.StyleRules
import CriticalCss.Rule.CriticalMap
import CriticalCss.Rule.Key
import CriticalCss.Rule.RuleMap
import CriticalCss.Rule.Split
import CriticalCss.Run.Alone
import CriticalCss.Run.Basic
import CriticalCss.Run.Error
import CriticalCss.Run.Output
import CriticalCss.Run.Pool
import CriticalCss.Run.Progress
import CriticalCss.Run.Source
import CriticalCss.Run.Target
import CriticalCss.Run.Task
import CriticalCss.Selector.Attribute
import CriticalCss.Selector.Basic
import CriticalCss.Selector.Equality
import CriticalCss.Selector.Error
import CriticalCss.Selector.Nth
import CriticalCss.Selector.Printer
import CriticalCss.Selector.Reader
import CriticalCss.Selector.Row
import CriticalCss.Selector.RowReader
import CriticalCss.Stylesheet.Basic
import CriticalCss.Stylesheet.Error
import CriticalCss.Stylesheet.Printer
import CriticalCss.Stylesheet.Reader
import CriticalCss.Stylesheet.Record
import CriticalCss.Stylesheet.SelectorText
import CriticalCss.Text.Blank
import CriticalCss.Text.Letter
import CriticalCss.Text.PlainForm
import CriticalCss.Text.Printable
import CriticalCss.Text.Quoted
import CriticalCss.Text.SmallLetter
import CriticalCss.Text.Utf8
import CriticalCss.Token.Basic
import CriticalCss.Token.Block
import CriticalCss.Token.Component
import CriticalCss.Token.Diagnostic
import CriticalCss.Token.Escape
import CriticalCss.Token.Number
import CriticalCss.Token.Quotation
import CriticalCss.Token.Scan
import CriticalCss.Url.Address
import CriticalCss.Url.Domain
import CriticalCss.Url.Host
import CriticalCss.Url.Percent
import CriticalCss.Url.Punycode
