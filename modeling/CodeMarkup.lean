import CodeMarkup.Bundled
import CodeMarkup.Bundled.Bash
import CodeMarkup.Bundled.Ini
import CodeMarkup.Bundled.Json
import CodeMarkup.Bundled.Xml
import CodeMarkup.Dictionary
import CodeMarkup.Engine
import CodeMarkup.Grammar.Fragment
import CodeMarkup.Grammar.Guard
import CodeMarkup.Grammar.Keywords
import CodeMarkup.Grammar.Mode
import CodeMarkup.Grammar.Reader
import CodeMarkup.Highlight.Detection
import CodeMarkup.Highlight.Outcome
import CodeMarkup.Highlight.Ranking
import CodeMarkup.Highlight.Scan
import CodeMarkup.Highlighter
import CodeMarkup.Json.Number
import CodeMarkup.Json.Pretty
import CodeMarkup.Json.Quote
import CodeMarkup.Json.Reader
import CodeMarkup.Json.Skip
import CodeMarkup.Json.Value
import CodeMarkup.Language.Basic
import CodeMarkup.Language.Compile
import CodeMarkup.Language.KeywordTable
import CodeMarkup.Language.Matcher
import CodeMarkup.Markup.Escape
import CodeMarkup.Markup.Event
import CodeMarkup.Markup.Hast
import CodeMarkup.Markup.Layout
import CodeMarkup.Markup.NodeJson
import CodeMarkup.Markup.Token
import CodeMarkup.Markup.Tree
import CodeMarkup.Markup.Writer
import CodeMarkup.Options
import CodeMarkup.Pattern.Join
import CodeMarkup.Pattern.Source
import CodeMarkup.Problem
import CodeMarkup.Proofs.Bundled
import CodeMarkup.Proofs.Grammar.Dependence
import CodeMarkup.Proofs.Grammar.Thinned
import CodeMarkup.Proofs.Highlight.Account
import CodeMarkup.Proofs.Highlight.Alike
import CodeMarkup.Proofs.Highlight.Attributed
import CodeMarkup.Proofs.Highlight.Careful
import CodeMarkup.Proofs.Highlight.Contained
import CodeMarkup.Proofs.Highlight.Course
import CodeMarkup.Proofs.Highlight.Delegation
import CodeMarkup.Proofs.Highlight.Delimited
import CodeMarkup.Proofs.Highlight.Ending
import CodeMarkup.Proofs.Highlight.Failures
import CodeMarkup.Proofs.Highlight.FirstCome
import CodeMarkup.Proofs.Highlight.InRange
import CodeMarkup.Proofs.Highlight.Kindred
import CodeMarkup.Proofs.Highlight.Lenient
import CodeMarkup.Proofs.Highlight.Lossless
import CodeMarkup.Proofs.Highlight.Nesting
import CodeMarkup.Proofs.Highlight.Outcomes
import CodeMarkup.Proofs.Highlight.Partition
import CodeMarkup.Proofs.Highlight.Precedence
import CodeMarkup.Proofs.Highlight.Progress
import CodeMarkup.Proofs.Highlight.Ranked
import CodeMarkup.Proofs.Highlight.Recognized
import CodeMarkup.Proofs.Highlight.Reordered
import CodeMarkup.Proofs.Highlight.Reported
import CodeMarkup.Proofs.Highlight.Seated
import CodeMarkup.Proofs.Highlight.Selected
import CodeMarkup.Proofs.Highlight.Shown
import CodeMarkup.Proofs.Highlight.Stacks
import CodeMarkup.Proofs.Highlight.Standstill
import CodeMarkup.Proofs.Highlight.Surveyed
import CodeMarkup.Proofs.Highlight.Thinned
import CodeMarkup.Proofs.Highlight.Unfailing
import CodeMarkup.Proofs.Highlight.Unnoticed
import CodeMarkup.Proofs.Highlight.Untroubled
import CodeMarkup.Proofs.Language.Accurate
import CodeMarkup.Proofs.Language.Ahead
import CodeMarkup.Proofs.Language.Answered
import CodeMarkup.Proofs.Language.Asked
import CodeMarkup.Proofs.Language.Calls
import CodeMarkup.Proofs.Language.Declared
import CodeMarkup.Proofs.Language.Faulty
import CodeMarkup.Proofs.Language.Grounded
import CodeMarkup.Proofs.Language.Landing
import CodeMarkup.Proofs.Language.Lawful
import CodeMarkup.Proofs.Language.Linking
import CodeMarkup.Proofs.Language.Links
import CodeMarkup.Proofs.Language.Met
import CodeMarkup.Proofs.Language.Mirrored
import CodeMarkup.Proofs.Language.Numbering
import CodeMarkup.Proofs.Language.Origin
import CodeMarkup.Proofs.Language.Outlines
import CodeMarkup.Proofs.Language.Refused
import CodeMarkup.Proofs.Language.Registered
import CodeMarkup.Proofs.Language.Rejected
import CodeMarkup.Proofs.Language.Scan
import CodeMarkup.Proofs.Language.Sought
import CodeMarkup.Proofs.Language.Spanning
import CodeMarkup.Proofs.Language.Terminates
import CodeMarkup.Proofs.Language.Thinned
import CodeMarkup.Proofs.Language.Unions
import CodeMarkup.Proofs.Language.Words
import CodeMarkup.Proofs.Markup.Agreement
import CodeMarkup.Proofs.Markup.Content
import CodeMarkup.Proofs.Markup.Elements
import CodeMarkup.Proofs.Markup.Entities
import CodeMarkup.Proofs.Markup.Laid
import CodeMarkup.Proofs.Markup.Merged
import CodeMarkup.Proofs.Markup.Opened
import CodeMarkup.Proofs.Markup.Spans
import CodeMarkup.Proofs.Pattern.Numbers
import CodeMarkup.Proofs.Pattern.Plain
import CodeMarkup.Proofs.Regex.Alone
import CodeMarkup.Proofs.Regex.Beside
import CodeMarkup.Proofs.Regex.Escape
import CodeMarkup.Proofs.Regex.Joined
import CodeMarkup.Proofs.Regex.Literal
import CodeMarkup.Proofs.Regex.Mirror
import CodeMarkup.Proofs.Regex.Onward
import CodeMarkup.Proofs.Regex.Placed
import CodeMarkup.Proofs.Regex.Quoted
import CodeMarkup.Proofs.Regex.Renumber
import CodeMarkup.Proofs.Regex.Spelled
import CodeMarkup.Proofs.Regex.Track
import CodeMarkup.Proofs.Regex.Ways
import CodeMarkup.Proofs.Registry.History
import CodeMarkup.Proofs.Registry.Lookup
import CodeMarkup.Proofs.Text.Barred
import CodeMarkup.Proofs.Text.Parts
import CodeMarkup.Proofs.Text.Small
import CodeMarkup.Regex.Backtrack
import CodeMarkup.Regex.Capture
import CodeMarkup.Regex.Expr
import CodeMarkup.Regex.Fault
import CodeMarkup.Regex.Plain.Bracket
import CodeMarkup.Regex.Plain.Bytes
import CodeMarkup.Regex.Plain.Node
import CodeMarkup.Regex.Plain.Reader
import CodeMarkup.Regex.Plain.Size
import CodeMarkup.Regex.Plan
import CodeMarkup.Regex.Property
import CodeMarkup.Regex.Reader
import CodeMarkup.Regex.Search
import CodeMarkup.Regex.Threads
import CodeMarkup.Regex.Written
import CodeMarkup.Registry
import CodeMarkup.Text.Age
import CodeMarkup.Text.Break
import CodeMarkup.Text.Category
import CodeMarkup.Text.CharSet
import CodeMarkup.Text.Cursor
import CodeMarkup.Text.Fold
import CodeMarkup.Text.Hex
import CodeMarkup.Text.Letter
import CodeMarkup.Text.Offset
import CodeMarkup.Text.Path
import CodeMarkup.Text.Place
import CodeMarkup.Text.RangeTable
import CodeMarkup.Text.Script
import CodeMarkup.Text.Shift
import CodeMarkup.Text.Trait
