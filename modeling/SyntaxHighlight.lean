import SyntaxHighlight.Main
import SyntaxHighlight.Mode.Library
import SyntaxHighlight.Proofs.Outcome
import SyntaxHighlight.Proofs.Scan.Frame
import SyntaxHighlight.Proofs.Scan.Stack
import SyntaxHighlight.Proofs.Tree.Content
import SyntaxHighlight.Tree.Sexp
import SyntaxHighlight.Proofs.Scan.Reach
import SyntaxHighlight.Proofs.Scan.Root
import SyntaxHighlight.Proofs.Grammar.Arena
import SyntaxHighlight.Proofs.Mode.Prepared
import SyntaxHighlight.Proofs.Grammar.Root
import SyntaxHighlight.Proofs.Grammar.Placement
import SyntaxHighlight.Proofs.Text.Slice
import SyntaxHighlight.Proofs.Scan.Written
import SyntaxHighlight.Proofs.Scan.Reported
import SyntaxHighlight.Proofs.Scan.RoundTrip
import SyntaxHighlight.Proofs.Highlight.Registry
import SyntaxHighlight.Proofs.Highlight.RoundTrip
import SyntaxHighlight.Proofs.Regex.Search
import SyntaxHighlight.Proofs.Regex.Raised
import SyntaxHighlight.Proofs.Pattern.Reference
import SyntaxHighlight.Proofs.Regex.Reading.Likeness
import SyntaxHighlight.Proofs.Rule.Race
import SyntaxHighlight.Proofs.Grammar.Ends
import SyntaxHighlight.Proofs.Grammar.Matcher
import SyntaxHighlight.Proofs.Grammar.Wiring
import SyntaxHighlight.Proofs.Mode.Callback
import SyntaxHighlight.Proofs.Regex.Reading.Followed
import SyntaxHighlight.Proofs.Rule.Alternation
import SyntaxHighlight.Proofs.Rule.Narrowed
import SyntaxHighlight.Proofs.Rule.Splice
import SyntaxHighlight.Proofs.Mode.BeforeMatch
import SyntaxHighlight.Proofs.Scan.EndCaptures
import SyntaxHighlight.Proofs.Scan.Guard
import SyntaxHighlight.Proofs.Scan.Rejection
import SyntaxHighlight.Proofs.Scan.Progress
import SyntaxHighlight.Proofs.Scan.Ended
import SyntaxHighlight.Proofs.Highlight.SafeMode
import SyntaxHighlight.Proofs.Agreement
import SyntaxHighlight.Proofs.Scan.Parallel
import SyntaxHighlight.Proofs.Grammar.Independence
import SyntaxHighlight.Proofs.Highlight.Parallel
import SyntaxHighlight.Proofs.Highlight.History
import SyntaxHighlight.Proofs.Highlight.Leniency
import SyntaxHighlight.Proofs.Highlight.KeywordCap
import SyntaxHighlight.Proofs.Tree.Hosted
import SyntaxHighlight.Proofs.Tree.Replay
import SyntaxHighlight.Proofs.Highlight.ScopeNames
import SyntaxHighlight.Proofs.Dictionary
import SyntaxHighlight.Proofs.Scan.Ledger
import SyntaxHighlight.Proofs.Scan.Relevance
import SyntaxHighlight.Proofs.Grammar.Calls
import SyntaxHighlight.Proofs.Grammar.Nesting
import SyntaxHighlight.Proofs.Grammar.Termination
import SyntaxHighlight.Proofs.Highlight.Ranking
import SyntaxHighlight.Proofs.Grammar.WellFormed
import SyntaxHighlight.Proofs.Grammar.Spliced
import SyntaxHighlight.Proofs.Highlight.Blocks
import SyntaxHighlight.Proofs.Highlight.Result
import SyntaxHighlight.Proofs.Highlight.Detection
import SyntaxHighlight.Proofs.Highlight.Rendered
import SyntaxHighlight.Proofs.Highlight.Lookup
import SyntaxHighlight.Proofs.Highlight.Objects
import SyntaxHighlight.Proofs.Tree.Markup
import SyntaxHighlight.Proofs.Rule.Cursor
import SyntaxHighlight.Proofs.Pattern.Rewriting
import SyntaxHighlight.Proofs.Mode.Parts
import SyntaxHighlight.Proofs.Pattern.Escaped
import SyntaxHighlight.Proofs.Keyword.Table
import SyntaxHighlight.Proofs.Mode.Overlay
import SyntaxHighlight.Proofs.Mode.Plain
import SyntaxHighlight.Proofs.Grammar.Origin
import SyntaxHighlight.Proofs.Grammar.Variants
import SyntaxHighlight.Proofs.Tree.Drawing
import SyntaxHighlight.Proofs.Highlight.Context
