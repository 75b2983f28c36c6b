import Scriptlet.CommandLine
import Scriptlet.Continuation
import Scriptlet.Evaluation
import Scriptlet.Grammar.Statement
import Scriptlet.Main
import Scriptlet.Program
import Scriptlet.Proofs.Completeness.Program
import Scriptlet.Proofs.Concatenation
import Scriptlet.Proofs.Isolation
import Scriptlet.Proofs.Soundness.Program
import Scriptlet.Report
import Scriptlet.Scan
import Scriptlet.Scope
import Scriptlet.Segment.Lemmas
import Scriptlet.Session
import Scriptlet.Shell
import Scriptlet.Text.Integer
import Scriptlet.Text.Lines
import Scriptlet.Text.Utf8
import Scriptlet.Tree.Listing
import Scriptlet.Proofs.Jobs
import Scriptlet.Proofs.Jobs.Order
import Scriptlet.Proofs.Calls
import Scriptlet.Proofs.ScopeGraph
import Scriptlet.Proofs.ScopeGraph.Runs
import Scriptlet.Proofs.Trees
import Scriptlet.Proofs.ErrorSites
import Scriptlet.Proofs.RuntimeErrors
import Scriptlet.Proofs.Deepening
import Scriptlet.Proofs.Alignment
import Scriptlet.Proofs.Alignment.Evaluation
import Scriptlet.Proofs.ForLoop
import Scriptlet.Proofs.Truncation
import Scriptlet.Proofs.Truncation.Grammar
import Scriptlet.Proofs.Cursor
import Scriptlet.Proofs.Cursor.Refinement
import Scriptlet.Proofs.Cursor.Expression
import Scriptlet.Proofs.Cursor.Statement
import Scriptlet.Proofs.Termination
import Scriptlet.Proofs.Printing
import Scriptlet.Proofs.Deepening.Reading
import Scriptlet.Proofs.Session.Steps
import Scriptlet.Proofs.Deepening.Sessions
import Scriptlet.Proofs.FileRun
import Scriptlet.Proofs.Turns
import Scriptlet.Proofs.Shell
import Scriptlet.Proofs.Queue
import Scriptlet.Proofs.Sequel
import Scriptlet.Proofs.Recovery
import Scriptlet.Proofs.Lookahead
import Scriptlet.Proofs.Lookahead.Expression
import Scriptlet.Proofs.Lookahead.Statement
import Scriptlet.Proofs.Lookahead.Program
import Scriptlet.Proofs.Lexicon
import Scriptlet.Proofs.LongestMatch
import Scriptlet.Proofs.LineNumbers
import Scriptlet.Proofs.Respelling
import Scriptlet.Proofs.Frame
import Scriptlet.Proofs.ScopeChain
import Scriptlet.Proofs.Continuation
import Scriptlet.Proofs.Continuation.Quotes
import Scriptlet.Proofs.Trimming
import Scriptlet.Proofs.TypedText
import Scriptlet.Proofs.Numerals
import Scriptlet.Proofs.ListingForms
import Scriptlet.Proofs.ListingTrees
import Scriptlet.Proofs.Excerpt
import Scriptlet.Proofs.Excerpt.Reports
import Scriptlet.Proofs.LexicalScope
