import Phrasebook.Call
import Phrasebook.Catalog
import Phrasebook.CommandLine.Arguments
import Phrasebook.CommandLine.Similarity
import Phrasebook.CommandLine.Wording
import Phrasebook.Config.Basic
import Phrasebook.Config.Decoder
import Phrasebook.Config.File
import Phrasebook.Extraction
import Phrasebook.FileTree
import Phrasebook.Glob.Expansion
import Phrasebook.Glob.Pattern
import Phrasebook.Json.Double
import Phrasebook.Json.Fault
import Phrasebook.Json.Lexeme
import Phrasebook.Json.Printer
import Phrasebook.Json.Reader
import Phrasebook.Json.Skip
import Phrasebook.Json.Typed
import Phrasebook.Json.Value
import Phrasebook.KeyPath
import Phrasebook.LocaleFiles
import Phrasebook.LocaleStore
import Phrasebook.Main
import Phrasebook.Path
import Phrasebook.Program
import Phrasebook.Proofs.Catalog.Agreement
import Phrasebook.Proofs.Catalog.Bucket
import Phrasebook.Proofs.Catalog.Content
import Phrasebook.Proofs.Catalog.Dirty
import Phrasebook.Proofs.Catalog.Growth
import Phrasebook.Proofs.Catalog.Independence
import Phrasebook.Proofs.Catalog.Isolation
import Phrasebook.Proofs.Catalog.Order
import Phrasebook.Proofs.Catalog.Outcomes
import Phrasebook.Proofs.Catalog.Provenance
import Phrasebook.Proofs.Catalog.Remerge
import Phrasebook.Proofs.Catalog.Repetition
import Phrasebook.Proofs.Catalog.Retention
import Phrasebook.Proofs.Catalog.Run
import Phrasebook.Proofs.Catalog.Signatures
import Phrasebook.Proofs.Config.Nearest
import Phrasebook.Proofs.Config.RoundTrip
import Phrasebook.Proofs.Extraction.Flags
import Phrasebook.Proofs.Extraction.Reporting
import Phrasebook.Proofs.Extraction.Unresolved
import Phrasebook.Proofs.FileTree.Aliases
import Phrasebook.Proofs.FileTree.Ancestors
import Phrasebook.Proofs.FileTree.Directory
import Phrasebook.Proofs.FileTree.Growth
import Phrasebook.Proofs.FileTree.Joined
import Phrasebook.Proofs.FileTree.LastPlace
import Phrasebook.Proofs.FileTree.Names
import Phrasebook.Proofs.FileTree.SameWay
import Phrasebook.Proofs.FileTree.Spelling
import Phrasebook.Proofs.FileTree.Write
import Phrasebook.Proofs.Glob.Components
import Phrasebook.Proofs.Glob.Expanding
import Phrasebook.Proofs.Glob.Fits
import Phrasebook.Proofs.Glob.Matching
import Phrasebook.Proofs.Glob.Openings
import Phrasebook.Proofs.Glob.Searching
import Phrasebook.Proofs.Json.Digits
import Phrasebook.Proofs.Json.Exact
import Phrasebook.Proofs.Json.Layout
import Phrasebook.Proofs.Json.Numbers
import Phrasebook.Proofs.Json.Numerals
import Phrasebook.Proofs.Json.Reading
import Phrasebook.Proofs.Json.Rounding
import Phrasebook.Proofs.Json.Scaling
import Phrasebook.Proofs.Json.Shortest
import Phrasebook.Proofs.Json.Strings
import Phrasebook.Proofs.Json.TypedReading
import Phrasebook.Proofs.KeyPath.Ahead
import Phrasebook.Proofs.KeyPath.Apart
import Phrasebook.Proofs.KeyPath.Frame
import Phrasebook.Proofs.KeyPath.Growth
import Phrasebook.Proofs.KeyPath.Meeting
import Phrasebook.Proofs.KeyPath.NormalForm
import Phrasebook.Proofs.KeyPath.Placement
import Phrasebook.Proofs.KeyPath.Position
import Phrasebook.Proofs.KeyPath.Reordered
import Phrasebook.Proofs.KeyPath.Route
import Phrasebook.Proofs.KeyPath.Segments
import Phrasebook.Proofs.KeyPath.SideBySide
import Phrasebook.Proofs.KeyPath.Slot
import Phrasebook.Proofs.KeyPath.Write
import Phrasebook.Proofs.Locales.LastWritten
import Phrasebook.Proofs.Locales.Listing
import Phrasebook.Proofs.Locales.Loading
import Phrasebook.Proofs.Locales.Resolving
import Phrasebook.Proofs.Locales.RoundTrip
import Phrasebook.Proofs.Locales.Writing
import Phrasebook.Proofs.Report.Blocks
import Phrasebook.Proofs.Report.Caret
import Phrasebook.Proofs.Scan.Exact
import Phrasebook.Proofs.Scan.Found
import Phrasebook.Proofs.Scan.IgnoreGlobs
import Phrasebook.Proofs.Scan.Ignoring
import Phrasebook.Proofs.Scan.Includes
import Phrasebook.Proofs.Scan.Repeats
import Phrasebook.Proofs.Scan.TestFiles
import Phrasebook.Proofs.Session.Counts
import Phrasebook.Proofs.Session.Coverage
import Phrasebook.Proofs.Session.Expansions
import Phrasebook.Proofs.Session.Flags
import Phrasebook.Proofs.Session.Leaving
import Phrasebook.Proofs.Session.Lifecycle
import Phrasebook.Proofs.Session.Log
import Phrasebook.Proofs.Session.OnDisk
import Phrasebook.Proofs.Session.Reached
import Phrasebook.Proofs.Session.Reload
import Phrasebook.Proofs.Session.Repetition
import Phrasebook.Proofs.Session.UnknownCalls
import Phrasebook.Proofs.Session.Visiting
import Phrasebook.Proofs.Source.Classes
import Phrasebook.Proofs.Source.Expressions
import Phrasebook.Proofs.Source.Functions
import Phrasebook.Proofs.Source.InOrder
import Phrasebook.Proofs.Source.Lexing
import Phrasebook.Proofs.Source.Operators
import Phrasebook.Proofs.Source.Reading
import Phrasebook.Proofs.Source.Signatures
import Phrasebook.Proofs.Source.SourceOrder
import Phrasebook.Proofs.Source.Statements
import Phrasebook.Proofs.Source.Types
import Phrasebook.Proofs.Table
import Phrasebook.Proofs.Text.Runs
import Phrasebook.Proofs.Text.Width
import Phrasebook.Report
import Phrasebook.Scan
import Phrasebook.Session
import Phrasebook.Source.Calls
import Phrasebook.Source.Cursor
import Phrasebook.Source.Grammar
import Phrasebook.Source.Grammar.Classes
import Phrasebook.Source.Grammar.Declarations
import Phrasebook.Source.Grammar.Expressions
import Phrasebook.Source.Grammar.Functions
import Phrasebook.Source.Grammar.LeftHand
import Phrasebook.Source.Grammar.Literals
import Phrasebook.Source.Grammar.Markup
import Phrasebook.Source.Grammar.Modules
import Phrasebook.Source.Grammar.Operators
import Phrasebook.Source.Grammar.Parens
import Phrasebook.Source.Grammar.Patterns
import Phrasebook.Source.Grammar.Primary
import Phrasebook.Source.Grammar.Rules
import Phrasebook.Source.Grammar.Statements
import Phrasebook.Source.Grammar.Types
import Phrasebook.Source.Token
import Phrasebook.Source.Tree
import Phrasebook.Table
import Phrasebook.Text.Blank
import Phrasebook.Text.Color
import Phrasebook.Text.Hex
import Phrasebook.Text.Letter
import Phrasebook.Text.Quoted
import Phrasebook.Text.Ranges
import Phrasebook.Text.Runs
import Phrasebook.Text.Width
import Phrasebook.Text.WidthTables
import Phrasebook.Visit
