import HarnessSynthesis.Entry.StaticMembers
import HarnessSynthesis.Json.Canonical
import HarnessSynthesis.Judge.Settings
import HarnessSynthesis.Literal
import HarnessSynthesis.Main
import HarnessSynthesis.Service
import HarnessSynthesis.Proofs.Json.Integral
import HarnessSynthesis.Proofs.Json.StringText
import HarnessSynthesis.Proofs.Text.Search
import HarnessSynthesis.Proofs.Json.RoundTrip
import HarnessSynthesis.Proofs.Json.Extension
import HarnessSynthesis.Proofs.Json.Keywords
import HarnessSynthesis.Proofs.Recovery.Braces
import HarnessSynthesis.Proofs.Recovery.Embedded
import HarnessSynthesis.Proofs.Recovery.Printed
import HarnessSynthesis.Proofs.Recovery.Framed
import HarnessSynthesis.Proofs.Recovery.Truncated
import HarnessSynthesis.Proofs.Comparison.Exact
import HarnessSynthesis.Proofs.Comparison.Order
import HarnessSynthesis.Proofs.Comparison.Rearrangement
import HarnessSynthesis.Proofs.Comparison.Unordered
import HarnessSynthesis.Proofs.Comparison.Sorted
import HarnessSynthesis.Proofs.Entry.Choice
import HarnessSynthesis.Proofs.Entry.Container
import HarnessSynthesis.Proofs.Source.Pieces
import HarnessSynthesis.Proofs.Entry.Arity
import HarnessSynthesis.Proofs.Text.Words
import HarnessSynthesis.Proofs.Harness.Mentions
import HarnessSynthesis.Proofs.Harness.Calls
import HarnessSynthesis.Proofs.Harness.Structures
import HarnessSynthesis.Proofs.Text.Utf8
import HarnessSynthesis.Proofs.Source.Octets
import HarnessSynthesis.Proofs.Source.Regions
import HarnessSynthesis.Proofs.Source.Stripping
import HarnessSynthesis.Proofs.Source.CommentText
import HarnessSynthesis.Proofs.Literal.StringContents
import HarnessSynthesis.Proofs.Source.TypeHead
import HarnessSynthesis.Proofs.Harness.Definitions
import HarnessSynthesis.Proofs.Simulation.Course
import HarnessSynthesis.Proofs.Simulation.Accounts
import HarnessSynthesis.Proofs.Simulation.Stopping
import HarnessSynthesis.Proofs.Literal.DeclaredTypes
import HarnessSynthesis.Proofs.Number.Rounding
import HarnessSynthesis.Proofs.Number.Shortest
import HarnessSynthesis.Proofs.Json.DoubleText
import HarnessSynthesis.Proofs.Json.ProperValues
import HarnessSynthesis.Proofs.Literal.Expressions
import HarnessSynthesis.Proofs.Literal.Arguments
import HarnessSynthesis.Proofs.Literal.Conversions
import HarnessSynthesis.Proofs.Recovery.Unframed
import HarnessSynthesis.Proofs.Harness.Settled
import HarnessSynthesis.Proofs.Source.Joining
import HarnessSynthesis.Proofs.Entry.Signature
import HarnessSynthesis.Proofs.Entry.Ranking
import HarnessSynthesis.Proofs.Source.Places
import HarnessSynthesis.Proofs.Entry.Insertion
import HarnessSynthesis.Proofs.Entry.Headers
import HarnessSynthesis.Proofs.Entry.StaticPlaces
import HarnessSynthesis.Proofs.Text.Lines
import HarnessSynthesis.Proofs.Source.Lines
import HarnessSynthesis.Proofs.Harness.Hoisting
import HarnessSynthesis.Proofs.Source.TypeSyntax
import HarnessSynthesis.Proofs.Entry.GenericMethods
import HarnessSynthesis.Proofs.Entry.GenericFunctions
import HarnessSynthesis.Proofs.Schema.ArraySpellings
import HarnessSynthesis.Proofs.Literal.NumberLiterals
import HarnessSynthesis.Proofs.Literal.NumberArrays
import HarnessSynthesis.Proofs.Literal.PlainData
import HarnessSynthesis.Proofs.Entry.Leads
import HarnessSynthesis.Proofs.Entry.LackingStatic
import HarnessSynthesis.Proofs.Entry.StaticTwice
import HarnessSynthesis.Proofs.Text.Checked
import HarnessSynthesis.Proofs.Recovery.Closing
import HarnessSynthesis.Proofs.Recovery.Cursor
import HarnessSynthesis.Proofs.Source.BracketOffsets
import HarnessSynthesis.Proofs.Source.ParameterOffsets
import HarnessSynthesis.Proofs.Entry.HeaderOffsets
import HarnessSynthesis.Proofs.Entry.CandidateOffsets
import HarnessSynthesis.Proofs.Entry.Reports
import HarnessSynthesis.Proofs.Entry.Anchors
import HarnessSynthesis.Proofs.Request.Stored
import HarnessSynthesis.Proofs.Source.Annotations
import HarnessSynthesis.Proofs.Harness.PublicTypes
import HarnessSynthesis.Proofs.Harness.StruckWords
import HarnessSynthesis.Proofs.Harness.Demotion
import HarnessSynthesis.Proofs.Source.ClosingOffsets
