import Lisplet.CommandLine.Run
import Lisplet.CommandLine.Source
import Lisplet.CommandLine.Usage
import Lisplet.Double.Basic
import Lisplet.Double.Hexadecimal
import Lisplet.Double.Shortest
import Lisplet.Evaluation.Application
import Lisplet.Evaluation.Call
import Lisplet.Evaluation.Cursor
import Lisplet.Evaluation.Eval
import Lisplet.Evaluation.Form
import Lisplet.Evaluation.Host
import Lisplet.Evaluation.Literal
import Lisplet.Evaluation.Machine
import Lisplet.Evaluation.Pattern
import Lisplet.Evaluation.Sequence
import Lisplet.Fault
import Lisplet.Main
import Lisplet.Method.Bytes
import Lisplet.Method.List
import Lisplet.Method.Number
import Lisplet.Method.Set
import Lisplet.Method.Signature
import Lisplet.Method.Sorting
import Lisplet.Method.Text
import Lisplet.Numeral
import Lisplet.Operator
import Lisplet.Property.Basic
import Lisplet.Property.Elements
import Lisplet.Property.Guard
import Lisplet.Scope
import Lisplet.Script
import Lisplet.Settings
import Lisplet.Snapshot
import Lisplet.Store.Action
import Lisplet.Store.Basic
import Lisplet.Store.Equality
import Lisplet.Store.Picture
import Lisplet.Store.Shown
import Lisplet.Store.Slots
import Lisplet.Syntax.Node
import Lisplet.Syntax.Reader
import Lisplet.Syntax.Render
import Lisplet.Syntax.Token
import Lisplet.Text.Ascii
import Lisplet.Text.Blank
import Lisplet.Text.Case
import Lisplet.Text.CaseTable
import Lisplet.Text.Encoding
import Lisplet.Text.Letter
import Lisplet.Text.Printable
import Lisplet.Text.Quoted
import Lisplet.Text.Search
import Lisplet.Text.Spans
import Lisplet.Value.Basic
import Lisplet.Value.Key
import Lisplet.Value.Names
import Lisplet.Value.SetOrder
import Lisplet.Proofs.Syntax.Nesting
import Lisplet.Proofs.Syntax.Parsing
import Lisplet.Proofs.Syntax.Leaves
import Lisplet.Proofs.Syntax.Scanning
import Lisplet.Proofs.Syntax.RoundTrip
import Lisplet.Proofs.Store.Shown
import Lisplet.Proofs.Store.Tables
import Lisplet.Proofs.Store.Enlarging
import Lisplet.Proofs.Store.Reading
import Lisplet.Proofs.Operator.Reading
import Lisplet.Proofs.Method.Reading
import Lisplet.Proofs.Property.Methods
import Lisplet.Proofs.Property.Mild
import Lisplet.Proofs.Property.Guards
import Lisplet.Proofs.Property.Additions
import Lisplet.Proofs.Scope.Lookup
import Lisplet.Proofs.Scope.Denylist
import Lisplet.Proofs.Value.Entries
import Lisplet.Proofs.Scope.Environment
import Lisplet.Proofs.Isolation.Parts
import Lisplet.Proofs.Isolation.Sealed
import Lisplet.Proofs.Isolation.Secure
import Lisplet.Proofs.Store.Words
import Lisplet.Proofs.Isolation.Values
import Lisplet.Proofs.Isolation.Properties
import Lisplet.Proofs.Isolation.Scopes
import Lisplet.Proofs.Isolation.Walks
import Lisplet.Proofs.Isolation.Scalars
import Lisplet.Proofs.Isolation.Collections
import Lisplet.Proofs.Isolation.Following
import Lisplet.Proofs.Isolation.Forms
import Lisplet.Proofs.Isolation.Calls
import Lisplet.Proofs.Isolation.Runs
import Lisplet.Proofs.Isolation.Sessions
import Lisplet.Proofs.Evaluation.Operands
import Lisplet.Proofs.Evaluation.Conventions
import Lisplet.Proofs.Scope.Rebinding
import Lisplet.Proofs.Errors.Candid
import Lisplet.Proofs.Errors.Methods
import Lisplet.Proofs.Evaluation.Congruence
import Lisplet.Proofs.Evaluation.Hosts
import Lisplet.Proofs.Errors.Traces
import Lisplet.Proofs.Errors.Reports
import Lisplet.Proofs.CommandLine.Endings
import Lisplet.Proofs.Syntax.Places
import Lisplet.Proofs.Syntax.Joining
import Lisplet.Proofs.Property.Failures
import Lisplet.Proofs.Property.Positions
import Lisplet.Proofs.Property.Places
import Lisplet.Proofs.Property.Retracing
import Lisplet.Proofs.Scope.Failures
import Lisplet.Proofs.Scope.Retracing
import Lisplet.Proofs.Numeral.Digits
import Lisplet.Proofs.Numeral.Reading
import Lisplet.Proofs.Property.Total
import Lisplet.Proofs.Property.WrittenNames
import Lisplet.Proofs.Property.Sequences
import Lisplet.Proofs.Property.Visible
import Lisplet.Proofs.Value.Updates
import Lisplet.Proofs.Evaluation.Literals
import Lisplet.Proofs.Evaluation.Dispatch
import Lisplet.Proofs.Evaluation.Leaves
import Lisplet.Proofs.Evaluation.Patterns
import Lisplet.Proofs.Evaluation.Partitions
import Lisplet.Proofs.Evaluation.Steps
import Lisplet.Proofs.Operator.Renumbering
import Lisplet.Proofs.Evaluation.Conclusions
import Lisplet.Proofs.Evaluation.Applications
import Lisplet.Proofs.Sequence.Reducing
import Lisplet.Proofs.Operator.Folding
import Lisplet.Proofs.Evaluation.Chains
import Lisplet.Proofs.Sequence.Visiting
import Lisplet.Proofs.Store.Matching
import Lisplet.Proofs.Sequence.Searching
import Lisplet.Proofs.Sequence.Slicing
import Lisplet.Proofs.Evaluation.Arrays
import Lisplet.Proofs.Evaluation.Choices
import Lisplet.Proofs.Operator.Equivalence
import Lisplet.Proofs.Settings.Names
