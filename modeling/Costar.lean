import Costar.Text.Blank
import Costar.Text.Digit
import Costar.Text
import Costar.Text.Printable
import Costar.Text.UpperCase
import Costar.Number.Binary64
import Costar.Number.Shortest
import Costar.Text.Quoted
import Costar.Number.Numeral
import Costar.Calendar.Date
import Costar.Calendar.Iso
import Costar.Value
import Costar.Value.Text
import Costar.Record
import Costar.Schema
import Costar.Filter.Operator
import Costar.Graph.Fault
import Costar.Failure
import Costar.Filter.Key
import Costar.Filter.Operand
import Costar.Filter.Constraint
import Costar.Cypher.Condition
import Costar.Filter.Predicate
import Costar.Filter.Selection
import Costar.PathRequest
import Costar.Graph.Path
import Costar.Connection.Project
import Costar.Connection.Basic
import Costar.Connection.OfPath
import Costar.Graph.Session
import Costar.Graph.Store
import Costar.Run
import Costar.Graph.Queries
import Costar.Graph.Calls
import Costar.Enrichment.Schedule
import Costar.Enrichment.Enrich
import Costar.Search
import Costar.Workbench
import Costar.Settings
import Costar.JsonText
import Costar.Service.Json
import Costar.Service.Content
import Costar.Service.Framework
import Costar.Service.Endpoints
import Costar.CommandLine.Arguments
import Costar.CommandLine.Program
import Costar.Main
import Costar.Proofs.Log
import Costar.Proofs.Graph.Calls
import Costar.Proofs.Enrichment.Attachment
import Costar.Proofs.Enrichment.Turns
import Costar.Proofs.Enrichment.Orders
import Costar.Proofs.Enrichment.Outcomes
import Costar.Proofs.Enrichment.Lookups
import Costar.Proofs.Failure
import Costar.Proofs.Number.Overflow
import Costar.Proofs.Graph.StoredPath
import Costar.Proofs.Connection.Draft
import Costar.Proofs.Connection.Alternation
import Costar.Proofs.Connection.Episodes
import Costar.Proofs.Search.Found
import Costar.Proofs.Cypher.Reading
import Costar.Proofs.Cypher.Legible
import Costar.Proofs.Cypher.Written
import Costar.Proofs.Cypher.Meaning
import Costar.Proofs.Cypher.References
import Costar.Proofs.Filter.Parameters
import Costar.Proofs.Record
import Costar.Proofs.Filter.Conditions
import Costar.Proofs.Filter.Compilation
import Costar.Proofs.Request.Build
import Costar.Proofs.Request.Assembly
import Costar.Proofs.Request.Kept
import Costar.Proofs.Request.Clause
import Costar.Proofs.Request.Admission
import Costar.Proofs.Request.Closed
import Costar.Proofs.Request.Outline
import Costar.Proofs.Search.Queries
import Costar.Proofs.Filter.Operands
import Costar.Proofs.Filter.Refusal
import Costar.Proofs.Filter.Rendering
import Costar.Proofs.Request.Refusal
import Costar.Proofs.Connection.Acceptance
import Costar.Proofs.Search.Unbroken
import Costar.Proofs.Connection.Sharing
import Costar.Proofs.Connection.Reversal
import Costar.Proofs.Connection.Settled
import Costar.Proofs.Service.Sending
import Costar.Proofs.Service.Plain
import Costar.Proofs.Service.Refinement
import Costar.Proofs.Workbench
import Costar.Proofs.Filter.Keys
import Costar.Proofs.Filter.Bounds
import Costar.Proofs.Connection.Description
import Costar.Proofs.Enrichment.Repetition
import Costar.Proofs.Request.Spelling
import Costar.Proofs.Request.EntryOrder
import Costar.Proofs.Request.Precedence
import Costar.Proofs.Text.Decimal
import Costar.Proofs.Number.Numeral
import Costar.Proofs.Calendar.Iso
import Costar.Proofs.Filter.Dates
import Costar.Proofs.Filter.WellFormed
import Costar.Proofs.Request.Scope
import Costar.Proofs.Settings
import Costar.Proofs.Value.Native
