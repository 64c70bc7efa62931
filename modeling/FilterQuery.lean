import FilterQuery.Codec.Clause
import FilterQuery.Codec.Select
import FilterQuery.Filter.OfClause
import FilterQuery.Main
import FilterQuery.Proofs.Calendar.Dates
import FilterQuery.Proofs.Calendar.Days
import FilterQuery.Proofs.Calendar.Exact
import FilterQuery.Proofs.Calendar.Offsets
import FilterQuery.Proofs.Calendar.Parts
import FilterQuery.Proofs.Calendar.Times
import FilterQuery.Proofs.Clause.Outlined
import FilterQuery.Proofs.Clause.Quotation
import FilterQuery.Proofs.Clause.Reading
import FilterQuery.Proofs.Clause.Unambiguous
import FilterQuery.Proofs.Codec.Clause
import FilterQuery.Proofs.Codec.Descriptors
import FilterQuery.Proofs.CommandLine.Agreement
import FilterQuery.Proofs.Condition.Patterns
import FilterQuery.Proofs.Condition.Summary
import FilterQuery.Proofs.Config.Models
import FilterQuery.Proofs.Document.Differing
import FilterQuery.Proofs.Document.Extension
import FilterQuery.Proofs.Document.Lenient
import FilterQuery.Proofs.Document.Shorthands
import FilterQuery.Proofs.Document.Unchunked
import FilterQuery.Proofs.Document.Written
import FilterQuery.Proofs.Exchange.Answers
import FilterQuery.Proofs.Filter.Applied
import FilterQuery.Proofs.Filter.Batches
import FilterQuery.Proofs.Filter.Canonical
import FilterQuery.Proofs.Filter.Kept
import FilterQuery.Proofs.Filter.Meaning
import FilterQuery.Proofs.Filter.Omission
import FilterQuery.Proofs.Filter.Pruned
import FilterQuery.Proofs.Filter.Rebuilt
import FilterQuery.Proofs.Filter.Unmarked
import FilterQuery.Proofs.Number.Digits
import FilterQuery.Proofs.Number.Roundest
import FilterQuery.Proofs.Number.Rounding
import FilterQuery.Proofs.Number.Shortest
import FilterQuery.Proofs.Number.Words
import FilterQuery.Proofs.Query.Differing
import FilterQuery.Proofs.Query.Integers
import FilterQuery.Proofs.Query.Keys
import FilterQuery.Proofs.Query.Path
import FilterQuery.Proofs.Query.Row
import FilterQuery.Proofs.Query.Setters
import FilterQuery.Proofs.Schema.Coercion
import FilterQuery.Proofs.Schema.Instants
import FilterQuery.Proofs.Schema.Integers
import FilterQuery.Proofs.Schema.Narrowed
import FilterQuery.Proofs.Schema.Original
import FilterQuery.Proofs.Schema.Settled
import FilterQuery.Proofs.Select.Flags
import FilterQuery.Proofs.Select.Projected
import FilterQuery.Proofs.Select.Unambiguous
import FilterQuery.Proofs.Session.Fields
import FilterQuery.Proofs.Session.Run
import FilterQuery.Proofs.Text.Differing
import FilterQuery.Proofs.Text.Quoted
