import Criteria.Calendar.Date
import Criteria.Calendar.Instant
import Criteria.Calendar.Text
import Criteria.CommandLine.Arguments
import Criteria.CommandLine.Report
import Criteria.CommandLine.Run
import Criteria.Compile
import Criteria.Config
import Criteria.Decimal.Binary64
import Criteria.Decimal.Layout
import Criteria.Decimal.Numeral
import Criteria.Decimal.Shortest
import Criteria.Dialect
import Criteria.Emission
import Criteria.Fault
import Criteria.Filter
import Criteria.Json.Basic
import Criteria.Json.Decode
import Criteria.Json.Document
import Criteria.Json.Fault
import Criteria.Json.Lexeme
import Criteria.Json.Number
import Criteria.Key
import Criteria.Literal
import Criteria.Main
import Criteria.Node
import Criteria.Node.Json
import Criteria.Predicate
import Criteria.Proofs.Forest
import Criteria.Schema
import Criteria.Schema.Coercion
import Criteria.Schema.Json
import Criteria.Schema.Toml
import Criteria.Text.Blank
import Criteria.Text.Printable
import Criteria.Toml.Basic
import Criteria.Toml.Decode
import Criteria.Toml.Reader
import Criteria.Toml.Scalar
import Criteria.Value
import Criteria.Value.Json
import Criteria.Writer
import Criteria.Proofs.Alignment
import Criteria.Proofs.ListReading
import Criteria.Proofs.Filtering
import Criteria.Proofs.NormalForm
import Criteria.Proofs.ConditionReading
import Criteria.Proofs.Skeleton
import Criteria.Proofs.Halting
import Criteria.Proofs.Refiltering
import Criteria.Proofs.MixedLists
import Criteria.Proofs.Joiners
import Criteria.Proofs.Independence
import Criteria.Proofs.Spellings
import Criteria.Proofs.WrittenNumbers
import Criteria.Proofs.JsonNumbers
import Criteria.Proofs.JsonText
import Criteria.Proofs.NodeDocuments
import Criteria.Proofs.Reloading
import Criteria.Proofs.RenderedConditions
import Criteria.Proofs.NestingLimit
import Criteria.Proofs.IdleConditions
import Criteria.Proofs.Accumulation
import Criteria.Proofs.EmptyGroups
import Criteria.Proofs.Origins
import Criteria.Proofs.FragmentTotals
import Criteria.Proofs.KeyClasses
import Criteria.Proofs.DayNumbers
import Criteria.Proofs.Timestamps
import Criteria.Proofs.ReloadedConditions
import Criteria.Proofs.SavedInstants
import Criteria.Proofs.Lockstep
import Criteria.Proofs.Renaming
import Criteria.Proofs.SingleItems
import Criteria.Proofs.HollowGroups
import Criteria.Proofs.WrittenDates
import Criteria.Proofs.Defusing
import Criteria.Proofs.InlinedDates
import Criteria.Proofs.ZeroStrings
import Criteria.Proofs.SchemaDocuments
import Criteria.Proofs.PathTexts
