import AlignmentConfig.Command.Line
import AlignmentConfig.Command.Listing
import AlignmentConfig.Command.Options
import AlignmentConfig.Command.Show
import AlignmentConfig.Constraint
import AlignmentConfig.Constraint.Build
import AlignmentConfig.Constraint.Drafts
import AlignmentConfig.Dict
import AlignmentConfig.Drafting
import AlignmentConfig.Fault
import AlignmentConfig.Headers
import AlignmentConfig.Json
import AlignmentConfig.Log
import AlignmentConfig.Main
import AlignmentConfig.Path
import AlignmentConfig.Properties
import AlignmentConfig.PropertyFile
import AlignmentConfig.Ranks
import AlignmentConfig.Report
import AlignmentConfig.Report.Plain
import AlignmentConfig.Schema
import AlignmentConfig.Session
import AlignmentConfig.Settings
import AlignmentConfig.State
import AlignmentConfig.Text.Blank
import AlignmentConfig.Text.Decimal
import AlignmentConfig.Text.Markup
import AlignmentConfig.Text.Order
import AlignmentConfig.Text.Printable
import AlignmentConfig.Text.Quoted
import AlignmentConfig.Text.Split
import AlignmentConfig.Text.Utf8
import AlignmentConfig.Toml.Calendar
import AlignmentConfig.Toml.Document
import AlignmentConfig.Toml.Flatten
import AlignmentConfig.Toml.Number
import AlignmentConfig.Toml.Quotation
import AlignmentConfig.Toml.Scan
import AlignmentConfig.Toml.Tree
import AlignmentConfig.Toml.Value
import AlignmentConfig.Proofs.Splitting
import AlignmentConfig.Proofs.Occurrences
import AlignmentConfig.Proofs.Ranks
import AlignmentConfig.Proofs.Dict
import AlignmentConfig.Proofs.Headers
import AlignmentConfig.Proofs.ConstraintSet
import AlignmentConfig.Proofs.Drafts
import AlignmentConfig.Proofs.Joining
import AlignmentConfig.Proofs.Integers
import AlignmentConfig.Proofs.Resolution
import AlignmentConfig.Proofs.Refusal
import AlignmentConfig.Proofs.WellFormed
import AlignmentConfig.Proofs.Scopes
import AlignmentConfig.Proofs.Encoding
import AlignmentConfig.Proofs.Recognition
import AlignmentConfig.Proofs.Locality
import AlignmentConfig.Proofs.Assignments
import AlignmentConfig.Proofs.Layering
import AlignmentConfig.Proofs.Loading
import AlignmentConfig.Proofs.LookUps
import AlignmentConfig.Proofs.Showing
import AlignmentConfig.Proofs.Runs
import AlignmentConfig.Proofs.Quotes
import AlignmentConfig.Proofs.Json
import AlignmentConfig.Proofs.Tables
import AlignmentConfig.Proofs.Leaves
import AlignmentConfig.Proofs.Printing
import AlignmentConfig.Proofs.Remainders
import AlignmentConfig.Proofs.Reading
import AlignmentConfig.Proofs.Flattening
import AlignmentConfig.Proofs.Contract
import AlignmentConfig.Proofs.Arguments
import AlignmentConfig.Proofs.Endings
import AlignmentConfig.Proofs.Verbosity
import AlignmentConfig.Proofs.IntegerBlame
import AlignmentConfig.Proofs.Inertness
import AlignmentConfig.Proofs.Conservation
import AlignmentConfig.Proofs.Listing
import AlignmentConfig.Proofs.Trace
import AlignmentConfig.Proofs.Escapes
import AlignmentConfig.Proofs.ShownTables
import AlignmentConfig.Proofs.HeaderEntries
import AlignmentConfig.Proofs.LeafTexts
import AlignmentConfig.Proofs.TableFamilies
import AlignmentConfig.Proofs.Delimiters
import AlignmentConfig.Proofs.Freezing
import AlignmentConfig.Proofs.Desks
import AlignmentConfig.Proofs.CanonicalListing
import AlignmentConfig.Proofs.Merging
import AlignmentConfig.Proofs.Families
import AlignmentConfig.Proofs.AssignmentTexts
import AlignmentConfig.Proofs.OptionSpellings
import AlignmentConfig.Proofs.LookAlikes
