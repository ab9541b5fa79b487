import EntitySchema.Calendar.Clock
import EntitySchema.Calendar.Date
import EntitySchema.Calendar.Scan
import EntitySchema.Calendar.Timestamp
import EntitySchema.Engine.Basic
import EntitySchema.Engine.Config
import EntitySchema.Engine.Deployment
import EntitySchema.Engine.Error
import EntitySchema.Engine.Toolbox
import EntitySchema.Json.Decoding
import EntitySchema.Json.Numeral
import EntitySchema.Json.Printer
import EntitySchema.Json.Reader
import EntitySchema.Json.Token
import EntitySchema.Json.Tree
import EntitySchema.KeyMap
import EntitySchema.Model.Adhoc
import EntitySchema.Model.DataType
import EntitySchema.Model.Field
import EntitySchema.Model.Registry
import EntitySchema.Model.Schema
import EntitySchema.Model.Transport
import EntitySchema.Number.Binary
import EntitySchema.Number.BinaryText
import EntitySchema.Number.Conversion
import EntitySchema.Number.Decimal
import EntitySchema.Number.DecimalText
import EntitySchema.Number.Rounding
import EntitySchema.Number.Shortest
import EntitySchema.Proofs.Calendar.Instant
import EntitySchema.Proofs.Calendar.Order
import EntitySchema.Proofs.Calendar.Reading
import EntitySchema.Proofs.Calendar.Spelling
import EntitySchema.Proofs.Calendar.Timestamp
import EntitySchema.Proofs.Engine.Cache
import EntitySchema.Proofs.Engine.Call
import EntitySchema.Proofs.Engine.Coherence
import EntitySchema.Proofs.Engine.Deployment
import EntitySchema.Proofs.Engine.Move
import EntitySchema.Proofs.Engine.Preparation
import EntitySchema.Proofs.Engine.Publication
import EntitySchema.Proofs.Engine.Run
import EntitySchema.Proofs.Engine.Serving
import EntitySchema.Proofs.Engine.Settings
import EntitySchema.Proofs.Engine.Store
import EntitySchema.Proofs.Engine.Table
import EntitySchema.Proofs.Engine.Toolbox
import EntitySchema.Proofs.Json.Arrangement
import EntitySchema.Proofs.Json.Exact
import EntitySchema.Proofs.Json.Members
import EntitySchema.Proofs.Json.Numeral
import EntitySchema.Proofs.Json.Reading
import EntitySchema.Proofs.Json.Token
import EntitySchema.Proofs.KeyMap
import EntitySchema.Proofs.Model.Assembly
import EntitySchema.Proofs.Model.Registration
import EntitySchema.Proofs.Model.Registry
import EntitySchema.Proofs.Model.Transport
import EntitySchema.Proofs.Number.Binary
import EntitySchema.Proofs.Number.Conversion
import EntitySchema.Proofs.Number.Numeral
import EntitySchema.Proofs.Number.Order
import EntitySchema.Proofs.Number.Rounding
import EntitySchema.Proofs.Number.Shortest
import EntitySchema.Proofs.Number.Whole
import EntitySchema.Proofs.Outcome
import EntitySchema.Proofs.Sql.Agreement
import EntitySchema.Proofs.Sql.Batch
import EntitySchema.Proofs.Sql.Buffer
import EntitySchema.Proofs.Sql.Category
import EntitySchema.Proofs.Sql.Checking
import EntitySchema.Proofs.Sql.Clause
import EntitySchema.Proofs.Sql.Command
import EntitySchema.Proofs.Sql.Composition
import EntitySchema.Proofs.Sql.Condition
import EntitySchema.Proofs.Sql.Conjunction
import EntitySchema.Proofs.Sql.Constant
import EntitySchema.Proofs.Sql.Database
import EntitySchema.Proofs.Sql.Definition
import EntitySchema.Proofs.Sql.Deletion
import EntitySchema.Proofs.Sql.Derivation
import EntitySchema.Proofs.Sql.Filter
import EntitySchema.Proofs.Sql.Form
import EntitySchema.Proofs.Sql.Formula
import EntitySchema.Proofs.Sql.Group
import EntitySchema.Proofs.Sql.Grouping
import EntitySchema.Proofs.Sql.Injection
import EntitySchema.Proofs.Sql.Item
import EntitySchema.Proofs.Sql.Literal
import EntitySchema.Proofs.Sql.Mask
import EntitySchema.Proofs.Sql.Matching
import EntitySchema.Proofs.Sql.Membership
import EntitySchema.Proofs.Sql.Mutation
import EntitySchema.Proofs.Sql.Naming
import EntitySchema.Proofs.Sql.Pattern
import EntitySchema.Proofs.Sql.Reading
import EntitySchema.Proofs.Sql.Request
import EntitySchema.Proofs.Sql.Respelling
import EntitySchema.Proofs.Sql.Selection
import EntitySchema.Proofs.Sql.Target
import EntitySchema.Proofs.Sql.Template
import EntitySchema.Proofs.Sql.Temporal
import EntitySchema.Proofs.Sql.Tenant
import EntitySchema.Proofs.Sql.Token
import EntitySchema.Proofs.Sql.Transport
import EntitySchema.Proofs.Sql.Tree
import EntitySchema.Proofs.Sql.Typing
import EntitySchema.Proofs.Sql.Uniqueness
import EntitySchema.Proofs.Sql.Updating
import EntitySchema.Proofs.Sql.Usage
import EntitySchema.Proofs.Sql.Validated
import EntitySchema.Proofs.Sql.WellFormed
import EntitySchema.Proofs.Sql.Width
import EntitySchema.Proofs.Text.Blank
import EntitySchema.Proofs.Text.Case
import EntitySchema.Proofs.Text.Hex
import EntitySchema.Proofs.Text.Numeral
import EntitySchema.Proofs.Text.Order
import EntitySchema.Proofs.Validation.Bounds
import EntitySchema.Proofs.Validation.Declared
import EntitySchema.Proofs.Validation.Defaults
import EntitySchema.Proofs.Validation.Editing
import EntitySchema.Proofs.Validation.Email
import EntitySchema.Proofs.Validation.Finding
import EntitySchema.Proofs.Validation.Lifting
import EntitySchema.Proofs.Validation.Normal
import EntitySchema.Proofs.Validation.Report
import EntitySchema.Proofs.Validation.Temporal
import EntitySchema.Proofs.Validation.Texts
import EntitySchema.Proofs.Validation.Validator
import EntitySchema.Proofs.Validation.Violations
import EntitySchema.Proofs.Value.Canonical
import EntitySchema.Proofs.Value.Comparison
import EntitySchema.Proofs.Value.Document
import EntitySchema.Proofs.Value.Exact
import EntitySchema.Proofs.Value.Order
import EntitySchema.Proofs.Wire.Collision
import EntitySchema.Proofs.Wire.Flattening
import EntitySchema.Proofs.Wire.Integer
import EntitySchema.Proofs.Wire.Mapping
import EntitySchema.Proofs.Wire.Overflow
import EntitySchema.Proofs.Wire.Plan
import EntitySchema.Proofs.Wire.RoundTrip
import EntitySchema.Proofs.Wire.Type
import EntitySchema.Proofs.Wire.Uuid
import EntitySchema.Sql.Category
import EntitySchema.Sql.Compiler
import EntitySchema.Sql.Dialect
import EntitySchema.Sql.Entity
import EntitySchema.Sql.Error
import EntitySchema.Sql.Operator
import EntitySchema.Sql.Search
import EntitySchema.Sql.Statement
import EntitySchema.Sql.Transport
import EntitySchema.Text.Blank
import EntitySchema.Text.Case
import EntitySchema.Text.Case.Table
import EntitySchema.Text.Hex
import EntitySchema.Text.Numeral
import EntitySchema.Text.Search
import EntitySchema.Toml.Reader
import EntitySchema.Toml.Scalar
import EntitySchema.Toml.Token
import EntitySchema.Toml.Tree
import EntitySchema.Validation.Adhoc
import EntitySchema.Validation.Config
import EntitySchema.Validation.Format
import EntitySchema.Validation.Rules
import EntitySchema.Validation.Validator
import EntitySchema.Validation.Violations
import EntitySchema.Value.Basic
import EntitySchema.Value.Json
import EntitySchema.Value.Record
import EntitySchema.Wire.Mapping
import EntitySchema.Wire.Type
import EntitySchema.Wire.Uuid
