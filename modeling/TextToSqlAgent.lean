import TextToSqlAgent.Library.Runs
import TextToSqlAgent.Library.Cutting
import TextToSqlAgent.Library.Walk
import TextToSqlAgent.Library.Arrangements
import TextToSqlAgent.Library.Counting
import TextToSqlAgent.Library.Fallible
import TextToSqlAgent.Library.Dictionary
import TextToSqlAgent.Library.Directories
import TextToSqlAgent.Library.KeyedTable
import TextToSqlAgent.Library.Transactions
import TextToSqlAgent.Library.Documents
import TextToSqlAgent.Library.Lines
import TextToSqlAgent.Library.Propagation
import TextToSqlAgent.Core.Exceptions
import TextToSqlAgent.Core.Settings
import TextToSqlAgent.Core.Python
import TextToSqlAgent.Core.JsonText
import TextToSqlAgent.Core.FloatText
import TextToSqlAgent.Core.Doubles
import TextToSqlAgent.Core.Sha256
import TextToSqlAgent.Adapters.Fallback
import TextToSqlAgent.Validation.Syntax
import TextToSqlAgent.Validation.Rejections
import TextToSqlAgent.Validation.Scopes
import TextToSqlAgent.Validation.Catalog
import TextToSqlAgent.Validation.Validator
import TextToSqlAgent.Validation.ReadOnlyGate
import TextToSqlAgent.Schema.Models
import TextToSqlAgent.Schema.Indexer
import TextToSqlAgent.Schema.Refresh
import TextToSqlAgent.Schema.Readers
import TextToSqlAgent.Generation.Prompts
import TextToSqlAgent.Generation.PromptLines
import TextToSqlAgent.Profiling.Profiler
import TextToSqlAgent.Execution.Executor
import TextToSqlAgent.Execution.RowLimit
import TextToSqlAgent.Execution.Audit
import TextToSqlAgent.Benchmark.Acquire
import TextToSqlAgent.Benchmark.Identifiers
import TextToSqlAgent.Benchmark.SqliteSource
import TextToSqlAgent.Benchmark.Plan
import TextToSqlAgent.Benchmark.Retyping
import TextToSqlAgent.Benchmark.Unification
import TextToSqlAgent.Benchmark.FixedPoint
import TextToSqlAgent.Benchmark.Schemas
import TextToSqlAgent.Benchmark.Convert
import TextToSqlAgent.Benchmark.Lossless
import TextToSqlAgent.Benchmark.Load
import TextToSqlAgent.Benchmark.Overwrite
import TextToSqlAgent.Benchmark.Verify
import TextToSqlAgent.Benchmark.Naming
import TextToSqlAgent.Benchmark.Accounting
import TextToSqlAgent.Benchmark.Unpacking
import TextToSqlAgent.Web.Utf16
import TextToSqlAgent.Web.SseClient
import TextToSqlAgent.Web.SseReference
import TextToSqlAgent.Web.SseLines
import TextToSqlAgent.Web.SseBounds
import TextToSqlAgent.Web.Events
import TextToSqlAgent.Web.JsonParse
import TextToSqlAgent.Web.Reducer
import TextToSqlAgent.Web.App
import TextToSqlAgent.Web.Client
import TextToSqlAgent.Api.Health
import TextToSqlAgent.Api.BodyLimit
import TextToSqlAgent.Api.SseEvent
import TextToSqlAgent.Api.SseWire
import TextToSqlAgent.Api.Errors
import TextToSqlAgent.Api.Query
import TextToSqlAgent.Api.Disclosure
import TextToSqlAgent.Api.Stream
import TextToSqlAgent.Api.Agreement
import TextToSqlAgent.Api.Admission
import TextToSqlAgent.Evals.McpClient
import TextToSqlAgent.Evals.McpPool
import TextToSqlAgent.Evals.McpRetrieval
import TextToSqlAgent.Evals.WireTrip
import TextToSqlAgent.Evals.Canonical
import TextToSqlAgent.Evals.Conflation
import TextToSqlAgent.Evals.Comparison
import TextToSqlAgent.Evals.ColumnOrder
import TextToSqlAgent.Evals.OrderDiagnosis
import TextToSqlAgent.Evals.Recall
import TextToSqlAgent.Evals.Extraction
import TextToSqlAgent.Evals.Taxonomy
import TextToSqlAgent.Evals.Artifacts
import TextToSqlAgent.Evals.Runner
import TextToSqlAgent.Evals.Resumption
import TextToSqlAgent.Evals.Summary
import TextToSqlAgent.Evals.Evaluations
import TextToSqlAgent.Evals.Classification
import TextToSqlAgent.Evals.Neutrality
import TextToSqlAgent.Evals.Recovery
import TextToSqlAgent.Evals.Gold
import TextToSqlAgent.Evals.Scoping
import TextToSqlAgent.Evals.Verified
import TextToSqlAgent.Evals.RoundTrip
import TextToSqlAgent.Benchmark.Questions
import TextToSqlAgent.Api.RowsWire
import TextToSqlAgent.Benchmark.ForeignKeys
import TextToSqlAgent.Core.Dsn
import TextToSqlAgent.Generation.Formatting
import TextToSqlAgent.Benchmark.LimitTie
import TextToSqlAgent.Benchmark.QuotedLiterals
import TextToSqlAgent.Benchmark.Inference
import TextToSqlAgent.Profiling.Withheld
import TextToSqlAgent.Profiling.TypeNames
import TextToSqlAgent.Web.Tokenize
import TextToSqlAgent.Evals.Dataset
import TextToSqlAgent.Core.Numbers
import TextToSqlAgent.Core.JsonLayout
import TextToSqlAgent.McpServers.Common
import TextToSqlAgent.Agent.Discovery
import TextToSqlAgent.Schema.Retrieval
import TextToSqlAgent.McpServers.Tools
import TextToSqlAgent.McpServers.Contracts
import TextToSqlAgent.Composition.Resources
import TextToSqlAgent.Composition.Startup
import TextToSqlAgent.Core.Blake2b
import TextToSqlAgent.Core.FloatArithmetic
import TextToSqlAgent.Benchmark.Splits
import TextToSqlAgent.Validation.Refusals
import TextToSqlAgent.Generation.Generator
import TextToSqlAgent.Answering.Answerer
import TextToSqlAgent.Evals.Pipeline
import TextToSqlAgent.Evals.Baselines
import TextToSqlAgent.Evals.Reports
import TextToSqlAgent.Evals.McpBaseline
import TextToSqlAgent.Answering.Served
import TextToSqlAgent.Schema.Introspection
import TextToSqlAgent.Api.Capacity
import TextToSqlAgent.Benchmark.Checks
