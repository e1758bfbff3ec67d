import WorkflowEngine.Decimal.Binary
import WorkflowEngine.Decimal.Layout
import WorkflowEngine.Decimal.Numeral
import WorkflowEngine.Decimal.Shortest
import WorkflowEngine.Document.Basic
import WorkflowEngine.Document.Decode
import WorkflowEngine.Engine
import WorkflowEngine.Execution.Attempts
import WorkflowEngine.Execution.Executor
import WorkflowEngine.Execution.Intake
import WorkflowEngine.Execution.Ledger
import WorkflowEngine.Execution.Queue
import WorkflowEngine.Execution.Run
import WorkflowEngine.Expression.Coercion
import WorkflowEngine.Expression.Context
import WorkflowEngine.Expression.Eval
import WorkflowEngine.Expression.Fault
import WorkflowEngine.Expression.Function
import WorkflowEngine.Expression.Grammar
import WorkflowEngine.Expression.Path
import WorkflowEngine.Expression.Placeholder
import WorkflowEngine.Expression.Template
import WorkflowEngine.Expression.Token
import WorkflowEngine.Expression.Tree
import WorkflowEngine.Fields
import WorkflowEngine.Graph.Levels
import WorkflowEngine.Graph.Traversal
import WorkflowEngine.Jobs.Queue
import WorkflowEngine.Jobs.Service
import WorkflowEngine.Json.Numeral
import WorkflowEngine.Json.Printer
import WorkflowEngine.Json.Reader
import WorkflowEngine.Json.Value
import WorkflowEngine.Proofs.Execution.Calls
import WorkflowEngine.Proofs.Execution.Delivery
import WorkflowEngine.Proofs.Execution.Gate
import WorkflowEngine.Proofs.Execution.Ledger
import WorkflowEngine.Proofs.Execution.Level
import WorkflowEngine.Proofs.Execution.Lifecycle
import WorkflowEngine.Proofs.Execution.Order
import WorkflowEngine.Proofs.Execution.Queue
import WorkflowEngine.Proofs.Execution.Report
import WorkflowEngine.Proofs.Expression.Completeness
import WorkflowEngine.Proofs.Expression.Grammar
import WorkflowEngine.Proofs.Expression.Secrets
import WorkflowEngine.Proofs.Expression.Soundness
import WorkflowEngine.Proofs.Expression.Texts
import WorkflowEngine.Proofs.Fields
import WorkflowEngine.Proofs.Graph.Levels
import WorkflowEngine.Proofs.Graph.Search
import WorkflowEngine.Proofs.Graph.Traversal
import WorkflowEngine.Proofs.Jobs.Draining
import WorkflowEngine.Proofs.Jobs.Expiry
import WorkflowEngine.Proofs.Jobs.Invariant
import WorkflowEngine.Proofs.Jobs.Pause
import WorkflowEngine.Proofs.Jobs.Queue
import WorkflowEngine.Proofs.Jobs.Results
import WorkflowEngine.Proofs.Jobs.Shutdown
import WorkflowEngine.Proofs.Jobs.Slot
import WorkflowEngine.Proofs.Jobs.Clients
import WorkflowEngine.Proofs.Jobs.World
import WorkflowEngine.Proofs.Workflow.Names
import WorkflowEngine.Proofs.Workflow.Precedence
import WorkflowEngine.Proofs.Workflow.Validation
import WorkflowEngine.Settings
import WorkflowEngine.Submission
import WorkflowEngine.Text.Alphabetic
import WorkflowEngine.Text.Blank
import WorkflowEngine.Text.Case
import WorkflowEngine.Text.Hex
import WorkflowEngine.Text.Quoted
import WorkflowEngine.Text.Range
import WorkflowEngine.Ticker
import WorkflowEngine.Trigger.Schedule
import WorkflowEngine.Trigger.Service
import WorkflowEngine.Work
import WorkflowEngine.Workflow.Basic
import WorkflowEngine.Workflow.Decode
import WorkflowEngine.Workflow.Encode
import WorkflowEngine.Workflow.File
import WorkflowEngine.Workflow.Optimization
import WorkflowEngine.Workflow.Precedence
import WorkflowEngine.Workflow.Synthesis
import WorkflowEngine.Workflow.Validation
import WorkflowEngine.Yaml.CoreSchema
import WorkflowEngine.Yaml.Cursor
import WorkflowEngine.Yaml.Printer
import WorkflowEngine.Yaml.Reader
import WorkflowEngine.Yaml.Scalar
import WorkflowEngine.Yaml.Token
import WorkflowEngine.Proofs.Expression.Provider
import WorkflowEngine.Proofs.Expression.Session
import WorkflowEngine.Proofs.Expression.Brackets
import WorkflowEngine.Proofs.Expression.Template
import WorkflowEngine.Proofs.Execution.Course
import WorkflowEngine.Proofs.Execution.OnCourse
import WorkflowEngine.Proofs.Execution.Agreement
import WorkflowEngine.Proofs.Execution.Fate
import WorkflowEngine.Proofs.Execution.EngineRuns
import WorkflowEngine.Proofs.Execution.Reporting
import WorkflowEngine.Proofs.Jobs.Retention
import WorkflowEngine.Proofs.Submission
import WorkflowEngine.Proofs.Trigger.Schedule
import WorkflowEngine.Proofs.Trigger.Service
import WorkflowEngine.Proofs.Execution.Permits
import WorkflowEngine.Proofs.Json.Reader
import WorkflowEngine.Proofs.Document.Decode
import WorkflowEngine.Proofs.Workflow.RoundTrip
import WorkflowEngine.Proofs.Workflow.Levels
import WorkflowEngine.Proofs.Workflow.Optimization
import WorkflowEngine.Proofs.Workflow.Meaning
import WorkflowEngine.Proofs.Graph.Trail
import WorkflowEngine.Proofs.Graph.Repetition
import WorkflowEngine.Proofs.Expression.Placeholder
import WorkflowEngine.Proofs.Workflow.Cycle
import WorkflowEngine.Proofs.Expression.Growth
import WorkflowEngine.Proofs.Execution.Growth
import WorkflowEngine.Proofs.Expression.Refusal
import WorkflowEngine.Proofs.Document.Value
import WorkflowEngine.Proofs.Workflow.Decode
import WorkflowEngine.Proofs.Workflow.Synthesis
import WorkflowEngine.Proofs.Expression.Lexemes
import WorkflowEngine.Proofs.Expression.Calls
import WorkflowEngine.Proofs.Expression.Nesting
import WorkflowEngine.Proofs.Expression.Literal
import WorkflowEngine.Proofs.Decimal.Order
import WorkflowEngine.Proofs.Expression.Comparison
import WorkflowEngine.Proofs.Decimal.Shortest
import WorkflowEngine.Proofs.Decimal.Layout
import WorkflowEngine.Proofs.Decimal.Numeral
import WorkflowEngine.Proofs.Json.Text
import WorkflowEngine.Proofs.Json.Same
import WorkflowEngine.Proofs.Expression.Equality
import WorkflowEngine.Proofs.Expression.Chains
import WorkflowEngine.Proofs.Workflow.Warnings
import WorkflowEngine.Proofs.Text.Case
import WorkflowEngine.Proofs.Expression.Registry
import WorkflowEngine.Proofs.Expression.Lexing
import WorkflowEngine.Proofs.Expression.Unclosed
import WorkflowEngine.Proofs.Expression.Path
import WorkflowEngine.Proofs.Workflow.Parallelism
import WorkflowEngine.Proofs.Text.Pattern
import WorkflowEngine.Proofs.Workflow.Fences
import WorkflowEngine.Proofs.Execution.Attempts
import WorkflowEngine.Proofs.Execution.Tale
import WorkflowEngine.Proofs.Execution.Retrying
import WorkflowEngine.Proofs.Execution.Marking
import WorkflowEngine.Proofs.Trigger.Advance
import WorkflowEngine.Proofs.Graph.Rounds
