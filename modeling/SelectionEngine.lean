import SelectionEngine.Main
import SelectionEngine.Request.Encoding
import SelectionEngine.Schema.Comparison
import SelectionEngine.Proofs.Coercion.Arrangement
import SelectionEngine.Proofs.Coercion.Conforming
import SelectionEngine.Proofs.Coercion.Defaults
import SelectionEngine.Proofs.Coercion.Endless
import SelectionEngine.Proofs.Coercion.EqualArguments
import SelectionEngine.Proofs.Coercion.Equations
import SelectionEngine.Proofs.Coercion.Idempotence
import SelectionEngine.Proofs.Coercion.Offenses
import SelectionEngine.Proofs.Coercion.Recursion
import SelectionEngine.Proofs.Coercion.Relating
import SelectionEngine.Proofs.Coercion.SameInputs
import SelectionEngine.Proofs.Coercion.Substitution
import SelectionEngine.Proofs.Coercion.WellTyped
import SelectionEngine.Proofs.Definitions.Clauses
import SelectionEngine.Proofs.Definitions.Constants
import SelectionEngine.Proofs.Definitions.Cutting
import SelectionEngine.Proofs.Definitions.Lexemes
import SelectionEngine.Proofs.Definitions.Locality
import SelectionEngine.Proofs.Definitions.Numeral
import SelectionEngine.Proofs.Definitions.Readers
import SelectionEngine.Proofs.Definitions.Refused
import SelectionEngine.Proofs.Definitions.Soundness
import SelectionEngine.Proofs.Definitions.Spacing
import SelectionEngine.Proofs.Definitions.Spelling
import SelectionEngine.Proofs.Definitions.Tokens
import SelectionEngine.Proofs.Definitions.Yields
import SelectionEngine.Proofs.Double.Printing
import SelectionEngine.Proofs.Double.Reading
import SelectionEngine.Proofs.Entries
import SelectionEngine.Proofs.Execution.Account
import SelectionEngine.Proofs.Execution.Acts
import SelectionEngine.Proofs.Execution.Admission
import SelectionEngine.Proofs.Execution.Aliases
import SelectionEngine.Proofs.Execution.Awake
import SelectionEngine.Proofs.Execution.Calls
import SelectionEngine.Proofs.Execution.Chronicle
import SelectionEngine.Proofs.Execution.Completion
import SelectionEngine.Proofs.Execution.Conformance
import SelectionEngine.Proofs.Execution.Deadlines
import SelectionEngine.Proofs.Execution.DepthFirst
import SelectionEngine.Proofs.Execution.DepthLimit
import SelectionEngine.Proofs.Execution.Determinism
import SelectionEngine.Proofs.Execution.Dispatches
import SelectionEngine.Proofs.Execution.Echo
import SelectionEngine.Proofs.Execution.EffectOrder
import SelectionEngine.Proofs.Execution.ErrorOrder
import SelectionEngine.Proofs.Execution.FieldGroups
import SelectionEngine.Proofs.Execution.Fitting
import SelectionEngine.Proofs.Execution.Grouping
import SelectionEngine.Proofs.Execution.Interchange
import SelectionEngine.Proofs.Execution.InterfaceFields
import SelectionEngine.Proofs.Execution.Isolation
import SelectionEngine.Proofs.Execution.MappedCalls
import SelectionEngine.Proofs.Execution.Mutations
import SelectionEngine.Proofs.Execution.NullBubbling
import SelectionEngine.Proofs.Execution.OutputTypes
import SelectionEngine.Proofs.Execution.Positions
import SelectionEngine.Proofs.Execution.RelabeledData
import SelectionEngine.Proofs.Execution.Relabeling
import SelectionEngine.Proofs.Execution.Relating
import SelectionEngine.Proofs.Execution.Replay
import SelectionEngine.Proofs.Execution.ResolutionPaths
import SelectionEngine.Proofs.Execution.ResolverErrors
import SelectionEngine.Proofs.Execution.Responses
import SelectionEngine.Proofs.Execution.Retiming
import SelectionEngine.Proofs.Execution.Scheduling
import SelectionEngine.Proofs.Execution.Settlement
import SelectionEngine.Proofs.Execution.Simulation
import SelectionEngine.Proofs.Execution.Succession
import SelectionEngine.Proofs.Execution.Tidying
import SelectionEngine.Proofs.Execution.Tracing
import SelectionEngine.Proofs.Execution.TypedObjects
import SelectionEngine.Proofs.Execution.Variables
import SelectionEngine.Proofs.Json.Atoms
import SelectionEngine.Proofs.Json.Decoding
import SelectionEngine.Proofs.Json.Text
import SelectionEngine.Proofs.Outcomes
import SelectionEngine.Proofs.Path
import SelectionEngine.Proofs.Request.RoundTrip
import SelectionEngine.Proofs.Response.RoundTrip
import SelectionEngine.Proofs.Schema.Acceptance
import SelectionEngine.Proofs.Schema.AcceptedText
import SelectionEngine.Proofs.Schema.Attachment
import SelectionEngine.Proofs.Schema.Checks
import SelectionEngine.Proofs.Schema.Coherence
import SelectionEngine.Proofs.Schema.Declarations
import SelectionEngine.Proofs.Schema.InPlace
import SelectionEngine.Proofs.Schema.Insertion
import SelectionEngine.Proofs.Schema.Interchange
import SelectionEngine.Proofs.Schema.Listing
import SelectionEngine.Proofs.Schema.Precedence
import SelectionEngine.Proofs.Schema.Rearrangement
import SelectionEngine.Proofs.Schema.Registration
import SelectionEngine.Proofs.Schema.Rereading
import SelectionEngine.Proofs.Schema.TextRoundTrip
import SelectionEngine.Proofs.Schema.Unbinding
import SelectionEngine.Proofs.Schema.Validity
import SelectionEngine.Proofs.Schema.WithoutResolvers
import SelectionEngine.Proofs.Showcase.Answers
import SelectionEngine.Proofs.Showcase.Dispatching
import SelectionEngine.Proofs.Showcase.Faults
import SelectionEngine.Proofs.Showcase.Given
import SelectionEngine.Proofs.Showcase.Inputs
import SelectionEngine.Proofs.Showcase.MessageSessions
import SelectionEngine.Proofs.Showcase.Messages
import SelectionEngine.Proofs.Showcase.Posting
import SelectionEngine.Proofs.Showcase.Resolving
import SelectionEngine.Proofs.Showcase.Served
import SelectionEngine.Proofs.Showcase.Sessions
import SelectionEngine.Proofs.Showcase.Stock
import SelectionEngine.Proofs.Store.History
import SelectionEngine.Proofs.Store.Records
import SelectionEngine.Proofs.Store.Updates
import SelectionEngine.Proofs.Task.Logging
import SelectionEngine.Proofs.Task.Moving
import SelectionEngine.Proofs.Task.Refinement
import SelectionEngine.Proofs.Task.Sequencing
import SelectionEngine.Proofs.Task.Settling
import SelectionEngine.Proofs.Task.Sleeping
import SelectionEngine.Proofs.Task.Timing
import SelectionEngine.Proofs.Task.Tracking
import SelectionEngine.Proofs.Task.Watching
import SelectionEngine.Proofs.Text.Digits
