import ModelSurface.CommandLine.FileTree
import ModelSurface.Description.Schema
import ModelSurface.Engine.Mutations
import ModelSurface.Main
import ModelSurface.Registry.Builder
import ModelSurface.Registry.Writer
import ModelSurface.Proofs.Engine.Call
import ModelSurface.Proofs.Engine.Atomicity
import ModelSurface.Proofs.Engine.BulkPolicies
import ModelSurface.Proofs.Deletion.Remaining
import ModelSurface.Proofs.Deletion.Erosion
import ModelSurface.Proofs.Deletion.Underway
import ModelSurface.Proofs.Deletion.Removal
import ModelSurface.Proofs.Deletion.Outcome
import ModelSurface.Proofs.Named
import ModelSurface.Proofs.Schema.Spelling
import ModelSurface.Proofs.Schema.Members
import ModelSurface.Proofs.Schema.Fields
import ModelSurface.Proofs.Schema.Sides
import ModelSurface.Proofs.Schema.Drafts
import ModelSurface.Proofs.Schema.Sound
import ModelSurface.Proofs.Engine.Deleting
import ModelSurface.Proofs.Scalar.Reading
import ModelSurface.Proofs.Write.Inputs
import ModelSurface.Proofs.Write.Drafts
import ModelSurface.Proofs.Write.Planning
import ModelSurface.Proofs.Write.Finishing
import ModelSurface.Proofs.Deletion.Linked
import ModelSurface.Proofs.Write.Drawing
import ModelSurface.Proofs.Write.Steps
import ModelSurface.Proofs.Write.Applying
import ModelSurface.Proofs.Engine.Integrity
import ModelSurface.Proofs.Engine.Exclusivity
import ModelSurface.Proofs.Described
import ModelSurface.Proofs.Write.Described
import ModelSurface.Proofs.Engine.Setting
import ModelSurface.Proofs.Engine.Conformity
import ModelSurface.Proofs.Filter.Meaning
import ModelSurface.Proofs.Engine.Calm
import ModelSurface.Proofs.Write.Sorting
import ModelSurface.Proofs.Write.Fresh
import ModelSurface.Proofs.Write.Deciding
import ModelSurface.Proofs.Write.Refusing
import ModelSurface.Proofs.Deletion.Refusing
import ModelSurface.Proofs.Engine.Refusing
import ModelSurface.Proofs.Write.Circles
import ModelSurface.Proofs.Engine.Circularity
import ModelSurface.Proofs.Write.Placing
import ModelSurface.Proofs.Write.Honouring
import ModelSurface.Proofs.Write.Objects
import ModelSurface.Proofs.Write.Adding
import ModelSurface.Proofs.Engine.Linking
import ModelSurface.Proofs.Write.Building
import ModelSurface.Proofs.Write.Effects
import ModelSurface.Proofs.Engine.Effects
import ModelSurface.Proofs.Deletion.Alike
import ModelSurface.Proofs.Engine.Indifference
import ModelSurface.Proofs.Filter.Shape
import ModelSurface.Proofs.Filter.RoundTrip
import ModelSurface.Proofs.Filter.Listed
import ModelSurface.Proofs.Query.Slices
import ModelSurface.Proofs.Query.Paging
import ModelSurface.Proofs.Write.Pairs
import ModelSurface.Proofs.Write.Connecting
import ModelSurface.Proofs.Engine.Sides
import ModelSurface.Proofs.Schema.Inherited
import ModelSurface.Proofs.Schema.Inheritance
import ModelSurface.Proofs.Schema.Resolver
import ModelSurface.Proofs.Schema.Reports
import ModelSurface.Proofs.Schema.Isolation
import ModelSurface.Proofs.Schema.Pairing
import ModelSurface.Proofs.Schema.ValidNames
import ModelSurface.Proofs.Schema.WellFormed
import ModelSurface.Proofs.Results
import ModelSurface.Proofs.Surface.Names
import ModelSurface.Proofs.Surface.Distinct
import ModelSurface.Proofs.Surface.Declared
import ModelSurface.Proofs.Surface.Closed
import ModelSurface.Proofs.Numeric.Nearest
import ModelSurface.Proofs.Numeric.Shortest
import ModelSurface.Proofs.Json.Proper
import ModelSurface.Proofs.Json.Numbers
import ModelSurface.Proofs.Json.Lexing
import ModelSurface.Proofs.Json.Building
import ModelSurface.Proofs.Json.Bounds
import ModelSurface.Proofs.Json.Accepted
import ModelSurface.Proofs.Json.Recovered
import ModelSurface.Proofs.Registry.Accepted
import ModelSurface.Proofs.Registry.Merging
import ModelSurface.Proofs.Registry.RoundTrip
import ModelSurface.Proofs.Calendar.Numerals
import ModelSurface.Proofs.Calendar.Reading
import ModelSurface.Proofs.Numeric.Places
import ModelSurface.Proofs.Scalar.Uuids
import ModelSurface.Proofs.Scalar.RoundTrip
import ModelSurface.Proofs.Engine.Envelopes
import ModelSurface.Proofs.Write.Counting
import ModelSurface.Proofs.Write.Numbering
import ModelSurface.Proofs.Engine.Advancing
import ModelSurface.Proofs.Engine.Identities
import ModelSurface.Proofs.Write.Conforming
import ModelSurface.Proofs.Write.Accepting
import ModelSurface.Proofs.Write.Stemming
import ModelSurface.Proofs.Write.Plannable
import ModelSurface.Proofs.Write.Ordering
import ModelSurface.Proofs.Filter.Grammar
import ModelSurface.Proofs.Filter.Offences
import ModelSurface.Proofs.Engine.Filtering
import ModelSurface.Proofs.Write.Flaws
import ModelSurface.Proofs.Scalar.Measures
import ModelSurface.Proofs.Query.Sorting
import ModelSurface.Proofs.Engine.Traversal
import ModelSurface.Proofs.Write.Flat
import ModelSurface.Proofs.Write.Standing
import ModelSurface.Proofs.Write.Repeating
import ModelSurface.Proofs.Engine.Retries
import ModelSurface.Proofs.Write.Revising
import ModelSurface.Proofs.Engine.Revisions
import ModelSurface.Proofs.Filter.Comparing
import ModelSurface.Proofs.Filter.Casing
import ModelSurface.Proofs.Query.Keys
import ModelSurface.Proofs.Engine.Receiver
import ModelSurface.Proofs.Filter.Hops
import ModelSurface.Proofs.Render.BlockStrings
import ModelSurface.Proofs.Text.Words
import ModelSurface.Proofs.Render.Bindings
