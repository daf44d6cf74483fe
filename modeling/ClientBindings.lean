import ClientBindings.Artifact.Emission
import ClientBindings.CommandLine.FileTree
import ClientBindings.CommandLine.Run
import ClientBindings.Logging
import ClientBindings.Main
import ClientBindings.Symbol.Encoding
import ClientBindings.Proofs.Dict
import ClientBindings.Proofs.Outcome
import ClientBindings.Proofs.Matching
import ClientBindings.Proofs.Resolution.Matching
import ClientBindings.Proofs.Graph.Registry
import ClientBindings.Proofs.Resolution.Exactness
import ClientBindings.Proofs.Resolution.Depth
import ClientBindings.Proofs.Resolution.Termination
import ClientBindings.Proofs.Graph.Extension
import ClientBindings.Proofs.Resolution.Frame
import ClientBindings.Proofs.Resolution.Confinement
import ClientBindings.Proofs.Resolution.Blame
import ClientBindings.Proofs.Endpoint.Assembly
import ClientBindings.Proofs.Emission
import ClientBindings.Proofs.Graph.Seeding
import ClientBindings.Proofs.Round.Controllers
import ClientBindings.Proofs.Round.History
import ClientBindings.Proofs.Round.Population
import ClientBindings.Proofs.Resolution.Naming
import ClientBindings.Proofs.Resolution.Replay
import ClientBindings.Proofs.Endpoint.Replay
import ClientBindings.Proofs.Round.Retry
import ClientBindings.Proofs.Symbol.Derivation
import ClientBindings.Proofs.Symbol.Names
import ClientBindings.Proofs.Translation.Direct
import ClientBindings.Proofs.Translation.Reading
import ClientBindings.Proofs.Translation.Shape
import ClientBindings.Proofs.Translation.Lookup
import ClientBindings.Proofs.Translation.Soundness
import ClientBindings.Proofs.Translation.Honest
import ClientBindings.Proofs.Translation.Filling
import ClientBindings.Proofs.Translation.Resolving
import ClientBindings.Proofs.Translation.Calls
import ClientBindings.Proofs.Graph.Numbering
import ClientBindings.Proofs.Graph.Closure
import ClientBindings.Proofs.Resolution.Closure
import ClientBindings.Proofs.Endpoint.Closure
import ClientBindings.Proofs.Round.Closure
import ClientBindings.Proofs.Renumbering.Basic
import ClientBindings.Proofs.Renumbering.Resolution
import ClientBindings.Proofs.Renumbering.Emission
import ClientBindings.Proofs.Renumbering.Endpoint
import ClientBindings.Proofs.Renumbering.Round
import ClientBindings.Proofs.Resolution.Enduring
import ClientBindings.Proofs.Translation.Signature
import ClientBindings.Proofs.Presentation.Account
import ClientBindings.Proofs.Presentation.Identified
import ClientBindings.Proofs.Presentation.Passage
import ClientBindings.Proofs.Presentation.Resolving
import ClientBindings.Proofs.Presentation.Success
import ClientBindings.Proofs.Presentation.Endpoint
import ClientBindings.Proofs.Presentation.Controllers
import ClientBindings.Proofs.Presentation.Model
import ClientBindings.Proofs.Presentation.Round
import ClientBindings.Proofs.Presentation.Demand
import ClientBindings.Proofs.Round.Preservation
import ClientBindings.Proofs.Translation.Classification
import ClientBindings.Proofs.Resolution.Marks
import ClientBindings.Proofs.Resolution.Locking
import ClientBindings.Proofs.Symbol.Annotations
import ClientBindings.Proofs.Endpoint.Discovery
import ClientBindings.Proofs.Round.Invariants
import ClientBindings.Proofs.Artifact.Paths
import ClientBindings.Proofs.Artifact.Spots
import ClientBindings.Proofs.Round.Filing
import ClientBindings.Proofs.Symbol.Variables
import ClientBindings.Proofs.Round.Kinds
import ClientBindings.Proofs.Round.Scope
import ClientBindings.Proofs.Artifact.Lines
import ClientBindings.Proofs.Artifact.Expressions
import ClientBindings.Proofs.Round.Origins
import ClientBindings.Proofs.Artifact.Mentions
import ClientBindings.Proofs.Naming.Segments
import ClientBindings.Proofs.Naming.Imports
import ClientBindings.Proofs.Round.Again
import ClientBindings.Proofs.Round.Reporting
import ClientBindings.Proofs.Document.Decoding
import ClientBindings.Proofs.Symbol.RoundTrip
import ClientBindings.Proofs.Artifact.Rooted
import ClientBindings.Proofs.Round.Acceptance
import ClientBindings.Proofs.Round.Identifiers
import ClientBindings.Proofs.Symbol.Arity
import ClientBindings.Proofs.Presentation.Stems
import ClientBindings.Proofs.Presentation.Arity
import ClientBindings.Proofs.Symbol.Assignability
import ClientBindings.Proofs.Symbol.Collection
import ClientBindings.Proofs.Symbol.Mirroring
import ClientBindings.Proofs.Symbol.Values
import ClientBindings.Proofs.Symbol.Precedence
import ClientBindings.Proofs.Symbol.Inheritance
import ClientBindings.Proofs.Symbol.Substitution
import ClientBindings.Proofs.Symbol.Erasure
import ClientBindings.Proofs.Property.Discovery
import ClientBindings.Proofs.Property.Exposure
import ClientBindings.Proofs.Endpoint.Contents
import ClientBindings.Proofs.Naming.Imported
import ClientBindings.Proofs.Endpoint.Returns
import ClientBindings.Proofs.Endpoint.Slots
import ClientBindings.Proofs.Endpoint.Placeholders
import ClientBindings.Proofs.Naming.Relative
import ClientBindings.Proofs.Naming.Placement
import ClientBindings.Proofs.Naming.Services
import ClientBindings.Proofs.Naming.Modules
import ClientBindings.Proofs.Graph.Overrides
import ClientBindings.Proofs.Graph.Enclosing
import ClientBindings.Proofs.Artifact.Grouping
import ClientBindings.Proofs.Artifact.Files
import ClientBindings.Proofs.Round.Writing
import ClientBindings.Proofs.Artifact.Quotation
import ClientBindings.Proofs.Artifact.Literals
import ClientBindings.Proofs.Symbol.Readings
