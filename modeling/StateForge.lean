import StateForge.Main
import StateForge.Machine.Diagram
import StateForge.Proofs.Acceptance
import StateForge.Proofs.Fragment.Lexer
import StateForge.Proofs.Fragment.Parser
import StateForge.Proofs.Behaviour
import StateForge.Proofs.Fragment.Execution
import StateForge.Proofs.Alphabet
import StateForge.Proofs.Translation
import StateForge.Proofs.NameClash
import StateForge.Proofs.Simulation
import StateForge.Proofs.FileSystem.Growth
import StateForge.Proofs.Artifact.Writing
import StateForge.Proofs.Generation.Outcome
import StateForge.Proofs.Generation.Rerun
import StateForge.Proofs.Recovery
import StateForge.Proofs.Validation
import StateForge.Proofs.Yaml.Lookup
import StateForge.Proofs.Yaml.Reading
import StateForge.Proofs.Yaml.Negation
import StateForge.Proofs.Watch.Debounce
import StateForge.Proofs.Watch.UpToDate
import StateForge.Proofs.Decoding
import StateForge.Proofs.Compact.Rendering
import StateForge.Proofs.Compact.Json
import StateForge.Proofs.Yaml.Scanning
import StateForge.Proofs.Compact.Tokens
import StateForge.Proofs.Compact.Nodes
import StateForge.Proofs.Yaml.Loading
import StateForge.Proofs.Compact.Agreement
import StateForge.Proofs.FileSystem.Directories
import StateForge.Proofs.Artifact.Status
import StateForge.Proofs.Artifact.LineEnds
import StateForge.Proofs.Artifact.Batch
import StateForge.Proofs.Block.Rendering
import StateForge.Proofs.Block.Tokens
import StateForge.Proofs.Block.Nodes
import StateForge.Proofs.Block.RoundTrip
import StateForge.Proofs.Text.Trimming
import StateForge.Proofs.PredicateText
import StateForge.Proofs.Building
import StateForge.Proofs.Statements
import StateForge.Proofs.Declarations
import StateForge.Proofs.Enumeration
import StateForge.Proofs.Generation.Reporting
import StateForge.Proofs.Diagram.Rows
import StateForge.Proofs.Diagram.Layout
import StateForge.Proofs.Diagram.Reading
import StateForge.Proofs.Diagram.Comment
import StateForge.Proofs.Diff.Script
import StateForge.Proofs.Diff.Hunks
import StateForge.Proofs.Diff.Patch
import StateForge.Proofs.Artifact.Changes
