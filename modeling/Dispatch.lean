import Dispatch.Main
import Dispatch.Inspect
import Dispatch.Rehearsal
import Dispatch.Proofs.Path
import Dispatch.Proofs.Trie.Change
import Dispatch.Proofs.Compile.Run
import Dispatch.Proofs.Guard.Chain
import Dispatch.Proofs.Extraction
import Dispatch.Proofs.Offer
import Dispatch.Proofs.Compile.Unit
import Dispatch.Proofs.Compile.Ownership
import Dispatch.Proofs.Guard.Execution
import Dispatch.Proofs.Compile.GuardChain
import Dispatch.Proofs.Trie.WellFormed
import Dispatch.Proofs.Compile.Points
import Dispatch.Proofs.Compile.NodeSet
import Dispatch.Proofs.Compile.InPlace
import Dispatch.Proofs.Compile.Gates
import Dispatch.Proofs.Manifest.Declaration
import Dispatch.Proofs.Manifest.Grants
import Dispatch.Proofs.Compile.Spelling
import Dispatch.Proofs.Flatten
import Dispatch.Proofs.Compile.Flattening
import Dispatch.Proofs.Trie.Hanging
import Dispatch.Proofs.Bearing
import Dispatch.Proofs.Compile.Branch
import Dispatch.Proofs.Rearrangement
import Dispatch.Proofs.Compile.Rearrangement
import Dispatch.Proofs.Trie.Frame
import Dispatch.Proofs.Compile.Refusal
import Dispatch.Proofs.Compile.Coupling
import Dispatch.Proofs.Compile.Lockstep
import Dispatch.Proofs.Compile.Dispute
import Dispatch.Proofs.Manifest.Acceptance
import Dispatch.Proofs.Compile.Order
import Dispatch.Proofs.Layout
import Dispatch.Proofs.Trie.Route
import Dispatch.Proofs.Trie.Walk
import Dispatch.Proofs.Trie.Observation
import Dispatch.Proofs.Token
import Dispatch.Proofs.Outline
import Dispatch.Proofs.Compile.View
import Dispatch.Proofs.Compile.Account
import Dispatch.Proofs.Trie.Description
import Dispatch.Proofs.Compile.Description
import Dispatch.Proofs.Compile.Retrace
import Dispatch.Proofs.Compile.Repetition
import Dispatch.Proofs.Sequence
import Dispatch.Proofs.Text.Words
import Dispatch.Proofs.Text.Lowercase
import Dispatch.Proofs.Argument.Grammar
import Dispatch.Proofs.Argument.Pattern
import Dispatch.Proofs.Manifest.Fields
import Dispatch.Proofs.Manifest.Decoding
import Dispatch.Proofs.Manifest.Tidying
import Dispatch.Proofs.Manifest.Offence
import Dispatch.Proofs.Guard.Composition
import Dispatch.Proofs.Trie.Extension
import Dispatch.Proofs.Compile.Extension
import Dispatch.Proofs.Compile.Parent
import Dispatch.Proofs.Compile.Steps
import Dispatch.Proofs.Compile.Child
import Dispatch.Proofs.Json
import Dispatch.Proofs.Layout.Json
import Dispatch.Proofs.Compile.Loudness
import Dispatch.Proofs.CommandLine.Words
import Dispatch.Proofs.CommandLine.Diagnostics
