import KindScript.Main
import KindScript.Tree.Nodes
import KindScript.Scope.Store
import KindScript.Proofs.Parsing.Grammar
import KindScript.Proofs.Parsing.Recognition
import KindScript.Proofs.Parsing.Rendering
import KindScript.Proofs.Evaluation.Shape
import KindScript.Proofs.Evaluation.Lexical
import KindScript.Proofs.Evaluation.Refinement
import KindScript.Proofs.Scopes.Operations
import KindScript.Proofs.Scopes.Handles
import KindScript.Proofs.Evaluation.Restoration
import KindScript.Proofs.Evaluation.Change
import KindScript.Proofs.Scanning.Tiling
import KindScript.Proofs.Scanning.Spelling
import KindScript.Proofs.Scanning.Lines
import KindScript.Proofs.Scopes.Renaming
import KindScript.Proofs.Evaluation.Independence
import KindScript.Proofs.Evaluation.Kinds
import KindScript.Proofs.Parsing.Agreement
import KindScript.Proofs.Parsing.Bounds
import KindScript.Proofs.Scopes.Parents
import KindScript.Proofs.Parsing.Placement
import KindScript.Proofs.Compilation.Literals
import KindScript.Proofs.Parsing.Descent
import KindScript.Proofs.Scanning.Faults
import KindScript.Proofs.Compilation.Locations
import KindScript.Proofs.Compilation.Conversion
import KindScript.Proofs.Scopes.Nearest
import KindScript.Proofs.CommandLine.Words
import KindScript.Proofs.Compilation.FirstFile
import KindScript.Proofs.CommandLine.Layers
import KindScript.Proofs.CommandLine.Decoding
import KindScript.Proofs.CommandLine.Runs
import KindScript.Proofs.Dumps.Rounding
import KindScript.Proofs.Dumps.Floats
import KindScript.Proofs.Dumps.Delimiting
import KindScript.Proofs.Dumps.Contents
import KindScript.Proofs.Dumps.Indentation
import KindScript.Proofs.Dumps.Layout
import KindScript.Proofs.Numbers.Approximation
import KindScript.Proofs.Numbers.Exactness
import KindScript.Proofs.Numbers.Laws
import KindScript.Proofs.Numbers.Coherence
import KindScript.Proofs.Numbers.Equality
import KindScript.Proofs.Scanning.Offsets
import KindScript.Proofs.Parsing.Concatenation
import KindScript.Proofs.Scanning.Lookahead
import KindScript.Proofs.Scanning.Resumption
import KindScript.Proofs.Scanning.Escapes
import KindScript.Proofs.Scanning.Leftmost
import KindScript.Proofs.Evaluation.Equivalence
import KindScript.Proofs.Evaluation.Relevance
import KindScript.Proofs.Parsing.Groups
import KindScript.Proofs.Parsing.Reuse
import KindScript.Proofs.Evaluation.Instructions
import KindScript.Proofs.Evaluation.Refusal
import KindScript.Proofs.Parsing.Walking
import KindScript.Proofs.Parsing.Correspondence
import KindScript.Proofs.Parsing.Progress
