import ApiBindings.Main
import ApiBindings.Proofs.Resolution.Scopes
import ApiBindings.Proofs.Surface.Deduplication
import ApiBindings.Proofs.Surface.Modularity
import ApiBindings.Proofs.Surface.OverloadClash
import ApiBindings.Proofs.Nominal.Names
import ApiBindings.Proofs.Resolution.Registration
import ApiBindings.Proofs.Surface.Construction
import ApiBindings.Proofs.FileTree.Nodes
import ApiBindings.Proofs.FileTree.Paths
import ApiBindings.Proofs.Writing.Files
import ApiBindings.Proofs.Writing.Batch
import ApiBindings.Proofs.Writing.Agreement
import ApiBindings.Proofs.CommandLine.Protection
import ApiBindings.Proofs.Schema.Node
import ApiBindings.Proofs.Schema.Settled
import ApiBindings.Proofs.Schema.Likeness
import ApiBindings.Proofs.Schema.Comments
import ApiBindings.Proofs.Schema.Exclusion
import ApiBindings.Proofs.Schema.Restriction
import ApiBindings.Proofs.Schema.Location
import ApiBindings.Proofs.Schema.Diagnosis
import ApiBindings.Proofs.Nominal.Comments
import ApiBindings.Proofs.Resolution.Comments
import ApiBindings.Proofs.Surface.Comments
import ApiBindings.Proofs.Resolution.Variants
import ApiBindings.Proofs.Resolution.Diagnosis
import ApiBindings.Proofs.Surface.OverloadCount
import ApiBindings.Proofs.Surface.Diagnosis
import ApiBindings.Proofs.Resolution.Parallel
import ApiBindings.Proofs.Surface.Signatures
import ApiBindings.Proofs.Java.Imports
import ApiBindings.Proofs.Surface.Delegation
import ApiBindings.Proofs.Java.Documentation
import ApiBindings.Proofs.Java.Units
import ApiBindings.Proofs.Resolution.Nullable
import ApiBindings.Proofs.Resolution.Unions
import ApiBindings.Proofs.Resolution.History
import ApiBindings.Proofs.Surface.Placeholders
import ApiBindings.Proofs.Resolution.Replacement
import ApiBindings.Proofs.Schema.Recognition
import ApiBindings.Proofs.Resolution.FieldUnions
import ApiBindings.Proofs.Surface.Shapes
import ApiBindings.Proofs.Resolution.ObjectMaps
import ApiBindings.Proofs.Resolution.Consistency
import ApiBindings.Proofs.Resolution.Memory
import ApiBindings.Proofs.Settings.RoundTrip
import ApiBindings.Proofs.Writing.Delivery
import ApiBindings.Proofs.Java.Snippets
