import Pascal.Session.Batch
import Pascal.Settings.Discovery
import Pascal.Tree.Attributes
import Pascal.Tree.Reader
import Pascal.Tree.Walk
import Pascal.Proofs.References
import Pascal.Proofs.Heritage
import Pascal.Proofs.Agreement
import Pascal.Proofs.Overloading
import Pascal.Proofs.Typing
import Pascal.Proofs.Coherence
import Pascal.Proofs.WellFormed
import Pascal.Proofs.Collection.Basic
import Pascal.Proofs.Collection.Types
import Pascal.Proofs.Collection.Unit
import Pascal.Proofs.Session.Basic
import Pascal.Proofs.Session.Isolation
import Pascal.Proofs.Session.Registry
import Pascal.Proofs.Session.Discarding
import Pascal.Proofs.Resolution
import Pascal.Proofs.Session.Immunity
import Pascal.Proofs.Findings
import Pascal.Proofs.Trees
import Pascal.Proofs.Steps
import Pascal.Proofs.Completeness
import Pascal.Proofs.Session.Repetition
import Pascal.Proofs.Collection.Invariants
import Pascal.Proofs.Collection.Trace
import Pascal.Proofs.Collection.Growth
import Pascal.Proofs.Session.Collected
import Pascal.Proofs.Session.SideTables
import Pascal.Proofs.Foresight
import Pascal.Proofs.Session.QueryOrder
import Pascal.Proofs.Session.Moves
import Pascal.Proofs.Subtyping
import Pascal.Proofs.Names
import Pascal.Proofs.Session.Units
import Pascal.Proofs.Lookups
import Pascal.Proofs.Session.Visibility
import Pascal.Proofs.Dependencies
import Pascal.Proofs.Session.BatchOrder
import Pascal.Proofs.Collection.Uses
import Pascal.Proofs.Session.Invariants
import Pascal.Proofs.Session.Imports
import Pascal.Proofs.FoundTypes
import Pascal.Proofs.Widths
import Pascal.Proofs.Session.MadeTypes
import Pascal.Proofs.Session.Widths
import Pascal.Proofs.Session.Predefined
import Pascal.Proofs.Choice
import Pascal.Proofs.Settled
import Pascal.Proofs.Session.Given
import Pascal.Proofs.Session.OverloadIssues
import Pascal.Proofs.UnknownTypes
import Pascal.Proofs.Session.Explanations
import Pascal.Proofs.Documents
import Pascal.Proofs.Session.OnDemand
import Pascal.Proofs.Circles
import Pascal.Proofs.Dominance
import Pascal.Proofs.Winners
import Pascal.Proofs.Operators
import Pascal.Proofs.Families
import Pascal.Proofs.Enumeration
import Pascal.Proofs.Comparisons
import Pascal.Proofs.UnitQualifiers
import Pascal.Proofs.Collection.Bodies
import Pascal.Proofs.Session.Bodies
import Pascal.Proofs.Regions
import Pascal.Proofs.Collection.Calm
import Pascal.Proofs.Collection.Course
import Pascal.Proofs.NestedTypes
import Pascal.Proofs.Collection.Stretches
import Pascal.Proofs.Collection.Unfolding
import Pascal.Proofs.Session.Chronicle
import Pascal.Proofs.Collection.Announcements
import Pascal.Proofs.Session.BodyScopes
import Pascal.Proofs.Collection.Sections
import Pascal.Proofs.Session.Announcements
import Pascal.Proofs.Members
import Pascal.Proofs.DeclarationLog
import Pascal.Proofs.SealedIssues
import Pascal.Proofs.Layers
import Pascal.Proofs.Walks
import Pascal.Proofs.Promotions
import Pascal.Proofs.Session.Aliases
import Pascal.Proofs.Nesting
import Pascal.Proofs.Sizes
import Pascal.Proofs.OperatorNames
