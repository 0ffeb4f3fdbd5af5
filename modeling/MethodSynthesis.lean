import MethodSynthesis.Synthesis.Session
import MethodSynthesis.Proofs.Answers
import MethodSynthesis.Proofs.InternTables
import MethodSynthesis.Proofs.TypePools
import MethodSynthesis.Proofs.DefaultValues
import MethodSynthesis.Proofs.Drafts
import MethodSynthesis.Proofs.Builders
import MethodSynthesis.Proofs.Need
import MethodSynthesis.Proofs.Queries
import MethodSynthesis.Proofs.Transparency
import MethodSynthesis.Proofs.Numbering
import MethodSynthesis.Proofs.ShardedTables
import MethodSynthesis.Proofs.Building
import MethodSynthesis.Proofs.TypeTrees
import MethodSynthesis.Proofs.GenericSeeds
import MethodSynthesis.Proofs.Callability
import MethodSynthesis.Proofs.DraftForms
import MethodSynthesis.Proofs.Durability
import MethodSynthesis.Proofs.Provenance
import MethodSynthesis.Proofs.SignatureShapes
import MethodSynthesis.Proofs.Classification
import MethodSynthesis.Proofs.Coverage
import MethodSynthesis.Proofs.ReceiverNeeds
import MethodSynthesis.Proofs.ClosedPools
import MethodSynthesis.Proofs.Ancestry
import MethodSynthesis.Proofs.UnknownTypes
import MethodSynthesis.Proofs.UnknownParts
import MethodSynthesis.Proofs.SharedSignatures
import MethodSynthesis.Proofs.Comparisons
import MethodSynthesis.Proofs.Stability
import MethodSynthesis.Proofs.Bookkeeping
import MethodSynthesis.Proofs.ScopeWalks
import MethodSynthesis.Proofs.Visibility
import MethodSynthesis.Proofs.OpenParts
import MethodSynthesis.Proofs.WalkDepth
import MethodSynthesis.Proofs.Initializers
import MethodSynthesis.Proofs.Judgments
import MethodSynthesis.Proofs.ClassConversions
import MethodSynthesis.Proofs.ExactPassing
import MethodSynthesis.Proofs.Supertypes
import MethodSynthesis.Proofs.FieldAdditions
import MethodSynthesis.Proofs.FunctionAdditions
import MethodSynthesis.Proofs.FieldLists
import MethodSynthesis.Proofs.Decorations
import MethodSynthesis.Proofs.EnumCasts
import MethodSynthesis.Proofs.Accounting
import MethodSynthesis.Proofs.UniqueReading
import MethodSynthesis.Proofs.HandlePacking
