import Hati.Diagnostic
import Hati.Inspection
import Hati.Interpreter
import Hati.Proofs.ArgumentPassing
import Hati.Proofs.CallContext
import Hati.Proofs.Callbacks
import Hati.Proofs.CallerScope
import Hati.Proofs.Characters
import Hati.Proofs.CompoundAssignment
import Hati.Proofs.Concealment
import Hati.Proofs.Cutting
import Hati.Proofs.DeepEquality
import Hati.Proofs.DefaultOrder
import Hati.Proofs.FailedDestructuring
import Hati.Proofs.FaultPlaces
import Hati.Proofs.Iteration
import Hati.Proofs.JsonDocuments
import Hati.Proofs.JsonRoundTrip
import Hati.Proofs.ListCopies
import Hati.Proofs.ListPatterns
import Hati.Proofs.OptionalChaining
import Hati.Proofs.PropertyIntegrity
import Hati.Proofs.RecursionGuard
import Hati.Proofs.RenderedText
import Hati.Proofs.ReturnPropagation
import Hati.Proofs.Scheduling.Cancellation
import Hati.Proofs.Scheduling.Clearing
import Hati.Proofs.Scheduling.Delivery
import Hati.Proofs.Scheduling.Punctuality
import Hati.Proofs.ScopeIntegrity
import Hati.Proofs.Sorting
import Hati.Proofs.Splitting
import Hati.Proofs.StaticAccess
import Hati.Proofs.StaticPrivacy
import Hati.Proofs.StrayJumps
import Hati.Proofs.SuperConstructors
import Hati.Proofs.Targets
import Hati.Proofs.TextPositions
