import ClassHierarchy.Loader.Stub
import ClassHierarchy.Loader.Table
import ClassHierarchy.LogSink
import ClassHierarchy.Platform
import ClassHierarchy.Config.Check
import ClassHierarchy.Config.Load
import ClassHierarchy.Config.Reader
import ClassHierarchy.LogFilter
import ClassHierarchy.Proofs.ArrayLevels
import ClassHierarchy.Proofs.Attachment
import ClassHierarchy.Proofs.ByteOrder
import ClassHierarchy.Proofs.Checked.Queries
import ClassHierarchy.Proofs.Config.Keys
import ClassHierarchy.Proofs.Config.Reader
import ClassHierarchy.Proofs.ConfigRoundTrip
import ClassHierarchy.Proofs.DeferredRebinding
import ClassHierarchy.Proofs.Descriptor.Slicing
import ClassHierarchy.Proofs.DescriptorFaults
import ClassHierarchy.Proofs.EffectiveFilter
import ClassHierarchy.Proofs.FieldInheritance
import ClassHierarchy.Proofs.FinalAnswers
import ClassHierarchy.Proofs.FullNames
import ClassHierarchy.Proofs.HierarchyChanges
import ClassHierarchy.Proofs.IdsInRange
import ClassHierarchy.Proofs.InertKeys
import ClassHierarchy.Proofs.Loading.Outcomes
import ClassHierarchy.Proofs.Loading.Stubs
import ClassHierarchy.Proofs.MethodAgreement
import ClassHierarchy.Proofs.MethodLookup
import ClassHierarchy.Proofs.MissingClasses
import ClassHierarchy.Proofs.NearestFirst
import ClassHierarchy.Proofs.PlatformHandles
import ClassHierarchy.Proofs.ResolutionOrder
import ClassHierarchy.Proofs.Scope.WellFormed
import ClassHierarchy.Proofs.Specificity
import ClassHierarchy.Proofs.UnknownKeys
import ClassHierarchy.Proofs.WellFormedNames
