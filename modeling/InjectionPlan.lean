import InjectionPlan.Files.Tree
import InjectionPlan.Main
import InjectionPlan.Proofs.ContributionMetadata
import InjectionPlan.Proofs.DerivationOrder
import InjectionPlan.Proofs.MetadataCompleteness
import InjectionPlan.Proofs.MultiBindings
import InjectionPlan.Proofs.OmittedDeclarations
import InjectionPlan.Proofs.TypeTexts
import InjectionPlan.Proofs.UnexportedDeclarations
import InjectionPlan.Source.Draft
import InjectionPlan.Proofs.AlikeWalks
import InjectionPlan.Proofs.AlikePasses
import InjectionPlan.Proofs.TokenSuffixes
import InjectionPlan.Proofs.TypeHandles
import InjectionPlan.Proofs.PassSequences
import InjectionPlan.Proofs.TokenOrigins
import InjectionPlan.Proofs.ModulePartition
import InjectionPlan.Proofs.SnapshotTexts
import InjectionPlan.Proofs.PlanTexts
import InjectionPlan.Proofs.BoundedWork
import InjectionPlan.Proofs.KnownTypes
import InjectionPlan.Proofs.TokenCircles
import InjectionPlan.Proofs.TokenInheritance
import InjectionPlan.Proofs.ArgumentTokens
import InjectionPlan.Proofs.EmissionBlocks
import InjectionPlan.Proofs.ImportFiles
import InjectionPlan.Proofs.LiveTags
import InjectionPlan.Proofs.AnnotationMerge
import InjectionPlan.Proofs.DraftedSnapshots
import InjectionPlan.Proofs.FirstRequests
import InjectionPlan.Proofs.DottedNames
