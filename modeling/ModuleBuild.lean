import ModuleBuild.Compile.Feed
import ModuleBuild.Compile.Scripted
import ModuleBuild.LogLevel
import ModuleBuild.Main
import ModuleBuild.Proofs.Artifact.Splicing
import ModuleBuild.Proofs.Artifact.TokenWrites
import ModuleBuild.Proofs.Bundle.ChunkOrder
import ModuleBuild.Proofs.Bundle.ImportTrees
import ModuleBuild.Proofs.Bundle.OutputPaths
import ModuleBuild.Proofs.Bundle.WholeBundles
import ModuleBuild.Proofs.Compile.CleanReports
import ModuleBuild.Proofs.Compile.DynamicEntries
import ModuleBuild.Proofs.Compile.Forcing
import ModuleBuild.Proofs.Compile.Leaves
import ModuleBuild.Proofs.Compile.LoadedModules
import ModuleBuild.Proofs.Compile.Propagation
import ModuleBuild.Proofs.Compile.RepairOrder
import ModuleBuild.Proofs.Compile.RepeatedRepair
import ModuleBuild.Proofs.Compile.Repetition
import ModuleBuild.Proofs.Compile.Scheduled
import ModuleBuild.Proofs.Compile.WarmStart
import ModuleBuild.Proofs.Compile.Watching
import ModuleBuild.Proofs.Config.EntryTexts
import ModuleBuild.Proofs.Config.ManifestDigests
import ModuleBuild.Proofs.Config.ProjectRoots
import ModuleBuild.Proofs.Files.FileSpecifiers
import ModuleBuild.Proofs.Graph.FoldedTexts
import ModuleBuild.Proofs.Graph.RecordList
import ModuleBuild.Proofs.Graph.SourceView
import ModuleBuild.Proofs.Graph.StructuralHash
import ModuleBuild.Proofs.Graph.WalkEvents
import ModuleBuild.Proofs.Imports.Rewriting
import ModuleBuild.Proofs.Resolver.ImportMaps
import ModuleBuild.Proofs.Specifier.Canonical
import ModuleBuild.Proofs.Specifier.Joining
import ModuleBuild.Proofs.Specifier.ServingPaths
