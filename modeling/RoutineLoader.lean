import RoutineLoader.CommandLine.Run
import RoutineLoader.Main
import RoutineLoader.Proofs.Placeholder.Expansion
import RoutineLoader.Proofs.Session
import RoutineLoader.Proofs.Compile.Protocol
import RoutineLoader.Proofs.Reload
import RoutineLoader.Proofs.Compile.Failure
import RoutineLoader.Proofs.Compile.Skip
import RoutineLoader.Proofs.Batch.Store
import RoutineLoader.Proofs.Batch.Rerun
import RoutineLoader.Proofs.Compile.Complete
import RoutineLoader.Proofs.Compile.Steps
import RoutineLoader.Proofs.Batch.Obsolete
import RoutineLoader.Proofs.Steady
import RoutineLoader.Proofs.Batch.Isolation
import RoutineLoader.Proofs.Batch.DropSafety
import RoutineLoader.Proofs.MetadataStore.RoundTrip
import RoutineLoader.Proofs.Compile.Agreement
import RoutineLoader.Proofs.Compile.Moved
import RoutineLoader.Proofs.Disk.Edits
import RoutineLoader.Proofs.Compile.Edited
import RoutineLoader.Proofs.Compile.Retimed
import RoutineLoader.Proofs.Compile.TemporaryTable
import RoutineLoader.Proofs.Batch.Accounting
import RoutineLoader.Proofs.MetadataStore.Unsaved
import RoutineLoader.Proofs.Batch.EarlyEnd
import RoutineLoader.Proofs.Placeholder.Filling
import RoutineLoader.Proofs.RoutineHeader.LineEnd
import RoutineLoader.Proofs.Compile.Declared
import RoutineLoader.Proofs.Batch.Names
import RoutineLoader.Proofs.Reload.Decision
import RoutineLoader.Proofs.Placeholder.Unknown
import RoutineLoader.Proofs.MetadataStore.Atomic
import RoutineLoader.Proofs.Designation.Rendering
import RoutineLoader.Proofs.ReturnType.Words
import RoutineLoader.Proofs.ExtendedParameter.Grammar
import RoutineLoader.Proofs.DocComment.Rendering
import RoutineLoader.Proofs.Parameters.Merge
import RoutineLoader.Proofs.Parameters.Documentation
import RoutineLoader.Proofs.Batch.Duplicates
import RoutineLoader.Proofs.DocComment.Trailing
import RoutineLoader.Proofs.Database.Requests
import RoutineLoader.Proofs.Database.Rows
import RoutineLoader.Proofs.Batch.Table
import RoutineLoader.Proofs.SourceScan
