import PoolLint.Bytecode.Assembler
import PoolLint.Flow.Taint
import PoolLint.Main
import PoolLint.Proofs.Flow.Merging
import PoolLint.Proofs.Flow.Path
import PoolLint.Proofs.Flow.Run
import PoolLint.Proofs.Flow.Stability
import PoolLint.Proofs.Flow.Origin
import PoolLint.Proofs.Ownership.Tracking
import PoolLint.Proofs.Flow.Coverage
import PoolLint.Proofs.Ownership.Provenance
import PoolLint.Proofs.Ownership.Grounds
import PoolLint.Proofs.Ownership.LeakVerdict
import PoolLint.Proofs.Ownership.UseAfterRelease
import PoolLint.Proofs.Ownership.DoubleRelease
import PoolLint.Proofs.Check.Calls
import PoolLint.Proofs.Check.Passes
import PoolLint.Proofs.Check.Findings
import PoolLint.Proofs.Flow.FrameTable
import PoolLint.Proofs.Flow.Survey
import PoolLint.Proofs.Flow.Declaration
import PoolLint.Proofs.Flow.SmallSteps
import PoolLint.Proofs.Flow.Heights
import PoolLint.Proofs.Flow.Effort
import PoolLint.Proofs.Flow.Tables
import PoolLint.Proofs.Ownership.Outcome
import PoolLint.Proofs.Flow.Schedule
import PoolLint.Proofs.Flow.Least
import PoolLint.Proofs.Ownership.Holders
import PoolLint.Proofs.Ownership.ReleasedArguments
import PoolLint.Proofs.Ownership.Escapes
import PoolLint.Proofs.Check.Epoch
import PoolLint.Proofs.Report.Order
import PoolLint.Proofs.Check.BatchOrder
import PoolLint.Proofs.Report.Filling
import PoolLint.Proofs.Check.Flags
import PoolLint.Proofs.Check.MethodOrder
import PoolLint.Proofs.Check.Disabling
import PoolLint.Proofs.Check.CoarsePass
import PoolLint.Proofs.Json.Grammar
import PoolLint.Proofs.Json.Reading
import PoolLint.Proofs.Json.Layout
import PoolLint.Proofs.Serial.Encoding
import PoolLint.Proofs.Serial.RoundTrip
import PoolLint.Proofs.Bytecode.CallEffect
import PoolLint.Proofs.Bytecode.Assembly
import PoolLint.Proofs.Resource.Overriding
import PoolLint.Proofs.Settings.Layers
import PoolLint.Proofs.Check.UnreachedLeaks
import PoolLint.Proofs.Check.Repetition
import PoolLint.Proofs.Report.Placeholders
import PoolLint.Proofs.Files.Collecting
import PoolLint.Proofs.Settings.ProjectSearch
import PoolLint.Flow.FrameStore
import PoolLint.Proofs.Flow.FrameStore
import PoolLint.Proofs.Flow.Joins
import PoolLint.Proofs.Report.MissingParameters
