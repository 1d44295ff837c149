import Callsite.ClassFile.Access
import Callsite.FileTree
import Callsite.Main
import Callsite.Proofs.Layout
import Callsite.Proofs.Detection
import Callsite.Proofs.Isolation
import Callsite.Proofs.CodeUnits
import Callsite.Proofs.PoolRoundTrip
import Callsite.Proofs.Accounts
import Callsite.Proofs.CsvReading
import Callsite.Proofs.BatchOutcomes
import Callsite.Proofs.PoolShape
import Callsite.Proofs.CodeJoins
import Callsite.Proofs.PoolExtent
import Callsite.Proofs.AggregateRuns
import Callsite.Proofs.DuplicatePairs
import Callsite.Proofs.PackageMatching
import Callsite.Proofs.ReportLines
import Callsite.Proofs.ReportPlaces
import Callsite.Proofs.SettingFaults
import Callsite.Proofs.CursorRuns
