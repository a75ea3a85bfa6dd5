import ShapeCompat.Evaluation
import ShapeCompat.Main
import ShapeCompat.Proofs.Schema.Placement
import ShapeCompat.Proofs.Construction.Overloads
import ShapeCompat.Proofs.Construction.EntryPoints
import ShapeCompat.Proofs.Building
import ShapeCompat.Proofs.Calls
import ShapeCompat.Proofs.Evolution.CallSites
import ShapeCompat.Proofs.Evolution.Signatures
import ShapeCompat.Proofs.Assembly.Stages
import ShapeCompat.Proofs.Assembly.Accounting
import ShapeCompat.Proofs.Schema.Repetition
import ShapeCompat.Proofs.Assembly.Faults
import ShapeCompat.Proofs.Assembly.InputOrder
import ShapeCompat.Proofs.Assembly.Isolation
import ShapeCompat.Proofs.Assembly.Families
import ShapeCompat.Proofs.Assembly.Names
import ShapeCompat.Proofs.Assembly.WellFormed
import ShapeCompat.Proofs.Schema.Acceptance
import ShapeCompat.Proofs.Resolution
import ShapeCompat.Proofs.Assembly.Collisions
import ShapeCompat.Proofs.Json.Canonical
import ShapeCompat.Proofs.Fingerprint
import ShapeCompat.Proofs.Assembly.Totals
import ShapeCompat.Proofs.Construction.Clashes
import ShapeCompat.Proofs.Run.SupplyOrder
import ShapeCompat.Proofs.Run.Verdict
import ShapeCompat.Proofs.Json.RoundTrip
import ShapeCompat.Proofs.Codec
import ShapeCompat.Proofs.Codec.Documents
import ShapeCompat.Proofs.Construction.Table
import ShapeCompat.Proofs.CallFaults
import ShapeCompat.Proofs.Assembly.OwnNames
import ShapeCompat.Proofs.Erasure.Structure
import ShapeCompat.Proofs.Copying
import ShapeCompat.Proofs.FactoryCalls
import ShapeCompat.Proofs.BuilderFit
import ShapeCompat.Proofs.Json.MemberOrder
import ShapeCompat.Proofs.PackageSuffixes
import ShapeCompat.Proofs.Construction.Variants
import ShapeCompat.Proofs.Lookup
import ShapeCompat.Proofs.Identification
import ShapeCompat.Erasure.Bytes
import ShapeCompat.Proofs.Construction.AmbiguityScan
import ShapeCompat.Proofs.Erasure.Bytes
import ShapeCompat.Proofs.Schema.Arena
