import Provenance.Diagnostic.Codec
import Provenance.Intermediate
import Provenance.Lowering
import Provenance.Main
import Provenance.PositionCodec
import Provenance.Proofs.Agreement
import Provenance.Proofs.BalancedTypes
import Provenance.Proofs.CheckedLowering
import Provenance.Proofs.Composition
import Provenance.Proofs.DebugIdText
import Provenance.Proofs.DiagnosticPlaces
import Provenance.Proofs.EndToEnd
import Provenance.Proofs.ExtendsChain
import Provenance.Proofs.IntermediateMap
import Provenance.Proofs.JsonText
import Provenance.Proofs.LinearScan
import Provenance.Proofs.LocatedTree
import Provenance.Proofs.LoweredCode
import Provenance.Proofs.LoweredLines
import Provenance.Proofs.MapRoundTrip
import Provenance.Proofs.MapText
import Provenance.Proofs.Modes
import Provenance.Proofs.NearestDocument
import Provenance.Proofs.NestedTree
import Provenance.Proofs.PatchedTrees
import Provenance.Proofs.PrintedAgain
import Provenance.Proofs.Recompilation
import Provenance.Proofs.SegmentText
import Provenance.Proofs.Settled
import Provenance.Proofs.TracedWords
import Provenance.Proofs.WordMappings
import Provenance.Proofs.Words
import Provenance.Session
import Provenance.Proofs.Framing
import Provenance.Proofs.RawTuples
import Provenance.Proofs.Ancestors
import Provenance.Proofs.Candidates
import Provenance.Proofs.NearestConfiguration
import Provenance.Proofs.IndentedLines
import Provenance.Proofs.DiagnosticJson
import Provenance.Proofs.LineCounting
