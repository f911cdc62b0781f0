import Columnar.Buffer.Store
import Columnar.Draft.Action
import Columnar.Proofs.Batch.WellFormed
import Columnar.Proofs.Draft.Admission
import Columnar.Proofs.Draft.Alignment
import Columnar.Proofs.Draft.Bounds
import Columnar.Proofs.Draft.Independence
import Columnar.Proofs.Draft.SavePoint
import Columnar.Proofs.Refinement
import Columnar.Proofs.RoundTrip
import Columnar.Reader.Action
import Columnar.SealedSet
import Columnar.Proofs.Draft.Phases
import Columnar.Proofs.Places
import Columnar.Proofs.Reader.AtRest
import Columnar.Proofs.Reader.Spots
import Columnar.Proofs.Reader.Answers
import Columnar.Proofs.Reader.InBounds
import Columnar.Proofs.Rebinding
import Columnar.Proofs.Draft.InPlace
import Columnar.Proofs.NamedColumns
import Columnar.Proofs.Mirror
import Columnar.Proofs.Schema.ArrowRoundTrip
import Columnar.Proofs.Schema.ArrowReading
import Columnar.Proofs.Reader.Collecting
import Columnar.Proofs.Batch.Sound
import Columnar.Proofs.Reader.Selections
import Columnar.Proofs.Reader.Elements
import Columnar.Proofs.Buffer.Freezing
import Columnar.Proofs.Buffer.Boundaries
import Columnar.Proofs.Reader.Addresses
import Columnar.Proofs.Reader.Lapse
import Columnar.Proofs.Reader.OffRows
import Columnar.Proofs.Reader.Traversal
import Columnar.Proofs.Draft.BareValues
import Columnar.Proofs.Draft.LastCounts
import Columnar.Proofs.Arena.WalksOnce
import Columnar.Proofs.Arena.Apart
import Columnar.Proofs.Arena.Moves
import Columnar.Proofs.Draft.Shortages
