import Chunkwise.Parser.Builder
import Chunkwise.Report.Snippet
import Chunkwise.Proofs.Discipline
import Chunkwise.Proofs.Advance
import Chunkwise.Proofs.Fuel
import Chunkwise.Proofs.Compose
import Chunkwise.Proofs.Reference
import Chunkwise.Proofs.Termination
import Chunkwise.Proofs.Follows
import Chunkwise.Proofs.Lossless
import Chunkwise.Proofs.Refinement
import Chunkwise.Proofs.Likeness
import Chunkwise.Proofs.Account
import Chunkwise.Proofs.Record
import Chunkwise.Proofs.Standstill
import Chunkwise.Proofs.Bounded
import Chunkwise.Proofs.Completeness
import Chunkwise.Proofs.Stopping
import Chunkwise.Proofs.Limit
import Chunkwise.Proofs.Linking
import Chunkwise.Proofs.LeftRecursion
import Chunkwise.Proofs.Diagnostics
import Chunkwise.Proofs.Progress
import Chunkwise.Proofs.LoopFree
import Chunkwise.Proofs.Scanning
import Chunkwise.Proofs.Leftmost
import Chunkwise.Proofs.Memory
import Chunkwise.Proofs.Resolution
import Chunkwise.Proofs.EmptyChunks
import Chunkwise.Proofs.Recognition
import Chunkwise.Proofs.Minimum
import Chunkwise.Proofs.Bracketing
import Chunkwise.Proofs.Building
import Chunkwise.Proofs.Literals
import Chunkwise.Proofs.Returning
import Chunkwise.Proofs.Unrolling
import Chunkwise.Proofs.Surfacing
import Chunkwise.Proofs.Sentinels
import Chunkwise.Proofs.Flattening
import Chunkwise.Proofs.Locating
import Chunkwise.Proofs.Excerpting
import Chunkwise.Proofs.Wording
import Chunkwise.Proofs.Lookbehind
import Chunkwise.Proofs.Confinement
import Chunkwise.Proofs.Interning
