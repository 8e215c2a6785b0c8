import Treeline.Assembly.Machine
import Treeline.Tally.Counter
import Treeline.Main
import Treeline.Command.FileSystem
import Treeline.Padding
import Treeline.Proofs.Labels
import Treeline.Proofs.Legibility
import Treeline.Proofs.Levels
import Treeline.Proofs.Locality
import Treeline.Proofs.Whole
import Treeline.Proofs.Embedding
import Treeline.Proofs.Decoding
import Treeline.Proofs.Acceptance
import Treeline.Proofs.Depth
import Treeline.Proofs.Contexts
import Treeline.Proofs.Reencoding
import Treeline.Proofs.Repair
import Treeline.Proofs.Totals
import Treeline.Proofs.Words
import Treeline.Proofs.Padding
import Treeline.Proofs.Bracketing
import Treeline.Proofs.Integers
import Treeline.Proofs.Likeness
import Treeline.Proofs.Positional
import Treeline.Proofs.Reach
import Treeline.Proofs.Agreement
import Treeline.Proofs.Running
import Treeline.Proofs.Balance
