import BuddySystem.Evaluation.Decode
import BuddySystem.Evaluation.Report
import BuddySystem.Proofs.Arena.Access
import BuddySystem.Proofs.Arena.Canonical
import BuddySystem.Proofs.Arena.Conservation
import BuddySystem.Proofs.Arena.Erasure
import BuddySystem.Proofs.Arena.Faultless
import BuddySystem.Proofs.Arena.Lifetime
import BuddySystem.Proofs.Arena.Nesting
import BuddySystem.Proofs.Arena.Numbering
import BuddySystem.Proofs.Arena.Orders
import BuddySystem.Proofs.Arena.Paths
import BuddySystem.Proofs.Arena.Placement
import BuddySystem.Proofs.Arena.Region
import BuddySystem.Proofs.Arena.Representation
import BuddySystem.Proofs.Arena.Restoration
import BuddySystem.Proofs.Arena.Room
import BuddySystem.Proofs.Arena.Verdicts
import BuddySystem.Proofs.Bitmap.Writes
import BuddySystem.Proofs.Evaluation.Clashes
import BuddySystem.Proofs.Evaluation.Course
import BuddySystem.Proofs.Evaluation.Decode
import BuddySystem.Proofs.Evaluation.Held
import BuddySystem.Proofs.Evaluation.Lawful
import BuddySystem.Proofs.Evaluation.Outstanding
import BuddySystem.Proofs.Evaluation.Painting
import BuddySystem.Proofs.Evaluation.Transfers
import BuddySystem.Proofs.FreeLists.Threads
import BuddySystem.Proofs.Pages
import BuddySystem.Session.Command
import BuddySystem.Session.Direct
