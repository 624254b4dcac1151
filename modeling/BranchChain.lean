import BranchChain.Main
import BranchChain.Memory.Bounded
import BranchChain.Proofs.Bounding
import BranchChain.Proofs.Changing
import BranchChain.Proofs.Configuring
import BranchChain.Proofs.Counting
import BranchChain.Proofs.Displaying
import BranchChain.Proofs.Dumping
import BranchChain.Proofs.Encoding
import BranchChain.Proofs.Entering
import BranchChain.Proofs.Executing
import BranchChain.Proofs.Extending
import BranchChain.Proofs.Faulting
import BranchChain.Proofs.Finding
import BranchChain.Proofs.Listing
import BranchChain.Proofs.Loading
import BranchChain.Proofs.Logging
import BranchChain.Proofs.Looking
import BranchChain.Proofs.Naming
import BranchChain.Proofs.Placing
import BranchChain.Proofs.Publishing
import BranchChain.Proofs.Registering
import BranchChain.Proofs.Relocating
import BranchChain.Proofs.Reporting
import BranchChain.Proofs.Resuming
import BranchChain.Proofs.Scanning
import BranchChain.Proofs.Shifting
import BranchChain.Proofs.Sighting
import BranchChain.Proofs.Valuing
import BranchChain.Proofs.Walking
import BranchChain.Proofs.Wording
import BranchChain.Symbol.Registry
import BranchChain.Table.Cell
import BranchChain.Text.Layout
