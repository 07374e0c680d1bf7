import ProConDSU.Proofs.InfoList
import ProConDSU.Proofs.Leak
import ProConDSU.Proofs.Reply
import ProConDSU.Proofs.Slots
import ProConDSU.Proofs.Listen
import ProConDSU.Proofs.Frame
import ProConDSU.Proofs.Checksum
import ProConDSU.Proofs.RequestCodec
import ProConDSU.Proofs.Rejected
import ProConDSU.Proofs.Registration
import ProConDSU.Proofs.Buttons
import ProConDSU.Proofs.Header
import ProConDSU.Proofs.Bounds
import ProConDSU.Proofs.Record
import ProConDSU.Proofs.Shutdown
import ProConDSU.Proofs.Wire
import ProConDSU.Proofs.Fresh
import ProConDSU.Proofs.Clients
import ProConDSU.Proofs.Atomic
import ProConDSU.Proofs.Commands
import ProConDSU.Proofs.Calls
import ProConDSU.Proofs.Linear
import ProConDSU.Proofs.Split
import ProConDSU.Proofs.Available
import ProConDSU.Proofs.Returns
