import Parlance.Proofs.Brace.Pairing
import Parlance.Proofs.Construct.InPlace
import Parlance.Proofs.Construct.Place
import Parlance.Proofs.MapStore.Loading
import Parlance.Proofs.Message.Absent
import Parlance.Proofs.Message.Agreement
import Parlance.Proofs.Message.Build
import Parlance.Proofs.Message.Depth
import Parlance.Proofs.Message.Nesting
import Parlance.Proofs.Message.Position
import Parlance.Proofs.Message.Returns
import Parlance.Proofs.Message.Seam
import Parlance.Proofs.Number.Writing
import Parlance.Proofs.Placeholder.Registries
import Parlance.Proofs.Placeholder.Spelling
import Parlance.Proofs.Plural
import Parlance.Proofs.Protection.Idempotence
import Parlance.Proofs.Protection.Registration
import Parlance.Proofs.Protection.Restoring
import Parlance.Proofs.Protection.Translation
import Parlance.Proofs.Protection.Walk
import Parlance.Proofs.Table.Faults
import Parlance.Proofs.Table.Files
import Parlance.Proofs.Table.Maps
import Parlance.Proofs.Table.Markup
