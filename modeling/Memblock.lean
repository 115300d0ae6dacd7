import Memblock.Basic.Types
import Memblock.Basic.Memory
import Memblock.Basic.Heap
import Memblock.Ops.Block
import Memblock.Ops.Header
import Memblock.Ops.Resolve
import Memblock.Proofs.Alignment
import Memblock.Proofs.RunBitmap
import Memblock.Proofs.HugeHeader
import Memblock.Proofs.HeaderFlavor
import Memblock.Proofs.Decode
import Memblock.Proofs.RunDecode
import Memblock.Proofs.HeaderWrite
import Memblock.Proofs.ZoneLayout
import Memblock.Proofs.RedoBatch
import Memblock.Proofs.CommitOrder
