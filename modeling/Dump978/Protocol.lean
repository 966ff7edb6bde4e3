import Dump978.Common

namespace Dump978

/-!
# UAT protocol constants (`uat_protocol.h`)

The frame geometry of the three UAT frame kinds and the parameters of their Reed–Solomon
codes, written as the header derives them. Each constant is a `@[simp]` definition, so
`simp` and `decide` see its value while statements keep its name.

| kind | data bytes | raw bytes | raw bits |
|---|---|---|---|
| downlink short | 18 | 30 | 240 |
| downlink long | 34 | 48 | 384 |
| uplink (6 interleaved blocks of 92) | 432 | 552 | 4416 |
-/

/-- `MessageType`: the kind of a `RawMessage`, read from its payload size. -/
inductive MessageType
  | downlinkShort
  | downlinkLong
  | uplink
  | invalid
  | metadata
  deriving DecidableEq, Repr

@[simp] def syncBits : Nat := 36
@[simp] def downlinkSyncWord : BitVec 64 := 0xEACDDA4E2
@[simp] def uplinkSyncWord : BitVec 64 := 0x153225B1D

@[simp] def downlinkShortDataBits : Nat := 144
@[simp] def downlinkShortDataBytes : Nat := downlinkShortDataBits / 8
@[simp] def downlinkShortBits : Nat := downlinkShortDataBits + 96
@[simp] def downlinkShortBytes : Nat := downlinkShortBits / 8

@[simp] def downlinkLongDataBits : Nat := 272
@[simp] def downlinkLongDataBytes : Nat := downlinkLongDataBits / 8
@[simp] def downlinkLongBits : Nat := 272 + 112
@[simp] def downlinkLongBytes : Nat := downlinkLongBits / 8

@[simp] def uplinkBlockDataBits : Nat := 576
@[simp] def uplinkBlockDataBytes : Nat := uplinkBlockDataBits / 8
@[simp] def uplinkBlockBits : Nat := uplinkBlockDataBits + 160
@[simp] def uplinkBlockBytes : Nat := uplinkBlockBits / 8

@[simp] def uplinkBlocksPerFrame : Nat := 6
@[simp] def uplinkDataBits : Nat := uplinkBlockDataBits * uplinkBlocksPerFrame
@[simp] def uplinkDataBytes : Nat := uplinkDataBits / 8
@[simp] def uplinkBits : Nat := uplinkBlockBits * uplinkBlocksPerFrame
@[simp] def uplinkBytes : Nat := uplinkBits / 8

namespace Fec

/-! ### FEC parameters -/

@[simp] def downlinkShortRoots : Nat := 12
@[simp] def downlinkLongRoots : Nat := 14
@[simp] def uplinkBlockRoots : Nat := 20
@[simp] def downlinkShortPad : Nat := 255 - downlinkShortBytes
@[simp] def downlinkLongPad : Nat := 255 - downlinkLongBytes
@[simp] def uplinkBlockPad : Nat := 255 - uplinkBlockBytes

end Fec

end Dump978
