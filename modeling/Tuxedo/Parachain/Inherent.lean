import Tuxedo.Core.ConstraintChecker

/-!
# The parachain inherent data

What a parachain block says about its relay parent, the UTXO that holds it and the relay
parent number that runtimes keep aside.
-/

namespace Tuxedo.Parachain
open Scale

structure PersistedValidationData where
  parentHead : Vec UInt8
  relayParentNumber : UInt32
  relayParentStorageRoot : H256
  maxPovSize : UInt32
  deriving DecidableEq

instance : Codec PersistedValidationData :=
  .ofFields (Vec UInt8 × UInt32 × H256 × UInt32)
    (fun d => (d.parentHead, d.relayParentNumber, d.relayParentStorageRoot, d.maxPovSize))
    (fun p => ⟨p.1, p.2.1, p.2.2.1, p.2.2.2⟩) (fun _ => rfl)

/-- The parts of cumulus that the runtime carries along and never looks into. -/
class RelayChain where
  /-- The relay chain state proof and the inbound messages. -/
  Inbound : Type
  inboundCodec : Codec Inbound
  /-- The state root and the proof of the default `RelayStateSproofBuilder`, with no messages. -/
  defaultProof : H256 × Inbound

attribute [reducible, instance] RelayChain.inboundCodec

structure ParachainInherentData [RelayChain] where
  validationData : PersistedValidationData
  inbound : RelayChain.Inbound

instance [RelayChain] : Codec ParachainInherentData :=
  .ofFields (PersistedValidationData × RelayChain.Inbound) (fun d => (d.validationData, d.inbound))
    (fun p => ⟨p.1, p.2⟩) (fun _ => rfl)

structure ParachainInherentDataUtxo [RelayChain] where
  data : ParachainInherentData

instance [RelayChain] : UtxoData ParachainInherentDataUtxo where
  toCodec := .ofFields ParachainInherentData (fun u => u.data) (fun data => ⟨data⟩) (fun _ => rfl)
  typeId := ⟨[112, 97, 114, 97], rfl⟩

/-! ### The relay parent number -/

/-- `b"relay_parent_number"`. -/
def relayParentNumberKey : Bytes :=
  [114, 101, 108, 97, 121, 95, 112, 97, 114, 101, 110, 116, 95, 110, 117, 109, 98, 101, 114]

namespace RelayParentNumberStorage

/-- `none` is the panic of a runtime that has not stored the number. -/
def get (s : Storage) : Option UInt32 :=
  (s.get relayParentNumberKey).bind fun d => (decode d).map Prod.fst

def set (newParentNumber : UInt32) (s : Storage) : Storage :=
  s.set relayParentNumberKey (encode newParentNumber)

theorem get_set (number : UInt32) (s : Storage) : get (set number s) = some number := by
  simp [get, set]

end RelayParentNumberStorage

/-- A checker that knows the parachain inherent from the other extrinsics. -/
class ParachainConstraintChecker (C : Type) where
  isParachain : C → Bool

end Tuxedo.Parachain
