import Tuxedo.Core.Opaque
import Tuxedo.Executive.Inputs
import Tuxedo.Executive.Runs

/-!
# Opaque blocks

What the runtime writes as transactions, the node reads as opaque extrinsics.
-/

namespace Tuxedo
open Scale Executive TuxedoGenesisConfigBuilder TuxedoGenesisBlockBuilder

section
variable {V C : Type} [Codec V] [Codec C]

theorem Transaction.decode_opaque (t : Transaction V C) (small : t.body.length < 2 ^ 32) (rest : Bytes) :
    decode (encode t ++ rest) = some (t.toOpaque small, rest) := by
  rw [← t.encode_toOpaque small, decode_encode]

theorem opaqueGenesisBlock_extrinsics [Host] {genesisStorage : Storage} {xs : Vec OpaqueExtrinsic}
    (stored : genesisStorage.get extrinsicKey = some (encode xs)) (version : StateVersion) :
    (buildOpaqueGenesisBlock version genesisStorage).1.extrinsics = xs := by
  simp [buildOpaqueGenesisBlock, stored]

end

section
variable {V C : Type} [Host] [Verifier V] [Codec C] [ConstraintChecker V C]

/-- The encoding of a transaction is that of the vector of its bytes, for the decoder of
transactions, for the decoder of opaque extrinsics and in the block of a genesis. -/
theorem transaction_codec :
    (∀ (t : Transaction V C) (rest : Bytes), t.body.length < 2 ^ 32 →
      decode (encode t ++ rest) = some (t, rest) ∧
      ∃ x : OpaqueExtrinsic, x.toList = t.body ∧ encode t = encode x ∧ decode (encode t ++ rest) = some (x, rest)) ∧
    ∀ txs : Vec (Transaction V C), (∀ t ∈ txs.toList, t.body.length < 2 ^ 32) →
      (∀ base built, build txs base = .ok built → built.get extrinsicKey = some (encode txs)) ∧
      ∀ genesisStorage : Storage, genesisStorage.get extrinsicKey = some (encode txs) →
        ∀ version, (buildOpaqueGenesisBlock version genesisStorage).1.extrinsics.toList.map encode =
          txs.toList.map encode := by
  refine ⟨fun t rest small => ?_, fun txs small => ⟨fun base built builds => build_extrinsics builds, ?_⟩⟩
  · exact ⟨decode_encode t rest, t.toOpaque small, rfl, (t.encode_toOpaque small).symm, t.decode_opaque small rest⟩
  · intro genesisStorage stored version
    obtain ⟨xs, whole, same⟩ := Transaction.exists_opaque small
    rw [← whole] at stored
    rw [opaqueGenesisBlock_extrinsics stored version, same]

end

/-! A genesis with one coin. -/

section
open Template

def coinGenesis : Vec Template.Transaction :=
  Vec.singleton ⟨Vec.empty, Vec.empty, Vec.singleton (grabCoin 100), .money .mint⟩

theorem coinGenesis_small : ∀ t ∈ coinGenesis.toList, t.body.length < 2 ^ 32 := by
  decide +kernel

theorem transaction_codec_coin :
    letI := Host.unsigned
    (∀ t ∈ coinGenesis.toList, ∃ x : OpaqueExtrinsic, x.toList = t.body ∧ encode t = encode x) ∧
      ∃ built, build coinGenesis Store.empty = .ok built ∧
        (buildOpaqueGenesisBlock .v1 built).1.extrinsics.toList.map encode = coinGenesis.toList.map encode := by
  let := Host.unsigned
  obtain ⟨single, genesis⟩ := transaction_codec (V := OuterVerifier) (C := OuterConstraintChecker)
  constructor
  · intro t member
    obtain ⟨_, x, bytes, whole, _⟩ := single t [] (coinGenesis_small t member)
    exact ⟨x, bytes, whole⟩
  · obtain ⟨built, builds, _⟩ := Outcome.exists_of_any (x := build coinGenesis Store.empty) (p := fun _ => true)
      (by decide +kernel)
    obtain ⟨stored, decoded⟩ := genesis coinGenesis coinGenesis_small
    exact ⟨built, builds, decoded built (stored _ _ builds) .v1⟩

end
end Tuxedo
