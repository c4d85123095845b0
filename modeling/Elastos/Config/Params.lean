import Elastos.Common.Serialize
import Elastos.Go.Arithmetic

/-! The chain parameters of `common/config` that the modelled code reads. -/
set_option autoImplicit false
namespace Elastos.Config
open Go Common

/-- `DestroyELAAddress`, `CRCAssetsAddress` and `CRCExpensesAddress` of the
package. The first is also the default of the parameter of the same name. -/
def destroyELAAddress : Uint168 where
  bytes := [0x21, 0x20, 0xfe, 0xe5, 0xd7, 0xeb, 0x3e, 0x5c, 0x7d, 0x31, 0x97, 0xfe,
    0xcf, 0x6c, 0x0d, 0xe3, 0x0f, 0x88, 0x9a, 0xce, 0xf7]
  size_eq := rfl

def crcAssetsAddress : Uint168 where
  bytes := [0x1c, 0x5f, 0x6c, 0x3e, 0x9f, 0x0c, 0x9a, 0x71, 0x10, 0xb8, 0xeb, 0x6e,
    0x37, 0x02, 0x63, 0x0f, 0x71, 0x27, 0x4d, 0xf1, 0xc0]
  size_eq := rfl

def crcExpensesAddress : Uint168 where
  bytes := [0x1c, 0x60, 0x32, 0x09, 0xff, 0x5d, 0x86, 0x54, 0x2d, 0x26, 0x1a, 0x8d,
    0x22, 0x7f, 0xe0, 0xf5, 0xee, 0x2c, 0x4e, 0xd2, 0xd3]
  size_eq := rfl

/-- Public keys and addresses are decoded. The minimum fee is the same positive
constant on every network and no setting overrides it. -/
structure Params where
  elaAssetID : Uint256
  foundation : Uint168
  crcAddress : Uint168
  crcFoundation : Uint168
  crcCommitteeAddress : Uint168
  destroyELAAddress : Uint168
  rewardPerBlock : Fixed64
  coinbaseMaturity : UInt32
  minTransactionFee : Fixed64
  minTransactionFee_nonneg : 0 ≤ minTransactionFee
  minCrossChainTxFee : Fixed64
  checkAddressHeight : UInt32
  voteStartHeight : UInt32
  crcOnlyDPOSHeight : UInt32
  publicDPOSHeight : UInt32
  crVotingStartHeight : UInt32
  crCommitteeStartHeight : UInt32
  enableActivateIllegalHeight : UInt32
  checkRewardHeight : UInt32
  registerCRByDIDHeight : UInt32
  checkVoteCRCountHeight : UInt32
  crcArbiters : List Bytes
  originArbiters : List Bytes
  generalArbiters : Nat
  candidateArbiters : Nat
  preConnectOffset : UInt32
  voteStatisticsHeight : UInt32
  maxInactiveRounds : UInt32
  inactivePenalty : Fixed64
  emergencyInactivePenalty : Fixed64
  crMemberCount : UInt32
  crVotingPeriod : UInt32
  crDutyPeriod : UInt32
  crDepositLockupBlocks : UInt32
  proposalCRVotingPeriod : UInt32
  proposalPublicVotingPeriod : UInt32
  crAgreementCount : UInt32
  voterRejectPercentage : Float64
  crcAppropriatePercentage : Float64
  maxCommitteeProposalCount : UInt32
  maxProposalTrackingCount : UInt8
  secretaryGeneral : Bytes
  powLimitBits : UInt32

end Elastos.Config
