import Elastos.Dpos.StateProcess

/-! What a block does to the producer state, written as a list of actions. The
handlers append one change for each action, in this order, and otherwise only write
the new cells, the deposit outputs and the arbiters of the block. -/
set_option autoImplicit false
namespace Elastos.Dpos
open Go Common Config Crypto Elastos.Core Elastos.Types Utils State

inductive Action where
  | enter (info : ProducerInfo) (position : Nat) (programHash : Uint168)
      (deposits : List (OutPoint × Fixed64))
  | changeInfo (origin update : ProducerInfo)
  | cancel (key : Bytes) (position : Nat) (isPending : Bool)
  | requestActivation (position : Nat)
  | recordVote (op : OutPoint)
  | addVotes (position : Nat) (amount : Fixed64)
  | subtractVotes (position : Nat) (amount : Fixed64)
  | setDeposit (position : Nat) (amount : Fixed64)
  | addDeposit (position : Nat) (amount : Fixed64)
  | returnToOwner (position : Nat) (amount : Fixed64)
  | punishActive (key : Bytes) (position : Nat)
  | punishCanceled (key : Bytes) (position : Nat)
  | emergencyInactive (key : Bytes) (position : Nat)
  | recordSpecialHash (hash : Uint256)
  | setVersion (startHeight endHeight oldStart oldEnd : UInt32)
  | activate (source : ProducerList) (key : Bytes) (position : Nat)
  | countInactivity (key : Bytes) (position : Nat) (needReset : Bool) (startHeight : UInt32)

/-- The state that the producers of a map have when they leave it for the active ones. -/
def ProducerList.left : ProducerList → ProducerState
  | .pending => .pending
  | .activity => .active
  | .inactive => .inactive
  | .canceled => .canceled
  | .illegal => .illegal

def Action.change (params : Params) (height : UInt32) : Action → Change StateKeyFrame
  | .enter info position programHash deposits =>
    enterProducer info position programHash deposits
  | .changeInfo origin update => State.changeInfo origin update
  | .cancel key position isPending => State.cancel key position isPending height
  | .requestActivation position => State.requestActivation position height
  | .recordVote op => State.recordVote op
  | .addVotes position amount => State.addVotes position amount
  | .subtractVotes position amount => State.subtractVotes position amount
  | .setDeposit position amount => State.setDeposit position amount
  | .addDeposit position amount => State.addDeposit position amount
  | .returnToOwner position amount => State.returnToOwner params position amount height
  | .punishActive key position => State.punishActive key position height
  | .punishCanceled key position => State.punishCanceled key position height
  | .emergencyInactive key position => State.emergencyInactive params key position height
  | .recordSpecialHash hash => State.recordSpecialHash hash
  | .setVersion startHeight endHeight oldStart oldEnd =>
    { execute := State.setVersion startHeight endHeight
      rollback := State.setVersion oldStart oldEnd }
  | .activate source key position => activateFrom source source.left key position
  | .countInactivity key position needReset startHeight =>
    State.countInactivity params key position needReset height startHeight

/-- The actions of a loop whose rounds may write to the frame. -/
def collect {ι : Type} (write : StateKeyFrame → ι → StateKeyFrame)
    (actions : StateKeyFrame → ι → List Action) : StateKeyFrame → List ι → List Action
  | _, [] => []
  | frame, item :: items => actions frame item ++ collect write actions (write frame item) items

namespace StateKeyFrame
variable (funcs : StateFuncs) (params : Params) (height : UInt32) (frame : StateKeyFrame)

section Producers

def registerActions (tx : Transaction) : List Action :=
  match tx.payload with
  | .producerInfo info =>
    match publicKeyToDepositProgramHash funcs.prim info.ownerPublicKey with
    | .ok programHash =>
      [.enter info frame.producers.length programHash (depositsOf funcs.prim tx programHash)]
    | .error _ => []
  | _ => []

def registerWrites (tx : Transaction) : StateKeyFrame :=
  match tx.payload with
  | .producerInfo info =>
    match publicKeyToDepositProgramHash funcs.prim info.ownerPublicKey with
    | .ok programHash =>
      { frame with
        producers := frame.producers ++ [newProducer info height
          (wrappedSum ((depositsOf funcs.prim tx programHash).map Prod.snd)) programHash] }
    | .error _ => frame
  | _ => frame

def updateActions : Payload → List Action
  | .producerInfo info =>
    (frame.getProducer info.ownerPublicKey).toList.map fun producer =>
      .changeInfo producer.info info
  | _ => []

def cancelActions : Payload → List Action
  | .processProducer payload =>
    (frame.getProducerRef payload.ownerPublicKey).toList.flatMap fun position =>
      (frame.producer? position).toList.map fun producer =>
        .cancel payload.ownerPublicKey position (producer.state = .pending)
  | _ => []

def requestActions : Payload → List Action
  | .activateProducer payload =>
    (frame.getProducerRef payload.nodePublicKey).toList.map .requestActivation
  | _ => []

end Producers

section Votes

def delegations (output : Output) : List (Nat × Fixed64) :=
  match output.payload with
  | .vote vote =>
    vote.contents.flatMap fun content =>
      content.candidateVotes.flatMap fun votes =>
        if content.voteType = .delegate then
          (frame.getProducerRef votes.candidate).toList.map fun position =>
            (position, delegateAmount output vote votes)
        else []
  | _ => []

def castActions (entry : OutPoint × Output) : List Action :=
  if entry.2.outputType = .vote then
    match entry.2.payload with
    | .vote vote =>
      if countsVotes vote then
        .recordVote entry.1 ::
          (frame.delegations entry.2).map fun vote => .addVotes vote.1 vote.2
      else []
    | _ => []
  else []

def voteActions (tx : Transaction) : List Action :=
  if txVersion09 ≤ tx.version then
    (Cr.outputPoints funcs.prim tx).flatMap frame.castActions
  else []

def uncastActions (references : List (Input × Output)) (input : Input) : List Action :=
  if (frame.votes.lookup input.previous).isSome then
    match references.find? fun entry => entry.1 = input with
    | some (_, output) =>
      (frame.delegations output).map fun vote => .subtractVotes vote.1 vote.2
    | none => []
  else []

def cancelVoteActions (tx : Transaction) : List Action :=
  if tx.inputs.any fun input => (frame.votes.lookup input.previous).isSome then
    match funcs.getTxReference tx with
    | .ok references => tx.inputs.flatMap (frame.uncastActions references)
    | .error _ => []
  else []

end Votes

section Deposits

def assetActions (position : Nat) : List Action :=
  match frame.producer? position with
  | none => []
  | some producer =>
    let amount := do
      let programHash ←
        publicKeyToDepositProgramHash funcs.prim producer.info.ownerPublicKey
      funcs.getProducerDepositAmount programHash
    match amount with
    | .ok amount => [.setDeposit position amount]
    | .error _ => []

def initActions : List Action :=
  if height = params.crVotingStartHeight then
    (getAllProducers funcs.runtime frame).flatMap (frame.assetActions funcs)
  else []

def depositTarget (output : Output) : Option Nat :=
  if output.programHash.prefixByte = prefixDeposit then
    getProducerByDepositHash funcs.runtime frame output.programHash
  else none

def depositActions (entry : OutPoint × Output) : List Action :=
  (frame.depositTarget funcs entry.2).toList.map fun position =>
    .addDeposit position entry.2.value

def depositWrites (entry : OutPoint × Output) : StateKeyFrame :=
  match frame.depositTarget funcs entry.2 with
  | some _ => { frame with
      depositOutputs := frame.depositOutputs.insert entry.1 entry.2.value }
  | none => frame

def returnActions (amount : Fixed64) (program : Program) : List Action :=
  match pushedKey program.code with
  | .ok publicKey =>
    (frame.getProducerRef publicKey).toList.flatMap fun position =>
      if (frame.producer? position).map (·.state) = some .canceled then
        [.returnToOwner position amount]
      else []
  | .error _ => []

end Deposits

section Punishments

def punishActions (publicKey : Bytes) : List Action :=
  match frame.nodeOwnerKeys.lookup publicKey with
  | none => []
  | some key =>
    match frame.activityProducers.lookup key with
    | some position => [.punishActive key position]
    | none =>
      match frame.canceledProducers.lookup key with
      | some position => [.punishCanceled key position]
      | none => []

variable (payload : Payload)

def specialActions : List Action :=
  (illegalDataHash funcs.prim payload).toList.map .recordSpecialHash

def evidenceActions : List Action :=
  ((State.illegalProducers payload).getD []).flatMap frame.punishActions ++ specialActions funcs payload

def emergencyActions (nodeKey : Bytes) : List Action :=
  match frame.nodeOwnerKeys.lookup nodeKey with
  | none => []
  | some key =>
    ((frame.activityProducers.lookup key).toList ++
      (frame.inactiveProducers.lookup key).toList).map (.emergencyInactive key)

def inactiveActions : List Action :=
  match payload with
  | .inactiveArbitrators inactive =>
    inactive.arbitrators.flatMap frame.emergencyActions ++ specialActions funcs payload
  | _ => []

def versionActions : Payload → List Action
  | .updateVersion payload =>
    [.setVersion payload.startHeight payload.endHeight frame.versionStartHeight frame.versionEndHeight]
  | _ => []

def countActions (entry : Bytes × Bool) : List Action :=
  (frame.activityProducers.lookup entry.1).toList.flatMap fun position =>
    (frame.producer? position).toList.map fun producer =>
      .countInactivity entry.1 position entry.2 producer.inactiveCountingHeight

def confirmActions : Option Confirm → List Action
  | none => []
  | some confirm =>
    if height < params.publicDPOSHeight then []
    else
      (funcs.runtime.iterate (GoMap.pairs
        (State.changingArbiters frame funcs.getArbiters confirm.proposal.sponsor))).flatMap
          frame.countActions

def confirmWrites : Option Confirm → StateKeyFrame
  | none => frame
  | some _ =>
    if height < params.publicDPOSHeight then frame
    else { frame with
      preBlockArbiters := GoMap.ofPairs
        (funcs.getArbiters.map fun arbiter => (frame.getProducerKey arbiter, ())) }

end Punishments

section Blocks
variable (tx : Transaction)

def typeActions : List Action :=
  match tx.txType with
  | .registerProducer => frame.registerActions funcs tx
  | .updateProducer => frame.updateActions tx.payload
  | .cancelProducer => frame.cancelActions tx.payload
  | .activateProducer => frame.requestActions tx.payload
  | .transferAsset =>
    frame.voteActions funcs tx ++ collect (depositWrites funcs) (depositActions funcs) frame
        (Cr.outputPoints funcs.prim tx)
  | .illegalProposalEvidence | .illegalVoteEvidence | .illegalBlockEvidence
  | .illegalSidechainEvidence => frame.evidenceActions funcs tx.payload
  | .inactiveArbitrators => frame.inactiveActions funcs tx.payload
  | .returnDepositCoin =>
    tx.programs.flatMap (frame.returnActions (State.depositInput frame tx)) ++
      collect (depositWrites funcs) (depositActions funcs) frame
        (Cr.outputPoints funcs.prim tx)
  | .updateVersion => frame.versionActions tx.payload
  | _ => []

def typeWrites : StateKeyFrame :=
  match tx.txType with
  | .registerProducer => frame.registerWrites funcs height tx
  | .transferAsset | .returnDepositCoin =>
    (Cr.outputPoints funcs.prim tx).foldl (depositWrites funcs) frame
  | _ => frame

def txActions : List Action :=
  frame.typeActions funcs tx ++ (frame.typeWrites funcs height tx).cancelVoteActions funcs tx

def dueActions (source : ProducerList) (due : Producer → Bool) (entry : Bytes × Nat) : List Action :=
  if (frame.producer? entry.2).any due then [.activate source entry.1 entry.2] else []

def activations : List Action :=
  (funcs.runtime.iterate (GoMap.pairs frame.pendingProducers)).flatMap
      (frame.dueActions .pending fun producer => confirmed height producer) ++
    ((funcs.runtime.iterate (GoMap.pairs frame.inactiveProducers)).flatMap
        (frame.dueActions .inactive fun producer => requestConfirmed height producer) ++
      if params.enableActivateIllegalHeight ≤ height then
        (funcs.runtime.iterate (GoMap.pairs frame.illegalProducers)).flatMap
          (frame.dueActions .illegal fun producer => requestConfirmed height producer)
      else [])

variable (txs : List Transaction)

def txsWrites : StateKeyFrame :=
  txs.foldl (typeWrites funcs height) frame

def txsActions : List Action :=
  collect (typeWrites funcs height) (txActions funcs height) frame txs ++
    (frame.txsWrites funcs height txs).activations funcs params height

/-- The second round of the block at `VoteStatisticsHeight`. -/
def repeatWrites : StateKeyFrame :=
  if height = params.voteStatisticsHeight then frame.txsWrites funcs height txs else frame

def repeatActions : List Action :=
  if height = params.voteStatisticsHeight then frame.txsActions funcs params height txs else []

def blockWrites (confirm : Option Confirm) : StateKeyFrame :=
  ((frame.txsWrites funcs height txs).repeatWrites funcs params height txs).confirmWrites
    funcs params height confirm

def blockActions (confirm : Option Confirm) : List Action :=
  let processed := frame.txsWrites funcs height txs
  frame.initActions funcs params height ++ frame.txsActions funcs params height txs ++
    processed.repeatActions funcs params height txs ++
    (processed.repeatWrites funcs params height txs).confirmActions funcs params height
      confirm

end Blocks
end StateKeyFrame
end Elastos.Dpos
