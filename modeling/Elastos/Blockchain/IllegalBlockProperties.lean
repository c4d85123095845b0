import Elastos.Blockchain.SmallChain

/-! What accepted evidence of two blocks of one height proves. The blocks are told
apart by a hash that also covers the confirms and the signers, so the same block
can be presented twice. Two confirms that pass under the same arbiters share more than a
third of them. -/
set_option autoImplicit false
namespace Elastos.Types.Header

/-- Two headers with the same hashed fields: all but the proof of work. -/
def SameHashedFields (left right : Header) : Prop :=
  { left with auxPow := right.auxPow } = right

theorem serializeNoAux_eq_iff {left right : Header} :
    left.serializeNoAux = right.serializeNoAux ↔ SameHashedFields left right := by
  constructor
  · intro same
    simp only [serializeNoAux] at same
    obtain ⟨same, height⟩ := List.append_inj' same (by simp)
    obtain ⟨same, nonce⟩ := List.append_inj' same (by simp)
    obtain ⟨same, bits⟩ := List.append_inj' same (by simp)
    obtain ⟨same, timestamp⟩ := List.append_inj' same (by simp)
    obtain ⟨same, merkleRoot⟩ := List.append_inj' same (by simp [left.merkleRoot.size_eq, right.merkleRoot.size_eq])
    obtain ⟨version, previous⟩ := List.append_inj' same (by simp [left.previous.size_eq, right.previous.size_eq])
    cases left
    cases right
    simp only [SameHashedFields, mk.injEq, and_true]
    exact ⟨Common.writeUint32_inj version, Common.ByteArrayOf.ext previous,
      Common.ByteArrayOf.ext merkleRoot, Common.writeUint32_inj timestamp,
      Common.writeUint32_inj bits, Common.writeUint32_inj nonce, Common.writeUint32_inj height⟩
  · intro same
    rw [← same]
    rfl

end Elastos.Types.Header

namespace Elastos.Blockchain
open Go Common Crypto Elastos.Types Utils Outcome BlockChain Stand List

structure DecodedEvidence where
  header : Header
  confirm : Confirm

def decodeEvidence (evidence : BlockEvidence) : Outcome String DecodedEvidence := do
  let header ← decode Header.deserialize evidence.header
  let confirm ← decode Confirm.deserialize evidence.blockConfirm
  .ok { header, confirm }

structure Confirmed (chain : BlockChain) (evidence : DecodedEvidence) : Prop where
  sanity : confirmSanityCheck chain.prim evidence.confirm = .ok ()
  context : confirmContextCheck chain.arbitrators evidence.confirm = .ok ()
  block : evidence.confirm.proposal.blockHash = evidence.header.hash chain.prim

/-- A key signed an accepting vote for the proposal of a confirm. -/
def HasVerifiedVote (chain : BlockChain) (evidence : DecodedEvidence) (signer : Bytes) : Prop :=
  ∃ vote ∈ evidence.confirm.votes, vote.signer = signer ∧ vote.accept = true ∧
    vote.proposalHash = evidence.confirm.proposal.hash chain.prim ∧ voteSanityCheck chain.prim vote = .ok ()

def IsNodeKeyOf (frame : Dpos.StateKeyFrame) (signer : Bytes) (position : Nat) : Prop :=
  ∃ key, frame.nodeOwnerKeys.lookup signer = some key ∧ (frame.activityProducers.lookup key = some position ∨
      frame.canceledProducers.lookup key = some position)

def isIllegal (frame : Dpos.StateKeyFrame) (position : Nat) : Prop :=
  (frame.producer? position).map (·.state) = some .illegal

/-- Processing and committing the evidence marks a producer that was not illegal. -/
def MarksIllegal (state : Dpos.State) (payload : DPOSIllegalBlocks) (height : UInt32) (position : Nat) : Prop :=
  ∃ pending after, state.processIllegalEvidence (.illegalBlocks payload) height =
      .ok pending ∧ pending.commit height = .ok after ∧
    isIllegal after.frame position ∧ ¬ isIllegal state.frame position

structure SoundPair (chain : BlockChain) (payload : DPOSIllegalBlocks) (first second : DecodedEvidence) : Prop where
  different : first.header.hash chain.prim ≠ second.header.hash chain.prim
  sameHeight : first.header.height = second.header.height
  firstConfirmed : Confirmed chain first
  secondConfirmed : Confirmed chain second
  punished : ∀ (state : Dpos.State) (height : UInt32) (position : Nat),
    state.history.Idle → MarksIllegal state payload height position →
      ∃ signer, IsNodeKeyOf state.frame signer position ∧
        HasVerifiedVote chain first signer ∧ HasVerifiedVote chain second signer

def SoundEvidence (chain : BlockChain) (payload : DPOSIllegalBlocks) : Prop :=
  ∃ first second, decodeEvidence payload.evidence = .ok first ∧ decodeEvidence payload.compareEvidence = .ok second ∧
    SoundPair chain payload first second

/-- The hash does not collide on two byte strings. -/
def CollisionFree (prim : Primitives) (left right : Bytes) : Prop :=
  prim.hash left = prim.hash right → left = right

section Punishment
variable {height : UInt32} {accused : List Bytes} {position : Nat} {before : Dpos.StateKeyFrame}
  {change : Change Dpos.StateKeyFrame} {state next : Dpos.State}

/-- A change that marks a producer whose node key is accused. -/
def IsPunishment (frame : Dpos.StateKeyFrame) (accused : List Bytes) (height : UInt32)
    (change : Change Dpos.StateKeyFrame) : Prop :=
  ∃ signer ∈ accused, ∃ key position, frame.nodeOwnerKeys.lookup signer = some key ∧
    (frame.activityProducers.lookup key = some position ∧
        change = Dpos.State.punishActive key position height ∨ frame.canceledProducers.lookup key = some position ∧
        change = Dpos.State.punishCanceled key position height)

/-- The changes waiting in a state are punishments read off the frame, which has not
changed yet. -/
def Punishing (before : Dpos.StateKeyFrame) (accused : List Bytes) (height : UInt32) (state : Dpos.State) : Prop :=
  state.frame = before ∧ ∃ changes, state.history.Pending height changes ∧
    ∀ change ∈ changes, IsPunishment before accused height change

theorem append_punishing (punishing : Punishing before accused height state)
    (isPunishment : IsPunishment before accused height change)
    (appended : state.append height change = .ok next) : Punishing before accused height next := by
  obtain ⟨sameFrame, changes, pending, all⟩ := punishing
  simp only [Dpos.State.append, bind_eq_ok, Except.ok.injEq] at appended
  obtain ⟨⟨history, frame⟩, appended, rfl⟩ := appended
  obtain ⟨pending, rfl⟩ := pending.append appended
  refine ⟨sameFrame, changes ++ [change], pending, fun other member => ?_⟩
  rcases mem_append.1 member with member | member
  · exact all other member
  · rw [mem_singleton.1 member]
    exact isPunishment

theorem punish_punishing {signer : Bytes} (member : signer ∈ accused)
    (punishing : Punishing before accused height state)
    (punished : Dpos.State.punish height state signer = .ok next) : Punishing before accused height next := by
  have sameFrame := punishing.1
  unfold Dpos.State.punish at punished
  rw [sameFrame] at punished
  split at punished
  · cases punished
    exact punishing
  rename_i key isNodeKey
  split at punished
  · rename_i position isActive
    exact append_punishing punishing ⟨signer, member, key, position, isNodeKey, .inl ⟨isActive, rfl⟩⟩ punished
  split at punished
  · rename_i position isCanceled
    exact append_punishing punishing ⟨signer, member, key, position, isNodeKey, .inr ⟨isCanceled, rfl⟩⟩ punished
  · cases punished
    exact punishing

/-- A punishment touches the state of its own producer only. -/
theorem IsPunishment.execute_illegal {frame : Dpos.StateKeyFrame}
    (isPunishment : IsPunishment before accused height change) (illegal : isIllegal (change.execute frame) position) :
    isIllegal frame position ∨ ∃ signer ∈ accused, IsNodeKeyOf before signer position := by
  obtain ⟨signer, member, key, marked, isNodeKey, punished⟩ := isPunishment
  by_cases same : marked = position
  · subst same
    refine .inr ⟨signer, member, key, isNodeKey, ?_⟩
    rcases punished with ⟨isActive, _⟩ | ⟨isCanceled, _⟩
    · exact .inl isActive
    · exact .inr isCanceled
  · left
    rcases punished with ⟨_, rfl⟩ | ⟨_, rfl⟩
    all_goals
      simpa [isIllegal, Dpos.State.punishActive, Dpos.State.punishCanceled,
        Dpos.StateKeyFrame.updateProducer, Dpos.StateKeyFrame.producer?, getElem?_modify, same] using illegal

/-- On the way through the changes an illegal producer is an old one or an accused
one. -/
def Traced (before : Dpos.StateKeyFrame) (accused : List Bytes) (position : Nat) (frame : Dpos.StateKeyFrame) : Prop :=
  isIllegal frame position → isIllegal before position ∨ ∃ signer ∈ accused, IsNodeKeyOf before signer position

theorem marked_is_accused {payload : DPOSIllegalBlocks} (idle : state.history.Idle)
    (marks : MarksIllegal state payload height position) : ∃ signer, signer ∈ payload.evidence.signers ∧
      signer ∈ payload.compareEvidence.signers ∧ IsNodeKeyOf state.frame signer position := by
  obtain ⟨pending, after, processed, committed, illegal, wasLegal⟩ := marks
  simp only [Dpos.State.processIllegalEvidence, Dpos.State.illegalProducers] at processed
  obtain ⟨sameFrame, changes, waiting, all⟩ :=
    foldlM_invariant (fun current signer member next punishing punished =>
      punish_punishing member punishing punished)
      ⟨rfl, [], idle.pending height, by simp⟩ processed
  simp only [Dpos.State.commit, bind_eq_ok, Except.ok.injEq] at committed
  obtain ⟨⟨history, frame⟩, committed, rfl⟩ := committed
  obtain ⟨rfl, _⟩ := waiting.commit committed
  rw [sameFrame] at illegal
  have traced : Traced state.frame (payload.compareEvidence.signers.filter
      fun signer => signer ∈ payload.evidence.signers) position
      (executeAll changes state.frame) := by
    refine executeAll_invariant (fun change member frame traced illegal => ?_) (fun illegal => .inl illegal)
    rcases (all change member).execute_illegal illegal with before | accused
    · exact traced before
    · exact .inr accused
  rcases traced illegal with before | ⟨signer, member, isNodeKey⟩
  · exact absurd before wasLegal
  · obtain ⟨inCompare, inEvidence⟩ := mem_filter.1 member
    exact ⟨signer, by simpa using inEvidence, inCompare, isNodeKey⟩

end Punishment

section Evidence
variable {chain : BlockChain} {payload : DPOSIllegalBlocks}
  {first second : DecodedEvidence}

structure AcceptedPair (chain : BlockChain) (payload : DPOSIllegalBlocks) (first second : DecodedEvidence) : Prop where
  sameHeight : first.header.height = second.header.height
  firstConfirmed : Confirmed chain first
  secondConfirmed : Confirmed chain second
  firstSigners : ∀ signer ∈ payload.evidence.signers, signer ∈ BlockChain.getConfirmSigners first.confirm
  secondSigners : ∀ signer ∈ payload.compareEvidence.signers, signer ∈ BlockChain.getConfirmSigners second.confirm

theorem decodeEvidence_eq_ok {evidence : BlockEvidence} {decoded : DecodedEvidence} :
    decodeEvidence evidence = .ok decoded ↔ decode Header.deserialize evidence.header = .ok decoded.header ∧
        decode Confirm.deserialize evidence.blockConfirm = .ok decoded.confirm := by
  simp only [decodeEvidence, bind_eq_ok, Except.ok.injEq]
  constructor
  · rintro ⟨header, headerOk, confirm, confirmOk, rfl⟩
    exact ⟨headerOk, confirmOk⟩
  · rintro ⟨headerOk, confirmOk⟩
    exact ⟨_, headerOk, _, confirmOk, rfl⟩

/-- What acceptance says about the decoded evidence, beyond the blocks being
different. -/
theorem checkDPOSIllegalBlocks_accepted (accepted : chain.checkDPOSIllegalBlocks payload = .ok ()) :
    ∃ first second, decodeEvidence payload.evidence = .ok first ∧
      decodeEvidence payload.compareEvidence = .ok second ∧ AcceptedPair chain payload first second := by
  simp only [checkDPOSIllegalBlocks, bind_eq_ok, exists_unit, reject_eq_ok] at accepted
  obtain ⟨_, _, accepted⟩ := accepted
  split at accepted
  case isFalse => simp at accepted
  simp only [checkDPOSElaIllegalBlockHeaders, checkDPOSElaIllegalBlockConfirms,
    checkDPOSElaIllegalBlockSigners, bind_eq_ok, exists_unit, require_eq_ok, forM_eq_ok, Except.ok.injEq] at accepted
  obtain ⟨_, ⟨header, headerOk, compareHeader, compareHeaderOk, heights, rfl⟩,
    _, ⟨confirm, confirmOk, compareConfirm, compareConfirmOk, sanity, context,
      compareSanity, compareContext, _, block, compareBlock, rfl⟩, _, _, _, signers, compareSigners⟩ := accepted
  exact ⟨⟨header, confirm⟩, ⟨compareHeader, compareConfirm⟩, decodeEvidence_eq_ok.2 ⟨headerOk, confirmOk⟩,
    decodeEvidence_eq_ok.2 ⟨compareHeaderOk, compareConfirmOk⟩,
    { sameHeight := heights.1.trans heights.2.symm
      firstConfirmed := ⟨sanity, context, block⟩
      secondConfirmed := ⟨compareSanity, compareContext, compareBlock⟩
      firstSigners := signers
      secondSigners := compareSigners }⟩

/-- Every signer of a confirm that passes has a verified vote in it. -/
theorem Confirmed.hasVerifiedVote {evidence : DecodedEvidence} {signer : Bytes}
    (confirmed : Confirmed chain evidence) (member : signer ∈ BlockChain.getConfirmSigners evidence.confirm) :
    HasVerifiedVote chain evidence signer := by
  obtain ⟨vote, voteMember, isSigner⟩ := mem_map.1 member
  have sanity := confirmed.sanity
  simp only [confirmSanityCheck, then_eq_ok, mapError_eq_ok,
    forM_eq_ok, confirmVoteSanityCheck, require_eq_ok] at sanity
  obtain ⟨accept, proposal, verified⟩ := sanity.2 vote voteMember
  exact ⟨vote, voteMember, isSigner, accept, proposal.symm, verified⟩

theorem AcceptedPair.sound (pair : AcceptedPair chain payload first second)
    (different : first.header.hash chain.prim ≠ second.header.hash chain.prim) :
    SoundPair chain payload first second where
  __ := pair
  different := different
  punished state height position idle marks := by
    obtain ⟨signer, inFirst, inSecond, isNodeKey⟩ := marked_is_accused idle marks
    exact ⟨signer, isNodeKey, pair.firstConfirmed.hasVerifiedVote (pair.firstSigners signer inFirst),
      pair.secondConfirmed.hasVerifiedVote (pair.secondSigners signer inSecond)⟩

/-- Accepted evidence is sound exactly when the two headers differ in a field that
the header hash covers. -/
theorem illegalBlocks_sound_iff (accepted : chain.checkDPOSIllegalBlocks payload = .ok ())
    (firstDecoded : decodeEvidence payload.evidence = .ok first)
    (secondDecoded : decodeEvidence payload.compareEvidence = .ok second)
    (collisionFree : CollisionFree chain.prim first.header.serializeNoAux second.header.serializeNoAux) :
    SoundEvidence chain payload ↔ ¬ Header.SameHashedFields first.header second.header := by
  obtain ⟨_, _, firstOk, secondOk, pair⟩ := checkDPOSIllegalBlocks_accepted accepted
  cases firstDecoded.symm.trans firstOk
  cases secondDecoded.symm.trans secondOk
  constructor
  · rintro ⟨_, _, firstOk, secondOk, sound⟩ same
    cases firstDecoded.symm.trans firstOk
    cases secondDecoded.symm.trans secondOk
    refine sound.different ?_
    rw [Header.hash, Header.hash, Header.serializeNoAux_eq_iff.2 same]
  · intro differs
    refine ⟨first, second, firstDecoded, secondDecoded, pair.sound fun sameHash => ?_⟩
    exact differs (Header.serializeNoAux_eq_iff.1 (collisionFree sameHash))

end Evidence

section Quorum

open Dpos

/-- The signers of a confirm whose votes accept its proposal and are verified. -/
def verifiedSigners (prim : Primitives) (confirm : Confirm) : Finset Bytes :=
  ((confirm.votes.filter fun vote =>
    vote.accept ∧ vote.proposalHash = confirm.proposal.hash prim ∧
      (voteSanityCheck prim vote).isOk).map (·.signer)).toFinset

variable {prim : Primitives} {arbitrators : Arbitrators} {confirm : Confirm}

theorem confirmSanityCheck_votes (sanity : confirmSanityCheck prim confirm = .ok ()) :
    ∀ vote ∈ confirm.votes, vote.accept = true ∧
      vote.proposalHash = confirm.proposal.hash prim ∧ (voteSanityCheck prim vote).isOk := by
  simp only [confirmSanityCheck, then_eq_ok, mapError_eq_ok, forM_eq_ok,
    confirmVoteSanityCheck, require_eq_ok] at sanity
  intro vote member
  obtain ⟨accept, named, verified⟩ := sanity.2 vote member
  exact ⟨accept, named.symm, by rw [verified]; rfl⟩

theorem verifiedSigners_eq (sanity : confirmSanityCheck prim confirm = .ok ()) :
    verifiedSigners prim confirm = (confirm.votes.map (·.signer)).toFinset := by
  have all : ∀ vote ∈ confirm.votes, decide (vote.accept ∧
      vote.proposalHash = confirm.proposal.hash prim ∧ (voteSanityCheck prim vote).isOk) := by
    intro vote member
    exact decide_eq_true (confirmSanityCheck_votes sanity vote member)
  rw [verifiedSigners, filter_eq_self.2 all]

/-- They are current arbiters, and more than the majority count. -/
theorem confirmContextCheck_signers (context : confirmContextCheck arbitrators confirm = .ok ()) :
    (confirm.votes.map (·.signer)).toFinset ⊆ arbitrators.currentArbitrators.toFinset ∧
      arbitrators.getArbitersMajorityCount < (confirm.votes.map (·.signer)).toFinset.card := by
  simp only [confirmContextCheck, voteContextCheck, then_eq_ok, reject_eq_ok,
    mapError_eq_ok, forM_eq_ok, require_eq_ok] at context
  obtain ⟨enough, _, listed⟩ := context
  constructor
  · intro signer member
    obtain ⟨vote, inVotes, rfl⟩ := mem_map.1 (mem_toFinset.1 member)
    exact mem_toFinset.2 (listed vote inVotes)
  · rw [card_toFinset]
    exact Int.not_le.1 enough

/-- Any two confirms that pass both checks under the same arbiters have verified signers
in common, more than a third of the arbiters. -/
theorem confirms_intersect {first second : Confirm} (distinct : arbitrators.currentArbitrators.Nodup)
    (majority : arbitrators.getArbitersMajorityCount = (2 * arbitrators.currentArbitrators.length / 3 : Nat))
    (firstSanity : confirmSanityCheck prim first = .ok ())
    (firstContext : confirmContextCheck arbitrators first = .ok ())
    (secondSanity : confirmSanityCheck prim second = .ok ())
    (secondContext : confirmContextCheck arbitrators second = .ok ()) :
    verifiedSigners prim first ∩ verifiedSigners prim second ⊆
        arbitrators.currentArbitrators.toFinset ∧ arbitrators.currentArbitrators.length <
        3 * (verifiedSigners prim first ∩ verifiedSigners prim second).card := by
  obtain ⟨firstListed, firstCount⟩ := confirmContextCheck_signers firstContext
  obtain ⟨secondListed, secondCount⟩ := confirmContextCheck_signers secondContext
  rw [← verifiedSigners_eq firstSanity] at firstListed firstCount
  rw [← verifiedSigners_eq secondSanity] at secondListed secondCount
  have together : (verifiedSigners prim first ∪ verifiedSigners prim second).card ≤
      arbitrators.currentArbitrators.length := by
    rw [← toFinset_card_of_nodup distinct]
    exact Finset.card_le_card (Finset.union_subset firstListed secondListed)
  have counted := Finset.card_inter_add_card_union (verifiedSigners prim first) (verifiedSigners prim second)
  refine ⟨fun signer member => firstListed (Finset.mem_inter.1 member).1, ?_⟩
  rw [majority] at firstCount secondCount
  omega

end Quorum

namespace SmallChain

def proposalFor (header : Header) : DPOSProposal where
  sponsor := key 1
  blockHash := header.hash primitives
  viewOffset := 0
  sign := sign (key 1)

def voteFor (header : Header) (last : UInt8) : DPOSProposalVote where
  proposalHash := (proposalFor header).hash primitives
  signer := key last
  accept := true
  sign := sign (key last)

def blockEvidence (header : Header) (signers : List UInt8) : BlockEvidence where
  header := header.serialize
  blockConfirm := (proposalFor header).serialize ++ writeUint64 2 ++
    (voteFor header 1).serialize ++ (voteFor header 2).serialize
  signers := signers.map key

def accusing (first second : BlockEvidence) : DPOSIllegalBlocks where
  coinType := elaCoin
  blockHeight := 10
  evidence := first
  compareEvidence := second

def forking : DPOSIllegalBlocks :=
  accusing (blockEvidence (header 10 1 default) [1, 2])
    (blockEvidence (header 10 2 default) [1, 2])

theorem forking_sound : SoundEvidence (chain []) forking := by
  have accepted : (chain []).checkDPOSIllegalBlocks forking = .ok () := by decide +kernel
  obtain ⟨first, second, firstDecoded, secondDecoded, _⟩ := checkDPOSIllegalBlocks_accepted accepted
  have firstHeader : decode Header.deserialize forking.evidence.header = .ok (header 10 1 default) := by decide +kernel
  have secondHeader : decode Header.deserialize forking.compareEvidence.header =
      .ok (header 10 2 default) := by decide +kernel
  have isFirst : first.header = header 10 1 default := by
    simpa [firstHeader] using (decodeEvidence_eq_ok.1 firstDecoded).1.symm
  have isSecond : second.header = header 10 2 default := by
    simpa [secondHeader] using (decodeEvidence_eq_ok.1 secondDecoded).1.symm
  refine (illegalBlocks_sound_iff accepted firstDecoded secondDecoded ?_).2 ?_
  · rw [isFirst, isSecond]
    intro collision
    exact absurd collision (by decide +kernel)
  · rw [isFirst, isSecond, ← Header.serializeNoAux_eq_iff]
    decide +kernel

def framing : DPOSIllegalBlocks :=
  accusing (blockEvidence (header 10 1 default) [1, 2])
    (blockEvidence (header 10 1 default) [2, 1])

theorem framing_not_sound : framing.coinType = elaCoin ∧ (chain []).checkDPOSIllegalBlocks framing = .ok () ∧
      ¬ SoundEvidence (chain []) framing := by
  refine ⟨rfl, by decide +kernel, ?_⟩
  rintro ⟨first, second, firstDecoded, secondDecoded, sound⟩
  have sameHeader :=
    Except.ok.inj ((decodeEvidence_eq_ok.1 firstDecoded).1.symm.trans (decodeEvidence_eq_ok.1 secondDecoded).1)
  exact sound.different (by rw [sameHeader])

def fourArbiters : Dpos.Arbitrators :=
  { arbitrators with currentArbitrators := [1, 2, 3, 4].map Stand.key }

def confirmBy (header : Header) (signers : List UInt8) : Confirm where
  proposal := proposalFor header
  votes := signers.map (voteFor header)

theorem confirms_intersect_four : fourArbiters.currentArbitrators.length = 4 ∧
      4 < 3 * (verifiedSigners Stand.primitives (confirmBy (header 10 1 default) [1, 2, 3]) ∩
        verifiedSigners Stand.primitives (confirmBy (header 10 2 default) [2, 3, 4])).card := by
  refine ⟨rfl, (@confirms_intersect Stand.primitives fourArbiters _ _ ?_ ?_ ?_ ?_ ?_ ?_).2⟩
  all_goals decide +kernel

end SmallChain
end Elastos.Blockchain
