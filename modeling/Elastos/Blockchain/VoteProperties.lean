import Elastos.Blockchain.SmallChain
import Elastos.Blockchain.TxProperties
import Elastos.Cr.Committee

/-! How many votes an accepted vote output can credit. The checks compare each vote
for a producer or against a proposal with the output, but add up the votes for
candidates and against members in a wrapping total. -/
set_option autoImplicit false
namespace Elastos.Blockchain
open Go Common Crypto Elastos.Core Elastos.Types Outcome BlockChain

/-- The vote outputs that `processVotes` of the two states looks at. -/
def votedOutputs (tx : Transaction) : List Output :=
  if tx.txType = .transferAsset ∧ txVersion09 ≤ tx.version then
    tx.outputs.filter fun output => output.outputType = .vote
  else []

/-- Whether `processVoteOutput` of the producer state or of the committee adds the
votes to something. -/
def BlockChain.credits (chain : BlockChain) (voteType : VoteType) (votes : CandidateVotes) : Bool :=
  match voteType with
  | .delegate => (chain.state.getProducerRef votes.candidate).isSome
  | other => Cr.processCandidateVotes chain.runtime chain.crCommittee other votes ≠ []

def VoteContent.amounts (content : VoteContent) : List Fixed64 :=
  content.candidateVotes.map (·.votes)

def BlockChain.creditedVotes (chain : BlockChain) (content : VoteContent) : List Fixed64 :=
  (content.candidateVotes.filter (chain.credits content.voteType)).map (·.votes)

def VoteContent.isShared (content : VoteContent) : Prop :=
  content.voteType = .crc ∨ content.voteType = .crcImpeachment

structure VotesBacked (chain : BlockChain) (output : Output) (vote : VoteOutput) : Prop where
  each : ∀ content ∈ vote.contents, ∀ votes ∈ chain.creditedVotes content,
    1 ≤ votes.toInt ∧ votes.toInt ≤ output.value.toInt
  total : ∀ content ∈ vote.contents, VoteContent.isShared content →
    exactSum (chain.creditedVotes content) ≤ output.value.toInt

/-- The exact totals stay in the range of an `int64`. -/
def TotalsInRange (vote : VoteOutput) : Prop :=
  ∀ content ∈ vote.contents, VoteContent.isShared content → exactSum (VoteContent.amounts content) < 9223372036854775808

def AllCredited (chain : BlockChain) (vote : VoteOutput) : Prop :=
  ∀ content ∈ vote.contents, VoteContent.isShared content → chain.creditedVotes content = VoteContent.amounts content

section Votes
variable {chain : BlockChain} {blockHeight : UInt32} {tx : Transaction}
  {output : Output} {vote : VoteOutput} {content : VoteContent}

theorem creditedVotes_sublist : (chain.creditedVotes content).Sublist (VoteContent.amounts content) :=
  (List.filter_sublist).map _

theorem validateContent_positive {version : UInt8} {seen result : List VoteType}
    (counted : voteProducerAndCRVersion ≤ version)
    (passed : VoteOutput.validateContent version seen content = .ok result) :
    ∀ amount ∈ VoteContent.amounts content, 1 ≤ amount.toInt := by
  have looped : ∃ seen result, content.candidateVotes.foldlM
      (VoteOutput.validateCandidate version) seen = .ok result := by
    simp only [VoteOutput.validateContent, bind_eq_ok, exists_unit] at passed
    obtain ⟨_, _, passed⟩ := passed
    split at passed
    · simp at passed
    · obtain ⟨result, looped, _⟩ := bind_eq_ok.1 passed
      exact ⟨_, result, looped⟩
  obtain ⟨_, _, looped⟩ := looped
  have positive : ∀ votes ∈ content.candidateVotes, 1 ≤ votes.votes.toInt := by
    refine foldlM_forall ?_ looped
    intro seen votes next step
    simp only [VoteOutput.validateCandidate, bind_eq_ok, exists_unit,
      reject_eq_ok, counted, true_and, Int64.le_iff_toInt_le] at step
    have zero : (0 : Int64).toInt = 0 := rfl
    omega
  intro amount member
  obtain ⟨votes, votesMember, rfl⟩ := List.mem_map.1 member
  exact positive votes votesMember

theorem validate_positive (counted : voteProducerAndCRVersion ≤ vote.version)
    (passed : vote.validate = .ok ()) : ∀ content ∈ vote.contents, ∀ amount ∈ VoteContent.amounts content,
      1 ≤ amount.toInt := by
  simp only [VoteOutput.validate, bind_eq_ok, exists_unit] at passed
  obtain ⟨_, _, looped, _⟩ := passed
  refine foldlM_forall ?_ looped
  intro seen content next step
  exact validateContent_positive counted step

/-- What the check of a content says about its votes: they are limited one by one,
or their wrapped total is. -/
theorem checkVoteContent_limited {producers : List Bytes} {candidates : List Uint168} {amount : Fixed64}
    (passed : chain.checkVoteContent blockHeight producers candidates
      voteProducerAndCRVersion amount content = .ok ()) : (VoteContent.isShared content →
      (wrappedSum (VoteContent.amounts content)).toInt ≤ amount.toInt) ∧
    (¬ VoteContent.isShared content → (∃ code, content.voteType = .unknown code) ∨
      ∀ votes ∈ VoteContent.amounts content, votes.toInt ≤ amount.toInt) := by
  unfold checkVoteContent at passed
  split at passed
  case h_1 isType =>
    simp only [checkVoteProducerContent, then_eq_ok, when_eq_ok,
      forM_eq_ok, reject_eq_ok, Int64.lt_iff_toInt_lt, not_lt] at passed
    refine ⟨by simp [VoteContent.isShared, isType], fun _ => .inr fun votes member => ?_⟩
    obtain ⟨entry, entryMember, rfl⟩ := List.mem_map.1 member
    exact passed.2 (by decide) entry entryMember
  case h_2 isType =>
    simp only [checkVoteCRContent, then_eq_ok, reject_eq_ok, Int64.lt_iff_toInt_lt, not_lt] at passed
    refine ⟨fun _ => passed.2.2.2.2, fun other => absurd (.inl isType) other⟩
  case h_3 isType =>
    simp only [checkVoteCRCProposalContent, then_eq_ok,
      forM_eq_ok, reject_eq_ok, Int64.lt_iff_toInt_lt, not_lt] at passed
    refine ⟨by simp [VoteContent.isShared, isType], fun _ => .inr fun votes member => ?_⟩
    obtain ⟨entry, entryMember, rfl⟩ := List.mem_map.1 member
    exact (passed.2 entry entryMember).1
  case h_4 isType =>
    simp only [checkCRImpeachmentContent, then_eq_ok, reject_eq_ok, Int64.lt_iff_toInt_lt, not_lt] at passed
    refine ⟨fun _ => passed.2.2, fun other => absurd (.inr isType) other⟩
  case h_5 code isType =>
    exact ⟨by simp [VoteContent.isShared, isType], fun _ => .inl ⟨code, isType⟩⟩

theorem creditedVotes_unknown {code : { code : UInt8 // 3 < code }}
    (isType : content.voteType = .unknown code) : chain.creditedVotes content = [] := by
  simp [creditedVotes, BlockChain.credits, isType, Cr.processCandidateVotes]

/-- What acceptance says about a vote output that will be processed. -/
structure VotesChecked (chain : BlockChain) (output : Output) (vote : VoteOutput) : Prop where
  positive : ∀ content ∈ vote.contents, ∀ amount ∈ VoteContent.amounts content, 1 ≤ amount.toInt
  shared : ∀ content ∈ vote.contents, VoteContent.isShared content →
    (wrappedSum (VoteContent.amounts content)).toInt ≤ output.value.toInt
  single : ∀ content ∈ vote.contents, ¬ VoteContent.isShared content → (∃ code, content.voteType = .unknown code) ∨
      ∀ votes ∈ VoteContent.amounts content, votes.toInt ≤ output.value.toInt

variable {references : References} {proposalsUsedAmount : Fixed64} {checked : Transaction}

theorem votesChecked (sane : BlockChain.Sane chain blockHeight tx)
    (accepted : chain.checkTransactionContext blockHeight tx references proposalsUsedAmount = .ok checked)
    (voted : output ∈ votedOutputs tx) (isVote : output.payload = .vote vote)
    (version : vote.version = voteProducerAndCRVersion) : VotesChecked chain output vote := by
  unfold votedOutputs at voted
  split at voted
  case isFalse => simp at voted
  rename_i processed
  obtain ⟨member, isVoteType⟩ : output ∈ tx.outputs ∧ output.outputType = .vote := by
    simpa using voted
  have notCoinbase : tx.txType ≠ .coinBase := by simp [processed.1]
  have validated : vote.validate = .ok () := by
    rcases checkTransactionOutput_cases notCoinbase sane.output with
      ⟨_, none⟩ | ⟨isNew, _⟩ | ⟨_, _, ordinary⟩
    · simp [none] at member
    · simp [Transaction.isNewSideChainPowTx, processed.1] at isNew
    · have payload := (checkOrdinaryOutputs_ordinary ordinary output member).payload processed.2
      simp only [checkOutputPayload, then_eq_ok, isVote] at payload
      exact payload.2
  have contents : ∀ content ∈ vote.contents, chain.checkVoteContent blockHeight
      (chain.votableProducers blockHeight) (chain.votableCandidates blockHeight)
      voteProducerAndCRVersion output.value content = .ok () := by
    rcases checkTransactionContext_cases notCoinbase accepted with
      ⟨typed, _⟩ | ⟨_, spent⟩
    · simp [checkType, processed.1] at typed
    have votes := (checkSpending_spends spent).1.votes processed.2
    have outputOk := (forM_eq_ok _ _ _).1 votes output member
    simp only [checkVoteOutput, isVoteType, if_true, isVote, then_eq_ok, version] at outputOk
    exact (forM_eq_ok _ _ _).1 outputOk.2
  exact {
    positive := validate_positive (by rw [version]; decide) validated
    shared content contentMember :=
      (checkVoteContent_limited (contents content contentMember)).1
    single content contentMember :=
      (checkVoteContent_limited (contents content contentMember)).2 }

namespace VotesChecked

/-- Below the range of an `int64` the wrapped total is the exact one. -/
theorem total_le (votes : VotesChecked chain output vote)
    (member : content ∈ vote.contents) (isShared : VoteContent.isShared content)
    (inRange : exactSum (VoteContent.amounts content) < 9223372036854775808) :
    exactSum (VoteContent.amounts content) ≤ output.value.toInt := by
  have nonneg := exactSum_nonneg fun amount amountMember => by
      have := votes.positive content member amount amountMember
      omega
  rw [← wrappedSum_eq_exactSum (by omega) inRange]
  exact votes.shared content member isShared

theorem backed (votes : VotesChecked chain output vote) (inRange : TotalsInRange vote) :
    VotesBacked chain output vote := by
  have nonneg : ∀ content ∈ vote.contents, ∀ amount ∈ VoteContent.amounts content, 0 ≤ amount.toInt := by
    intro content member amount amountMember
    have := votes.positive content member amount amountMember
    omega
  refine ⟨fun content member amount credited => ?_, fun content member isShared => ?_⟩
  · have amountMember := creditedVotes_sublist.subset credited
    refine ⟨votes.positive content member amount amountMember, ?_⟩
    by_cases isShared : VoteContent.isShared content
    · exact le_trans (toInt_le_exactSum (nonneg content member) amountMember)
        (votes.total_le member isShared (inRange content member isShared))
    · rcases votes.single content member isShared with ⟨code, isType⟩ | limited
      · simp [creditedVotes_unknown isType] at credited
      · exact limited amount amountMember
  · exact le_trans (exactSum_le_of_sublist creditedVotes_sublist (nonneg content member))
      (votes.total_le member isShared (inRange content member isShared))

end VotesChecked

/-- The votes credited for an accepted output are backed by its value as long as no
shared total leaves the range of an `int64`. A total that does leave it is never
backed, provided that all of its votes are credited. -/
theorem creditedVotes_backed_iff_inRange (sane : chain.checkTransactionSanity blockHeight tx = .ok ())
    (accepted : chain.checkTransactionContext blockHeight tx references proposalsUsedAmount = .ok checked)
    (voted : output ∈ votedOutputs tx) (isVote : output.payload = .vote vote)
    (version : vote.version = voteProducerAndCRVersion) : (TotalsInRange vote → VotesBacked chain output vote) ∧
      (AllCredited chain vote → VotesBacked chain output vote → TotalsInRange vote) := by
  have votes := votesChecked (checkTransactionSanity_sane sane) accepted voted isVote version
  refine ⟨votes.backed, fun allCredited isBacked content member isShared => ?_⟩
  have total := isBacked.total content member isShared
  rw [allCredited content member isShared] at total
  exact lt_of_le_of_lt total (Int64.toInt_lt output.value)

end Votes

namespace SmallChain

def votable (last : UInt8) : Cr.Candidate where
  info := {
    code := keyCode (Stand.key last)
    cid := address prefixCRDID last
    did := address prefixCRDID last
    nickName := [last]
    url := []
    location := 0
    signature := [] }
  state := .active
  votes := 0
  registerHeight := 1
  cancelHeight := 0
  depositHash := address prefixDeposit last

def electing : Cr.Frame :=
  { Cr.Frame.initial with
    candidates := GoMap.ofPairs [(address prefixCRDID 1, 0), (address prefixCRDID 2, 1), (address prefixCRDID 3, 2)]
    candidateCells := [votable 1, votable 2, votable 3] }

def votersFunds : Transaction := coinbase 1 [output (owner 5) 1000, output miner 0]

def votingChain : BlockChain :=
  { chain [votersFunds] with
    arbitrators := { arbitrators with crCommittee := electing } }

def ballot (first second third : Fixed64) : VoteOutput where
  version := voteProducerAndCRVersion
  contents := [{
    voteType := .crc
    candidateVotes := [ { candidate := (address prefixCRDID 1).bytes, votes := first },
      { candidate := (address prefixCRDID 2).bytes, votes := second },
      { candidate := (address prefixCRDID 3).bytes, votes := third }] }]

variable (vote : VoteOutput)

def ballotOutput : Output :=
  { output (owner 5) 900 with outputType := .vote, payload := .vote vote }

def voting : Transaction :=
  spend .transferAsset .transferAsset votersFunds [ballotOutput vote] [signedBy 5]

def votersReferences : References :=
  (voting vote).inputs.map fun input => (input, output (owner 5) 1000)

theorem honestBallot_backed : VotesBacked votingChain (ballotOutput (ballot 300 300 300)) (ballot 300 300 300) := by
  have passed : (votingChain.checkTransactionContext 11 (voting (ballot 300 300 300))
      (votersReferences (ballot 300 300 300)) 0).isOk = true := by
    decide +kernel
  obtain ⟨_, accepted⟩ := exists_of_isOk passed
  have sane : votingChain.checkTransactionSanity 11 (voting (ballot 300 300 300)) = .ok () := by
    decide +kernel
  refine (creditedVotes_backed_iff_inRange sane accepted (by decide +kernel) rfl rfl).1 ?_
  intro content member _
  rw [List.mem_singleton.1 member]
  decide

/-- The three votes add up to `2 ^ 64`, which wraps to zero, and all are credited. -/
def wrappingBallot : VoteOutput := ballot 9223372036854775807 9223372036854775807 2

theorem wrappingBallot_not_backed : votingChain.checkTransactionSanity 11 (voting wrappingBallot) = .ok () ∧
      (votingChain.checkTransactionContext 11 (voting wrappingBallot) (votersReferences wrappingBallot) 0).isOk = true ∧
      ballotOutput wrappingBallot ∈ votedOutputs (voting wrappingBallot) ∧
      ¬ VotesBacked votingChain (ballotOutput wrappingBallot) wrappingBallot := by
  refine ⟨by decide +kernel, by decide +kernel, by decide +kernel, fun isBacked => ?_⟩
  have content : ∃ content ∈ wrappingBallot.contents, content.voteType = .crc ∧
      exactSum (votingChain.creditedVotes content) = 18446744073709551616 := by
    decide +kernel
  obtain ⟨content, member, isType, total⟩ := content
  have bound := isBacked.total content member (.inl isType)
  rw [total] at bound
  exact absurd bound (by decide)

end SmallChain
end Elastos.Blockchain
