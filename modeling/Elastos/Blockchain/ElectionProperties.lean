import Elastos.Blockchain.ChainRun

/-! What becomes of the candidates when a new committee takes over. Members are chosen by their votes and kept under
their DIDs, while the history is filled by the CIDs. -/
set_option autoImplicit false
namespace Elastos.Cr
open Go Common Crypto Elastos.Types Utils Outcome List
variable {funcs : CommitteeFuncs} {frame opened : Frame} {height : UInt32} {changes : Changes} {cid did : Uint168}
  {candidate : Candidate}

/-- A candidate with the CID that it is stored under. -/
def Frame.Runs (frame : Frame) (cid : Uint168) (candidate : Candidate) : Prop :=
  ∃ position ∈ frame.candidates.lookup cid, frame.candidate? position = some candidate

/-- A candidate is a member now, or kept in the history of a session, but not both. -/
def Frame.Settles (final : Frame) (session : UInt64) (cid : Uint168) (candidate : Candidate) : Prop :=
  Xor (candidate.info.did ∈ final.members) (∃ history ∈ final.historyCandidates.lookup session, cid ∈ history)

/-- A candidate that can be elected. -/
def Candidate.Stands (candidate : Candidate) : Prop := candidate.info.did ≠ default ∧ candidate.state = .active

instance : DecidablePred Candidate.Stands := fun _ => inferInstanceAs (Decidable (_ ∧ _))

def Frame.stored (frame : Frame) : List (Nat × Candidate) := frame.candidatesOf frame.candidates

/-- Fewer standing candidates than there are seats have more votes. -/
def Frame.Wins (funcs : CommitteeFuncs) (frame : Frame) (candidate : Candidate) : Prop :=
  candidate.Stands ∧ frame.stored.countP (fun other => other.2.Stands ∧ moreVotes funcs.prim other (0, candidate)) <
    funcs.params.crMemberCount.toNat

instance (funcs : CommitteeFuncs) (frame : Frame) (candidate : Candidate) : Decidable (frame.Wins funcs candidate) :=
  inferInstanceAs (Decidable (_ ∧ _))

/-- DIDs are pairwise different, and no two standing candidates have the same rank. -/
structure Frame.Ranked (prim : Primitives) (frame : Frame) : Prop where
  dids : (frame.stored.map (·.2.info.did)).Nodup
  votes : ∀ first ∈ frame.stored, ∀ second ∈ frame.stored, first.2.Stands → second.2.Stands →
    first.2.votes = second.2.votes → prim.toCodeHash first.2.info.code = prim.toCodeHash second.2.info.code →
    first = second

theorem Frame.Runs.stored (runs : frame.Runs cid candidate) : ∃ position, (position, candidate) ∈ frame.stored := by
  obtain ⟨position, found, cell⟩ := runs
  obtain ⟨entry, member, same⟩ := mem_map.1 (GoMap.mem_pairs_iff.2 found)
  refine ⟨position, mem_filterMap.2 ⟨position, mem_map.2 ⟨entry, member, congrArg Prod.snd same⟩, ?_⟩⟩
  rw [cell, Option.map_some]

section Rank
variable {prim : Primitives} {left right : Nat × Candidate}

/-- The rank of a candidate: more votes first, then the smaller hash of the code. -/
def rankOf (prim : Primitives) (entry : Nat × Candidate) : Int ×ₗ List Nat :=
  toLex (-entry.2.votes.toInt, (prim.toCodeHash entry.2.info.code).bytes.reverse.map UInt8.toNat)

theorem less_iff {lefts rights : Bytes} :
    Bytes.less lefts rights = true ↔ lefts.map UInt8.toNat < rights.map UInt8.toNat := by
  induction lefts generalizing rights with
  | nil => cases rights <;> simp [Bytes.less]
  | cons left lefts ih =>
    cases rights with
    | nil => simp [Bytes.less]
    | cons right rights =>
      rw [Bytes.less, map_cons, map_cons, cons_lt_cons_iff, ← ih, ← UInt8.lt_iff_toNat_lt, UInt8.toNat_inj]
      grind

theorem moreVotes_iff : moreVotes prim left right = true ↔ rankOf prim left < rankOf prim right := by
  rw [moreVotes, rankOf, rankOf, Prod.Lex.toLex_lt_toLex, ByteArrayOf.less, Int.neg_inj, Int64.toInt_inj,
    neg_lt_neg_iff, ← Int64.lt_iff_toInt_lt, ← less_iff]
  grind

theorem moreVotes_eq_false : moreVotes prim left right = false ↔ rankOf prim right ≤ rankOf prim left := by
  rw [← Bool.not_eq_true, moreVotes_iff, not_lt]

/-- An item of a list in strict order is among the first ones if fewer items come before it. -/
theorem mem_take_iff {α β : Type} [Preorder β] {rank : α → β} {items : List α} {item : α}
    [DecidableRel fun first second : α => rank first < rank second]
    (ordered : items.Pairwise fun first second => rank first < rank second) (member : item ∈ items) {count : Nat} :
    item ∈ items.take count ↔ items.countP (fun other => rank other < rank item) < count := by
  induction items generalizing count with
  | nil => cases member
  | cons head rest ih =>
    obtain ⟨first, later⟩ := pairwise_cons.1 ordered
    rcases mem_cons.1 member with rfl | inside
    · have none : (item :: rest).countP (fun other => rank other < rank item) = 0 := by
        refine countP_eq_zero.2 fun other listed => ?_
        rcases mem_cons.1 listed with rfl | listed
        · simp
        · simpa using (first other listed).not_gt
      cases count <;> simp [none]
    · have before := first item inside
      cases count with
      | zero => simp
      | succ count =>
        have other : item ≠ head := fun same => lt_irrefl _ (same ▸ before)
        rw [take_succ_cons, mem_cons, or_iff_right other, ih later inside, countP_cons, if_pos (by simpa using before)]
        omega

end Rank

/-- The keys of a map that a loop inserts into. -/
theorem mem_foldl {σ ι : Type} (map : σ → GoMap Uint168 Nat) {step : σ → ι → σ} (key : ι → Uint168)
    (inserts : ∀ state item, did ∈ map (step state item) ↔ did = key item ∨ did ∈ map state) {items : List ι}
    (start : σ) : did ∈ map (items.foldl step start) ↔ did ∈ map start ∨ did ∈ items.map key := by
  induction items generalizing start with
  | nil => simp
  | cons item rest ih =>
    rw [foldl_cons, ih, inserts, map_cons, mem_cons]
    tauto

theorem mem_installMembers {members : List (Uint168 × CRMember)} {current : Frame} :
    did ∈ (installMembers members current).members ↔ did ∈ members.map Prod.fst :=
  (mem_foldl (fun frame : Frame => frame.members) _ (fun _ _ => AList.mem_insert _) _).trans (by simp)

theorem mem_historyCandidatesOf {candidates : List Candidate} : cid ∈ historyCandidatesOf frame candidates ↔
    cid ∈ frame.candidates ∧ cid ∉ candidates.map (·.info.did) := by
  refine (mem_foldl id Prod.fst (fun _ _ => AList.mem_insert _) _).trans ?_
  simp [GoMap.mem_pairs_iff, ← Option.isSome_iff_exists, AList.lookup_isSome, and_comm]

/-- What a change of the committee leaves of the members and the candidates. -/
theorem changeCommitteeMembers_final
    (changed : changeCommitteeMembers funcs frame height = .ok (true, opened, changes)) :
    (∀ did, did ∈ (executeAll changes opened).members ↔ did ∈ (newMembers funcs.params
        (getActiveAndExistDIDCRCandidatesDesc funcs frame)).map Prod.fst) ∧
      (executeAll changes opened).candidates = ∅ ∧
      (executeAll changes opened).historyCandidates.lookup frame.currentSession =
        some (historyCandidatesOf frame (getActiveAndExistDIDCRCandidatesDesc funcs frame)) := by
  simp only [changeCommitteeMembers, bind_eq_ok] at changed
  obtain ⟨deposits, -, changed⟩ := changed
  split at changed
  · cases changed
  simp only [processCurrentCandidates, bind_eq_ok, Except.ok.injEq, Prod.mk.injEq, true_and] at changed
  obtain ⟨⟨_, _⟩, ⟨released, releaseOk, rfl, rfl⟩, rfl, rfl⟩ := changed
  have kept : ∀ current : Frame, (executeAll released current).members = current.members := by
    intro current
    refine @executeAll_invariant _ (fun state : Frame => state.members = current.members) _
      (fun change member state same => ?_) _ rfl
    obtain ⟨entry, _, changed⟩ := mapM_mem releaseOk change member
    simp only [releaseDeposit, bind_eq_ok, Except.ok.injEq] at changed
    obtain ⟨_, _, rfl⟩ := changed
    exact same
  simp only [processCurrentMembersHistory, executeAll_append, executeAll_cons, executeAll_nil, kept,
    mem_installMembers, AList.lookup_insert, implies_true, and_self]

section Elected
variable (ranked : frame.Ranked funcs.prim)
include ranked

/-- The candidates that can be elected are sorted by their rank. -/
theorem desc_ordered : ∃ sorted : List (Nat × Candidate),
    getActiveAndExistDIDCRCandidatesDesc funcs frame = sorted.map Prod.snd ∧
    sorted.Perm (frame.stored.filter fun entry => entry.2.Stands) ∧
    sorted.Pairwise fun first second => rankOf funcs.prim first < rankOf funcs.prim second := by
  have perm := (funcs.runtime.sort_perm (moreVotes funcs.prim) _).trans
    (funcs.runtime.iterate_perm (frame.stored.filter fun entry => entry.2.Stands))
  have order := funcs.runtime.sort_sorted (moreVotes funcs.prim)
    (funcs.runtime.iterate (frame.stored.filter fun entry => entry.2.Stands))
    (by simpa only [moreVotes_eq_false] using fun _ _ _ first second => second.trans first)
    (by simpa only [moreVotes_eq_false, moreVotes_iff] using fun _ _ first => first.le)
  refine ⟨_, rfl, perm, (order.and (perm.nodup_iff.2 (ranked.dids.of_map.filter _))).imp_of_mem ?_⟩
  rintro first second isFirst isSecond ⟨notLater, different⟩
  refine lt_of_le_of_ne (moreVotes_eq_false.1 notLater) fun same => different ?_
  obtain ⟨isFirst, stands⟩ := mem_filter.1 (perm.mem_iff.1 isFirst)
  obtain ⟨isSecond, stands'⟩ := mem_filter.1 (perm.mem_iff.1 isSecond)
  obtain ⟨votes, code⟩ := Prod.ext_iff.1 (toLex.injective same)
  refine ranked.votes _ isFirst _ isSecond (of_decide_eq_true stands) (of_decide_eq_true stands')
    (Int64.toInt_inj.1 (neg_injective votes)) ?_
  have bytes := reverse_injective (map_injective_iff.2 (fun _ _ => UInt8.toNat_inj.1) code)
  cases first' : funcs.prim.toCodeHash first.2.info.code
  cases second' : funcs.prim.toCodeHash second.2.info.code
  simp_all

theorem mem_newMembers (runs : frame.Runs cid candidate) : candidate.info.did ∈ (newMembers funcs.params
      (getActiveAndExistDIDCRCandidatesDesc funcs frame)).map Prod.fst ↔ frame.Wins funcs candidate := by
  obtain ⟨sorted, isSorted, perm, ordered⟩ := desc_ordered ranked
  obtain ⟨position, place⟩ := runs.stored
  have own : candidate.info.did ∈ (newMembers funcs.params (sorted.map Prod.snd)).map Prod.fst ↔
      (position, candidate) ∈ sorted.take funcs.params.crMemberCount.toNat := by
    rw [newMembers, ← map_take, map_map, map_map, mem_map]
    refine ⟨?_, fun member => ⟨_, member, rfl⟩⟩
    rintro ⟨entry, member, same⟩
    have listed := (mem_filter.1 (perm.mem_iff.1 (mem_of_mem_take member))).1
    exact inj_on_of_nodup_map ranked.dids listed place same ▸ member
  rw [isSorted, own, Frame.Wins]
  by_cases stands : candidate.Stands
  · have member : (position, candidate) ∈ sorted := perm.mem_iff.2 (mem_filter.2 ⟨place, decide_eq_true stands⟩)
    rw [mem_take_iff ordered member, and_iff_right stands, perm.countP_eq, countP_filter]
    refine iff_of_eq (congrArg (· < _) (countP_congr fun other _ => ?_))
    simp only [Bool.and_eq_true, decide_eq_true_eq, moreVotes_iff, and_comm]
    rfl
  · refine iff_of_false (fun member => stands ?_) fun wins => stands wins.1
    exact of_decide_eq_true (mem_filter.1 (perm.mem_iff.1 (mem_of_mem_take member))).2

end Elected

/-- Each candidate is elected or kept in the history, and not both, if and only if it wins just when its CID is the DID
of a standing candidate. -/
theorem changeCommitteeMembers_settles (ranked : frame.Ranked funcs.prim)
    (changed : changeCommitteeMembers funcs frame height = .ok (true, opened, changes)) :
    ((executeAll changes opened).candidates = ∅ ∧ ∀ cid candidate, frame.Runs cid candidate →
        (executeAll changes opened).Settles frame.currentSession cid candidate) ↔
      ∀ cid candidate, frame.Runs cid candidate → (frame.Wins funcs candidate ↔
        ∃ other ∈ frame.stored, other.2.Stands ∧ other.2.info.did = cid) := by
  obtain ⟨members, empty, history⟩ := changeCommitteeMembers_final changed
  rw [and_iff_right empty]
  refine forall₃_congr fun cid candidate runs => ?_
  obtain ⟨position, found, -⟩ := id runs
  have stored : cid ∈ frame.candidates := AList.lookup_isSome.1 (Option.isSome_of_mem found)
  have listed : cid ∈ (getActiveAndExistDIDCRCandidatesDesc funcs frame).map (·.info.did) ↔
      ∃ other ∈ frame.stored, other.2.Stands ∧ other.2.info.did = cid := by
    obtain ⟨sorted, isSorted, perm, -⟩ := desc_ordered ranked
    simp only [isSorted, map_map, mem_map, perm.mem_iff, mem_filter, decide_eq_true_eq, Function.comp_apply, and_assoc]
  simp only [Frame.Settles, members, history, Option.mem_some_iff, exists_eq_left', mem_historyCandidatesOf, stored,
    true_and, xor_not_right, mem_newMembers ranked runs, listed]

section Small

open Blockchain SmallChain Elastos.Core

/-- Active candidates by CID, DID and votes. -/
def standing (entries : List (Uint168 × Uint168 × Fixed64)) : Frame :=
  { Frame.initial with
    candidates := GoMap.ofPairs (entries.zipIdx.map fun entry => (entry.1.1, entry.2))
    candidateCells := entries.map fun entry => {
      info := { councillor with cid := entry.1, did := entry.2.1, code := entry.1.bytes }
      state := .active
      votes := entry.2.2
      registerHeight := 1
      cancelHeight := 0
      depositHash := default }
    depositInfo := GoMap.ofPairs (entries.map fun entry => (entry.1, ⟨false, minDepositAmount, 0, minDepositAmount⟩)) }

def electing : CommitteeFuncs := (genesisChain 6 Frame.initial).committeeFuncs 7 (.ok none)

def elects (frame : Frame) : Option Frame :=
  match changeCommitteeMembers electing frame 7 with
  | .ok (true, opened, changes) => some (executeAll changes opened)
  | _ => none

/-- Two candidates for one seat. The first one is stored under its DID. -/
def rivals : Frame := standing [(councillor.did, councillor.did, 7), (councillor.cid, address prefixCRDID 9, 5)]

theorem rivals_settle : ∃ final ∈ elects rivals, final.candidates = ∅ ∧ ∀ cid candidate, rivals.Runs cid candidate →
    final.Settles 1 cid candidate := by
  have elected : (elects rivals).isSome = true := by decide +kernel
  unfold elects at elected ⊢
  split at elected
  case h_2 => cases elected
  case h_1 opened changes changed =>
    refine ⟨_, rfl, (changeCommitteeMembers_settles ⟨by decide +kernel, by decide +kernel⟩ changed).2 ?_⟩
    rintro cid candidate ⟨position, found, cell⟩
    have member : (cid, position) ∈ [(councillor.did, 0), (councillor.cid, 1)] :=
      (by decide +kernel : (GoMap.pairs rivals.candidates).Perm _).mem_iff.1 (GoMap.mem_pairs_iff.2 found)
    simp only [mem_cons, Prod.mk.injEq, not_mem_nil, or_false] at member
    rcases member with ⟨rfl, rfl⟩ | ⟨rfl, rfl⟩
    · cases cell
      decide +kernel
    · cases cell
      decide +kernel

instance (final : Frame) (session : UInt64) (cid : Uint168) (candidate : Candidate) :
    Decidable (final.Settles session cid candidate) :=
  inferInstanceAs (Decidable (Xor _ _))

/-- A candidate whose CID is not its DID is elected and kept in the history. -/
theorem elected_twice : ∃ final ∈ elects (standing [(councillor.cid, councillor.did, 0)]),
    ∃ candidate ∈ (standing [(councillor.cid, councillor.did, 0)]).candidate? 0,
      ¬ final.Settles 1 councillor.cid candidate := by
  decide +kernel

end Small
end Elastos.Cr
