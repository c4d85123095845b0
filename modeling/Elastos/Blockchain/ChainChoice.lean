import Elastos.Blockchain.ChainReach

/-! Finality by depth, and the choice between branches by work, as long as no reorganization shortens
the chain. -/
set_option autoImplicit false
namespace Elastos.Blockchain.Chain
open Common Crypto Elastos.Types Utils Go List

section Finality
variable {σ : Type} {backend : Backend σ} {chain after made : Chain σ} {path keep : List Nat}
  {id : Nat} {block : Block}

/-- A height on the main chain above `CRCOnlyDPOSHeight` with at least
`irreversibleHeight` blocks on top of it. -/
def Final (backend : Backend σ) (tree : BlockTree) (height : Nat) : Prop :=
  backend.params.crcOnlyDPOSHeight.toNat < height ∧ height + irreversibleHeight < tree.nodes.length

/-- A block that may be accepted without harm to final blocks: while there are final
blocks, the chain is only reorganized to a branch that is at least as high as the main
chain and whose blocks pass. -/
@[mk_iff] structure Steady (backend : Backend σ) (call : Call σ) : Prop where
  remembered : Remembered backend call.chain call.block
  higher : ∀ found ∈ candidate backend call.block call.chain, TakesOver backend call.block found.2 found.1 →
      (∀ best ∈ found.2.bestChain, found.2.heightOf best ≤
        backend.params.crcOnlyDPOSHeight.toNat + irreversibleHeight) ∨
      (∀ best ∈ found.2.bestChain, found.2.heightOf best ≤ call.block.height.toNat) ∧
        BranchPasses backend call.block call.confirm found.2 found.1

instance (call : Call σ) : Decidable (Steady backend call) :=
  decidable_of_iff' _ (steady_iff backend call)

def KeepsFinal (backend : Backend σ) (before after : BlockTree) : Prop :=
  ∀ height, Final backend before height → Final backend after height ∧ after.hashAt height = before.hashAt height

theorem KeepsFinal.refl (tree : BlockTree) : KeepsFinal backend tree tree :=
  fun _ final => ⟨final, rfl⟩

theorem KeepsFinal.trans {first second third : BlockTree}
    (left : KeepsFinal backend first second) (right : KeepsFinal backend second third) :
    KeepsFinal backend first third := by
  intro height final
  obtain ⟨final', same⟩ := left height final
  obtain ⟨final'', same'⟩ := right height final'
  exact ⟨final'', same'.trans same⟩

theorem KeepsFinal.of_view {before after : BlockTree} (length : before.nodes.length ≤ after.nodes.length)
    (view : ∀ height, Final backend before height →
      after.hashAt height = before.hashAt height) : KeepsFinal backend before after :=
  fun height final => ⟨⟨final.1, lt_of_lt_of_le final.2 length⟩, view height final⟩

theorem Refreshed.keepsFinal (refreshed : Refreshed chain path after keep)
    (sound : Sound backend chain path) : KeepsFinal backend chain.toBlockTree after.toBlockTree :=
  .of_view (by rw [refreshed.nodes]) fun height _ => refreshed.hashAt sound height

theorem Reorganized.length (reorganized : Reorganized made after keep id path)
    (sound : Sound backend after path) : after.nodes.length = made.heightOf id + 1 := by
  obtain ⟨detach, attach, point, rest, -, -, walk, -⟩ := reorganized.branches
  obtain ⟨_, first⟩ := walk.head
  have depth := sound.main.depth 0 id (by rw [first]; rfl)
  rw [reorganized.shape.heightOf] at depth
  omega

theorem Reorganized.keepsFinal {best : Nat} (reorganized : Reorganized made after keep id path)
    (new : NodeOf backend block id made) (soundMade : Sound backend made keep)
    (sound : Sound backend after path) (tip : made.bestChain = some best)
    (allowed : ¬ forbidsReorganize backend block.height (made.getReorganizeNodes id).1)
    (higher : made.heightOf best ≤ block.height.toNat) : KeepsFinal backend made.toBlockTree after.toBlockTree := by
  have length := soundMade.main.length_tip tip
  have length' := reorganized.length sound
  have height : made.heightOf id = block.height.toNat := by
    rw [BlockTree.heightOf, new.height]
  refine .of_view (by omega) fun position final => ?_
  obtain ⟨detach, attach, point, rest, rfl, -, -, forks, view⟩ := reorganized.branches
  have depth : made.heightOf point + detach.length + 1 = made.nodes.length := by
    refine soundMade.main.depth _ point ?_
    rw [List.getElem?_append_right le_rfl, Nat.sub_self]
    rfl
  obtain ⟨above, deep⟩ := final
  -- the new block is above `CRCOnlyDPOSHeight`, so only few blocks were detached
  have few : detach.length ≤ irreversibleHeight := by
    rw [forks] at allowed
    by_contra many
    exact allowed ⟨UInt32.lt_iff_toNat_lt.2 (by omega), Nat.lt_of_not_le many⟩
  exact view position (by omega)

theorem Passed.keepsFinal {confirm : Option Confirm}
    (passed : Passed backend block id made keep after) (new : NodeOf backend block id made)
    (soundMade : Sound backend made keep) (higher : TakesOver backend block made id →
      (∀ best ∈ made.bestChain, made.heightOf best ≤ backend.params.crcOnlyDPOSHeight.toNat + irreversibleHeight) ∨
      (∀ best ∈ made.bestChain, made.heightOf best ≤ block.height.toNat) ∧ BranchPasses backend block confirm made id) :
    KeepsFinal backend made.toBlockTree after.toBlockTree := by
  obtain ⟨path, sound, -, verdict⟩ := passed
  cases verdict with
  | extended extended _ =>
    have longer : made.nodes.length < after.nodes.length := by
      by_contra beyond
      have top := extended.view made.nodes.length
      rw [if_pos rfl, BlockTree.hashAt_of_beyond (by omega)] at top
      cases top
    refine .of_view longer.le fun height final => ?_
    have inside := final.2
    rw [extended.view, if_neg (by omega)]
  | aside sided _ =>
    obtain ⟨best, -, -, tip⟩ := soundMade.main.head
    have length := soundMade.main.length_tip tip
    have length' := sound.main.length_tip (sided.tip.trans tip)
    rw [sided.shape.heightOf] at length'
    exact .of_view (by omega) fun height _ => sided.view height
  | reorganized takesOver reorganized =>
    have either := higher takesOver
    obtain ⟨best, tip, parent, pointer, aside, heavier, allowed⟩ := takesOver
    rcases either with low | ⟨high, -⟩
    · intro height final
      have length := soundMade.main.length_tip tip
      have inside := final.1
      have deep := final.2
      have bound := low best tip
      omega
    · exact reorganized.keepsFinal new soundMade sound tip allowed (high best tip)

/-- An error only harms final blocks when it stops a reorganization. -/
theorem Rejected.keepsFinal {call : Call σ} {reason : BlockError}
    (rejected : Rejected backend call.block call.chain path after)
    (sound : Sound backend call.chain path) (steady : Steady backend call)
    (run : maybeAcceptBlock backend call.block call.confirm call.chain = (.error (.error reason), after)) :
    KeepsFinal backend call.chain.toBlockTree after.toBlockTree := by
  rcases rejected with ⟨-, refreshed⟩ |
    ⟨id, made, keep, found, soundMade, refreshed, new, path', sound', -, unchanged | takesOver⟩
  · exact refreshed.keepsFinal sound
  · rw [unchanged.1]
    exact refreshed.keepsFinal sound
  refine (refreshed.keepsFinal sound).trans ?_
  rcases steady.higher _ found takesOver with low | ⟨-, passes⟩
  · obtain ⟨best, tip, -⟩ := takesOver
    intro height final
    have length := soundMade.main.length_tip tip
    have inside := final.1
    have deep := final.2
    have bound : made.heightOf best ≤ _ := low best tip
    omega
  · have succeeds := maybeAcceptBlock_isOk found new.unflagged takesOver passes
    rw [run] at succeeds
    cases succeeds

theorem keepsFinal_lasting (start : BlockTree) :
    Lasting backend (Steady backend) (fun _ _ => False) (KeepsFinal backend start) where
  remembers _ steady := steady.remembered
  accepted := by
    rintro call path after steady sound - kept ⟨id, made, keep, found, soundMade, refreshed, new, passed⟩
    exact (kept.trans (refreshed.keepsFinal sound)).trans (passed.keepsFinal new soundMade (steady.higher _ found))
  rejected steady sound kept run rejected :=
    kept.trans (rejected.keepsFinal sound steady run)
  anchored impossible := impossible.elim
  forced impossible := impossible.elim

/-- Along every run whose blocks are steady, the final blocks of a state are on the
main chain in every later state. -/
theorem final_stays {writes : List Bool} {ledger : σ} {later : Chain σ}
    (first : Reaches backend (Steady backend) (fun _ _ => False) (create backend writes [] ledger) chain)
    (second : Reaches backend (Steady backend) (fun _ _ => False) chain later) {height : Nat}
    {hash : Uint256} (placed : chain.hashAt height = some hash)
    (above : backend.params.crcOnlyDPOSHeight.toNat < height)
    (deep : height + irreversibleHeight < chain.nodes.length) : later.hashAt height = some hash := by
  obtain ⟨sound, waiting, -⟩ := Reaches.kept (keepsFinal_lasting (create backend writes [] ledger).toBlockTree) first
    ⟨⟨[0], create_sound backend writes ledger⟩, create_waiting backend writes ledger, .refl _⟩
  obtain ⟨-, -, kept⟩ := Reaches.kept (keepsFinal_lasting chain.toBlockTree) second ⟨sound, waiting, .refl _⟩
  exact (kept height ⟨above, deep⟩).2.trans placed

end Finality

section Small

open SmallTree

def firstBlock : Block := childOf genesisBlock [] 240

def sevenBlocks : List Block := firstBlock :: chainOf firstBlock [genesisBlock] [480, 720, 960, 1200, 1440, 1680]

/-- Blocks next to the first of the seven that follow each other quickly, so that the
difficulty rises. -/
def quickBlocks : List Block := chainOf genesisBlock [] [10, 20, 30, 40]

/-- Quick blocks on top of the first of the seven. -/
def shorterBlocks : List Block := chainOf firstBlock [genesisBlock] [300, 310, 320, 330]

theorem final_stays_small : ∃ chain later, Reaches backend (Steady backend) (fun _ _ => False)
      (create backend [] [] ()) chain ∧ Reaches backend (Steady backend) (fun _ _ => False) chain later ∧
    1 + irreversibleHeight < chain.nodes.length ∧ later.hashAt 7 ≠ chain.hashAt 7 ∧
    later.hashAt 1 = some (firstBlock.hash Stand.primitives) := by
  obtain ⟨chain, first, run⟩ := reaches_of (Steady backend) (fun _ _ => False) sevenBlocks
    (create backend [] [] ()) (fun chain => ((deliver (fun call => decide (Steady backend call))
      (chainOf (sevenBlocks.getD 5 genesisBlock) ((sevenBlocks.take 5).reverse ++ [genesisBlock]) [1450, 1460])
        chain).any fun later => decide (1 + irreversibleHeight < chain.nodes.length ∧
          chain.hashAt 1 = some (firstBlock.hash Stand.primitives) ∧ later.hashAt 7 ≠ chain.hashAt 7)) = true)
    (by decide +kernel)
  obtain ⟨later, second, deep, placed, switched⟩ := reaches_of _ (fun _ _ => False) _ chain _ run
  exact ⟨chain, later, first, second, deep, switched, final_stays first second placed (by decide) deep⟩

/-- After seven blocks the first one is final. Four quick blocks on top of it make the chain
lower, and four that are quick from the start then take its place. -/
theorem lowered_unfinal : ¬ ∀ {chain later : Chain Unit},
    Reaches backend (fun _ => True) (fun _ _ => False) (create backend [] [] ()) chain →
    Reaches backend (fun _ => True) (fun _ _ => False) chain later →
    ∀ {height : Nat} {hash : Uint256}, chain.hashAt height = some hash →
      backend.params.crcOnlyDPOSHeight.toNat < height → height + irreversibleHeight < chain.nodes.length →
      later.hashAt height = some hash := by
  intro stays
  obtain ⟨chain, first, run⟩ := reaches_of (fun _ => True) (fun _ _ => False) sevenBlocks
    (create backend [] [] ()) (fun chain => ((deliver (fun _ => decide True)
      (shorterBlocks ++ quickBlocks) chain).any fun later =>
        decide (1 + irreversibleHeight < chain.nodes.length ∧ chain.hashAt 1 = some (firstBlock.hash Stand.primitives) ∧
          later.hashAt 1 ≠ some (firstBlock.hash Stand.primitives))) = true) (by decide +kernel)
  obtain ⟨later, second, deep, placed, gone⟩ := reaches_of (fun _ => True) (fun _ _ => False) _ chain _ run
  exact gone (stays first second placed (by decide) deep)

end Small

section Choice
variable {σ : Type} {backend : Backend σ} {chain after made : Chain σ} {path keep : List Nat}
  {id : Nat} {block : Block} {hash : Uint256}

variable (tree : BlockTree)

/-- A branch that leaves the main chain below the blocks that may be detached. -/
def Deep (path : List Nat) (id : Nat) : Prop :=
  irreversibleHeight + 1 < path.length ∧ ∀ line, Line tree.parentOf id line →
      ∀ member ∈ line, member ∉ path.take (irreversibleHeight + 1)

/-- Every branch with more work than the main chain is deep. -/
def Heaviest (path : List Nat) : Prop :=
  ∀ hash id best, tree.index.lookup hash = some id → tree.bestChain = some best →
    (tree.node best).workSum < (tree.node id).workSum → Deep tree path id

/-- A reorganization to the branch of a deep node would detach too many blocks, and
the other way round. -/
theorem Sound.deep_iff (sound : Sound backend chain path) (loaded : chain.root ≠ none ∧
      ∀ id ∈ path, chain.index.lookup (chain.node id).hash = some id)
    (found : chain.index.lookup hash = some id) : Deep chain.toBlockTree path id ↔
      irreversibleHeight < (chain.getReorganizeNodes id).1.length := by
  obtain ⟨line, walk⟩ := sound.main.rooted.walks id (sound.main.indexed hash id found).1
  by_cases meets : ∃ member ∈ line, member ∈ path
  · obtain ⟨detach, attach, point, rest, nodes, rfl, rfl, apart⟩ :=
      sound.main.reorganizeNodes_of_meets sound.family loaded found walk meets
    rw [nodes]
    constructor
    · rintro ⟨-, away⟩
      by_contra short
      refine away _ walk point (by simp) (mem_take_iff_getElem.2 ⟨detach.length, ?_, ?_⟩)
      · simp at short ⊢
        omega
      · simp
    · intro long
      refine ⟨by simp at long ⊢; omega, fun line' walk' member inside recent => ?_⟩
      cases walk'.unique walk
      have inDetach : member ∈ detach := by
        rw [take_append_of_le_length (Nat.succ_le_of_lt (by simpa using long))] at recent
        exact mem_of_mem_take recent
      have distinct := nodup_append.1 sound.main.nodup
      rcases mem_append.1 inside with inAttach | inRest
      · exact apart member inAttach (by simp [inDetach])
      · exact distinct.2.2 member inDetach member inRest rfl
  · have apart : ∀ member ∈ line, member ∉ path := fun member inside inPath =>
      meets ⟨member, inside, inPath⟩
    rw [sound.main.reorganizeNodes_of_apart sound.family loaded found walk apart, length_dropLast]
    constructor
    · rintro ⟨long, -⟩
      omega
    · intro long
      refine ⟨by omega, fun line' walk' member inside recent => ?_⟩
      cases walk'.unique walk
      exact apart member inside (mem_of_mem_take recent)

/-- A block that may be accepted without leaving a heavier branch behind: it is valid,
and the chain is only reorganized to a branch that is at least as high as the main
chain, or to the heaviest of all. -/
@[mk_iff] structure Fair (backend : Backend σ) (call : Call σ) : Prop where
  remembered : Remembered backend call.chain call.block
  valid : (maybeAcceptBlock backend call.block call.confirm call.chain).1.isOk = true
  higher : ∀ found ∈ candidate backend call.block call.chain, TakesOver backend call.block found.2 found.1 →
      (backend.params.crcOnlyDPOSHeight < call.block.height ∧
        ∀ best ∈ found.2.bestChain, found.2.heightOf best ≤ call.block.height.toNat) ∨ ∀ entry ∈ found.2.index.pairs,
        (found.2.node entry.2).workSum ≤ (found.2.node found.1).workSum

instance (call : Call σ) : Decidable (Fair backend call) :=
  decidable_of_iff' _ (fair_iff backend call)

theorem Refreshed.heaviest (refreshed : Refreshed chain path made keep)
    (sound : Sound backend chain path) (heaviest : Heaviest chain.toBlockTree path) :
    Heaviest made.toBlockTree keep := by
  intro hash id best found tip heavier
  rcases refreshed.index hash id found with old | ⟨best', tip', same⟩
  · have start := (sound.main.indexed hash id old).1
    have tip' : chain.bestChain = some best := by
      rw [← refreshed.bestChain]
      exact tip
    have startBest := sound.main.allocated best (sound.main.tip_mem tip')
    rw [refreshed.workSum start, refreshed.workSum startBest] at heavier
    obtain ⟨long, away⟩ := heaviest hash id best old tip' heavier
    obtain ⟨dropped, split, enough⟩ := refreshed.split
    have long' : irreversibleHeight + 1 < keep.length := by
      by_cases none : dropped = []
      · rw [split, none, append_nil] at long
        exact long
      · rw [enough none]
        decide
    refine ⟨long', fun line walk member inside recent => ?_⟩
    obtain ⟨whole, walk'⟩ := sound.main.rooted.walks id start
    obtain ⟨front, back, equal, walkFront⟩ := refreshed.walk id start whole walk'
    cases walk.unique walkFront
    refine away whole walk' member (by rw [equal]; simp [inside]) ?_
    rw [split, take_append_of_le_length long'.le]
    exact recent
  · cases tip.symm.trans tip'
    omega

/-- The nodes of the index hang on nodes of the index, so a new node is not among
their ancestors. -/
theorem Sound.fresh_not_ancestor (soundMade : Sound backend made keep) {other : Nat}
    {line : List Nat} (absent : made.index.lookup (made.node id).hash = none)
    (found : made.index.lookup hash = some other) (walk : Line made.parentOf other line) : id ∉ line := by
  intro inside
  have indexed := soundMade.family.line_indexed walk found (soundMade.main.indexed hash other found).2 id inside
  rw [absent] at indexed
  cases indexed

theorem Extended.heaviest (extended : Extended made after keep id path)
    (soundMade : Sound backend made keep) (absent : made.index.lookup (made.node id).hash = none)
    (work : ∀ best ∈ made.bestChain, (made.node best).workSum ≤ (made.node id).workSum)
    (heaviest : Heaviest made.toBlockTree keep) : Heaviest after.toBlockTree path := by
  intro hash other best found tip heavier
  cases extended.tip.symm.trans tip
  rw [extended.work, extended.work] at heavier
  rw [extended.index] at found
  split at found
  · cases found
    exact absurd heavier (lt_irrefl _)
  obtain ⟨old, -, -, tip'⟩ := soundMade.main.head
  obtain ⟨long, away⟩ := heaviest hash other old found tip' (lt_of_le_of_lt (work old tip') heavier)
  obtain ⟨line, rfl, -, same⟩ := extended.line
  cases same (soundMade.main.loaded (by omega)).2
  refine ⟨by simp at long ⊢; omega, fun line' walk member inside recent => ?_⟩
  rw [extended.moved.parentOf] at walk
  rw [take_succ_cons] at recent
  rcases mem_cons.1 recent with rfl | older
  · exact soundMade.fresh_not_ancestor absent found walk inside
  · exact away line' walk member inside (take_subset_take_left _ (Nat.le_succ _) older)

theorem Sided.heaviest (sided : Sided made after id) (new : NodeOf backend block id made)
    (sound : Sound backend after keep)
    (lighter : ∀ best ∈ made.bestChain, (made.node best).workSum < (made.node id).workSum →
      irreversibleHeight < (after.getReorganizeNodes id).1.length)
    (heaviest : Heaviest made.toBlockTree keep) : Heaviest after.toBlockTree keep := by
  intro hash other best found tip heavier
  have tip' := sided.tip.symm.trans tip
  rw [sided.work, sided.work] at heavier
  have here := found
  rw [sided.index] at here
  split at here
  · cases here
    obtain ⟨parent, -, pointer, -⟩ := new.parent
    have loaded := sound.loaded_of_child found (by rw [sided.shape.parent]; exact pointer)
    exact (sound.deep_iff loaded found).2 (lighter best tip' heavier)
  · obtain ⟨long, away⟩ := heaviest hash other best here tip' heavier
    refine ⟨long, fun line walk => ?_⟩
    rw [sided.shape.parentOf] at walk
    exact away line walk

/-- After a reorganization that does not shorten the chain, the newest blocks are those
of the branch and blocks that were recent before. -/
theorem Reorganized.heaviest {best : Nat} (reorganized : Reorganized made after keep id path)
    (new : NodeOf backend block id made) (soundMade : Sound backend made keep)
    (sound : Sound backend after path) (tip : made.bestChain = some best)
    (heavier : (made.node best).workSum < (made.node id).workSum)
    (allowed : ¬ forbidsReorganize backend block.height (made.getReorganizeNodes id).1)
    (above : backend.params.crcOnlyDPOSHeight < block.height)
    (higher : made.heightOf best ≤ block.height.toNat) (heaviest : Heaviest made.toBlockTree keep) :
    Heaviest after.toBlockTree path := by
  have length := soundMade.main.length_tip tip
  have length' := reorganized.length sound
  have height : made.heightOf id = block.height.toNat := by
    rw [BlockTree.heightOf, new.height]
  obtain ⟨detach, attach, point, rest, rfl, rfl, walkId, forks, -⟩ := reorganized.branches
  obtain ⟨rest', first⟩ := walkId.head
  have tip' : after.bestChain = some id := by
    obtain ⟨best', rest'', equal, found⟩ := sound.main.head
    cases equal.symm.trans first
    exact found
  intro hash other best' found tip'' heavier'
  cases tip'.symm.trans tip''
  rw [reorganized.work, reorganized.work] at heavier'
  rw [reorganized.index] at found
  split at found
  · cases found
    exact absurd heavier' (lt_irrefl _)
  obtain ⟨long, away⟩ := heaviest hash other best found tip (heavier.trans heavier')
  have depth : made.heightOf point + detach.length + 1 = made.nodes.length := by
    refine soundMade.main.depth _ point ?_
    rw [getElem?_append_right le_rfl, Nat.sub_self]
    rfl
  have depth' : made.heightOf point + attach.length + 1 = after.nodes.length := by
    rw [← reorganized.shape.heightOf]
    refine sound.main.depth _ point ?_
    rw [getElem?_append_right le_rfl, Nat.sub_self]
    rfl
  have few : detach.length ≤ irreversibleHeight := by
    rw [forks] at allowed
    by_contra many
    exact allowed ⟨above, Nat.lt_of_not_le many⟩
  have more : detach.length ≤ attach.length := by omega
  refine ⟨?_, fun line walk member inside recent => ?_⟩
  · simp only [length_append, length_cons] at long ⊢
    omega
  rw [reorganized.shape.parentOf] at walk
  have offPoint : point ∉ line := fun onLine => away line walk point onLine (by
    rw [mem_take_iff_getElem]
    exact ⟨detach.length, by simp; omega, by simp⟩)
  rw [take_append, mem_append] at recent
  rcases recent with inAttach | older
  · -- whoever descends from the branch descends from the fork
    obtain ⟨front, back, equal, walkMember⟩ := walk.of_mem inside
    obtain ⟨newer, older, rfl⟩ := append_of_mem (mem_of_mem_take inAttach)
    have walkMember' : Line made.parentOf member (member :: (older ++ point :: rest)) := by
      have whole : Line made.parentOf id (newer ++ member :: (older ++ point :: rest)) := by
        simpa using walkId
      exact whole.suffix
    have same := walkMember.unique walkMember'
    refine offPoint ?_
    rw [equal, same]
    simp
  · refine away line walk member inside ?_
    rw [take_append, mem_append]
    exact .inr (take_subset_take_left _ (by omega) older)

theorem Passed.heaviest (passed : Passed backend block id made keep after)
    (new : NodeOf backend block id made) (soundMade : Sound backend made keep)
    (absent : made.index.lookup (made.node id).hash = none) (higher : TakesOver backend block made id →
      (backend.params.crcOnlyDPOSHeight < block.height ∧
        ∀ best ∈ made.bestChain, made.heightOf best ≤ block.height.toNat) ∨
      ∀ entry ∈ made.index.pairs, (made.node entry.2).workSum ≤ (made.node id).workSum)
    (heaviest : Heaviest made.toBlockTree keep) :
    ∃ path, Sound backend after path ∧ Heaviest after.toBlockTree path := by
  obtain ⟨path, sound, -, verdict⟩ := passed
  refine ⟨path, sound, ?_⟩
  cases verdict with
  | extended extended work => exact extended.heaviest soundMade absent work heaviest
  | aside sided lighter => exact sided.heaviest new sound lighter heaviest
  | reorganized takesOver reorganized =>
    have either := higher takesOver
    obtain ⟨best, tip, parent, pointer, aside, heavier, allowed⟩ := takesOver
    rcases either with ⟨above, high⟩ | most
    · exact reorganized.heaviest new soundMade sound tip heavier allowed above (high best tip) heaviest
    intro hash other best' found tip' heavier'
    obtain ⟨detach, attach, point, rest, -, -, walkId, -⟩ := reorganized.branches
    obtain ⟨rest', first⟩ := walkId.head
    obtain ⟨best'', rest'', equal, tip''⟩ := sound.main.head
    cases equal.symm.trans first
    cases tip'.symm.trans tip''
    rw [reorganized.work, reorganized.work] at heavier'
    rw [reorganized.index] at found
    split at found
    · cases found
      exact absurd heavier' (lt_irrefl _)
    · exact absurd heavier' (Nat.not_lt.2 (most (hash, other) (GoMap.mem_pairs_iff.2 found)))

/-- The branches in memory that have more work than the main chain are deep. -/
def ChoosesHeaviest : Prop :=
  ∀ path, tree.MainChain path → Heaviest tree path

theorem Sound.path_unique {path' : List Nat} (sound : Sound backend chain path)
    (main : chain.toBlockTree.MainChain path') : path' = path := by
  obtain ⟨best, tip, walk⟩ := main.tip
  exact walk.unique (sound.main.tip_line tip)

theorem choosesHeaviest_lasting : Lasting backend (Fair backend) (fun _ _ => False) ChoosesHeaviest where
  remembers _ fair := fair.remembered
  accepted := by
    rintro call path after fair sound fresh chooses ⟨id, made, keep, found, soundMade, refreshed,
      new, passed⟩ path' main
    have absent : made.index.lookup (made.node id).hash = none := by
      rw [← refreshed.known, ← new.hash] at fresh
      cases here : made.index.lookup (made.node id).hash with
      | none => rfl
      | some other => exact absurd (.inl (by rw [here]; rfl)) fresh
    obtain ⟨path'', sound', heaviest⟩ := passed.heaviest new soundMade absent
      (fair.higher _ found) (refreshed.heaviest sound (chooses path sound.main))
    rw [sound'.path_unique main]
    exact heaviest
  rejected := by
    rintro call path after reason fair - - run -
    have valid := fair.valid
    rw [run] at valid
    cases valid
  anchored impossible := impossible.elim
  forced impossible := impossible.elim

/-- Along every run over valid blocks whose reorganizations are fair, no node in memory
whose branch may still be reorganized to has more work than the main chain. -/
theorem heaviest_chosen {writes : List Bool} {ledger : σ}
    (reached : Reaches backend (Fair backend) (fun _ _ => False) (create backend writes [] ledger) chain)
    {hash : Uint256} {id best : Nat} (found : chain.index.lookup hash = some id)
    (tip : chain.bestChain = some best) (near : (chain.getReorganizeNodes id).1.length ≤ irreversibleHeight) :
    (chain.node id).workSum ≤ (chain.node best).workSum := by
  have starts : ChoosesHeaviest (create backend writes [] ledger).toBlockTree := by
    intro path _ hash id best absent
    cases absent
  obtain ⟨⟨path, sound⟩, -, chooses⟩ := Reaches.kept choosesHeaviest_lasting reached
    ⟨⟨[0], create_sound backend writes ledger⟩, create_waiting backend writes ledger, starts⟩
  by_contra heavier
  have deep := chooses path sound.main hash id best found tip (Nat.lt_of_not_le heavier)
  have long := deep.1
  have far := (sound.deep_iff (sound.main.loaded (by omega)) found).1 deep
  omega

end Choice

section Small

open SmallTree

theorem heaviest_chosen_small : ∃ chain id best,
    Reaches backend (Fair backend) (fun _ _ => False) (create backend [] [] ()) chain ∧
    chain.index.lookup (firstBlock.hash Stand.primitives) = some id ∧ chain.bestChain = some best ∧
    (chain.node id).inMainChain = false ∧ (chain.node id).workSum ≤ (chain.node best).workSum := by
  obtain ⟨chain, reached, id, found, best, tip, near, aside⟩ := reaches_of (Fair backend) (fun _ _ => False)
    (sevenBlocks.take 3 ++ quickBlocks) (create backend [] [] ())
    (fun chain => ∃ id ∈ chain.index.lookup (firstBlock.hash Stand.primitives), ∃ best ∈ chain.bestChain,
      (chain.getReorganizeNodes id).1.length ≤ irreversibleHeight ∧ (chain.node id).inMainChain = false)
    (by decide +kernel)
  exact ⟨chain, id, best, reached, found, tip, aside, heaviest_chosen reached found tip near⟩

/-- The block has the difficulty and the time that are asked of a block on top of its parent,
and the chain accepts it. -/
def ValidOnBranch {σ : Type} (backend : Backend σ) (call : Call σ) : Prop :=
  (∀ parent ∈ call.chain.index.lookup call.block.previous,
    (backend.previous call.chain.toBlockTree parent).nextRequiredDifficulty call.block.timestamp =
        .ok call.block.bits ∧
      (backend.previous call.chain.toBlockTree parent).pastMedianTime ≤ call.block.timestamp.toNat) ∧
  (maybeAcceptBlock backend call.block call.confirm call.chain).1.isOk = true

instance (call : Call Unit) : Decidable (ValidOnBranch backend call) := by
  unfold ValidOnBranch
  infer_instance

/-- Quick blocks next to the first of seven have more work than the seven and are refused,
because seven blocks would have to be detached. Others on top of the first block make the chain
lower, and then the first ones have more work than the main chain and are five blocks away. -/
theorem lowered_unchosen : ¬ ∀ {chain : Chain Unit},
    Reaches backend (ValidOnBranch backend) (fun _ _ => False) (create backend [] [] ()) chain →
    ∀ {hash : Uint256} {id best : Nat}, chain.index.lookup hash = some id → chain.bestChain = some best →
      (chain.getReorganizeNodes id).1.length ≤ irreversibleHeight →
      (chain.node id).workSum ≤ (chain.node best).workSum := by
  intro chosen
  obtain ⟨chain, reached, id, found, best, tip, near, heavier⟩ := reaches_of (ValidOnBranch backend)
    (fun _ _ => False) (sevenBlocks ++ quickBlocks ++ shorterBlocks) (create backend [] [] ())
    (fun chain => ∃ id ∈ chain.index.lookup ((quickBlocks.getD 3 genesisBlock).hash Stand.primitives),
      ∃ best ∈ chain.bestChain, (chain.getReorganizeNodes id).1.length ≤ irreversibleHeight ∧
        (chain.node best).workSum < (chain.node id).workSum) (by decide +kernel)
  exact Nat.not_lt.2 (chosen reached found tip near) heavier

end Small
end Elastos.Blockchain.Chain
