import Elastos.Blockchain.ChainOrphans
import Elastos.Blockchain.Difficulty
import Elastos.Blockchain.SmallChain

/-! Runs of the chain: blocks arrive in any order, wait as orphans and are released.
A property that accepting one block keeps holds in every state of a run. -/
set_option autoImplicit false
namespace Elastos.Blockchain.Chain
open Go Go.Method Common Elastos.Types Utils GoMap List
variable {σ : Type}

structure Call (σ : Type) where
  chain : Chain σ
  block : Block
  confirm : Option Confirm

section Calls
variable (backend : Backend σ)

/-- The blocks that `processOrphansIn` accepts, each with the chain it is accepted on. -/
def releases : Nat → List Uint256 → Chain σ → List (Call σ)
  | 0, _, _ => []
  | _ + 1, [], _ => []
  | rounds + 1, hash :: queue, chain =>
    match (chain.prevOrphans.lookup hash).getD [] with
    | [] => releases rounds queue chain
    | orphan :: _ =>
      let orphanHash := orphan.block.hash backend.prim
      let confirm := chain.orphanConfirms.lookup orphanHash
      { chain, block := orphan.block, confirm } ::
        match maybeAcceptBlock backend orphan.block confirm chain with
        | (.ok _, after) => releases rounds (hash :: queue ++ [orphanHash])
            (after.removeOrphanBlock backend orphan)
        | (.error _, _) => []

def admits (block : Block) (chain : Chain σ) : Bool :=
  match chain.blockExists (block.hash backend.prim) with
  | .ok false =>
    (chain.orphans.lookup (block.hash backend.prim)).isNone && ((backend.view chain).checkBlockSanity block).isOk &&
      match chain.parentExists block with
      | .ok answer => answer
      | .error _ => false
  | _ => false

def acceptances (block : Block) (confirm : Option Confirm) (chain : Chain σ) : List (Call σ) :=
  if admits backend block chain then
    { chain, block, confirm } ::
      match maybeAcceptBlock backend block confirm chain with
      | (.ok _, after) => releases backend after.orphanRounds [block.hash backend.prim] after
      | (.error _, _) => []
  else []

/-- The chains that calls of `processBlock` lead to, when every block is accepted under
the condition `good` and no call panics. Confirms may arrive in between, and the chain
may be told to reorganize to a block under the condition `forced`. -/
inductive Reaches (good : Call σ → Prop) (forced : Chain σ → Block → Prop) (start : Chain σ) : Chain σ → Prop
  | start : Reaches good forced start start
  | process {chain after : Chain σ} {now : Nat} {block : Block} {confirm : Option Confirm}
      {result : Outcome BlockError (Bool × Bool)} (reached : Reaches good forced start chain)
      (run : processBlock backend now block confirm chain = (result, after))
      (returns : ∀ text, result ≠ .error (.panic text))
      (met : ∀ call ∈ acceptances backend block confirm chain, good call) : Reaches good forced start after
  | confirm {chain : Chain σ} (reached : Reaches good forced start chain) (confirm : Confirm) :
      Reaches good forced start (chain.addOrphanConfirm confirm)
  | reorganize {chain after : Chain σ} {block : Block} {result : Outcome BlockError Unit}
      (reached : Reaches good forced start chain)
      (run : reorganizeTo backend block chain = (result, after))
      (returns : ∀ text, result ≠ .error (.panic text)) (met : forced chain block) : Reaches good forced start after

theorem Reaches.trans {backend : Backend σ} {good : Call σ → Prop}
    {forced : Chain σ → Block → Prop} {start chain later : Chain σ}
    (first : Reaches backend good forced start chain) (second : Reaches backend good forced chain later) :
    Reaches backend good forced start later := by
  induction second with
  | start => exact first
  | process _ run returns met ih => exact .process ih run returns met
  | confirm _ confirm ih => exact .confirm ih confirm
  | reorganize _ run returns met ih => exact .reorganize ih run returns met

/-- A property of the tree that accepting a block keeps. -/
structure Lasting (good : Call σ → Prop) (forced : Chain σ → Block → Prop) (holds : BlockTree → Prop) : Prop where
  remembers : ∀ call, good call → Remembered backend call.chain call.block
  accepted : ∀ {call path after}, good call → Sound backend call.chain path →
    ¬ call.chain.Known (call.block.hash backend.prim) → holds call.chain.toBlockTree →
    Accepted backend call.block call.chain path after → holds after.toBlockTree
  rejected : ∀ {call path after reason}, good call → Sound backend call.chain path → holds call.chain.toBlockTree →
    maybeAcceptBlock backend call.block call.confirm call.chain = (.error (.error reason), after) →
    Rejected backend call.block call.chain path after → holds after.toBlockTree
  anchored : ∀ {chain block}, forced chain block →
    ∀ id ∈ chain.index.lookup (block.hash backend.prim), chain.Anchored id
  forced : ∀ {chain path block after result}, forced chain block → Sound backend chain path →
    holds chain.toBlockTree → reorganizeTo backend block chain = (result, after) → holds after.toBlockTree

/-- What holds between two calls, while those that wait for `queue` are released. -/
def Kept (holds : BlockTree → Prop) (queue : List Uint256) (chain : Chain σ) : Prop :=
  (∃ path, Sound backend chain path) ∧ Waiting backend chain queue ∧ holds chain.toBlockTree

end Calls

variable {backend : Backend σ} {chain after : Chain σ} {path : List Nat} {block : Block} (now : Nat)
  (items : List OrphanBlock) {hash : Uint256}

/-- A block is found exactly if the chain knows it. -/
theorem Sound.not_known (sound : Sound backend chain path)
    (absent : chain.blockExists hash = .ok false) : ¬ chain.Known hash := by
  intro known
  unfold blockExists at absent
  rcases known with inIndex | inHeights
  · obtain ⟨id, found⟩ := Option.isSome_iff_exists.1 inIndex
    rw [found] at absent
    cases absent
  obtain ⟨height, recorded⟩ := Option.isSome_iff_exists.1 inHeights
  obtain ⟨entry, stored⟩ := Option.isSome_iff_exists.1 (sound.backed hash height recorded)
  obtain ⟨id, placed, same⟩ := BlockTree.hashAt_eq_some.1 ((sound.recorded hash height).1 recorded)
  cases found : chain.index.lookup hash with
  | some other =>
    rw [found] at absent
    cases absent
  | none =>
    rw [found, recorded, stored] at absent
    simp only [placed, same, decide_true] at absent
    cases absent

theorem Learned.refresh {made : Chain σ} {keep : List Nat} (learned : Learned backend block made after)
    (refreshed : Refreshed chain path made keep) : Learned backend block chain after :=
  ⟨fun hash old => learned.keeps hash ((refreshed.known hash).2 old),
    fun hash known => (learned.adds hash known).imp_left (refreshed.known hash).1, learned.pool.trans refreshed.pool⟩

theorem Accepted.learned (accepted : Accepted backend block chain path after) :
    (∃ path', Sound backend after path') ∧ Learned backend block chain after ∧
      after.Known (block.hash backend.prim) := by
  obtain ⟨id, made, keep, -, -, refreshed, new, path', sound', learned, verdict⟩ := accepted
  refine ⟨⟨path', sound'⟩, learned.refresh refreshed, .inl ?_⟩
  have index : after.index.lookup (made.node id).hash = some id := by
    cases verdict with
    | extended extended _ => rw [extended.index, if_pos rfl]
    | aside sided _ => rw [sided.index, if_pos rfl]
    | reorganized _ reorganized => rw [reorganized.index, if_pos rfl]
  rw [← new.hash, index]
  rfl

theorem Rejected.learned (rejected : Rejected backend block chain path after) :
    (∃ path', Sound backend after path') ∧ Learned backend block chain after := by
  rcases rejected with ⟨sound', refreshed⟩ | ⟨id, made, keep, -, -, refreshed, -, failed⟩
  · exact ⟨⟨path, sound'⟩, fun hash old => (refreshed.known hash).2 old,
      fun hash known => .inl ((refreshed.known hash).1 known), refreshed.pool⟩
  obtain ⟨path', sound', learned, -⟩ := failed
  exact ⟨⟨path', sound'⟩, learned.refresh refreshed⟩

/-- Fewer blocks are in the queue, and nothing waits for the others. -/
theorem Waiting.shrink {queue queue' : List Uint256} (waiting : Waiting backend chain queue)
    (sub : ∀ hash ∈ queue', hash ∈ queue) : Waiting backend chain queue' :=
  waiting.of_pool rfl (fun key orphan waits => (waiting.unknown key orphan waits).imp_right
      fun ⟨known, out⟩ => ⟨known, fun inside => out (sub key inside)⟩)
    fun hash inside => waiting.arrived hash (sub hash inside)

theorem ageOrphan_absent (absent : chain.orphans.lookup hash = none) :
    (items.foldl (ageOrphan backend now) chain).orphans.lookup hash = none := by
  induction items generalizing chain with
  | nil => exact absent
  | cons orphan rest ih =>
    refine ih (ageOrphan_cases (motive := fun after => after.orphans.lookup hash = none) ?_ absent absent)
    refine (lookup_erase_eq ..).trans ?_
    rw [absent, ite_self]

theorem ageOrphan_only : OrphansOnly chain (items.foldl (ageOrphan backend now) chain) := by
  induction items generalizing chain with
  | nil => exact .refl chain
  | cons orphan rest ih =>
    refine OrphansOnly.trans (ageOrphan_cases (motive := OrphansOnly chain) ?_ ⟨rfl, rfl, rfl, rfl, rfl⟩
      (.refl chain)) ih
    exact removeOrphanBlock_only orphan chain

theorem addOrphanBlock_ensures (waiting : Waiting backend chain []) (fresh : ¬ chain.Known (block.hash backend.prim))
    (absent : chain.orphans.lookup (block.hash backend.prim) = none) :
    Ensures (· = chain) (addOrphanBlock backend now block)
      (fun _ after => Waiting backend after [] ∧ OrphansOnly chain after) (fun _ => False) := by
  have ages : Ensures (· = chain)
      (Method.update fun chain => (backend.runtime.iterate chain.orphans.values).foldl
        (ageOrphan backend now) chain : Method (Chain σ) BlockError Unit)
      (fun _ state => (Waiting backend state [] ∧ OrphansOnly chain state) ∧
        state.orphans.lookup (block.hash backend.prim) = none) (fun _ => False) := by
    refine .update ?_
    rintro state rfl
    obtain ⟨distinct, held⟩ := waiting.values_distinct
    exact ⟨⟨waiting.ageAll now _ distinct held, ageOrphan_only now _⟩, ageOrphan_absent now _ absent⟩
  refine .bind ages fun _ => .bind_this fun state ⟨⟨waiting', only⟩, absent'⟩ => ?_
  refine .bind (show Ensures (· = state) _
    (fun _ other => (Waiting backend other [] ∧ OrphansOnly chain other) ∧
      other.orphans.lookup (block.hash backend.prim) = none) (fun _ => False) from ?_) fun _ =>
    .update fun other ⟨⟨waiting'', only'⟩, room⟩ => ?_
  · refine .ite (fun _ => ?_) fun _ => .pure () fun other equal => ?_
    · cases oldest : state.oldestOrphan with
      | none => exact .crash _
      | some orphan =>
        refine .update fun other equal => ?_
        subst equal
        have removed := waiting'.remove (waiting'.oldest orphan oldest)
        refine ⟨⟨{ removed with oldest _ none := (by cases none) }, only.trans ⟨rfl, rfl, rfl, rfl, rfl⟩⟩, ?_⟩
        refine (lookup_erase_eq ..).trans ?_
        rw [absent', ite_self]
    · rw [equal]
      exact ⟨⟨waiting', only⟩, absent'⟩
  refine ⟨waiting''.add (now + orphanLifetime) ?_ room, only'.trans ⟨rfl, rfl, rfl, rfl, rfl⟩⟩
  rw [only'.known]
  exact fresh

theorem reorganizeTo_ensures (sound : Sound backend chain path)
    (anchored : ∀ id ∈ chain.index.lookup (block.hash backend.prim), chain.Anchored id) :
    Ensures (· = chain) (reorganizeTo backend block)
      (fun _ => Stopped backend chain 0) (Stopped backend chain 0) := by
  have unchanged : ∀ state, state = chain → Stopped backend chain 0 state := by
    rintro state rfl
    exact ⟨path, sound, .refl 0 state⟩
  refine .bind_this fun state equal => ?_
  subst equal
  cases found : state.index.lookup (block.hash backend.prim) with
  | none => exact .fail _ unchanged
  | some id =>
    refine .ite (fun _ => .pure () unchanged) fun _ => ?_
    change Ensures _ (reorganizeChain backend (state.getReorganizeNodes id).1 (state.getReorganizeNodes id).2) _ _
    rcases sound.main.held with loaded | ⟨genesis, unloaded⟩
    · obtain ⟨line, walk⟩ := sound.main.rooted.walks id (sound.main.indexed _ _ found).1
      have meets := sound.main.meets_of_anchored sound.family loaded found walk (anchored id found)
      obtain ⟨detach, attach, point, rest, nodes, rfl, rfl, -⟩ :=
        sound.main.reorganizeNodes_of_meets sound.family loaded found walk meets
      have indexed := sound.family.line_indexed walk found (sound.main.indexed _ _ found).2
      have walk' : Line state.parentOf id (attach.reverse.reverse ++ point :: rest) := by
        rw [reverse_reverse]
        exact walk
      rw [nodes]
      refine .imp (reorganizeChain_ensures sound walk' fun member inside =>
          indexed member (by simp at inside; simp [inside]))
        (fun _ after holds' => ⟨_, holds'.1, holds'.2.lower⟩)
        fun after ⟨path', sound', shifted⟩ => ⟨path', sound', shifted.lower⟩
    · obtain ⟨best, -, walk⟩ := sound.main.tip
      have alone := unloaded.alone
      subst alone
      rw [sound.main.reorganizeNodes_of_unloaded unloaded found]
      refine .imp (reorganizeChain_ensures (show Sound backend state
          ([] ++ genesis :: []) from sound) (show Line state.parentOf best
          ([].reverse ++ genesis :: []) from walk) (by simp))
        (fun _ after holds' => ⟨_, holds'.1, holds'.2.lower⟩)
        fun after ⟨path', sound', shifted⟩ => ⟨path', sound', shifted.lower⟩

section Run
variable {good : Call σ → Prop} {forced : Chain σ → Block → Prop} {holds : BlockTree → Prop}
  (lasting : Lasting backend good forced holds)
include lasting

theorem Lasting.accept {call : Call σ} (met : good call) (sound : Sound backend call.chain path)
    (holding : holds call.chain.toBlockTree) (fresh : ¬ call.chain.Known (call.block.hash backend.prim)) :
    Ensures (· = call.chain) (maybeAcceptBlock backend call.block call.confirm)
      (fun _ after => (∃ path', Sound backend after path') ∧ Learned backend call.block call.chain after ∧
        after.Known (call.block.hash backend.prim) ∧ holds after.toBlockTree)
      (fun after => (∃ path', Sound backend after path') ∧
        Learned backend call.block call.chain after ∧ holds after.toBlockTree) := by
  have accepts : Ensures (· = call.chain) (maybeAcceptBlock backend call.block call.confirm)
      (fun _ => Accepted backend call.block call.chain path)
      (Rejected backend call.block call.chain path) :=
    maybeAcceptBlock_ensures sound (lasting.remembers call met) fresh
  rintro state rfl
  match run : maybeAcceptBlock backend call.block call.confirm call.chain with
  | (.ok _, after) =>
    have accepted := accepts.of_returned rfl run
    obtain ⟨sound', learned, known⟩ := accepted.learned
    exact ⟨sound', learned, known, lasting.accepted met sound fresh holding accepted⟩
  | (.error (.error reason), after) =>
    have rejected := accepts.of_failed rfl run
    obtain ⟨sound', learned⟩ := rejected.learned
    exact ⟨sound', learned, lasting.rejected met sound holding run rejected⟩
  | (.error (.panic text), after) => exact trivial

theorem processOrphansIn_ensures (rounds : Nat) {queue : List Uint256} (kept : Kept backend holds queue chain)
    (met : ∀ call ∈ releases backend rounds queue chain, good call) :
    Ensures (· = chain) (processOrphansIn backend rounds queue)
      (fun _ => Kept backend holds []) (Kept backend holds []) := by
  induction rounds generalizing queue chain with
  | zero =>
    refine .pure () ?_
    rintro state rfl
    exact ⟨kept.1, kept.2.1.shrink (by simp), kept.2.2⟩
  | succ rounds ih =>
    cases queue with
    | nil =>
      refine .pure () ?_
      rintro state rfl
      exact kept
    | cons hash queue =>
      obtain ⟨⟨path, sound⟩, waiting, holding⟩ := kept
      refine .bind_this fun state equal => ?_
      subst equal
      cases list : (state.prevOrphans.lookup hash).getD [] with
      | nil =>
        refine ih ⟨⟨path, sound⟩, waiting.shrink fun _ inside =>
          mem_cons_of_mem _ inside, holding⟩ ?_
        simpa only [releases, list] using met
      | cons orphan others =>
        simp only [releases, list, forall_mem_cons] at met
        have waits : state.Waits hash orphan := by
          cases found : state.prevOrphans.lookup hash with
          | none => rw [found] at list; cases list
          | some whole =>
            rw [found] at list
            exact ⟨whole, found, by rw [show whole = _ from list]; simp⟩
        have fresh : ¬ state.Known (orphan.block.hash backend.prim) := by
          rcases waiting.unknown hash orphan waits with unknown | ⟨-, out⟩
          · exact unknown
          · exact absurd (by simp) out
        have accepts := lasting.accept met.1 sound holding fresh
        refine .bind_run (fun value after run => ?_) fun reason after run => ?_
        · obtain ⟨⟨path', sound'⟩, learned, known, holding'⟩ := accepts.of_returned rfl run
          have later := met.2
          rw [run] at later
          have released : Waiting backend (after.removeOrphanBlock backend orphan)
              (hash :: queue ++ [orphan.block.hash backend.prim]) := by
            refine waiting.release learned waits fresh fun other inside => ?_
            rcases mem_append.1 inside with old | new
            · exact .inl old
            · cases mem_singleton.1 new
              exact .inr ⟨rfl, known⟩
          have sound'' : Sound backend (after.removeOrphanBlock backend orphan) path' :=
            (removeOrphanBlock_only orphan after).sound sound'
          have rest := ih ⟨⟨path', sound''⟩, released, holding'⟩ later
          exact .bind_update (fun _ equal => by rw [equal]) rest
        · obtain ⟨sound', learned, holding'⟩ := accepts.of_failed rfl run
          exact ⟨sound', waiting.reject learned waits (by simp), holding'⟩

/-- A call of `processBlock` keeps the property, whether it returns an error or not. -/
theorem processBlock_ensures (now : Nat) (confirm : Option Confirm) (kept : Kept backend holds [] chain)
    (met : ∀ call ∈ acceptances backend block confirm chain, good call) :
    Ensures (· = chain) (processBlock backend now block confirm)
      (fun _ => Kept backend holds []) (Kept backend holds []) := by
  obtain ⟨⟨path, sound⟩, waiting, holding⟩ := kept
  have same : ∀ state, state = chain → Kept backend holds [] state := by
    rintro state rfl
    exact ⟨⟨path, sound⟩, waiting, holding⟩
  refine .bind_this fun state equal => ?_
  subst equal
  refine .bind_lift (fun exists_ found => ?_) same
  refine .bind_require (fun absent => ?_) fun state _ => same state
  subst absent
  have fresh := sound.not_known found
  refine .ite (fun _ => .pure _ same) fun noOrphan => ?_
  have absent : state.orphans.lookup (block.hash backend.prim) = none := by
    simpa using noOrphan
  refine .bind_lift (fun _ sane => ?_) same
  refine .bind_lift (fun answer parent => ?_) same
  refine .ite (fun no => ?_) fun yes => ?_
  · have adds : Ensures (· = state) (addOrphanBlock backend now block)
        (fun _ => Kept backend holds []) (Kept backend holds []) := by
      refine (addOrphanBlock_ensures now waiting fresh absent).imp (fun _ after holds' => ?_) fun _ => False.elim
      refine ⟨⟨path, holds'.2.sound sound⟩, holds'.1, ?_⟩
      rw [holds'.2.tree]
      exact holding
    exact .bind adds fun _ => .pure _ fun _ kept => kept
  · have admitted : admits backend block state = true := by
      have there : answer = true := by simpa using yes
      simp [admits, found, absent, sane, parent, there, Except.isOk, Except.toBool]
    rw [acceptances, if_pos admitted, forall_mem_cons] at met
    have accepts := lasting.accept met.1 sound holding fresh
    refine .bind_run (fun inMainChain after run => ?_) fun reason after run => ?_
    · obtain ⟨⟨path', sound'⟩, learned, known, holding'⟩ := accepts.of_returned rfl run
      have later := met.2
      rw [run] at later
      have waiting' : Waiting backend after [block.hash backend.prim] := by
        refine waiting.learn learned fresh absent fun hash inside => .inr ?_
        cases mem_singleton.1 inside
        exact ⟨rfl, known⟩
      have releases' : Ensures (· = after) (processOrphans backend (block.hash backend.prim))
          (fun _ => Kept backend holds []) (Kept backend holds []) := by
        refine .bind_this fun other equal => ?_
        subst equal
        exact processOrphansIn_ensures lasting _ ⟨⟨path', sound'⟩, waiting', holding'⟩ later
      exact .bind releases' fun _ => .pure _ fun _ kept => kept
    · obtain ⟨sound', learned, holding'⟩ := accepts.of_failed rfl run
      exact ⟨sound', waiting.learn learned fresh absent (by simp), holding'⟩

theorem Reaches.kept {start : Chain σ} (reached : Reaches backend good forced start chain)
    (starts : Kept backend holds [] start) : Kept backend holds [] chain := by
  induction reached with
  | start => exact starts
  | @process chain after now block confirm result _ run returns met ih =>
    have ensures := processBlock_ensures lasting now confirm ih met
    match result with
    | .ok value => exact ensures.of_returned rfl run
    | .error (.error reason) => exact ensures.of_failed rfl run
    | .error (.panic text) => exact absurd rfl (returns text)
  | @confirm chain _ confirm ih =>
    obtain ⟨⟨path, sound⟩, waiting, holding⟩ := ih
    have only : OrphansOnly chain (chain.addOrphanConfirm confirm) := ⟨rfl, rfl, rfl, rfl, rfl⟩
    exact ⟨⟨path, only.sound sound⟩, waiting.of_pool rfl waiting.unknown (by simp), holding⟩
  | @reorganize chain after block result _ run returns met ih =>
    obtain ⟨⟨path, sound⟩, waiting, holding⟩ := ih
    have ensures := reorganizeTo_ensures sound (lasting.anchored met)
    have stopped : Stopped backend chain 0 after := by
      match result with
      | .ok value => exact ensures.of_returned rfl run
      | .error (.error reason) => exact ensures.of_failed rfl run
      | .error (.panic text) => exact absurd rfl (returns text)
    obtain ⟨path', sound', shifted⟩ := stopped
    refine ⟨⟨path', sound'⟩, waiting.of_pool shifted.pool (fun key orphan waits => ?_) (by simp),
      lasting.forced met sound holding run⟩
    rw [shifted.known, shifted.known]
    exact waiting.unknown key orphan waits

end Run

section Create
variable (backend) (writes : List Bool) (ledger : σ)

theorem create_main : (create backend writes [] ledger).toBlockTree.MainChain [0] := by
  have cells : (create backend writes [] ledger).cells.length = 1 := rfl
  have parents : ∀ id, (create backend writes [] ledger).parentOf id = none := by
    intro id
    cases id <;> rfl
  have height : (create backend writes [] ledger).heightOf 0 = 0 := by
    change backend.genesisBlock.height.toNat = 0
    rw [backend.genesisBlock_height]
    rfl
  have rootless : ∀ {id parent}, (create backend writes [] ledger).parentOf id ≠ some parent := by simp [parents]
  refine ⟨⟨fun _ _ some => absurd some rootless, fun id _ => ⟨[id], .root (parents id)⟩,
    fun _ _ some => absurd some rootless⟩, ⟨0, rfl, .root rfl⟩, ?_, ?_, ?_, ?_, ?_, ?_, ?_, ?_⟩
  · intro id inside
    cases mem_singleton.1 inside
    exact Nat.one_pos
  · intro position id found
    cases position with
    | zero =>
      cases found
      rw [height]
      rfl
    | succ position => cases found
  · intro id inside
    cases mem_singleton.1 inside
    rw [height]
    rfl
  · intro position id found
    cases position with
    | zero =>
      cases found
      exact ⟨height, rfl, Nat.one_pos⟩
    | succ position => cases found
  · intro id inside
    cases mem_singleton.1 inside
    rfl
  · intro hash id found
    cases found
  · intro hash id found
    cases found
  · refine .inr ⟨0, rfl, height, fun _ => ⟨fun _ => rfl, fun _ => rfl⟩, fun hash id found => ?_⟩
    cases found

theorem create_hashAt (height : Nat) : (create backend writes [] ledger).hashAt height =
    if height = 0 then some (backend.genesisBlock.hash backend.prim) else none := by
  cases height <;> rfl

theorem create_sound : Sound backend (create backend writes [] ledger) [0] := by
  refine ⟨⟨create_main backend writes ledger, fun _ inside => (by cases inside), fun _ => ?_, ?_,
    fun _ _ found => (by cases found), ?_, ?_, fun _ _ _ _ found => (by cases found)⟩, ?_⟩
  · exact ⟨⟨none, AList.lookup_insert _⟩, 0, rfl, rfl, rfl⟩
  · intro hash entry found
    change ((∅ : GoMap _ _).insert _ _).lookup hash = _ at found
    rw [lookup_insert_eq] at found
    split at found
    · rename_i same
      cases found
      exact same.symm
    · cases found
  · intro hash height
    change ((∅ : GoMap _ _).insert _ _).lookup hash = _ ↔ _
    rw [lookup_insert_eq, create_hashAt, backend.genesisBlock_height]
    by_cases same : hash = backend.genesisBlock.hash backend.prim
    · rw [if_pos same, same]
      by_cases lowest : height = 0
      · simp [lowest]
      · have positive : height.toNat ≠ 0 := fun zero => lowest (UInt32.toNat_inj.1 zero)
        simp [positive, Ne.symm lowest]
    · rw [if_neg same]
      simp [Ne.symm same]
  · intro hash height found
    change ((∅ : GoMap _ _).insert _ _).lookup hash = _ at found
    rw [lookup_insert_eq] at found
    split at found
    · rename_i same
      change (((∅ : GoMap _ _).insert _ _).lookup hash).isSome
      rw [same, AList.lookup_insert]
      rfl
    · cases found
  · constructor
    · intro parent child inside
      cases parent <;> cases inside
    · intro hash id parent found
      cases found
    · intro hash id parent found
      cases found

theorem create_waiting : Waiting backend (create backend writes [] ledger) [] :=
  ⟨fun _ _ found => (by cases found), fun _ found => (by cases found),
    fun _ _ ⟨_, found, _⟩ => (by cases found), fun _ _ ⟨_, found, _⟩ => (by cases found),
    fun _ inside => (by cases inside)⟩

end Create
end Elastos.Blockchain.Chain

namespace Elastos.Blockchain.SmallTree
open Go Common Config Crypto Elastos.Types Blockchain.SmallChain

def params : Params :=
  { SmallChain.params with crcOnlyDPOSHeight := 0, crCommitteeStartHeight := 1 }

def genesisBlock : Block := blockOf 0 [fairCoinbase 0 0]

def backend : Backend Unit where
  prim := Stand.primitives
  runtime := Runtime.insertion
  params := params
  genesisBlock := genesisBlock
  genesisBlock_height := rfl
  view _ := { chain [] with arbitrators := { arbitrators with params } }
  previous tree id := {
    nextRequiredDifficulty _ := RetargetRule.daily.calcNextRequiredDifficulty (tree.node id) (tree.ancestorsOf id)
    pastMedianTime := calcPastMedianTime Runtime.insertion (tree.node id) (tree.ancestorsOf id) }
  processSpecialTxPayload _ _ := pure ()
  onBlockSaved _ _ ledger := ledger
  onRollbackTo _ ledger := ledger
  rollbackState _ ledger := ledger

def nodeOf (block : Block) : ChainNode := newBlockNode block.toHeader (block.hash Stand.primitives)

/-- A block with the difficulty that is required after its parent and the ancestors of it. -/
def childOf (parent : Block) (ancestors : List Block) (timestamp : UInt32) : Block :=
  let height := parent.height + 1
  { blockOf height [fairCoinbase height 0] with
    previous := parent.hash Stand.primitives
    timestamp := timestamp
    bits := (RetargetRule.daily.calcNextRequiredDifficulty (nodeOf parent) (ancestors.map nodeOf)).toOption.getD 0 }

def confirmOf (block : Block) : Confirm where
  proposal := {
    sponsor := Stand.key 1
    blockHash := block.hash Stand.primitives
    viewOffset := 0
    sign := [] }
  votes := [{ proposalHash := default, signer := Stand.key 1, accept := true, sign := [] },
    { proposalHash := default, signer := Stand.key 2, accept := true, sign := [] }]

/-- The blocks with the given timestamps on top of a parent with its ancestors. -/
def chainOf (parent : Block) (ancestors : List Block) : List UInt32 → List Block
  | [] => []
  | timestamp :: rest =>
    let block := childOf parent ancestors timestamp
    block :: chainOf block (parent :: ancestors) rest

/-- Process blocks one after the other, each with its confirm, when all that is
accepted passes a test. -/
def deliver (test : Chain.Call Unit → Bool) : List Block → Chain Unit → Option (Chain Unit)
  | [], chain => some chain
  | block :: rest, chain =>
    if (Chain.acceptances backend block (some (confirmOf block)) chain).all test then
      match Chain.processBlock backend 0 block (some (confirmOf block)) chain with
      | (.ok _, after) => deliver test rest after
      | (.error (.error _), after) => deliver test rest after
      | (.error (.panic _), _) => none
    else none

theorem deliver_reaches {test : Chain.Call Unit → Bool} {good : Chain.Call Unit → Prop}
    (tested : ∀ call, test call = true → good call) {forced : Chain Unit → Block → Prop} (blocks : List Block)
    {chain after : Chain Unit} (run : deliver test blocks chain = some after) :
    Chain.Reaches backend good forced chain after := by
  induction blocks generalizing chain with
  | nil =>
    cases run
    exact .start
  | cons block rest ih =>
    unfold deliver at run
    split at run
    · rename_i passed
      have met : ∀ call ∈ Chain.acceptances backend block (some (confirmOf block)) chain,
          good call := fun call inside => tested call (List.all_eq_true.1 passed call inside)
      match step : Chain.processBlock backend 0 block (some (confirmOf block)) chain with
      | (.ok _, next) | (.error (.error _), next) =>
        rw [step] at run
        exact (Chain.Reaches.process .start step (by simp) met).trans (ih run)
      | (.error (.panic text), next) =>
        rw [step] at run
        cases run
    · cases run

/-- A chain that is reached by processing blocks, with facts that are computed from it. -/
theorem reaches_of (good : Chain.Call Unit → Prop) [DecidablePred good] (forced : Chain Unit → Block → Prop)
    (blocks : List Block) (start : Chain Unit) (facts : Chain Unit → Prop) [DecidablePred facts]
    (run : ((deliver (fun call => decide (good call)) blocks start).any fun after => decide (facts after)) = true) :
    ∃ after, Chain.Reaches backend good forced start after ∧ facts after := by
  obtain ⟨after, delivered, holds⟩ := (Option.any_eq_true _ _).1 run
  exact ⟨after, deliver_reaches (fun _ passed => of_decide_eq_true passed) blocks delivered, of_decide_eq_true holds⟩

end Elastos.Blockchain.SmallTree
