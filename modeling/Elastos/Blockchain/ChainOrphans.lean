import Elastos.Blockchain.ChainAccept

/-! The orphans of the chain: none that waits for a block the chain does not have is
known to the chain, so that a released orphan is a new block. -/
set_option autoImplicit false
namespace Elastos.Blockchain.Chain
open Go Common Elastos.Types GoMap List
variable {σ : Type} {backend : Backend σ} {chain after : Chain σ} {path : List Nat}

structure OrphansOnly (before after : Chain σ) : Prop where
  tree : after.toBlockTree = before.toBlockTree
  blockCache : after.blockCache = before.blockCache
  stored : after.stored = before.stored
  heights : after.heights = before.heights
  flushes : after.flushes = before.flushes

namespace OrphansOnly

theorem refl (chain : Chain σ) : OrphansOnly chain chain := ⟨rfl, rfl, rfl, rfl, rfl⟩

theorem trans {between : Chain σ} (first : OrphansOnly chain between)
    (second : OrphansOnly between after) : OrphansOnly chain after where
  tree := second.tree.trans first.tree
  blockCache := second.blockCache.trans first.blockCache
  stored := second.stored.trans first.stored
  heights := second.heights.trans first.heights
  flushes := second.flushes.trans first.flushes

theorem sound (same : OrphansOnly chain after) (sound : Sound backend chain path) : Sound backend after path := by
  refine ⟨⟨?_, ?_, ?_, ?_, ?_, ?_, ?_, ?_⟩, ?_⟩
  · rw [same.tree]
    exact sound.main
  · rw [same.flushes]
    exact sound.flushing
  · rw [same.tree, same.stored]
    exact sound.genesis
  · rw [same.stored]
    exact sound.keyed
  · rw [same.blockCache]
    exact sound.cached
  · rw [same.heights, same.tree]
    exact sound.recorded
  · rw [same.heights, same.stored]
    exact sound.backed
  · rw [same.tree]
    exact sound.visible
  · rw [same.tree]
    exact sound.family

theorem known (same : OrphansOnly chain after) (hash : Uint256) : after.Known hash ↔ chain.Known hash := by
  rw [Known, same.tree, same.heights, Known]

end OrphansOnly

def Waits (chain : Chain σ) (key : Uint256) (orphan : OrphanBlock) : Prop :=
  ∃ list, chain.prevOrphans.lookup key = some list ∧ orphan ∈ list

/-- The orphans while those that wait for the blocks in `queue` are released. -/
structure Waiting (backend : Backend σ) (chain : Chain σ) (queue : List Uint256) : Prop where
  keyed : ∀ hash orphan, chain.orphans.lookup hash = some orphan → orphan.block.hash backend.prim = hash
  oldest : ∀ orphan ∈ chain.oldestOrphan, chain.orphans.lookup (orphan.block.hash backend.prim) = some orphan
  filed : ∀ key orphan, chain.Waits key orphan → orphan.block.previous = key ∧
    chain.orphans.lookup (orphan.block.hash backend.prim) = some orphan
  unknown : ∀ key orphan, chain.Waits key orphan →
    ¬ chain.Known (orphan.block.hash backend.prim) ∨ chain.Known key ∧ key ∉ queue
  arrived : ∀ hash ∈ queue, chain.Known hash

theorem removeOrphanBlock_only (orphan : OrphanBlock) (chain : Chain σ) :
    OrphansOnly chain (chain.removeOrphanBlock backend orphan) := ⟨rfl, rfl, rfl, rfl, rfl⟩

theorem waits_removeOrphanBlock {orphan other : OrphanBlock} {key : Uint256} :
    (chain.removeOrphanBlock backend orphan).Waits key other ↔ chain.Waits key other ∧ ¬ (key = orphan.block.previous ∧
        other.block.hash backend.prim = orphan.block.hash backend.prim) := by
  have lookup : (chain.removeOrphanBlock backend orphan).prevOrphans.lookup key =
      if key = orphan.block.previous then
        let rest := ((chain.prevOrphans.lookup key).getD []).filter fun other =>
          other.block.hash backend.prim ≠ orphan.block.hash backend.prim
        if rest = [] then none else some rest
      else chain.prevOrphans.lookup key := by
    unfold removeOrphanBlock
    by_cases same : key = orphan.block.previous
    · subst same
      simp only [if_true]
      split
      · rw [lookup_erase_eq, if_pos rfl]
      · rw [lookup_insert_eq, if_pos rfl]
    · simp only [same, if_false]
      split
      · rw [lookup_erase_eq, if_neg same]
      · rw [lookup_insert_eq, if_neg same]
  rw [Waits, lookup, Waits]
  by_cases same : key = orphan.block.previous
  · rw [if_pos same]
    cases found : chain.prevOrphans.lookup key with
    | none => simp
    | some list =>
      simp only [Option.getD_some, same, true_and]
      constructor
      · rintro ⟨rest, kept, inside⟩
        split at kept
        · cases kept
        · cases kept
          obtain ⟨inList, different⟩ := mem_filter.1 inside
          exact ⟨⟨list, rfl, inList⟩, by simpa using different⟩
      · rintro ⟨⟨list', equal, inList⟩, different⟩
        cases equal
        have inside : other ∈ list.filter fun other =>
            other.block.hash backend.prim ≠ orphan.block.hash backend.prim :=
          mem_filter.2 ⟨inList, by simpa using different⟩
        exact ⟨_, if_neg (ne_nil_of_mem inside), inside⟩
  · rw [if_neg same]
    simp [same]

theorem ageOrphan_cases {motive : Chain σ → Prop} {now : Nat} {orphan : OrphanBlock}
    (removed : motive (chain.removeOrphanBlock backend orphan))
    (noted : motive { chain with oldestOrphan := some orphan }) (same : motive chain) :
    motive (ageOrphan backend now chain orphan) := by
  unfold ageOrphan
  split
  · exact removed
  cases chain.oldestOrphan with
  | none => exact noted
  | some oldest =>
    simp only
    split
    · exact noted
    · exact same

namespace Waiting
variable {queue queue' : List Uint256} (now : Nat) {orphan : OrphanBlock} {block : Block}

theorem remove (waiting : Waiting backend chain queue)
    (held : chain.orphans.lookup (orphan.block.hash backend.prim) = some orphan) :
    Waiting backend (chain.removeOrphanBlock backend orphan) queue := by
  have orphans : ∀ hash, (chain.removeOrphanBlock backend orphan).orphans.lookup hash =
      if hash = orphan.block.hash backend.prim then none else chain.orphans.lookup hash :=
    fun hash => lookup_erase_eq ..
  refine ⟨fun hash other found => ?_, fun other found => ?_, fun key other waits => ?_,
    fun key other waits => ?_, waiting.arrived⟩
  · rw [orphans] at found
    split at found
    · cases found
    · exact waiting.keyed hash other found
  · change other ∈ chain.oldestOrphan.filter _ at found
    obtain ⟨old, different⟩ := Option.mem_filter_iff.1 found
    rw [orphans, if_neg (by simpa using different)]
    exact waiting.oldest other old
  · obtain ⟨waits', different⟩ := waits_removeOrphanBlock.1 waits
    obtain ⟨previous, found⟩ := waiting.filed key other waits'
    refine ⟨previous, ?_⟩
    rw [orphans, if_neg, found]
    -- orphans of one hash are one orphan, which waits for one block
    intro same
    rw [same, held] at found
    cases found
    exact different ⟨previous.symm, rfl⟩
  · exact waiting.unknown key other (waits_removeOrphanBlock.1 waits).1

theorem age (waiting : Waiting backend chain queue) (now : Nat)
    (held : chain.orphans.lookup (orphan.block.hash backend.prim) = some orphan) :
    Waiting backend (ageOrphan backend now chain orphan) queue := by
  have noted : Waiting backend { chain with oldestOrphan := some orphan } queue := by
    refine { waiting with oldest other found := ?_ }
    cases found
    exact held
  exact ageOrphan_cases (motive := (Waiting backend · queue)) (waiting.remove held) noted waiting

theorem age_orphans (orphan other : OrphanBlock)
    (different : other.block.hash backend.prim ≠ orphan.block.hash backend.prim) :
    (ageOrphan backend now chain orphan).orphans.lookup (other.block.hash backend.prim) =
      chain.orphans.lookup (other.block.hash backend.prim) :=
  ageOrphan_cases (motive := fun after => after.orphans.lookup _ = chain.orphans.lookup _)
    ((lookup_erase_eq ..).trans (if_neg different)) rfl rfl

theorem ageAll (items : List OrphanBlock) (waiting : Waiting backend chain queue)
    (distinct : (items.map fun orphan => orphan.block.hash backend.prim).Nodup)
    (held : ∀ orphan ∈ items, chain.orphans.lookup (orphan.block.hash backend.prim) = some orphan) :
    Waiting backend (items.foldl (ageOrphan backend now) chain) queue := by
  induction items generalizing chain with
  | nil => exact waiting
  | cons orphan rest ih =>
    obtain ⟨apart, distinct'⟩ := nodup_cons.1 distinct
    refine ih (waiting.age now (held orphan (by simp))) distinct' fun other inRest => ?_
    rw [age_orphans, held other (by simp [inRest])]
    intro same
    exact apart (mem_map.2 ⟨other, inRest, same⟩)

theorem values_distinct (waiting : Waiting backend chain queue) :
    ((backend.runtime.iterate chain.orphans.values).map fun orphan => orphan.block.hash backend.prim).Nodup ∧
    ∀ orphan ∈ backend.runtime.iterate chain.orphans.values,
      chain.orphans.lookup (orphan.block.hash backend.prim) = some orphan := by
  have perm := backend.runtime.iterate_perm chain.orphans.values
  have pairs : ∀ pair ∈ chain.orphans.pairs, pair.2.block.hash backend.prim = pair.1 :=
    fun pair inside => waiting.keyed pair.1 pair.2 (mem_pairs_iff.1 inside)
  have values : chain.orphans.values = chain.orphans.pairs.map Prod.snd := by
    simp [GoMap.values, GoMap.pairs, Function.comp_def]
  have hashes : chain.orphans.values.map (·.block.hash backend.prim) =
      chain.orphans.pairs.map Prod.fst := by
    rw [values, map_map]
    exact map_congr_left pairs
  constructor
  · rw [(perm.map _).nodup_iff, hashes]
    exact chain.orphans.pairs_keys_nodup
  · intro orphan inside
    have inside' := perm.mem_iff.1 inside
    rw [values] at inside'
    obtain ⟨pair, inPairs, rfl⟩ := mem_map.1 inside'
    rw [pairs pair inPairs]
    exact mem_pairs_iff.1 inPairs

theorem add (waiting : Waiting backend chain []) (expiration : Nat) (fresh : ¬ chain.Known (block.hash backend.prim))
    (absent : chain.orphans.lookup (block.hash backend.prim) = none) : Waiting backend { chain with
      orphans := chain.orphans.insert (block.hash backend.prim) { block, expiration }
      prevOrphans := chain.prevOrphans.insert block.previous
        ((chain.prevOrphans.lookup block.previous).getD [] ++ [{ block, expiration }]) } [] := by
  have waits : ∀ key orphan, Waits { chain with
      orphans := chain.orphans.insert (block.hash backend.prim) { block, expiration }
      prevOrphans := chain.prevOrphans.insert block.previous
        ((chain.prevOrphans.lookup block.previous).getD [] ++ [{ block, expiration }]) }
        key orphan → chain.Waits key orphan ∨ key = block.previous ∧ orphan = { block, expiration } := by
    rintro key orphan ⟨list, found, inside⟩
    rw [lookup_insert_eq] at found
    split at found
    · rename_i same
      cases found
      rcases mem_append.1 inside with old | new
      · cases known : chain.prevOrphans.lookup block.previous with
        | none => rw [known] at old; cases old
        | some list =>
          rw [known] at old
          exact .inl ⟨list, by rw [same, known], old⟩
      · exact .inr ⟨same, mem_singleton.1 new⟩
    · exact .inl ⟨list, found, inside⟩
  have kept : ∀ orphan : OrphanBlock, chain.orphans.lookup (orphan.block.hash backend.prim) = some orphan →
      (chain.orphans.insert (block.hash backend.prim) { block, expiration }).lookup
        (orphan.block.hash backend.prim) = some orphan := by
    intro orphan found
    rw [lookup_insert_eq, if_neg, found]
    intro same
    rw [same, absent] at found
    cases found
  refine ⟨fun hash orphan found => ?_, fun orphan found => kept orphan (waiting.oldest orphan found),
    fun key orphan there => ?_, fun key orphan there => ?_, nofun⟩
  · rw [lookup_insert_eq] at found
    split at found
    · rename_i same
      cases found
      exact same.symm
    · exact waiting.keyed hash orphan found
  · rcases waits key orphan there with old | ⟨rfl, rfl⟩
    · exact ⟨(waiting.filed key orphan old).1, kept orphan (waiting.filed key orphan old).2⟩
    · exact ⟨rfl, by rw [lookup_insert_eq, if_pos rfl]⟩
  · rcases waits key orphan there with old | ⟨rfl, rfl⟩
    · exact waiting.unknown key orphan old
    · exact .inl fresh

section
variable (waiting : Waiting backend chain queue)
include waiting

theorem of_pool (pool : after.pool = chain.pool)
    (unknown : ∀ key orphan, chain.Waits key orphan →
      ¬ after.Known (orphan.block.hash backend.prim) ∨ after.Known key ∧ key ∉ queue')
    (arrived : ∀ hash ∈ queue', after.Known hash) : Waiting backend after queue' := by
  have orphans : after.orphans = chain.orphans := congrArg Prod.fst pool
  have prevOrphans : after.prevOrphans = chain.prevOrphans := congrArg (·.2.1) pool
  have oldest : after.oldestOrphan = chain.oldestOrphan := congrArg (·.2.2) pool
  have waits : ∀ key orphan, after.Waits key orphan → chain.Waits key orphan := by
    intro key orphan there
    rw [Waits, prevOrphans] at there
    exact there
  refine ⟨?_, ?_, fun key orphan there => ?_,
    fun key orphan there => unknown key orphan (waits key orphan there), arrived⟩
  · rw [orphans]
    exact waiting.keyed
  · rw [oldest, orphans]
    exact waiting.oldest
  · rw [orphans]
    exact waiting.filed key orphan (waits key orphan there)

/-- The chain learns of a block that is no orphan, and those that wait for it may come
next. -/
theorem learn (learned : Learned backend block chain after)
    (fresh : ¬ chain.Known (block.hash backend.prim))
    (absent : chain.orphans.lookup (block.hash backend.prim) = none) (next : ∀ hash ∈ queue', hash ∈ queue ∨
      hash = block.hash backend.prim ∧ after.Known hash) : Waiting backend after queue' := by
  refine waiting.of_pool learned.pool (fun key orphan waits => ?_) fun hash inside => ?_
  · rcases waiting.unknown key orphan waits with unknown | ⟨known, out⟩
    · refine .inl fun known => ?_
      rcases learned.adds _ known with old | same
      · exact unknown old
      · have found := (waiting.filed key orphan waits).2
        rw [same, absent] at found
        cases found
    · refine .inr ⟨learned.keeps key known, fun inside => ?_⟩
      rcases next key inside with old | ⟨rfl, -⟩
      · exact out old
      · exact fresh known
  · rcases next hash inside with old | ⟨-, known⟩
    · exact learned.keeps hash (waiting.arrived hash old)
    · exact known

theorem release {key : Uint256}
    (learned : Learned backend orphan.block chain after) (waits : chain.Waits key orphan)
    (fresh : ¬ chain.Known (orphan.block.hash backend.prim)) (next : ∀ hash ∈ queue', hash ∈ queue ∨
      hash = orphan.block.hash backend.prim ∧ after.Known hash) :
    Waiting backend (after.removeOrphanBlock backend orphan) queue' := by
  have held := (waiting.filed key orphan waits).2
  have orphans : after.orphans = chain.orphans := congrArg Prod.fst learned.pool
  have prevOrphans : after.prevOrphans = chain.prevOrphans := congrArg (·.2.1) learned.pool
  have oldest : after.oldestOrphan = chain.oldestOrphan := congrArg (·.2.2) learned.pool
  have learned' : Learned backend orphan.block (chain.removeOrphanBlock backend orphan)
      (after.removeOrphanBlock backend orphan) := by
    refine ⟨learned.keeps, learned.adds, ?_⟩
    simp only [Chain.pool, removeOrphanBlock, orphans, prevOrphans, oldest]
  refine (waiting.remove held).learn learned' fresh ?_ next
  exact (lookup_erase_eq ..).trans (if_pos rfl)

/-- An orphan that is rejected goes on waiting, although its parent has come. -/
theorem reject {key : Uint256}
    (learned : Learned backend orphan.block chain after) (waits : chain.Waits key orphan)
    (inside : key ∈ queue) : Waiting backend after [] := by
  obtain ⟨previous, held⟩ := waiting.filed key orphan waits
  refine waiting.of_pool learned.pool (fun other orphan' waits' => ?_) fun _ absent => (by cases absent)
  obtain ⟨previous', held'⟩ := waiting.filed other orphan' waits'
  rcases waiting.unknown other orphan' waits' with unknown | ⟨known, -⟩
  · by_cases same : orphan'.block.hash backend.prim = orphan.block.hash backend.prim
    · rw [same, held] at held'
      cases held'
      rw [← previous', previous]
      exact .inr ⟨learned.keeps key (waiting.arrived key inside), by simp⟩
    · refine .inl fun known => ?_
      rcases learned.adds _ known with old | new
      · exact unknown old
      · exact same new
  · exact .inr ⟨learned.keeps other known, by simp⟩

end

end Waiting
end Elastos.Blockchain.Chain
