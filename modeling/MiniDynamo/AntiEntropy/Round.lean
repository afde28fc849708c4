import MiniDynamo.AntiEntropy.AntiEntropyThread

/-! What a round of anti-entropy comes to for a key: which versions the node and the peer hold
after it. -/

namespace MiniDynamo

/-- The version stored under a key. -/
def versionIn (storage : Storage) (key : Bytes) : Option VersionedValue :=
  storage[key]?.map VersionedValue.deserialize

namespace AntiEntropyThread

open MerkleTree (kDefaultDepth subtreeHash leafOf)

variable {World : Type} (callbacks : AntiEntropyCallbacks World) (peer : NodeInfo)

/-- The callbacks reach the peer's store: the tree is the true one, the keys pulled are those of the
range with their versions, and a key pushed is applied as a replica write. -/
structure Faithful (store : World → Storage) : Prop where
  exchange : ∀ ours world, (callbacks.exchangeFn peer ours world).1 = buildLocalTree (store world) ∧
    store (callbacks.exchangeFn peer ours world).2 = store world
  pulled : ∀ first last world, store (callbacks.pullFn peer first last world).2 = store world ∧
    ((callbacks.pullFn peer first last world).1.map Prod.fst).Nodup ∧
    ∀ key version, (key, version) ∈ (callbacks.pullFn peer first last world).1 ↔
      (first ≤ hash64 key ∧ hash64 key ≤ last) ∧ versionIn (store world) key = some version
  pushed : ∀ key value world,
    store (callbacks.pushFn peer key value world).2 = ReplicaOps.replicate key (store world) value

/-- The node's and the peer's version of a key. -/
abbrev Copies := Option VersionedValue × Option VersionedValue

/-- What becomes of the two versions of a key that was pulled. -/
def settle : Copies → Copies
  | (none, some theirs) => (some theirs, some theirs)
  | (some mine, some theirs) =>
    match theirs.clock.compare mine.clock with
    | .aDominates => (some theirs, some theirs)
    | .bDominates => (some mine, some mine)
    | _ => (some mine, some theirs)
  | (mine, none) => (mine, none)

/-- Settling once is enough. -/
theorem settle_settle (copies : Copies) : settle (settle copies) = settle copies := by
  have equal (version : VersionedValue) : version.clock.compare version.clock = .equal :=
    VectorClock.compare_equal_iff.mpr ⟨le_refl _, le_refl _⟩
  obtain ⟨mine, theirs⟩ := copies
  cases theirs with
  | none => cases mine <;> rfl
  | some theirs =>
    cases mine with
    | none => simp [settle, equal]
    | some mine => cases verdict : theirs.clock.compare mine.clock <;> simp [settle, verdict, equal]

/-- The hashes a store's tree is made of. -/
def hashes (storage : Storage) : List (UInt64 × UInt64) :=
  storage.toList.map (fun entry => (hash64 entry.1, hash64 entry.2))

theorem buildLocalTree_eq_filled (storage : Storage) :
    buildLocalTree storage = MerkleTree.filled kDefaultDepth (hashes storage) := by
  rw [buildLocalTree, MerkleTree.filled, hashes, List.foldl_map]

theorem versionIn_insert {key other : Bytes} {version : VersionedValue} (safe : version.clock.WireSafe)
    (storage : Storage) : versionIn (storage.insert key version.serialize) other =
      if key = other then some version else versionIn storage other := by
  rw [versionIn, versionIn, OrderedMap.lookup_insert]
  split
  · rw [Option.map_some, VersionedValue.deserialize_serialize safe]
  · rfl

theorem wireSafe_of_versionIn {storage : Storage} {key : Bytes} {version : VersionedValue}
    (found : versionIn storage key = some version) : version.clock.WireSafe := by
  obtain ⟨bytes, -, rfl⟩ := Option.map_eq_some_iff.mp found
  exact VersionedValue.deserialize_wireSafe bytes

section Copies

variable {callbacks peer} {store : World → Storage} (faithful : Faithful callbacks peer store)

def copiesOf (store : World → Storage) (key : Bytes) (state : AntiEntropyThread × World) : Copies :=
  (versionIn state.1.storage key, versionIn (store state.2) key)

/-- A step that settles one key and leaves the others. -/
theorem copies_at {id key : Bytes} {state after : AntiEntropyThread × World}
    (here : copiesOf store id after = settle (copiesOf store id state))
    (elsewhere : ∀ other, id ≠ other → copiesOf store other after = copiesOf store other state) :
    copiesOf store key after = if id = key then settle (copiesOf store key state) else copiesOf store key state := by
  split
  · rename_i same
    exact same ▸ here
  · rename_i different
    exact elsewhere key different

include faithful

/-- A version that is not dominated is taken by the peer. -/
theorem versionIn_push {key other : Bytes} {mine theirs : VersionedValue} {world : World} (safe : mine.clock.WireSafe)
    (held : versionIn (store world) key = some theirs) (older : theirs.clock < mine.clock) :
    versionIn (store (callbacks.pushFn peer key mine world).2) other =
      if key = other then some mine else versionIn (store world) other := by
  have accepted : ReplicaOps.localDominates (store world)[key]? mine = false := by
    rw [Bool.eq_false_iff, Ne, ReplicaOps.localDominates_iff]
    rintro ⟨bytes, found, ahead⟩
    rw [versionIn, found, Option.map_some, Option.some.injEq] at held
    exact lt_asymm older (held ▸ ahead)
  rw [faithful.pushed, ReplicaOps.replicate_eq, accepted, if_neg Bool.false_ne_true, versionIn_insert safe]

/-- One pulled key settles this key and leaves all others. -/
theorem copies_mergeKey {state : AntiEntropyThread × World} {remote : Bytes × VersionedValue}
    (held : versionIn (store state.2) remote.1 = some remote.2) (key : Bytes) :
    copiesOf store key (mergeKey callbacks peer state remote) =
      if remote.1 = key then settle (copiesOf store key state) else copiesOf store key state := by
  obtain ⟨id, theirs⟩ := remote
  have safe := wireSafe_of_versionIn held
  unfold mergeKey
  cases found : state.1.storage[id]? with
  | none =>
    have none : versionIn state.1.storage id = none := by rw [versionIn, found, Option.map_none]
    refine copies_at ?_ (fun other different => ?_)
    · simp only [copiesOf, put, versionIn_insert safe, ↓reduceIte, none, held, settle]
    · simp only [copiesOf, put, versionIn_insert safe, different, ↓reduceIte]
  | some stored =>
    have mine : versionIn state.1.storage id = some (VersionedValue.deserialize stored) := by
      rw [versionIn, found, Option.map_some]
    simp only
    cases verdict : theirs.clock.compare (VersionedValue.deserialize stored).clock with
    | aDominates =>
      refine copies_at ?_ (fun other different => ?_)
      · simp only [copiesOf, put, versionIn_insert safe, ↓reduceIte, mine, held, settle, verdict]
      · simp only [copiesOf, put, versionIn_insert safe, different, ↓reduceIte]
    | bDominates =>
      have older := VectorClock.compare_bDominates_iff.mp verdict
      have safe := wireSafe_of_versionIn mine
      have pushed := fun other => @versionIn_push _ _ _ _ faithful id other _ _ _ safe held older
      refine copies_at ?_ (fun other different => ?_)
      · simp only [copiesOf, pushed, ↓reduceIte, mine, held, settle, verdict]
      · simp only [copiesOf, pushed, different, ↓reduceIte]
    | equal | concurrent =>
      refine copies_at ?_ (fun other different => rfl)
      simp only [copiesOf, mine, held, settle, verdict]

/-- The keys of one pull, each of which comes once. -/
theorem copies_mergeKeys (remotes : List (Bytes × VersionedValue)) (distinct : (remotes.map Prod.fst).Nodup)
    {state : AntiEntropyThread × World} (held : ∀ remote ∈ remotes, versionIn (store state.2) remote.1 = some remote.2)
    (key : Bytes) :
    copiesOf store key (remotes.foldl (mergeKey callbacks peer) state) =
      if key ∈ remotes.map Prod.fst then settle (copiesOf store key state) else copiesOf store key state := by
  induction remotes generalizing state with
  | nil => rfl
  | cons remote rest ih =>
    rw [List.map_cons, List.nodup_cons] at distinct
    have here := held remote List.mem_cons_self
    have later : ∀ other ∈ rest, versionIn (store (mergeKey callbacks peer state remote).2) other.1 = some other.2 := by
      intro other member
      have elsewhere : remote.1 ≠ other.1 := fun same => distinct.1 (same ▸ List.mem_map_of_mem member)
      have kept := copies_mergeKey faithful here other.1
      rw [if_neg elsewhere] at kept
      exact (congrArg Prod.snd kept).trans (held other (List.mem_cons_of_mem remote member))
    rw [List.foldl_cons, ih distinct.2 later, copies_mergeKey faithful here, List.map_cons]
    by_cases same : remote.1 = key
    · subst same
      rw [if_neg distinct.1, if_pos rfl, if_pos List.mem_cons_self]
    · rw [if_neg same]
      simp only [List.mem_cons, Ne.symm same, false_or]

/-- One range: its keys are settled. -/
theorem copies_mergeRange (state : AntiEntropyThread × World) (range : DiffRange) (key : Bytes) :
    copiesOf store key (mergeRange callbacks peer state range) =
      if range.rangeStart ≤ hash64 key ∧ hash64 key ≤ range.rangeEnd then settle (copiesOf store key state)
      else copiesOf store key state := by
  obtain ⟨kept, distinct, exact⟩ := faithful.pulled range.rangeStart range.rangeEnd state.2
  unfold mergeRange
  simp only
  rw [copies_mergeKeys faithful _ distinct]
  · have same : copiesOf store key (state.1, (callbacks.pullFn peer range.rangeStart range.rangeEnd state.2).2) =
        copiesOf store key state := by
      rw [copiesOf, kept]
      rfl
    rw [same]
    cases theirs : versionIn (store state.2) key with
    | none =>
      have nothing : settle (copiesOf store key state) = copiesOf store key state := by
        rw [copiesOf, theirs]
        cases versionIn state.1.storage key <;> rfl
      rw [nothing, ite_self, ite_self]
    | some version =>
      have listed : key ∈ (callbacks.pullFn peer range.rangeStart range.rangeEnd state.2).1.map Prod.fst ↔
          range.rangeStart ≤ hash64 key ∧ hash64 key ≤ range.rangeEnd := by
        rw [List.mem_map]
        constructor
        · rintro ⟨⟨id, held⟩, member, rfl⟩
          exact ((exact id held).mp member).1
        · intro inside
          exact ⟨(key, version), (exact key version).mpr ⟨inside, theirs⟩, rfl⟩
      simp only [listed]
  · rintro ⟨id, version⟩ member
    rw [kept]
    exact ((exact id version).mp member).2

/-- All ranges: what lies in one of them is settled, and stays so in the others. -/
theorem copies_mergeRanges (ranges : List DiffRange) (state : AntiEntropyThread × World) (key : Bytes) :
    copiesOf store key (ranges.foldl (mergeRange callbacks peer) state) =
      if ∃ range ∈ ranges, range.rangeStart ≤ hash64 key ∧ hash64 key ≤ range.rangeEnd then
        settle (copiesOf store key state)
      else copiesOf store key state := by
  induction ranges generalizing state with
  | nil => simp
  | cons range rest ih =>
    rw [List.foldl_cons, ih, copies_mergeRange faithful]
    by_cases inside : range.rangeStart ≤ hash64 key ∧ hash64 key ≤ range.rangeEnd
    · rw [if_pos inside, settle_settle, ite_self, if_pos ⟨range, List.mem_cons_self, inside⟩]
    · simp only [List.exists_mem_cons_iff, inside, false_or, ↓reduceIte]

end Copies

/-- No difference is cancelled in a subtree around the leaf of the key. -/
def Uncancelled (key : Bytes) (mine theirs : Storage) : Prop :=
  ∀ k ≤ kDefaultDepth, subtreeHash kDefaultDepth k (leafOf kDefaultDepth (hash64 key)) (hashes mine) ≠
    subtreeHash kDefaultDepth k (leafOf kDefaultDepth (hash64 key)) (hashes theirs)

theorem uncancelled_iff {key : Bytes} {mine theirs : Storage} :
    (∃ range ∈ MerkleTree.diff (buildLocalTree mine) (buildLocalTree theirs),
      range.rangeStart ≤ hash64 key ∧ hash64 key ≤ range.rangeEnd) ↔ Uncancelled key mine theirs := by
  have shallow : kDefaultDepth ≤ 62 := by decide
  have deep : 0 < kDefaultDepth := by decide
  rw [buildLocalTree_eq_filled, buildLocalTree_eq_filled]
  constructor
  · rintro ⟨range, listed, inside⟩
    obtain ⟨leaf, small, rfl, path⟩ := (MerkleTree.mem_diff_filled shallow deep _ _).mp listed
    obtain rfl := (MerkleTree.mem_range_iff shallow deep small (hash64 key)).mp inside
    exact path
  · intro path
    have small := MerkleTree.leafOf_lt (show kDefaultDepth ≤ 64 by decide) deep (hash64 key)
    exact ⟨_, (MerkleTree.mem_diff_filled shallow deep _ _).mpr ⟨_, small, rfl, path⟩,
      (MerkleTree.mem_range_iff shallow deep small (hash64 key)).mpr rfl⟩

/-- The whole round, for one key. -/
theorem copies_syncWith {callbacks : AntiEntropyCallbacks World} {peer : NodeInfo} {store : World → Storage}
    (faithful : Faithful callbacks peer store) (thread : AntiEntropyThread) (world : World) (key : Bytes)
    [Decidable (Uncancelled key thread.storage (store world))] :
    copiesOf store key (thread.syncWith callbacks peer world) =
      if (buildLocalTree thread.storage).rootHash ≠ 0 ∧ Uncancelled key thread.storage (store world) then
        settle (copiesOf store key (thread, world))
      else copiesOf store key (thread, world) := by
  obtain ⟨tree, kept⟩ := faithful.exchange (buildLocalTree thread.storage) world
  unfold syncWith
  simp only
  by_cases root : (buildLocalTree thread.storage).rootHash = 0
  · rw [if_pos root, if_neg (fun both => both.1 root)]
  · have same : copiesOf store key (thread, (callbacks.exchangeFn peer (buildLocalTree thread.storage) world).2) =
        copiesOf store key (thread, world) := by rw [copiesOf, copiesOf, kept]
    rw [if_neg root, if_neg (fun both => root both.2), tree]
    split
    · rename_i none
      have nowhere : ¬ Uncancelled key thread.storage (store world) := by
        rw [← uncancelled_iff, none]
        simp
      rw [if_neg (fun both => nowhere both.2)]
      exact same
    · have merged := copies_mergeRanges faithful
        (MerkleTree.diff (buildLocalTree thread.storage) (buildLocalTree (store world)))
        (thread, (callbacks.exchangeFn peer (buildLocalTree thread.storage) world).2) key
      simp only [uncancelled_iff, same] at merged
      simp only [ne_eq, root, not_false_eq_true, true_and]
      exact merged

theorem copies_tick {callbacks : AntiEntropyCallbacks World} {peer : NodeInfo} {store : World → Storage}
    (faithful : Faithful callbacks peer store) {thread : AntiEntropyThread} {pick : Nat}
    (chosen : thread.peers[pick]? = some peer) (world : World) (key : Bytes)
    [Decidable (Uncancelled key thread.storage (store world))] :
    copiesOf store key (thread.tick callbacks world pick) =
      if (buildLocalTree thread.storage).rootHash ≠ 0 ∧ Uncancelled key thread.storage (store world) then
        settle (copiesOf store key (thread, world))
      else copiesOf store key (thread, world) := by
  rw [tick, chosen]
  exact copies_syncWith faithful thread world key

/-- Both sides hold one version, which is one of the two there were and at least as new as both. -/
def Converged (before after : Copies) : Prop :=
  ∃ version, after = (some version, some version) ∧ (before.1 = some version ∨ before.2 = some version) ∧
    ∀ earlier, before.1 = some earlier ∨ before.2 = some earlier → earlier.clock ≤ version.clock

section Converged

variable {copies : Copies} (held : copies.1 ≠ none ∨ copies.2 ≠ none)

include held

theorem converged_self_iff : Converged copies copies ↔ copies.1 = copies.2 := by
  obtain ⟨mine, theirs⟩ := copies
  constructor
  · rintro ⟨version, after, -⟩
    obtain ⟨rfl, rfl⟩ := Prod.mk.inj after
    rfl
  · intro same
    obtain rfl : mine = theirs := same
    cases mine with
    | none => simp at held
    | some version =>
      refine ⟨version, rfl, .inl rfl, ?_⟩
      rintro earlier (same | same) <;> cases same <;> exact le_refl _

omit held in
theorem converged_pair {mine theirs version : VersionedValue} (known : mine = version ∨ theirs = version)
    (ours : mine.clock ≤ version.clock) (peers : theirs.clock ≤ version.clock) :
    Converged (some mine, some theirs) (some version, some version) := by
  refine ⟨version, rfl, known.imp (congrArg some) (congrArg some), ?_⟩
  rintro earlier (same | same) <;> cases same
  · exact ours
  · exact peers

theorem converged_settle_iff
    (comparable : ∀ mine theirs, copies = (some mine, some theirs) → mine.clock.compare theirs.clock ≠ .concurrent) :
    Converged copies (settle copies) ↔
      copies.1 = copies.2 ∨ ∃ theirs, copies.2 = some theirs ∧
        ∀ mine, copies.1 = some mine → mine.clock.compare theirs.clock ≠ .equal := by
  obtain ⟨mine, theirs⟩ := copies
  cases theirs with
  | none =>
    have same : settle (mine, none) = (mine, none) := by cases mine <;> rfl
    rw [same, converged_self_iff held]
    simp
  | some theirs =>
    cases mine with
    | none =>
      refine iff_of_true ⟨theirs, rfl, .inr rfl, ?_⟩ (.inr ⟨theirs, rfl, by simp⟩)
      rintro earlier (same | same) <;> cases same
      exact le_refl _
    | some mine =>
      rcases VectorClock.compare_cases theirs.clock mine.clock with
        ⟨verdict, order⟩ | ⟨verdict, order⟩ | ⟨verdict, order⟩ | ⟨verdict, order⟩
      · have same : settle (some mine, some theirs) = (some mine, some theirs) := by simp [settle, verdict]
        have equal : mine.clock.compare theirs.clock = .equal := VectorClock.compare_equal_iff.mpr ⟨order.2, order.1⟩
        rw [same, converged_self_iff held]
        simp [equal]
      · have taken : settle (some mine, some theirs) = (some theirs, some theirs) := by simp [settle, verdict]
        rw [taken]
        refine iff_of_true (converged_pair (.inr rfl) order.le (le_refl _)) (.inr ⟨theirs, rfl, ?_⟩)
        rintro _ ⟨⟩ equal
        exact not_le_of_gt order (VectorClock.compare_equal_iff.mp equal).2
      · have pushed : settle (some mine, some theirs) = (some mine, some mine) := by simp [settle, verdict]
        rw [pushed]
        refine iff_of_true (converged_pair (.inl rfl) (le_refl _) order.le) (.inr ⟨theirs, rfl, ?_⟩)
        rintro _ ⟨⟩ equal
        exact not_le_of_gt order (VectorClock.compare_equal_iff.mp equal).1
      · exact absurd (VectorClock.compare_concurrent_iff.mpr ⟨order.2, order.1⟩) (comparable mine theirs rfl)

end Converged

/-- After a round a key that is held and not in conflict is the same on both sides, at its newest
version, exactly if it was already or if the peer holds it, not at an equal clock, the node's tree
is not taken for empty and the leaf of the key is found. -/
theorem round_converges_iff {callbacks : AntiEntropyCallbacks World} {peer : NodeInfo} {store : World → Storage}
    (faithful : Faithful callbacks peer store) {thread : AntiEntropyThread} {pick : Nat}
    (chosen : thread.peers[pick]? = some peer) (world : World) (key : Bytes)
    (held : versionIn thread.storage key ≠ none ∨ versionIn (store world) key ≠ none)
    (comparable : ∀ mine theirs, versionIn thread.storage key = some mine → versionIn (store world) key = some theirs →
      mine.clock.compare theirs.clock ≠ .concurrent) :
    Converged (versionIn thread.storage key, versionIn (store world) key)
        (versionIn (thread.tick callbacks world pick).1.storage key,
          versionIn (store (thread.tick callbacks world pick).2) key) ↔
      versionIn thread.storage key = versionIn (store world) key ∨
        (buildLocalTree thread.storage).rootHash ≠ 0 ∧ Uncancelled key thread.storage (store world) ∧
          ∃ theirs, versionIn (store world) key = some theirs ∧
            ∀ mine, versionIn thread.storage key = some mine → mine.clock.compare theirs.clock ≠ .equal := by
  classical
  have round := copies_tick faithful chosen world key
  have pair : ∀ mine theirs, copiesOf store key (thread, world) = (some mine, some theirs) →
      mine.clock.compare theirs.clock ≠ .concurrent :=
    fun mine theirs same => comparable mine theirs (congrArg Prod.fst same) (congrArg Prod.snd same)
  change Converged (copiesOf store key (thread, world)) (copiesOf store key (thread.tick callbacks world pick)) ↔ _
  rw [round]
  split
  · rename_i found
    rw [converged_settle_iff held pair]
    simp only [found, true_and, ne_eq, not_false_eq_true]
    rfl
  · rename_i missed
    rw [converged_self_iff held]
    constructor
    · exact .inl
    · rintro (same | ⟨root, uncancelled, -⟩)
      · exact same
      · exact absurd ⟨root, uncancelled⟩ missed

/-- Callbacks that reach the one other store there is. -/
def direct : AntiEntropyCallbacks Storage where
  exchangeFn _ _ store := (buildLocalTree store, store)
  pullFn _ first last store :=
    ((store.toList.filter (fun entry => first ≤ hash64 entry.1 ∧ hash64 entry.1 ≤ last)).map
      (fun entry => (entry.1, VersionedValue.deserialize entry.2)), store)
  pushFn _ key value store := (true, ReplicaOps.replicate key store value)

theorem direct_faithful (peer : NodeInfo) : Faithful direct peer (fun store => store) where
  exchange _ _ := ⟨rfl, rfl⟩
  pulled first last store := by
    refine ⟨rfl, ?_, fun key version => ?_⟩
    · rw [direct, List.map_map]
      exact OrderedMap.entries_keys_nodup.sublist (List.filter_sublist.map Prod.fst)
    · simp only [direct, List.mem_map, List.mem_filter, decide_eq_true_eq, versionIn, Option.map_eq_some_iff]
      constructor
      · rintro ⟨⟨other, bytes⟩, ⟨member, inside⟩, same⟩
        obtain ⟨rfl, rfl⟩ := Prod.mk.inj same
        exact ⟨inside, bytes, OrderedMap.mem_entries.mp member, rfl⟩
      · rintro ⟨inside, bytes, found, rfl⟩
        exact ⟨(key, bytes), ⟨OrderedMap.mem_entries.mpr found, inside⟩, rfl⟩
  pushed _ _ _ := rfl

/-- A node of two that holds one key at the given version, if at all. -/
def sample (version : Option VersionedValue) : AntiEntropyThread where
  self := ⟨ascii "a", [], 1⟩
  router := ((Router.empty 1).addPhysicalNode ⟨ascii "a", [], 1⟩).addPhysicalNode ⟨ascii "b", [], 2⟩
  storage := match version with
    | none => ∅
    | some version => (∅ : Storage).insert (ascii "k") version.serialize
  syncs := 0
  keysRepaired := 0

def sampleVersion (counter : UInt64) : VersionedValue := ⟨ascii "v", VectorClock.empty.set (ascii "a") counter 7, false⟩

/-- The peer's newer version of a key is taken. -/
theorem round_converges_newer :
    Converged (some (sampleVersion 1), some (sampleVersion 2))
      (versionIn ((sample (some (sampleVersion 1))).tick direct (sample (some (sampleVersion 2))).storage 0).1.storage
          (ascii "k"),
        versionIn ((sample (some (sampleVersion 1))).tick direct (sample (some (sampleVersion 2))).storage 0).2
          (ascii "k")) := by
  have mine : versionIn (sample (some (sampleVersion 1))).storage (ascii "k") = some (sampleVersion 1) := by
    decide +kernel
  have theirs : versionIn (sample (some (sampleVersion 2))).storage (ascii "k") = some (sampleVersion 2) := by
    decide +kernel
  have root : (buildLocalTree (sample (some (sampleVersion 1))).storage).rootHash ≠ 0 := by
    rw [buildLocalTree_eq_filled, MerkleTree.rootHash_filled (by decide) (by decide)]
    decide +kernel
  have found : Uncancelled (ascii "k") (sample (some (sampleVersion 1))).storage
      (sample (some (sampleVersion 2))).storage := by
    unfold Uncancelled
    decide +kernel
  have order : (sampleVersion 1).clock.compare (sampleVersion 2).clock = .bDominates := by decide +kernel
  have converges := round_converges_iff (direct_faithful ⟨ascii "b", [], 2⟩)
    (show (sample (some (sampleVersion 1))).peers[0]? = some ⟨ascii "b", [], 2⟩ by decide +kernel)
    (sample (some (sampleVersion 2))).storage (ascii "k")
  rw [mine, theirs] at converges
  refine (converges (by simp) ?_).mpr (.inr ⟨root, found, sampleVersion 2, rfl, ?_⟩)
  · rintro _ _ ⟨⟩ ⟨⟩
    simp [order]
  · rintro _ ⟨⟩
    simp [order]

/-- A key that only the node has is in a leaf that differs, and the peer never gets it. -/
theorem local_key_never_pushed :
    (buildLocalTree (sample (some (sampleVersion 1))).storage).leafHash (leafOf kDefaultDepth (hash64 (ascii "k"))) ≠
        (buildLocalTree ∅).leafHash (leafOf kDefaultDepth (hash64 (ascii "k"))) ∧
      ¬ Converged (some (sampleVersion 1), none)
        (versionIn ((sample (some (sampleVersion 1))).tick direct ∅ 0).1.storage (ascii "k"),
          versionIn ((sample (some (sampleVersion 1))).tick direct ∅ 0).2 (ascii "k")) := by
  classical
  have small := MerkleTree.leafOf_lt (show kDefaultDepth ≤ 64 by decide) (by decide) (hash64 (ascii "k"))
  refine ⟨?_, ?_⟩
  · rw [buildLocalTree_eq_filled, buildLocalTree_eq_filled, MerkleTree.leafHash_filled (by decide) (by decide) _ small,
      MerkleTree.leafHash_filled (by decide) (by decide) _ small]
    decide +kernel
  · have chosen : (sample (some (sampleVersion 1))).peers[0]? = some ⟨ascii "b", [], 2⟩ := by decide +kernel
    have before : copiesOf (fun store => store) (ascii "k") (sample (some (sampleVersion 1)), (∅ : Storage)) =
        (some (sampleVersion 1), none) := by decide +kernel
    have round := copies_tick (direct_faithful ⟨ascii "b", [], 2⟩) chosen ∅ (ascii "k")
    rw [before, settle, ite_self, copiesOf] at round
    rw [round, converged_self_iff (.inl (by simp))]
    simp

end AntiEntropyThread

end MiniDynamo
