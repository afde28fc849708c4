import MiniDynamo.Gossip.Sync

/-! What the digest depends on: the view alone, not whose view it is or how it came about. What
is hashed for an entry tells the entry. -/

namespace MiniDynamo

/-- The bytes that are hashed for an entry. -/
def entryBytes (id : Bytes) (stateClass : StateClass) (incarnation : UInt64) : Bytes :=
  id ++ 1 :: stateClass.toByte :: 1 ::
    (List.range 8).map (fun i => ((incarnation >>> UInt64.ofNat (8 * i)) &&& 0xff).toUInt8)

theorem entryDigest_eq_hash64 (id : Bytes) (stateClass : StateClass) (incarnation : UInt64) :
    entryDigest id stateClass incarnation = hash64 (entryBytes id stateClass incarnation) := rfl

theorem StateClass.toByte_injective {one other : StateClass} (same : one.toByte = other.toByte) : one = other := by
  cases one <;> cases other <;> first | rfl | exact absurd same (by decide)

private theorem toNat_byte (word : UInt64) {i : Nat} (small : i < 8) :
    (((word >>> UInt64.ofNat (8 * i)) &&& 0xff).toUInt8).toNat = word.toNat / 2 ^ (8 * i) % 256 := by
  have shift : (UInt64.ofNat (8 * i)).toNat % 64 = 8 * i := by
    rw [UInt64.toNat_ofNat', Nat.mod_eq_of_lt (by omega), Nat.mod_eq_of_lt (by omega)]
  rw [UInt64.toNat_toUInt8, UInt64.toNat_and, UInt64.toNat_shiftRight, shift, Nat.shiftRight_eq_div_pow]
  exact (Nat.mod_eq_of_lt (Nat.and_lt_two_pow _ (by decide))).trans (Nat.and_two_pow_sub_one_eq_mod _ 8)

/-- Eight bytes hold a word of 64 bits. -/
theorem word_of_bytes {one other : UInt64}
    (same : (List.range 8).map (fun i => ((one >>> UInt64.ofNat (8 * i)) &&& 0xff).toUInt8) =
      (List.range 8).map (fun i => ((other >>> UInt64.ofNat (8 * i)) &&& 0xff).toUInt8)) : one = other := by
  have byte (i : Nat) (small : i < 8) : one.toNat / 2 ^ (8 * i) % 256 = other.toNat / 2 ^ (8 * i) % 256 := by
    rw [← toNat_byte one small, ← toNat_byte other small,
      List.map_inj_left.mp same i (List.mem_range.mpr small)]
  have step (value j : Nat) : 256 * (value / 2 ^ (8 * (j + 1))) + value / 2 ^ (8 * j) % 256 = value / 2 ^ (8 * j) := by
    have power : 2 ^ (8 * (j + 1)) = 2 ^ (8 * j) * 256 := by rw [Nat.mul_succ, Nat.pow_add]
    rw [power, ← Nat.div_div_eq_div_mul, Nat.div_add_mod]
  -- from the highest byte down
  have upper : ∀ count ≤ 8, one.toNat / 2 ^ (8 * (8 - count)) = other.toNat / 2 ^ (8 * (8 - count)) := by
    intro count
    induction count with
    | zero => exact fun _ => (Nat.div_eq_of_lt one.toNat_lt).trans (Nat.div_eq_of_lt other.toNat_lt).symm
    | succ count ih =>
      intro most
      have above := ih (by omega)
      rw [show 8 - count = 8 - (count + 1) + 1 by omega] at above
      rw [← step one.toNat, ← step other.toNat, above, byte _ (by omega)]
  have all := upper 8 (Nat.le_refl 8)
  rw [Nat.sub_self, Nat.mul_zero, Nat.pow_zero, Nat.div_one, Nat.div_one] at all
  exact UInt64.toNat_inj.mp all

/-- The separator stands in no valid id, so that the id ends at the first one. -/
theorem entryBytes_injective {one other : Bytes} (valid : isValidNodeId one = true)
    (validOther : isValidNodeId other = true) {oneClass otherClass : StateClass} {mine theirs : UInt64}
    (same : entryBytes one oneClass mine = entryBytes other otherClass theirs) :
    one = other ∧ oneClass = otherClass ∧ mine = theirs := by
  have cut := congrArg (Bytes.cut 1) same
  rw [entryBytes, entryBytes, Bytes.cut_append (not_mem_of_isValidNodeId valid (by decide)),
    Bytes.cut_append (not_mem_of_isValidNodeId validOther (by decide))] at cut
  obtain ⟨ids, rest⟩ := Prod.mk.inj (Option.some.inj cut)
  obtain ⟨classes, rest⟩ := List.cons.inj rest
  exact ⟨ids, StateClass.toByte_injective classes, word_of_bytes (List.cons.inj rest).2⟩

namespace Swim

/-- Both views hold the same nodes, themselves among them, each in one class and, if that is
alive, at one incarnation. -/
structure Coincide (one other : Swim) : Prop where
  classes : ∀ id, (one.standing id).map Prod.fst = (other.standing id).map Prod.fst
  incarnations : ∀ id mine theirs, one.standing id = some (.alive, mine) → other.standing id = some (.alive, theirs) →
    mine = theirs

theorem Coincide.of_standings {one other : Swim} (same : ∀ id, one.standing id = other.standing id) :
    Coincide one other where
  classes id := by rw [same id]
  incarnations id mine theirs found found' := by
    rw [same id, found'] at found
    exact (Prod.mk.inj (Option.some.inj found)).2.symm

theorem Coincide.counts {one other : Swim} (same : Coincide one other) (id : Bytes) :
    (one.standing id).map Standing.count = (other.standing id).map Standing.count := by
  have classes := same.classes id
  cases mine : one.standing id with
  | none =>
    rw [mine] at classes
    rw [Option.map_eq_none_iff.mp classes.symm]
  | some held =>
    cases theirs : other.standing id with
    | none => simp [mine, theirs] at classes
    | some report =>
      obtain ⟨heldClass, incarnation⟩ := held
      obtain ⟨reportClass, reported⟩ := report
      obtain rfl : heldClass = reportClass := by simpa [mine, theirs] using classes
      refine Standing.count_of_agree ⟨_, _, rfl, rfl, rfl, fun alive => ?_⟩
      obtain rfl : heldClass = .alive := alive
      exact same.incarnations id incarnation reported mine theirs

/-- Nodes whose views say the same have the same digest. No node is among its own members, so
it counts once, and an entry is told by its bytes. -/
theorem digest_of_view {one other : Swim} (same : Coincide one other) :
    one.digest = other.digest ∧ one.members[one.self.nodeId]? = none ∧
      (∀ id stateClass incarnation,
        entryDigest id stateClass incarnation = hash64 (entryBytes id stateClass incarnation)) ∧
      ∀ (id id' : Bytes) (stateClass stateClass' : StateClass) (incarnation incarnation' : UInt64),
        isValidNodeId id = true → isValidNodeId id' = true →
        entryBytes id stateClass incarnation = entryBytes id' stateClass' incarnation' →
        id = id' ∧ stateClass = stateClass' ∧ incarnation = incarnation' :=
  ⟨digest_eq_of_counts same.counts, one.others, entryDigest_eq_hash64,
    fun _ _ _ _ _ _ valid valid' bytes => entryBytes_injective valid valid' bytes⟩

/-- A node that has heard of another. -/
def acquainted (self peer : Bytes) : Swim := ((start ⟨self, [], 0⟩).applyEvent { nodeId := peer } 0).swim

/-- Two nodes know each other, and one suspects the other. -/
theorem digest_of_view_suspected :
    Coincide ((acquainted (ascii "a") (ascii "b")).suspect (ascii "b") 0).swim (acquainted (ascii "b") (ascii "a")) ∧
      ((acquainted (ascii "a") (ascii "b")).suspect (ascii "b") 0).swim.digest =
        (acquainted (ascii "b") (ascii "a")).digest := by
  have first : ((acquainted (ascii "a") (ascii "b")).suspect (ascii "b") 0).swim.members =
      (∅ : OrderedMap Bytes MemberEntry).insert (ascii "b") ⟨⟨ascii "b", [], 0⟩, .suspect, 0, 0⟩ := by decide +kernel
  have second : (acquainted (ascii "b") (ascii "a")).members =
      (∅ : OrderedMap Bytes MemberEntry).insert (ascii "a") ⟨⟨ascii "a", [], 0⟩, .alive, 0, 0⟩ := by decide +kernel
  have selves : ((acquainted (ascii "a") (ascii "b")).suspect (ascii "b") 0).swim.self.nodeId = ascii "a" ∧
      ((acquainted (ascii "a") (ascii "b")).suspect (ascii "b") 0).swim.own = (.alive, 0) ∧
      (acquainted (ascii "b") (ascii "a")).self.nodeId = ascii "b" ∧
      (acquainted (ascii "b") (ascii "a")).own = (.alive, 0) := by decide +kernel
  have apart : ascii "a" ≠ ascii "b" := by decide
  have same : Coincide ((acquainted (ascii "a") (ascii "b")).suspect (ascii "b") 0).swim
      (acquainted (ascii "b") (ascii "a")) := by
    apply Coincide.of_standings
    intro id
    rw [standing, standing, first, second, selves.1, selves.2.1, selves.2.2.1, selves.2.2.2,
      OrderedMap.lookup_insert, OrderedMap.lookup_insert]
    by_cases a : id = ascii "a"
    · simp [a, apart, Record.standing, MemberState.stateClass]
    · by_cases b : id = ascii "b"
      · simp [b, apart.symm, Record.standing, MemberState.stateClass]
      · simp [a, b, Ne.symm a, Ne.symm b]
  exact ⟨same, (digest_of_view same).1⟩

end Swim

end MiniDynamo
