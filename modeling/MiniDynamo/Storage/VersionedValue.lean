import MiniDynamo.Codec.Base64
import MiniDynamo.Clock.Token

namespace MiniDynamo

/-- A value with the clock that versions it; a delete is a version too. -/
structure VersionedValue where
  data : Bytes
  clock : VectorClock
  deleted : Bool
  deriving DecidableEq

namespace VersionedValue

/-- `<base64(data)>|<clock token>`, with `|D` appended for a tombstone. -/
def serialize (value : VersionedValue) : Bytes :=
  Base64.encode value.data ++ pipe :: (value.clock.serialize ++ if value.deleted then ascii "|D" else [])

def deserialize (stored : Bytes) : VersionedValue :=
  match Bytes.cut pipe stored with
  | none => ⟨Base64.decode stored, .empty, false⟩
  | some (data, rest) =>
    match Bytes.cut pipe rest with
    | none => ⟨Base64.decode data, .parse rest, false⟩
    | some (token, flag) => ⟨Base64.decode data, .parse token, flag = ascii "D"⟩

/-- Data, clock with stamps, and tombstone flag survive the stored form. -/
theorem deserialize_serialize {value : VersionedValue} (safe : value.clock.WireSafe) :
    deserialize value.serialize = value := by
  have data : pipe ∉ Base64.encode value.data := Base64.pipe_not_mem_encode value.data
  have token := VectorClock.pipe_not_mem_serialize safe
  obtain ⟨bytes, clock, deleted⟩ := value
  cases deleted with
  | false =>
    simp only [deserialize, serialize, Bytes.cut_append data, Bool.false_eq_true, ↓reduceIte,
      List.append_nil, Bytes.cut_none token, Base64.decode_encode, VectorClock.parse_serialize safe.1]
  | true =>
    have flagged : clock.serialize ++ ascii "|D" = clock.serialize ++ pipe :: ascii "D" := rfl
    simp only [deserialize, serialize, Bytes.cut_append data, ↓reduceIte, flagged,
      Bytes.cut_append token, Base64.decode_encode, VectorClock.parse_serialize safe.1, decide_true]

/-- Whatever the stored bytes, the clock read from them can be stored and sent on. -/
theorem deserialize_wireSafe (stored : Bytes) : (deserialize stored).clock.WireSafe := by
  unfold deserialize
  split
  · exact VectorClock.OverValidIds.wireSafe (by simp [VectorClock.OverValidIds, VectorClock.empty])
  · rename_i rest _
    split
    · rename_i whole
      exact VectorClock.parse_wireSafe (fun inside => by simp [Bytes.cut, inside] at whole)
    · rename_i token flag parts
      exact VectorClock.parse_wireSafe (Bytes.cut_eq_some parts).2

/-- The stored form separates versions: two that can be stored and read back
are the same as soon as their stored forms are. -/
theorem serialize_injective {first second : VersionedValue} (one : first.clock.WireSafe)
    (two : second.clock.WireSafe) (same : first.serialize = second.serialize) : first = second := by
  rw [← deserialize_serialize one, same, deserialize_serialize two]

/-- The stored form loses nothing of a version with a clock over valid ids, whatever its data,
and no two of them have one stored form. -/
theorem storage_lossless {first second : VersionedValue} (one : first.clock.OverValidIds)
    (two : second.clock.OverValidIds) :
    deserialize first.serialize = first ∧ (first ≠ second → first.serialize ≠ second.serialize) := by
  refine ⟨deserialize_serialize one.wireSafe, fun different same => ?_⟩
  exact different (serialize_injective one.wireSafe two.wireSafe same)

/-- Data with a delimiter and a NUL byte, as a live version and as a tombstone. -/
theorem storage_lossless_flagged :
    VersionedValue.serialize ⟨[124, 0, 10], VectorClock.empty.set (ascii "n1") 3 7, false⟩ ≠
      VersionedValue.serialize ⟨[124, 0, 10], VectorClock.empty.set (ascii "n1") 3 7, true⟩ :=
  (storage_lossless (by decide +kernel) (by decide +kernel)).2 (by decide +kernel)

end VersionedValue

end MiniDynamo
