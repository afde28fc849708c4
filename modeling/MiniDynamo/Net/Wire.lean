import MiniDynamo.Storage.ReplicaOps

/-! The `REPLICATE` and `READ` messages: the payloads a coordinator's client builds,
the handlers a node runs on them, and how the client reads the replies. -/

namespace MiniDynamo

/-- What a coordinator learns from a replica it wrote to. -/
structure ReplicaWriteResult where
  ok : Bool
deriving DecidableEq

/-- What a coordinator learns from a replica it read from. -/
structure ReplicaReadResult where
  ok : Bool
  found : Bool
  value : VersionedValue
deriving DecidableEq

namespace ReplicaReadResult

/-- The replica did not answer, or not in the expected shape. -/
def noReply : ReplicaReadResult := ⟨false, false, ⟨[], .empty, false⟩⟩

/-- The replica answered with the copy it holds. -/
def ofCopy : Option VersionedValue → ReplicaReadResult
  | some value => ⟨true, true, value⟩
  | none => { noReply with ok := true }

end ReplicaReadResult

namespace Wire

/-- Split on `|`, keeping empty fields. -/
def splitAll (text : Bytes) : List Bytes := text.splitOn pipe

def field (fields : List Bytes) (index : Nat) : Bytes := fields.getD index []

/-- The payload of `PooledReplicaClient::writeReplica`. -/
def replicatePayload (origin key : Bytes) (value : VersionedValue) : Bytes :=
  ascii "REPLICATE|" ++ key ++ ascii "|" ++ Base64.encode value.data ++ ascii "|" ++ origin ++ ascii "|" ++
    value.clock.serialize

/-- The payload of `PooledReplicaClient::readReplica`. -/
def readPayload (origin key : Bytes) : Bytes := ascii "READ|" ++ key ++ ascii "|" ++ origin

section Handlers

variable {Input Message : Type}

def handleReplicate (fields : List Bytes) : StorageProgram Input Message Bytes := do
  let key := field fields 1
  let incoming : VersionedValue := ⟨Base64.decode (field fields 2), VectorClock.parse (field fields 4), false⟩
  let _ ← ReplicaOps.applyReplicate key incoming
  -- acknowledged whether the version was stored or a newer copy was kept
  return ascii "RESPONSE|OK"

/-- The reply of `handleReadReplica` for the copy it found. -/
def readReply : Option VersionedValue → Bytes
  | none => ascii "VAL|NOTFOUND"
  | some value => ascii "VAL|" ++ Base64.encode value.data ++ ascii "|" ++ value.clock.serialize

def handleReadReplica (fields : List Bytes) : StorageProgram Input Message Bytes := do
  let copy ← ReplicaOps.readLocal (field fields 1)
  return readReply copy

end Handlers

/-- How `writeReplica` reads the reply; an empty one stands for no reply. -/
def parseWriteReply (reply : Bytes) : ReplicaWriteResult := ⟨(ascii "RESPONSE|OK").isPrefixOf reply⟩

/-- How `readReplica` reads the reply; an empty one stands for no reply. -/
def parseReadReply (reply : Bytes) : ReplicaReadResult :=
  if reply = [] then .noReply
  else
    let fields := splitAll reply
    if field fields 0 ≠ ascii "VAL" then .noReply
    else if 2 ≤ fields.length ∧ field fields 1 = ascii "NOTFOUND" then { ReplicaReadResult.noReply with ok := true }
    else ⟨true, true, Base64.decode (field fields 1), VectorClock.parse (field fields 2), false⟩

theorem splitAll_cons {first : Bytes} (clean : pipe ∉ first) (rest : Bytes) :
    splitAll (first ++ pipe :: rest) = first :: splitAll rest := by
  refine List.splitOnP_append_cons_of_forall_mem (fun byte member => ?_) pipe (by simp) rest
  exact beq_eq_false_iff_ne.mpr (fun same => clean (same ▸ member))

theorem replicatePayload_eq (origin key : Bytes) (value : VersionedValue) :
    replicatePayload origin key value =
      [pipe].intercalate [ascii "REPLICATE", key, Base64.encode value.data, origin, value.clock.serialize] := by
  have verb : ascii "REPLICATE|" = ascii "REPLICATE" ++ [pipe] := by decide
  have bar : ascii "|" = [pipe] := by decide
  simp [replicatePayload, verb, bar, List.intercalate]

theorem readPayload_eq (origin key : Bytes) :
    readPayload origin key = [pipe].intercalate [ascii "READ", key, origin] := by
  have verb : ascii "READ|" = ascii "READ" ++ [pipe] := by decide
  have bar : ascii "|" = [pipe] := by decide
  simp [readPayload, verb, bar, List.intercalate]

/-- The fields a node finds in a `REPLICATE` payload are the ones the client joined. -/
theorem splitAll_replicatePayload {origin key : Bytes} {value : VersionedValue} (cleanOrigin : pipe ∉ origin)
    (cleanKey : pipe ∉ key) (safe : value.clock.WireSafe) :
    splitAll (replicatePayload origin key value) =
      [ascii "REPLICATE", key, Base64.encode value.data, origin, value.clock.serialize] := by
  rw [splitAll, replicatePayload_eq, List.splitOn_intercalate]
  · have verb : pipe ∉ ascii "REPLICATE" := by decide
    have data : pipe ∉ Base64.encode value.data := Base64.pipe_not_mem_encode value.data
    simp [verb, cleanKey, data, cleanOrigin, VectorClock.pipe_not_mem_serialize safe]
  · simp

theorem splitAll_readPayload {origin key : Bytes} (cleanOrigin : pipe ∉ origin) (cleanKey : pipe ∉ key) :
    splitAll (readPayload origin key) = [ascii "READ", key, origin] := by
  rw [splitAll, readPayload_eq, List.splitOn_intercalate]
  · have verb : pipe ∉ ascii "READ" := by decide
    simp [verb, cleanKey, cleanOrigin]
  · simp

/-- What arrives of a version: its data and clock. The payload has no field for
the tombstone flag. -/
def arrived (value : VersionedValue) : VersionedValue := { value with deleted := false }

section Handlers

variable {Input Message : Type}

theorem handleReplicate_replicatePayload {origin key : Bytes} {value : VersionedValue}
    (cleanOrigin : pipe ∉ origin) (cleanKey : pipe ∉ key) (safe : value.clock.WireSafe) :
    (handleReplicate (splitAll (replicatePayload origin key value)) : StorageProgram Input Message Bytes) =
      ReplicaOps.replicateThen (fun _ => ascii "RESPONSE|OK") key (arrived value) := by
  rw [splitAll_replicatePayload cleanOrigin cleanKey safe, ← ReplicaOps.applyReplicate_bind]
  simp [handleReplicate, field, Base64.decode_encode, VectorClock.parse_serialize safe.1, arrived]

theorem handleReadReplica_readPayload {origin key : Bytes} (cleanOrigin : pipe ∉ origin) (cleanKey : pipe ∉ key) :
    (handleReadReplica (splitAll (readPayload origin key)) : StorageProgram Input Message Bytes) =
      .get key (fun stored => .done (readReply (stored.map VersionedValue.deserialize))) := by
  rw [splitAll_readPayload cleanOrigin cleanKey]
  rfl

end Handlers

/-- The storage a node is left with after it handled a `REPLICATE` payload alone. -/
def storageAfter (storage : Storage) (payload : Bytes) : Storage :=
  ((handleReplicate (splitAll payload) : StorageProgram Unit Empty Bytes).exec () storage).2

theorem storageAfter_replicatePayload {origin key : Bytes} {value : VersionedValue} (cleanOrigin : pipe ∉ origin)
    (cleanKey : pipe ∉ key) (safe : value.clock.WireSafe) (storage : Storage) :
    storageAfter storage (replicatePayload origin key value) = ReplicaOps.replicate key storage (arrived value) := by
  rw [storageAfter, handleReplicate_replicatePayload cleanOrigin cleanKey safe, ReplicaOps.replicate_eq,
    ReplicaOps.replicateThen, Process.exec]
  split <;> rfl

/-- Sending a version as a `REPLICATE` payload has the effect of `applyReplicate` on the
version itself exactly when it is no tombstone, or when the replica keeps a newer copy. -/
theorem replicate_over_wire_iff (origin key : Bytes) (value : VersionedValue) (storage : Storage)
    (cleanKey : pipe ∉ key) (validOrigin : isValidNodeId origin = true) (valid : value.clock.OverValidIds) :
    storageAfter storage (replicatePayload origin key value) = ReplicaOps.replicate key storage value ↔
      value.deleted = false ∨ ReplicaOps.localDominates storage[key]? value = true := by
  have safe := valid.wireSafe
  have cleanOrigin : pipe ∉ origin := not_mem_of_isValidNodeId validOrigin (by decide)
  have sameTest : ReplicaOps.localDominates storage[key]? (arrived value) =
      ReplicaOps.localDominates storage[key]? value := rfl
  rw [storageAfter_replicatePayload cleanOrigin cleanKey safe, ReplicaOps.replicate_eq, ReplicaOps.replicate_eq,
    sameTest]
  by_cases dominated : ReplicaOps.localDominates storage[key]? value = true
  · simp [dominated]
  · simp only [dominated, Bool.false_eq_true, ↓reduceIte, or_false]
    constructor
    · intro same
      have copies := congrArg (fun storage : Storage => storage[key]?) same
      simp only [Std.ExtTreeMap.getElem?_insert_self, Option.some.injEq] at copies
      have versions : arrived value = value := VersionedValue.serialize_injective safe safe copies
      rw [← versions]
      rfl
    · intro live
      obtain ⟨data, clock, deleted⟩ := value
      cases live
      rfl

theorem replicate_over_wire_live :
    storageAfter ∅ (replicatePayload (ascii "n1") (ascii "k") ⟨ascii "v", .set .empty (ascii "n1") 1 0, false⟩) =
      ReplicaOps.replicate (ascii "k") ∅ ⟨ascii "v", .set .empty (ascii "n1") 1 0, false⟩ :=
  (replicate_over_wire_iff (ascii "n1") (ascii "k") ⟨ascii "v", .set .empty (ascii "n1") 1 0, false⟩ ∅
    (by decide) (by decide) (by decide)).mpr (.inl rfl)

/-- A tombstone sent to a replica that holds nothing is stored as an empty live value. -/
theorem replicate_over_wire_drops_tombstone :
    ¬ ∀ (origin key : Bytes) (value : VersionedValue) (storage : Storage), pipe ∉ key →
        isValidNodeId origin = true → value.clock.OverValidIds →
        storageAfter storage (replicatePayload origin key value) = ReplicaOps.replicate key storage value := by
  intro agrees
  have agreed := agrees (ascii "n1") (ascii "k") ⟨[], .set .empty (ascii "n1") 1 0, true⟩ ∅
    (by decide) (by decide) (by decide)
  have copies := congrArg (fun storage : Storage => storage[ascii "k"]?) agreed
  revert copies
  decide

theorem encode_eq_notFound_iff (raw : Bytes) :
    Base64.encode raw = ascii "NOTFOUND" ↔ raw = Base64.decode (ascii "NOTFOUND") := by
  constructor
  · intro same
    rw [← same, Base64.decode_encode]
  · rintro rfl
    decide

/-- What a coordinator gets from a `READ` of a copy: the copy as it was stored, except that
the tombstone flag is gone, and that six bytes of data read as `NOTFOUND`. -/
theorem parseReadReply_readReply {value : VersionedValue} (safe : value.clock.WireSafe) :
    parseReadReply (readReply (some value)) =
      if value.data = Base64.decode (ascii "NOTFOUND") then { ReplicaReadResult.noReply with ok := true }
      else ⟨true, true, arrived value⟩ := by
  have fields : splitAll (readReply (some value)) =
      [ascii "VAL", Base64.encode value.data, value.clock.serialize] := by
    have joined : readReply (some value) =
        [pipe].intercalate [ascii "VAL", Base64.encode value.data, value.clock.serialize] := by
      have verb : ascii "VAL|" = ascii "VAL" ++ [pipe] := by decide
      have bar : ascii "|" = [pipe] := by decide
      simp [readReply, verb, bar, List.intercalate]
    rw [splitAll, joined, List.splitOn_intercalate]
    · have verb : pipe ∉ ascii "VAL" := by decide
      have data : pipe ∉ Base64.encode value.data := Base64.pipe_not_mem_encode value.data
      simp [verb, data, VectorClock.pipe_not_mem_serialize safe]
    · simp
  have nonempty : readReply (some value) ≠ [] := by
    have verb : ascii "VAL|" ≠ [] := by decide
    simp [readReply, verb]
  simp [parseReadReply, nonempty, fields, field, encode_eq_notFound_iff, Base64.decode_encode,
    VectorClock.parse_serialize safe.1, arrived]

theorem parseReadReply_notFound :
    parseReadReply (readReply none) = { ReplicaReadResult.noReply with ok := true } := by
  decide

/-- Whoever asks, a `READ` payload names its key. -/
theorem field_readPayload {origin key : Bytes} (cleanKey : pipe ∉ key) :
    field (splitAll (readPayload origin key)) 1 = key := by
  have verb : pipe ∉ ascii "READ" := by decide
  have text : ascii "READ|" = ascii "READ" ++ [pipe] := by decide
  have bar : ascii "|" = [pipe] := by decide
  have shape : readPayload origin key = ascii "READ" ++ pipe :: (key ++ pipe :: origin) := by
    simp [readPayload, text, bar]
  rw [shape, splitAll_cons verb, splitAll_cons cleanKey]
  rfl

/-- The result says that the replica answered, and what it holds. -/
def Tells (copy : Option VersionedValue) (result : ReplicaReadResult) : Prop :=
  result.ok = true ∧
    match copy with
    | none => result.found = false
    | some value => result.found = true ∧ result.value.data = value.data ∧ result.value.clock = value.clock

theorem tells_readReply_iff {copy : Option VersionedValue}
    (safe : ∀ value, copy = some value → value.clock.WireSafe) :
    Tells copy (parseReadReply (readReply copy)) ↔
      ∀ value, copy = some value → value.data ≠ [0x34, 0xE4, 0xC5, 0x39, 0x43, 0x43] := by
  have marker : Base64.decode (ascii "NOTFOUND") = [0x34, 0xE4, 0xC5, 0x39, 0x43, 0x43] := by decide
  cases copy with
  | none => simp [Tells, parseReadReply_notFound, ReplicaReadResult.noReply]
  | some value =>
    rw [parseReadReply_readReply (safe value rfl), marker]
    by_cases mistaken : value.data = [0x34, 0xE4, 0xC5, 0x39, 0x43, 0x43]
    · simp [Tells, mistaken, ReplicaReadResult.noReply]
    · simp [Tells, mistaken, arrived]

/-- A `READ` tells the copy of a key unless its data reads as the word for its absence. -/
theorem read_reply_tells_iff (origin key : Bytes) (storage : Storage) (copy : Option VersionedValue)
    (cleanKey : pipe ∉ key) (held : storage[key]? = copy.map VersionedValue.serialize)
    (valid : ∀ value, copy = some value → value.clock.OverValidIds) :
    ∃ reply, (handleReadReplica (splitAll (readPayload origin key)) : StorageProgram Unit Empty Bytes).exec () storage =
        (some reply, storage) ∧
      (Tells copy (parseReadReply reply) ↔
        ∀ value, copy = some value → value.data ≠ [0x34, 0xE4, 0xC5, 0x39, 0x43, 0x43]) := by
  have safe : ∀ value, copy = some value → value.clock.WireSafe := fun value some => (valid value some).wireSafe
  have stored : storage[key]?.map VersionedValue.deserialize = copy := by
    rw [held]
    cases copy with
    | none => rfl
    | some value => exact congrArg some (VersionedValue.deserialize_serialize (safe value rfl))
  refine ⟨readReply copy, ?_, tells_readReply_iff safe⟩
  have program : (handleReadReplica (splitAll (readPayload origin key)) : StorageProgram Unit Empty Bytes) =
      .get key (fun stored => .done (readReply (stored.map VersionedValue.deserialize))) := by
    have named := @field_readPayload origin key cleanKey
    simp only [handleReadReplica, named]
    rfl
  rw [program, Process.exec, stored]
  rfl

/-- A version of one write at `n1`. -/
private def versionOf (data : Bytes) : VersionedValue := ⟨data, .set .empty (ascii "n1") 1 0, false⟩

theorem read_reply_tells_ordinary :
    ∃ reply, (handleReadReplica (splitAll (readPayload (ascii "n1") (ascii "k"))) :
        StorageProgram Unit Empty Bytes).exec () (Std.ExtTreeMap.insert ∅ (ascii "k") (versionOf (ascii "v")).serialize) =
          (some reply, Std.ExtTreeMap.insert ∅ (ascii "k") (versionOf (ascii "v")).serialize) ∧
      Tells (some (versionOf (ascii "v"))) (parseReadReply reply) := by
  obtain ⟨reply, ran, told⟩ := read_reply_tells_iff (ascii "n1") (ascii "k")
    (Std.ExtTreeMap.insert ∅ (ascii "k") (versionOf (ascii "v")).serialize) (some (versionOf (ascii "v")))
    (by decide) (by simp) (by rintro value ⟨⟩; decide)
  exact ⟨reply, ran, told.mpr (by rintro value ⟨⟩; decide)⟩

/-- Six bytes of data whose base64 form is the word for an absent key. -/
theorem read_reply_denies_copy :
    ¬ ∀ (origin key : Bytes) (storage : Storage) (copy : Option VersionedValue) (reply : Bytes), pipe ∉ key →
        storage[key]? = copy.map VersionedValue.serialize →
        (∀ value, copy = some value → value.clock.OverValidIds ∧ value.deleted = false) →
        (handleReadReplica (splitAll (readPayload origin key)) : StorageProgram Unit Empty Bytes).exec () storage =
          (some reply, storage) → Tells copy (parseReadReply reply) := by
  intro always
  have told := always (ascii "n1") (ascii "k")
    (Std.ExtTreeMap.insert ∅ (ascii "k") (versionOf [0x34, 0xE4, 0xC5, 0x39, 0x43, 0x43]).serialize)
    (some (versionOf [0x34, 0xE4, 0xC5, 0x39, 0x43, 0x43])) (ascii "VAL|NOTFOUND|n1:1:0")
    (by decide) (by simp) (by rintro value ⟨⟩; decide) (by decide +kernel)
  have found := told.2.1
  revert found
  decide

end Wire

end MiniDynamo
