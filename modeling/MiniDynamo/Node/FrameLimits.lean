import MiniDynamo.Coordinator.WritePath
import MiniDynamo.Net.Framing
import MiniDynamo.Node.Forwarding

/-! The frames a version travels in, and the limit of their receivers. A node that takes a write
sends the value on with a longer verb, its own id and a clock with one more entry, so a request
just below the limit makes frames above it. -/

namespace MiniDynamo

namespace Wire

theorem length_replicatePayload (origin key : Bytes) (value : VersionedValue) :
    (replicatePayload origin key value).length =
      13 + key.length + (Base64.encode value.data).length + origin.length + value.clock.serialize.length := by
  have verb : (ascii "REPLICATE|").length = 10 := by decide
  have bar : (ascii "|").length = 1 := by decide
  simp only [replicatePayload, List.length_append, verb, bar]
  omega

theorem length_readReply (value : VersionedValue) :
    (readReply (some value)).length = 5 + (Base64.encode value.data).length + value.clock.serialize.length := by
  have verb : (ascii "VAL|").length = 4 := by decide
  have bar : (ascii "|").length = 1 := by decide
  simp only [readReply, List.length_append, verb, bar]
  omega

theorem length_getReply {result : GetResult} {value : VersionedValue} {reply : Bytes} (ok : result.status = .ok)
    (single : result.values = [value]) (replied : Node.getReply result = some reply) :
    reply.length = 13 + (Base64.encode value.data).length + value.clock.serialize.length := by
  have verb : (ascii "RESPONSE|OK|").length = 12 := by decide
  have bar : (ascii "|").length = 1 := by decide
  rw [Node.getReply, ok, single] at replied
  obtain rfl := Option.some.inj replied
  simp only [List.length_append, verb, bar]
  omega

/-- A field is part of the message. -/
theorem length_field_le (fields : List Bytes) (index : Nat) :
    (field fields index).length ≤ (fields.map List.length).sum := by
  induction fields generalizing index with
  | nil => simp [field]
  | cons first rest ih =>
    rw [List.map_cons, List.sum_cons]
    cases index with
    | zero => exact Nat.le_add_right _ _
    | succ index => exact Nat.le_trans (ih index) (Nat.le_add_left _ _)

/-- The fields a put is made of stand side by side in its payload. -/
theorem lengths_putFields_le (payload : Bytes) :
    (field (splitAll payload) 0).length + (field (splitAll payload) 1).length + (field (splitAll payload) 2).length +
      (field (splitAll payload) 7).length ≤ payload.length := by
  have pieces : ((splitAll payload).map List.length).sum ≤ payload.length := Bytes.lengths_splitOn_le pipe payload
  refine Nat.le_trans ?_ pieces
  rcases splitAll payload with _ | ⟨verb, _ | ⟨key, _ | ⟨value, rest⟩⟩⟩
  · simp [field]
  · simp [field]
  · simp [field]
  · have later := length_field_le rest 4
    simp only [field, List.getD_cons_zero, List.getD_cons_succ, List.map_cons, List.sum_cons] at later ⊢
    omega

theorem field_clean (payload : Bytes) (index : Nat) : pipe ∉ field (splitAll payload) index := by
  rw [field, List.getD_eq_getElem?_getD]
  cases found : (splitAll payload)[index]? with
  | none => simp
  | some piece => exact (Bytes.mem_splitOn (List.mem_of_getElem? found)).1

end Wire

namespace Coordinator

/-- The ids of a write's clock are the coordinator's own and some that stood in the token of its context. -/
theorem lengths_bump_le (coordinator : Coordinator) (token : Bytes) (copy : VectorClock) (now : UInt64) :
    ((coordinator.bump (VectorClock.parse token) copy now).counts.keys.map List.length).sum ≤
      coordinator.self.nodeId.length + token.length := by
  have ids : ((coordinator.bump (VectorClock.parse token) copy now).counts.keys.map List.length).sum ≤
      ((coordinator.self.nodeId :: (token.splitOn comma).map (·.takeWhile (· != colon))).map List.length).sum := by
    refine OrderedMap.weight_le (fun node present => ?_) List.length
    obtain ⟨entry, found⟩ := Option.ne_none_iff_exists'.mp present
    rcases bump_ids found with rfl | kept
    · exact List.mem_cons_self
    · obtain ⟨piece, member, -, clean, tail, rfl⟩ := VectorClock.parse_fronts kept
      refine List.mem_cons_of_mem _ (List.mem_map.mpr ⟨_, member, ?_⟩)
      exact Bytes.takeWhile_append_delim clean tail
  have fronts : (((token.splitOn comma).map (·.takeWhile (· != colon))).map List.length).sum ≤
      ((token.splitOn comma).map List.length).sum := by
    rw [List.map_map]
    exact List.sum_le_sum (fun piece _ => (List.takeWhile_sublist _).length_le)
  have pieces := Bytes.lengths_splitOn_le comma token
  rw [List.map_cons, List.sum_cons] at ids
  omega

/-- A write lengthens the token of its context by its own entry and by what the numbers of the
entries it keeps can take. -/
theorem length_bump_le (coordinator : Coordinator) (token : Bytes) (copy : VectorClock) (now : UInt64) :
    (coordinator.bump (VectorClock.parse token) copy now).serialize.length ≤
      token.length + coordinator.self.nodeId.length + 43 * coordinator.maxClockEntries := by
  have written := VectorClock.length_serialize_le (coordinator.bump (VectorClock.parse token) copy now)
  have ids := coordinator.lengths_bump_le token copy now
  have size : (coordinator.bump (VectorClock.parse token) copy now).size ≤ coordinator.maxClockEntries := by
    rw [bump, VectorClock.size_prune]
    exact Nat.min_le_right _ _
  have numbers := Nat.mul_le_mul_left 43 size
  omega

/-- What a write makes its clock of: its own entry, unless the counter wraps around to 0, and the entries of the
other nodes in its context. -/
def candidates (coordinator : Coordinator) (context copy : VectorClock) (now : UInt64) : List (Bytes × Entry) :=
  let counter := coordinator.base context copy + 1
  (if counter = 0 then [] else [(coordinator.self.nodeId, ⟨counter, now⟩)]) ++
    context.counts.toList.filter (fun entry => entry.1 ≠ coordinator.self.nodeId)

/-- The length of the token of its clock: the ids, the counters and the stamps of the candidates that are not
dropped as the oldest, and their delimiters. -/
def tokenLength (coordinator : Coordinator) (context copy : VectorClock) (now : UInt64) : Nat :=
  let ahead := context.set coordinator.self.nodeId (coordinator.base context copy + 1) now
  let kept := (coordinator.candidates context copy now).filter
    (fun entry => entry.1 ∉ ahead.dropped coordinator.maxClockEntries)
  (kept.map VectorClock.entrySize).sum - 1

theorem mem_candidates {coordinator : Coordinator} {context copy : VectorClock} {now : UInt64} {node : Bytes}
    {entry : Entry} : (node, entry) ∈ coordinator.candidates context copy now ↔
      (context.set coordinator.self.nodeId (coordinator.base context copy + 1) now).counts[node]? = some entry := by
  rw [candidates, List.mem_append, List.mem_filter, OrderedMap.mem_entries]
  by_cases own : coordinator.self.nodeId = node
  · subst own
    by_cases wraps : coordinator.base context copy + 1 = 0
    · simp [wraps, VectorClock.set, VectorClock.erase]
    · simp [wraps, VectorClock.lookup_set, eq_comm]
  · rw [VectorClock.lookup_set_other own]
    have apart : node ≠ coordinator.self.nodeId := Ne.symm own
    split <;> simp [apart]

theorem candidates_nodup (coordinator : Coordinator) (context copy : VectorClock) (now : UInt64) :
    (coordinator.candidates context copy now).Nodup := by
  have others : (context.counts.toList.filter (fun entry => entry.1 ≠ coordinator.self.nodeId)).Nodup :=
    (List.Nodup.of_map _ OrderedMap.entries_keys_nodup).filter _
  rw [candidates]
  refine List.nodup_append.mpr ⟨by split <;> simp, others, ?_⟩
  rintro own first other second rfl
  split at first
  · cases first
  · obtain rfl := List.mem_singleton.mp first
    simp at second

theorem length_bump (coordinator : Coordinator) (context copy : VectorClock) (now : UInt64) :
    (coordinator.bump context copy now).serialize.length = coordinator.tokenLength context copy now := by
  have same : (coordinator.bump context copy now).counts.toList.Perm ((coordinator.candidates context copy now).filter
      (fun entry => entry.1 ∉ (context.set coordinator.self.nodeId (coordinator.base context copy + 1) now).dropped
        coordinator.maxClockEntries)) := by
    refine (List.perm_ext_iff_of_nodup (List.Nodup.of_map _ OrderedMap.entries_keys_nodup)
      ((coordinator.candidates_nodup context copy now).filter _)).mpr ?_
    rintro ⟨node, entry⟩
    rw [OrderedMap.mem_entries, bump, VectorClock.lookup_prune, List.mem_filter, mem_candidates]
    split <;> simp_all
  rw [tokenLength, ← (same.map _).sum_nat, VectorClock.length_serialize]

end Coordinator

open Framing Wire

/-- Every receiver takes the frames this version of a key travels in: the `REPLICATE` of its
coordinator, the reply to a `READ` of a replica that holds it, and the reply to a `GET` that
returns it alone. -/
structure Carried (origin key : Bytes) (value : VersionedValue) : Prop where
  replicate : Receivable (replicatePayload origin key value)
  read : ∀ (asker : Bytes) (replies : Replies) (storage : Storage) (reply : Bytes), isValidNodeId asker = true →
    storage[key]? = some value.serialize →
    ((handleReadReplica (splitAll (readPayload asker key)) : NodeProgram Bytes).exec replies storage).1 = some reply →
    Receivable reply
  get : ∀ (result : GetResult) (reply : Bytes), result.status = .ok → result.values = [value] →
    Node.getReply result = some reply → Receivable reply

/-- The `REPLICATE` is the longest of the frames. -/
theorem carried_iff {origin key : Bytes} {value : VersionedValue} (clean : pipe ∉ key) (safe : value.clock.WireSafe) :
    Carried origin key value ↔
      13 + key.length + (Base64.encode value.data).length + origin.length + value.clock.serialize.length ≤
        kMaxFrame := by
  constructor
  · intro carried
    have fits := receivable_iff.mp carried.replicate
    rwa [length_replicatePayload] at fits
  · intro fits
    refine ⟨?_, ?_, ?_⟩
    · rwa [receivable_iff, length_replicatePayload]
    · intro asker replies storage reply valid holds replied
      rw [handleReadReplica_readPayload (not_mem_of_isValidNodeId valid (by decide)) clean] at replied
      have same : readReply (storage[key]?.map VersionedValue.deserialize) = reply := Option.some.inj replied
      rw [holds, Option.map_some, VersionedValue.deserialize_serialize safe] at same
      rw [receivable_iff, ← same, length_readReply]
      omega
    · intro result reply ok single replied
      rw [receivable_iff, length_getReply ok single replied]
      omega

/-- How much longer than the request the `REPLICATE` of its version can be. -/
theorem length_replicate_le {node : Node} {coordinator : Coordinator} (own : coordinator.self = node.info)
    {payload key data : Bytes} {context : VectorClock} {n w : Int}
    (handled : node.handleRequest payload = some (.coordinatePut key data context n w)) (copy : VectorClock)
    (now : UInt64) :
    13 + key.length + (Base64.encode data).length + node.info.nodeId.length +
        (coordinator.bump context copy now).serialize.length ≤
      payload.length + 2 * node.info.nodeId.length + 43 * coordinator.maxClockEntries + 12 := by
  obtain ⟨verb, sameKey, decoded, parsed⟩ := Node.coordinatePut_of_handleRequest handled
  have clock := coordinator.length_bump_le (Wire.field (splitAll payload) 7) copy now
  have value := Base64.length_encode_decode_le (Wire.field (splitAll payload) 2)
  have whole := lengths_putFields_le payload
  have three : (ascii "PUT").length = 3 := by decide
  rw [← parsed, own] at clock
  rw [← decoded] at value
  rw [verb, three, ← sameKey] at whole
  omega

/-- A put that its primary takes: whatever copy it finds, everything it sends is the version it
makes, and that travels in frames their receivers take exactly when its `REPLICATE` is within the
limit, with the token of the clock made of the context, that copy and the time. A request that
leaves room for two ids and a full clock always makes such a version. -/
theorem put_carried_iff (node : Node) (coordinator : Coordinator) (own : coordinator.self = node.info)
    (valid : isValidNodeId node.info.nodeId = true) (payload key data : Bytes) (put : Write)
    (written : put.value = some data)
    (handled : node.handleRequest payload = some (.coordinatePut key data put.context put.n put.w)) :
    put.program coordinator key = coordinator.coordinatePut key data put.context put.n put.w put.now ∧
    put.program coordinator key =
      .get key (fun stored => coordinator.writeQuorum key (put.version coordinator stored) put.n put.w) ∧
    ∀ stored,
      (coordinator.writeQuorum key (put.version coordinator stored) put.n put.w).Only
        (fun target bytes => target = key ∧ bytes = (put.version coordinator stored).serialize)
        (Coordinator.Carries key (put.version coordinator stored)) (fun _ => True) ∧
      (Carried node.info.nodeId key (put.version coordinator stored) ↔
        13 + key.length + (Base64.encode data).length + node.info.nodeId.length +
          (put.version coordinator stored).clock.serialize.length ≤ kMaxFrame) ∧
      (put.version coordinator stored).clock.serialize.length =
        coordinator.tokenLength put.context (Coordinator.clockOf stored) put.now ∧
      (payload.length + 2 * node.info.nodeId.length + 43 * coordinator.maxClockEntries + 12 ≤ kMaxFrame →
        Carried node.info.nodeId key (put.version coordinator stored)) := by
  obtain ⟨-, sameKey, -, parsed⟩ := Node.coordinatePut_of_handleRequest handled
  have clean : pipe ∉ key := sameKey ▸ field_clean payload 1
  have safe : put.context.WireSafe := parsed ▸ VectorClock.parse_wireSafe (field_clean payload 7)
  have here : isValidNodeId coordinator.self.nodeId = true := by rwa [own]
  have made : ∀ stored, (put.version coordinator stored).data = data := by
    intro stored
    rw [Write.version, written, Option.getD_some]
  have fits : ∀ stored, Carried node.info.nodeId key (put.version coordinator stored) ↔
      13 + key.length + (Base64.encode data).length + node.info.nodeId.length +
        (put.version coordinator stored).clock.serialize.length ≤ kMaxFrame := by
    intro stored
    rw [carried_iff clean (Write.version_wireSafe here safe), made]
  refine ⟨by rw [Write.program, written], put.program_eq coordinator key, fun stored => ⟨?_, fits stored, ?_, ?_⟩⟩
  · exact (coordinator.writeQuorum_carries key _ put.n put.w).mono (fun _ _ same => same) (fun _ sent => sent)
      (fun _ _ => trivial)
  · exact coordinator.length_bump put.context (Coordinator.clockOf stored) put.now
  · intro room
    rw [fits stored, Write.version]
    exact Nat.le_trans (length_replicate_le own handled (Coordinator.clockOf stored) put.now) room

open Network

/-- The coordinator of the second node of a pair that knows both. -/
def secondOfPair : Coordinator := ⟨infoB, .after 1 joined, none, true, 20⟩

/-- A small put at the primary of its key. -/
theorem put_carried_iff_small :
    Carried infoB.nodeId (ascii "k") (Write.version ⟨some (ascii "v"), .empty, 3, 2, 7⟩ secondOfPair none) :=
  ((put_carried_iff (member infoB joined) secondOfPair rfl (by decide) putK (ascii "k") (ascii "v")
    ⟨some (ascii "v"), .empty, 3, 2, 7⟩ rfl (by decide +kernel)).2.2 none).2.2.2 (by decide)

/-- A request may stop after its value. -/
theorem handleRequest_bare (data : Bytes) :
    (member infoB joined).handleRequest (ascii "PUT|k|" ++ Base64.encode data) =
      some (.coordinatePut (ascii "k") data .empty 3 2) := by
  have fields : splitAll (ascii "PUT|k|" ++ Base64.encode data) = [ascii "PUT", ascii "k", Base64.encode data] := by
    have shape : ascii "PUT|k|" ++ Base64.encode data =
        ascii "PUT" ++ pipe :: (ascii "k" ++ pipe :: Base64.encode data) := rfl
    have whole : splitAll (Base64.encode data) = [Base64.encode data] :=
      List.splitOn_eq_singleton (Base64.pipe_not_mem_encode data)
    rw [shape, splitAll_cons (by decide), splitAll_cons (by decide), whole]
  have owner : (member infoB joined).router.findOwners (ascii "k") 1 = some [infoB] := by decide +kernel
  have kind : ascii "PUT" ≠ [] := by decide
  simp only [Node.handleRequest, fields, Wire.field, List.getD_cons_zero, if_neg kind, ↓reduceIte]
  simp only [Node.handlePut, Node.atPrimary, Wire.field, List.getD_cons_succ, List.getD_cons_zero, owner]
  rw [if_neg (fun stranger => stranger rfl), Base64.decode_encode]
  rfl

/-- With the peer silent, a put is stored by the primary alone and sent to the peer. -/
theorem put_unanswered (vv : VersionedValue) :
    secondOfPair.writeQuorum (ascii "k") vv 3 2 =
      .put (ascii "k") vv.serialize (.send [.request (.writeReplica infoA (ascii "k") vv)]
        (.await (fun replies => .done (Coordinator.verdict vv 2 1 replies)))) := by
  have owners : secondOfPair.router.findOwners (ascii "k") 3 = some [infoB, infoA] := by decide +kernel
  rw [Coordinator.writeQuorum_eq owners (by simp) (fun _ _ => rfl)]
  rfl

def largeValue : Bytes := List.replicate 12582906 97

def largePut : Write := ⟨some largeValue, .empty, 3, 2, 7⟩

/-- A request within the limit whose value its primary stores, and no other node can receive. -/
theorem large_put_not_carried :
    isValidNodeId infoB.nodeId = true ∧ Receivable (ascii "PUT|k|" ++ Base64.encode largeValue) ∧
      (member infoB joined).handleRequest (ascii "PUT|k|" ++ Base64.encode largeValue) =
        some (.coordinatePut (ascii "k") largeValue .empty 3 2) ∧
      (largePut.program secondOfPair (ascii "k")).sent [] ∅ =
        [.request (.writeReplica infoA (ascii "k") (largePut.version secondOfPair none))] ∧
      ¬ Receivable (replicatePayload infoB.nodeId (ascii "k") (largePut.version secondOfPair none)) ∧
      ¬ Receivable (readReply (some (largePut.version secondOfPair none))) ∧
      ∀ reply, Node.getReply ⟨.ok, [largePut.version secondOfPair none], []⟩ = some reply → ¬ Receivable reply := by
  have size : (Base64.encode largeValue).length = 16777208 := by
    rw [Base64.length_encode, largeValue, List.length_replicate]
  have token : (largePut.version secondOfPair none).clock.serialize.length = 5 := by decide +kernel
  have data : (largePut.version secondOfPair none).data = largeValue := rfl
  have front : (ascii "PUT|k|").length = 6 := by decide
  have key : (ascii "k").length = 1 := by decide
  have origin : infoB.nodeId.length = 1 := by decide
  refine ⟨by decide, ?_, handleRequest_bare largeValue, ?_, ?_, ?_, ?_⟩
  · rw [receivable_iff, List.length_append, size, front]
    decide
  · have absent : (∅ : Storage)[ascii "k"]? = none := Std.ExtTreeMap.getElem?_empty
    rw [Write.program_eq, Process.sent, absent]
    exact congrArg (fun program => program.sent [] ∅) (put_unanswered _)
  · rw [receivable_iff, length_replicatePayload, data, size, token, key, origin]
    decide
  · rw [receivable_iff, length_readReply, data, size, token]
    decide
  · intro reply replied
    rw [receivable_iff, length_getReply rfl rfl replied, data, size, token]
    decide

end MiniDynamo
