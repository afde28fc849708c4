import MiniDynamo.Replication.Protocol

/-! What the two replica clients do with a version on its way: the in-process client hands
it over as it is, the pooled one sends its data and clock. -/

namespace MiniDynamo

namespace ReplicaOps

theorem replicateThen_bind {Input Message First Second : Type} (answer : Bool → First) (after : First → Second)
    (key : Bytes) (incoming : VersionedValue) :
    ((replicateThen answer key incoming >>= fun result => .done (after result)) :
      StorageProgram Input Message Second) = replicateThen (fun written => after (answer written)) key incoming := by
  rw [replicateThen, Process.get_bind, replicateThen]
  congr 1
  funext stored
  split <;> rfl

end ReplicaOps

namespace Wire

theorem handleReplicate_eq {Input Message : Type} (fields : List Bytes) :
    (handleReplicate fields : StorageProgram Input Message Bytes) =
      ReplicaOps.replicateThen (fun _ => ascii "RESPONSE|OK") (field fields 1)
        ⟨Base64.decode (field fields 2), VectorClock.parse (field fields 4), false⟩ := by
  rw [← ReplicaOps.applyReplicate_bind]
  rfl

/-- Whatever the version, a `REPLICATE` payload names its key. -/
theorem field_replicatePayload {origin key : Bytes} (cleanKey : pipe ∉ key) (value : VersionedValue) :
    field (splitAll (replicatePayload origin key value)) 1 = key := by
  have verb : pipe ∉ ascii "REPLICATE" := by decide
  have text : ascii "REPLICATE|" = ascii "REPLICATE" ++ [pipe] := by decide
  have bar : ascii "|" = [pipe] := by decide
  have shape : replicatePayload origin key value = ascii "REPLICATE" ++ pipe :: (key ++ pipe ::
      (Base64.encode value.data ++ pipe :: (origin ++ pipe :: value.clock.serialize))) := by
    simp [replicatePayload, text, bar]
  rw [shape, splitAll_cons verb, splitAll_cons cleanKey]
  rfl

end Wire

/-- How a client acts on the peer, for the ids and keys it can put into a message: what a
replica stores of a version it is sent, and what it reports of a copy. -/
structure Transport (client : ReplicaClient) where
  Clean : Bytes → Prop
  carry : VersionedValue → VersionedValue
  report : Option VersionedValue → ReplicaReadResult
  write_eq : ∀ (origin key : Bytes) (value : VersionedValue), Clean origin → Clean key →
    ∃ incoming, client.writeReplica origin key value = ReplicaOps.replicateThen (fun _ => ⟨true⟩) key incoming ∧
      (value.clock.WireSafe → incoming = carry value)
  read_eq : ∀ origin key : Bytes, Clean origin → Clean key →
    client.readReplica origin key =
      .get key (fun stored => .done (report (stored.map VersionedValue.deserialize)))
  carry_clock : ∀ value, (carry value).clock = value.clock
  carry_carry : ∀ value, carry (carry value) = carry value
  report_none : (report none).found = false
  report_some : ∀ copy, copy.clock.WireSafe → (report (some copy)).found = true →
    (report (some copy)).value = carry copy

namespace Transport

def inProcess : Transport .inProcess where
  Clean _ := True
  carry := id
  report := .ofCopy
  write_eq _ key value _ _ := ⟨value, ReplicaOps.applyReplicate_bind _ key value, fun _ => rfl⟩
  read_eq _ _ _ _ := rfl
  carry_clock _ := rfl
  carry_carry _ := rfl
  report_none := rfl
  report_some _ _ _ := rfl

def pooled : Transport .pooled where
  Clean text := pipe ∉ text
  carry := Wire.arrived
  report copy := Wire.parseReadReply (Wire.readReply copy)
  write_eq origin key value cleanOrigin cleanKey := by
    refine ⟨⟨Base64.decode (Wire.field (Wire.splitAll (Wire.replicatePayload origin key value)) 2),
      VectorClock.parse (Wire.field (Wire.splitAll (Wire.replicatePayload origin key value)) 4), false⟩, ?_, ?_⟩
    · have acknowledged : Wire.parseWriteReply (ascii "RESPONSE|OK") = ⟨true⟩ := by decide
      show (Wire.handleReplicate _ >>= fun reply => .done (Wire.parseWriteReply reply)) = _
      rw [Wire.handleReplicate_eq, ReplicaOps.replicateThen_bind, Wire.field_replicatePayload cleanKey, acknowledged]
    · intro safe
      rw [Wire.splitAll_replicatePayload cleanOrigin cleanKey safe]
      simp [Wire.field, Base64.decode_encode, VectorClock.parse_serialize safe.1, Wire.arrived]
  read_eq origin key cleanOrigin cleanKey := by
    show (Wire.handleReadReplica _ >>= fun reply => .done (Wire.parseReadReply reply)) = _
    rw [Wire.handleReadReplica_readPayload cleanOrigin cleanKey]
    rfl
  carry_clock _ := rfl
  carry_carry _ := rfl
  report_none := by decide
  report_some copy safe found := by
    rw [Wire.parseReadReply_readReply safe] at found ⊢
    split at found
    · cases found
    · rename_i ordinary
      rw [if_neg ordinary]

variable {client : ReplicaClient} {ticket : Ticket Bytes} {key : Bytes}

theorem serve_write (transport : Transport client) (cleanOrigin : transport.Clean ticket.origin)
    (cleanKey : transport.Clean key) (peer : NodeInfo) (value : VersionedValue) : ∃ incoming,
      client.serve ticket (.writeReplica peer key value) =
        ReplicaOps.replicateThen (fun _ => .served ticket (.write ⟨true⟩)) key incoming ∧
      (value.clock.WireSafe → incoming = transport.carry value) := by
  obtain ⟨incoming, same, carried⟩ := transport.write_eq ticket.origin key value cleanOrigin cleanKey
  refine ⟨incoming, ?_, carried⟩
  rw [ReplicaClient.serve, same]
  exact ReplicaOps.replicateThen_bind _ _ key incoming

theorem serve_read (transport : Transport client) (cleanOrigin : transport.Clean ticket.origin)
    (cleanKey : transport.Clean key) (peer : NodeInfo) :
    client.serve ticket (.readReplica peer key) = .get key (fun stored =>
      .done (.served ticket (.read (transport.report (stored.map VersionedValue.deserialize))))) := by
  rw [ReplicaClient.serve, transport.read_eq ticket.origin key cleanOrigin cleanKey]
  rfl

end Transport

end MiniDynamo
