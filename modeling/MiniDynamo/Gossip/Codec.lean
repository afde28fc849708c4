import MiniDynamo.Clock.Token
import MiniDynamo.Gossip.Swim

/-! The text form of membership events, `type:id:host:port:incarnation` and `;` between
them, as it is piggybacked on the messages. -/

namespace MiniDynamo

def semicolon : UInt8 := 59

namespace EventType

def toByte : EventType → UInt8
  | .join => 74
  | .suspect => 83
  | .dead => 68
  | .leave => 76
  | .alive => 65
  | .other byte => byte

/-- The cast of a character to the type: every byte is some type. -/
def ofByte (byte : UInt8) : EventType :=
  if byte = 74 then .join
  else if byte = 83 then .suspect
  else if byte = 68 then .dead
  else if byte = 76 then .leave
  else if byte = 65 then .alive
  else .other byte

/-- One of the five types the program names. -/
def Named : EventType → Prop
  | .other _ => False
  | _ => True

theorem ofByte_toByte {type : EventType} (named : type.Named) : ofByte type.toByte = type := by
  cases type with
  | other byte => exact named.elim
  | _ => decide

end EventType

namespace MemberEvent

def serialize (event : MemberEvent) : Bytes :=
  event.type.toByte :: colon :: (event.nodeId ++ colon :: (event.host ++ colon ::
    (decimal event.port.toNat ++ colon :: decimal event.incarnation.toNat)))

/-- What is missing from a malformed text keeps its default. -/
def deserialize : Bytes → MemberEvent
  | kind :: separator :: rest =>
    if rest = [] ∨ separator ≠ colon then {}
    else
      let type := EventType.ofByte kind
      match Bytes.cut colon rest with
      | none => { type }
      | some (nodeId, rest) =>
        match Bytes.cut colon rest with
        | none => { type, nodeId }
        | some (host, rest) =>
          match Bytes.cut colon rest with
          | none => { type, nodeId, host }
          | some (port, incarnation) =>
            { type, nodeId, host
              port := ((stoi port).map UInt16.ofInt).getD 0
              incarnation := (stoull incarnation).getD 0 }
  | _ => {}

private theorem ofInt_toNat (port : UInt16) : UInt16.ofInt (port.toNat : Int) = port := by
  have small : ((port.toNat : Int) % 65536).toNat = port.toNat := by
    have bound := port.toNat_lt
    omega
  simp [UInt16.ofInt, small]

/-- The fields of the event hold none of the delimiters of its text form. -/
structure Clean (event : MemberEvent) : Prop where
  named : event.type.Named
  nodeId : colon ∉ event.nodeId ∧ semicolon ∉ event.nodeId
  host : colon ∉ event.host ∧ semicolon ∉ event.host

theorem deserialize_serialize {event : MemberEvent} (clean : event.Clean) : deserialize event.serialize = event := by
  obtain ⟨type, nodeId, host, port, incarnation⟩ := event
  have digits : colon ∉ decimal port.toNat := decimal_clean (by decide)
  have read : stoi (decimal port.toNat) = some (port.toNat : Int) :=
    stoi_decimal (port.toNat_lt.trans (by decide))
  have kind := EventType.ofByte_toByte clean.named
  simp only [serialize, deserialize, Bytes.cut_append clean.nodeId.1, Bytes.cut_append clean.host.1,
    Bytes.cut_append digits, read, stoull_decimal] at kind ⊢
  simp [kind, ofInt_toNat]

end MemberEvent

def serializeEvents (events : List MemberEvent) : Bytes :=
  [semicolon].intercalate (events.map MemberEvent.serialize)

def deserializeEvents (text : Bytes) : List MemberEvent :=
  if text = [] then []
  else ((text.splitOn semicolon).filter (fun token => token ≠ [])).map MemberEvent.deserialize

theorem semicolon_not_mem_serialize {event : MemberEvent} (clean : event.Clean) :
    semicolon ∉ event.serialize := by
  obtain ⟨type, nodeId, host, port, incarnation⟩ := event
  have kind : semicolon ≠ type.toByte := by
    cases type with
    | other byte => exact clean.named.elim
    | _ => decide
  have digits (value : Nat) : semicolon ∉ decimal value := decimal_clean (by decide)
  have delimiter : semicolon ≠ colon := by decide
  simp [MemberEvent.serialize, kind, delimiter, clean.nodeId.2, clean.host.2, digits]

/-- The host holds none of the delimiters of a message. -/
def PlainHost (host : Bytes) : Prop := colon ∉ host ∧ semicolon ∉ host ∧ pipe ∉ host

instance (host : Bytes) : Decidable (PlainHost host) := inferInstanceAs (Decidable (_ ∧ _))

theorem plainHost_nil : PlainHost [] := by simp [PlainHost]

/-- The host that is read has only bytes of the text, and no colon. -/
theorem MemberEvent.host_deserialize (text : Bytes) :
    colon ∉ (deserialize text).host ∧ (deserialize text).host ⊆ text := by
  have second : ∀ {kind separator : UInt8} {rest nodeId afterId host afterHost : Bytes},
      Bytes.cut colon rest = some (nodeId, afterId) → Bytes.cut colon afterId = some (host, afterHost) →
      colon ∉ host ∧ host ⊆ kind :: separator :: rest := by
    intro kind separator rest nodeId afterId host afterHost first next
    obtain ⟨rfl, -⟩ := Bytes.cut_eq_some first
    obtain ⟨rfl, clean⟩ := Bytes.cut_eq_some next
    exact ⟨clean, fun byte inside => by simp [inside]⟩
  fun_cases deserialize text with
  | case4 _ _ _ _ _ _ _ first _ _ next => exact second first next
  | case5 _ _ _ _ _ _ _ first _ _ next => exact second first next
  | _ => simp

/-- Whatever is read from a field of a message, its hosts are plain. -/
theorem plainHost_of_deserializeEvents {text : Bytes} (whole : pipe ∉ text) {event : MemberEvent}
    (member : event ∈ deserializeEvents text) : PlainHost event.host := by
  unfold deserializeEvents at member
  split at member
  · cases member
  · obtain ⟨token, kept, rfl⟩ := List.mem_map.mp member
    obtain ⟨clean, part⟩ := Bytes.mem_splitOn (List.mem_of_mem_filter kept)
    obtain ⟨colons, inside⟩ := MemberEvent.host_deserialize token
    exact ⟨colons, fun found => clean (inside found), fun found => whole (part _ (inside found))⟩

/-- Events whose fields are free of delimiters arrive as they were sent. -/
theorem deserializeEvents_serializeEvents {events : List MemberEvent} (clean : ∀ event ∈ events, event.Clean) :
    deserializeEvents (serializeEvents events) = events := by
  by_cases none : events = []
  · simp [none, serializeEvents, deserializeEvents]
  · have tokens : ∀ token ∈ events.map MemberEvent.serialize, semicolon ∉ token := by
      intro token member
      obtain ⟨event, present, rfl⟩ := List.mem_map.mp member
      exact semicolon_not_mem_serialize (clean event present)
    have some : serializeEvents events ≠ [] := by
      obtain ⟨first, rest, rfl⟩ := List.exists_cons_of_ne_nil none
      cases rest <;> simp [serializeEvents, MemberEvent.serialize]
    rw [deserializeEvents, if_neg some, serializeEvents, List.splitOn_intercalate semicolon tokens (by simpa using none),
      List.filter_eq_self.mpr (by simp [MemberEvent.serialize]), List.map_map]
    conv_rhs => rw [← List.map_id events]
    exact List.map_congr_left (fun event member => MemberEvent.deserialize_serialize (clean event member))

/-- So do events of the named types in any number and order, empty fields and the largest numbers
included. -/
theorem events_lossless {events : List MemberEvent}
    (clean : ∀ event ∈ events, event.type.Named ∧ (colon ∉ event.nodeId ∧ semicolon ∉ event.nodeId) ∧
      colon ∉ event.host ∧ semicolon ∉ event.host) :
    deserializeEvents (serializeEvents events) = events := by
  apply deserializeEvents_serializeEvents
  intro event member
  obtain ⟨named, nodeId, host⟩ := clean event member
  exact ⟨named, nodeId, host⟩

theorem events_lossless_extreme :
    deserializeEvents (serializeEvents
      [⟨.leave, ascii "n1", ascii "h", 65535, 18446744073709551615⟩, ⟨.join, [], [], 0, 0⟩]) =
      [⟨.leave, ascii "n1", ascii "h", 65535, 18446744073709551615⟩, ⟨.join, [], [], 0, 0⟩] :=
  events_lossless (by
    intro event member
    rcases List.mem_pair.mp member with rfl | rfl
    · exact ⟨trivial, by decide, by decide⟩
    · exact ⟨trivial, by decide, by decide⟩)

end MiniDynamo
