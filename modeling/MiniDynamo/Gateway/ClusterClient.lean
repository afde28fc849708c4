import MiniDynamo.Gateway.JavaBase64
import MiniDynamo.Gateway.RingRouter

/-! The gateway's side of the protocol: the payloads it sends and how it reads the replies. -/

namespace MiniDynamo.Gateway

open Utf16

structure ValueVersion where
  value : Bytes
  clock : Utf16
  deriving DecidableEq

inductive WriteStatus where
  | ok
  | quorumFailed
  | error
  deriving DecidableEq

structure WriteResult where
  status : WriteStatus
  clock : Option Utf16
  error : Option Utf16
  deriving DecidableEq

namespace WriteResult

def ok (clock : Utf16) : WriteResult := ⟨.ok, some clock, none⟩

def quorumFailed : WriteResult := ⟨.quorumFailed, none, some (text "quorum_not_met")⟩

def failed (reason : Utf16) : WriteResult := ⟨.error, none, some reason⟩

end WriteResult

inductive ReadStatus where
  | ok
  | siblings
  | notFound
  | quorumFailed
  | error
  deriving DecidableEq

structure ReadResult where
  status : ReadStatus
  values : List ValueVersion
  error : Option Utf16
  deriving DecidableEq

namespace ReadResult

def ok (version : ValueVersion) : ReadResult := ⟨.ok, [version], none⟩

def siblings (versions : List ValueVersion) : ReadResult := ⟨.siblings, versions, none⟩

def notFound : ReadResult := ⟨.notFound, [], none⟩

def quorumFailed : ReadResult := ⟨.quorumFailed, [], some (text "quorum_not_met")⟩

def failed (reason : Utf16) : ReadResult := ⟨.error, [], some reason⟩

end ReadResult

namespace ClusterClient

def origin : Utf16 := text "gateway"

def b64 (value : Option Bytes) : Utf16 := JavaBase64.encode (value.getD [])

def nz (string : Option Utf16) : Utf16 := string.getD []

/-- `String.join("|", ...)`. -/
def join (parts : List Utf16) : Utf16 := [bar].intercalate parts

def putPayload (key : Utf16) (value : Option Bytes) (clock : Option Utf16) (n w r : Int) : Utf16 :=
  join [text "PUT", key, b64 value, origin, toText n, toText w, toText r, nz clock]

def deletePayload (key : Utf16) (clock : Option Utf16) (n w : Int) : Utf16 :=
  join [text "DELETE", key, origin, toText n, toText w, nz clock]

def getPayload (key : Utf16) (n r : Int) : Utf16 :=
  join [text "GET", key, origin, toText n, toText r]

def ringPayload : Utf16 := text "RING|" ++ origin

def isQuorumFailure (reason : Utf16) : Bool := reason = text "quorum_not_met" || reason = text "no_nodes_in_ring"

/-- The field, or what stands for a missing one. -/
def fieldOr (fields : List Utf16) (index : Nat) (default : Utf16) : Utf16 := fields.getD index default

def parseWrite (resp : Utf16) : WriteResult :=
  let p := splitBar resp
  if 2 ≤ p.length ∧ p[0]? = some (text "RESPONSE") ∧ p[1]? = some (text "OK") then .ok (fieldOr p 2 [])
  else
    let reason := fieldOr p 2 (text "unknown")
    if isQuorumFailure reason then .quorumFailed else .failed reason

/-- The loop over the siblings: two fields for each; a last one alone is left out. -/
def versions : List Utf16 → Option (List ValueVersion)
  | value :: clock :: rest => do
    let value ← JavaBase64.decode value
    let others ← versions rest
    return ⟨value, clock⟩ :: others
  | _ => some []

/-- Where `none` is an exception: an index past the end, or a value that is not base64. -/
def parseRead (resp : Utf16) : Option ReadResult :=
  let p := splitBar resp
  if p.length < 2 ∨ p[0]? ≠ some (text "RESPONSE") then some (.failed (text "malformed_response"))
  else if p[1]? = some (text "OK") then do
    let value ← JavaBase64.decode (← p[2]?)
    let clock ← p[3]?
    return .ok ⟨value, clock⟩
  else if p[1]? = some (text "SIBLINGS") then (versions (p.drop 3)).map .siblings
  else if p[1]? = some (text "NOTFOUND") then some .notFound
  else
    let reason := fieldOr p 2 (text "unknown")
    some (if isQuorumFailure reason then .quorumFailed else .failed reason)

/-- One row of the ring; a malformed one is skipped. -/
def parseRow (line : Utf16) : Option RingNode :=
  match splitBar (trim line) with
  | [id, host, port] => (parseInt port).map (fun port => ⟨id, host, port⟩)
  | _ => none

/-- Where `none` is the `ClusterUnavailableException`. -/
def parseRing (resp : Utf16) : Option (List RingNode) :=
  let lines := splitLines resp
  match lines with
  | [] => none
  | first :: _ =>
    if trim first ≠ text "RING" then none
    else some ((lines.drop 2).filterMap (fun line => if (trim line).isEmpty then none else parseRow line))

end ClusterClient

end MiniDynamo.Gateway
