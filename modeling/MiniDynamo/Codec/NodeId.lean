import MiniDynamo.Library.Bytes

namespace MiniDynamo

/-- Identity and address of one cluster member. -/
structure NodeInfo where
  nodeId : Bytes
  host : Bytes
  port : UInt16
  deriving DecidableEq

/-- The allowlist `[A-Za-z0-9._-]`, one byte of it. -/
def isIdByte (byte : UInt8) : Bool :=
  (97 ≤ byte && byte ≤ 122) || (65 ≤ byte && byte ≤ 90) || (48 ≤ byte && byte ≤ 57) ||
    byte == 46 || byte == 95 || byte == 45

def isValidNodeId (id : Bytes) : Bool :=
  if id.isEmpty || 64 < id.length then false else id.all isIdByte

theorem isValidNodeId_ne_nil {id : Bytes} (valid : isValidNodeId id = true) : id ≠ [] := by
  intro empty
  simp [empty, isValidNodeId] at valid

/-- A byte outside the allowlist occurs in no valid id; every delimiter is one. -/
theorem not_mem_of_isValidNodeId {id : Bytes} {byte : UInt8} (valid : isValidNodeId id = true)
    (outside : isIdByte byte = false) : byte ∉ id := by
  intro member
  unfold isValidNodeId at valid
  split at valid
  · cases valid
  · rw [List.all_eq_true.mp valid byte member] at outside
    cases outside

end MiniDynamo
