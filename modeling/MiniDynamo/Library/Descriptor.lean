import MiniDynamo.Library.Bytes

/-! A file descriptor of a stream socket. The system decides call by call whether it is
interrupted, fails, or moves some of the bytes it was asked to. -/

namespace MiniDynamo

/-- How the system treats one call. -/
inductive Descriptor.Call where
  | interrupted
  | failed
  | moves (most : Nat)
  deriving DecidableEq

/-- What a call returns: an error, or the bytes it moved. -/
inductive Descriptor.Transfer where
  | interrupted
  | failed
  | moved (bytes : Bytes)

/-- The bytes that arrive before the peer closes its end, the bytes written so far, and how the
next calls go. After those every call moves all it can. -/
structure Descriptor where
  incoming : Bytes
  outgoing : Bytes
  reads : List Descriptor.Call
  writes : List Descriptor.Call

namespace Descriptor

/-- `read(2)`. It waits for a byte, and moves none only at the end of the stream. -/
def read (fd : Descriptor) (len : Nat) : Transfer × Descriptor :=
  match fd.reads with
  | [] => (.moved (fd.incoming.take len), { fd with incoming := fd.incoming.drop len })
  | .interrupted :: rest => (.interrupted, { fd with reads := rest })
  | .failed :: rest => (.failed, { fd with reads := rest })
  | .moves most :: rest =>
    (.moved (fd.incoming.take (min len (max 1 most))),
      { fd with incoming := fd.incoming.drop (min len (max 1 most)), reads := rest })

/-- `write(2)`, with the bytes it moved. -/
def write (fd : Descriptor) (data : Bytes) : Transfer × Descriptor :=
  match fd.writes with
  | [] => (.moved data, { fd with outgoing := fd.outgoing ++ data })
  | .interrupted :: rest => (.interrupted, { fd with writes := rest })
  | .failed :: rest => (.failed, { fd with writes := rest })
  | .moves most :: rest =>
    (.moved (data.take most), { fd with outgoing := fd.outgoing ++ data.take most, writes := rest })

/-- Reads are only fragmented or interrupted. -/
def Readable (fd : Descriptor) : Prop := .failed ∉ fd.reads

/-- Writes are only fragmented or interrupted. -/
def Writable (fd : Descriptor) : Prop := .failed ∉ fd.writes ∧ .moves 0 ∉ fd.writes

instance (fd : Descriptor) : Decidable fd.Readable := inferInstanceAs (Decidable (_ ∉ _))

instance (fd : Descriptor) : Decidable fd.Writable := inferInstanceAs (Decidable (_ ∧ _))

variable {fd after : Descriptor} {len : Nat} {bytes data : Bytes}

theorem read_interrupted (result : fd.read len = (.interrupted, after)) :
    after.incoming = fd.incoming ∧ after.reads.length < fd.reads.length := by
  unfold read at result
  split at result <;> cases result
  rename_i shape
  simp [shape]

theorem read_moved (result : fd.read len = (.moved bytes, after)) :
    fd.incoming = bytes ++ after.incoming ∧ bytes.length ≤ len ∧ after.reads.length ≤ fd.reads.length := by
  unfold read at result
  split at result <;> cases result
  · exact ⟨by simp, List.length_take_le _ _, Nat.le_refl _⟩
  · rename_i shape
    exact ⟨by simp, (List.length_take_le _ _).trans (Nat.min_le_left _ _), by simp [shape]⟩

theorem write_interrupted (result : fd.write data = (.interrupted, after)) :
    after.writes.length < fd.writes.length := by
  unfold write at result
  split at result <;> cases result
  rename_i shape
  simp [shape]

theorem write_moved (result : fd.write data = (.moved bytes, after)) : after.writes.length ≤ fd.writes.length := by
  unfold write at result
  split at result <;> cases result
  · exact Nat.le_refl _
  · rename_i shape
    simp [shape]

theorem Readable.interrupted (readable : fd.Readable) (result : fd.read len = (.interrupted, after)) :
    after.Readable := by
  unfold read at result
  split at result <;> cases result
  rename_i shape
  exact fun member => readable (shape ▸ List.mem_cons_of_mem _ member)

theorem Readable.not_failed (readable : fd.Readable) : fd.read len ≠ (.failed, after) := by
  intro result
  unfold read at result
  split at result <;> cases result
  rename_i shape
  exact readable (shape ▸ List.mem_cons_self)

/-- A read moves nothing only at the end of the stream. -/
theorem Readable.moved (readable : fd.Readable) (positive : 0 < len) (result : fd.read len = (.moved bytes, after)) :
    (bytes = [] → fd.incoming = []) ∧ after.Readable := by
  unfold read at result
  split at result <;> cases result
  · refine ⟨fun none => ?_, readable⟩
    exact (List.take_eq_nil_iff.mp none).resolve_left (by omega)
  · rename_i most rest shape
    refine ⟨fun none => ?_, fun member => readable (shape ▸ List.mem_cons_of_mem _ member)⟩
    exact (List.take_eq_nil_iff.mp none).resolve_left (by omega)

theorem Writable.interrupted (writable : fd.Writable) (result : fd.write data = (.interrupted, after)) :
    after.outgoing = fd.outgoing ∧ after.Writable := by
  unfold write at result
  split at result <;> cases result
  rename_i shape
  exact ⟨rfl, fun member => writable.1 (shape ▸ List.mem_cons_of_mem _ member),
    fun member => writable.2 (shape ▸ List.mem_cons_of_mem _ member)⟩

theorem Writable.not_failed (writable : fd.Writable) : fd.write data ≠ (.failed, after) := by
  intro result
  unfold write at result
  split at result <;> cases result
  rename_i shape
  exact writable.1 (shape ▸ List.mem_cons_self)

/-- A write of something moves some of it. -/
theorem Writable.moved (writable : fd.Writable) (some : data ≠ []) (result : fd.write data = (.moved bytes, after)) :
    bytes ≠ [] ∧ bytes <+: data ∧ after.outgoing = fd.outgoing ++ bytes ∧ after.Writable := by
  unfold write at result
  split at result <;> cases result
  · exact ⟨some, List.prefix_rfl, rfl, writable⟩
  · rename_i most rest shape
    refine ⟨fun none => ?_, List.take_prefix most data, rfl,
      fun member => writable.1 (shape ▸ List.mem_cons_of_mem _ member),
      fun member => writable.2 (shape ▸ List.mem_cons_of_mem _ member)⟩
    rcases List.take_eq_nil_iff.mp none with rfl | empty
    · exact writable.2 (shape ▸ List.mem_cons_self)
    · exact some empty

/-- A loop that receives until it is refused, and what it received. -/
inductive Receives {α : Type} (receive : Descriptor → Option α × Descriptor) :
    Descriptor → List α → Descriptor → Prop where
  | refused {fd after : Descriptor} (result : receive fd = (none, after)) : Receives receive fd [] after
  | received {fd after last : Descriptor} {message : α} {rest : List α} (result : receive fd = (some message, after))
      (later : Receives receive after rest last) : Receives receive fd (message :: rest) last

end Descriptor

end MiniDynamo
