import Mathlib.Data.List.TakeWhile
import Mathlib.Data.UInt

/-! Byte strings as they stand in a `std::string`: unsigned bytes, compared
lexicographically, cut and joined at delimiter bytes. -/

namespace MiniDynamo

/-- The contents of a `std::string`. -/
abbrev Bytes := List UInt8

instance : LawfulBEq Bytes := inferInstance

/-- The bytes of a string literal; every literal of the program is ASCII. -/
def ascii (text : String) : Bytes :=
  text.toList.map (fun letter => UInt8.ofNat letter.toNat)

namespace Bytes

/-- `find` followed by the two `substr` calls: what stands before and after the
first delimiter, or nothing when `find` returns `npos`. -/
def cut (delim : UInt8) (text : Bytes) : Option (Bytes × Bytes) :=
  if delim ∈ text then
    some (text.takeWhile (· != delim), (text.dropWhile (· != delim)).drop 1)
  else none

theorem takeWhile_append_delim {delim : UInt8} {front : Bytes} (clean : delim ∉ front) (back : Bytes) :
    (front ++ delim :: back).takeWhile (· != delim) = front := by
  rw [List.takeWhile_append_of_pos]
  · simp
  · intro byte member
    simpa using fun same : byte = delim => clean (same ▸ member)

theorem dropWhile_append_delim {delim : UInt8} {front : Bytes} (clean : delim ∉ front) (back : Bytes) :
    (front ++ delim :: back).dropWhile (· != delim) = delim :: back := by
  rw [List.dropWhile_append_of_pos]
  · simp
  · intro byte member
    simpa using fun same : byte = delim => clean (same ▸ member)

theorem cut_append {delim : UInt8} {front : Bytes} (clean : delim ∉ front) (back : Bytes) :
    cut delim (front ++ delim :: back) = some (front, back) := by
  simp [cut, takeWhile_append_delim clean, dropWhile_append_delim clean]

theorem cut_none {delim : UInt8} {text : Bytes} (clean : delim ∉ text) : cut delim text = none := by
  simp [cut, clean]

/-- A piece of a text cut at a delimiter is part of the text and free of the delimiter. -/
theorem mem_splitOn {delim : UInt8} {text piece : Bytes} (member : piece ∈ text.splitOn delim) :
    delim ∉ piece ∧ ∀ byte ∈ piece, byte ∈ text := by
  induction text generalizing piece with
  | nil =>
    obtain rfl := List.mem_singleton.mp member
    simp
  | cons first rest ih =>
    rw [List.splitOn_cons_eq_if_modifyHead] at member
    split at member
    · rcases List.mem_cons.mp member with rfl | later
      · simp
      · exact ⟨(ih later).1, fun byte inside => List.mem_cons_of_mem first ((ih later).2 byte inside)⟩
    · rename_i other
      obtain ⟨head, tail, shape⟩ := List.exists_cons_of_ne_nil (List.splitOn_ne_nil delim rest)
      rw [shape] at member ih
      rcases List.mem_cons.mp member with rfl | later
      · obtain ⟨clean, part⟩ := ih List.mem_cons_self
        refine ⟨?_, fun byte inside => ?_⟩
        · intro inside
          rcases List.mem_cons.mp inside with same | inside
          · exact other (by simp [same])
          · exact clean inside
        · rcases List.mem_cons.mp inside with rfl | inside
          · exact List.mem_cons_self
          · exact List.mem_cons_of_mem first (part byte inside)
      · obtain ⟨clean, part⟩ := ih (List.mem_cons_of_mem head later)
        exact ⟨clean, fun byte inside => List.mem_cons_of_mem first (part byte inside)⟩

/-- A delimiter cuts a text, whatever stands around it. -/
theorem splitOn_append_delim {α : Type} [BEq α] [LawfulBEq α] (delim : α) (front back : List α) :
    (front ++ delim :: back).splitOn delim = front.splitOn delim ++ back.splitOn delim := by
  induction front with
  | nil => simp [List.splitOn_cons_eq_if_modifyHead]
  | cons first rest ih =>
    rw [List.cons_append, List.splitOn_cons_eq_if_modifyHead, List.splitOn_cons_eq_if_modifyHead, ih]
    split
    · rfl
    · obtain ⟨head, tail, shape⟩ := List.exists_cons_of_ne_nil (List.splitOn_ne_nil delim rest)
      rw [shape]
      rfl

/-- What `cut` returns stood in the text, the front without the delimiter. -/
theorem cut_eq_some {delim : UInt8} {text front back : Bytes} (found : cut delim text = some (front, back)) :
    text = front ++ delim :: back ∧ delim ∉ front := by
  unfold cut at found
  split at found
  · rename_i present
    obtain ⟨rfl, rfl⟩ := Prod.mk.inj (Option.some.inj found)
    have stops : text.dropWhile (· != delim) ≠ [] := by
      rw [Ne, List.dropWhile_eq_nil_iff]
      intro all
      simpa using all delim present
    refine ⟨?_, fun inside => by simpa using List.mem_takeWhile_imp inside⟩
    obtain ⟨head, tail, shape⟩ := List.exists_cons_of_ne_nil stops
    have atDelim : head = delim := by
      have first := List.head_dropWhile_not (· != delim) stops
      simpa [shape] using first
    conv_lhs => rw [← List.takeWhile_append_dropWhile (p := (· != delim)) (l := text)]
    rw [shape, atDelim]
    rfl
  · cases found

theorem length_intercalate {α : Type} (delim : α) (pieces : List (List α)) :
    ([delim].intercalate pieces).length = (pieces.map List.length).sum + (pieces.length - 1) := by
  induction pieces with
  | nil => rfl
  | cons piece rest ih =>
    cases rest with
    | nil => simp
    | cons next later =>
      rw [List.intercalate_cons_cons, List.length_append, List.length_append, ih]
      simp only [List.length_cons, List.length_nil, List.map_cons, List.sum_cons]
      omega

/-- The pieces of a text are together no longer than the text. -/
theorem lengths_splitOn_le (delim : UInt8) (text : Bytes) :
    ((text.splitOn delim).map List.length).sum ≤ text.length := by
  have joined : [delim].intercalate (text.splitOn delim) = text := List.intercalate_splitOn delim
  have total := length_intercalate delim (text.splitOn delim)
  rw [joined] at total
  omega

end Bytes

end MiniDynamo
