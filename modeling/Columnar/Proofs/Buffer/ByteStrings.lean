import Columnar.Buffer.ByteStrings
import Columnar.Proofs.Buffer.Offsets

/-!
# Byte strings as lists

A buffer of byte strings is the list of its values: their bytes joined, and the offsets of their
sizes. Each operation is told by what it does to that list, and the values come back in order.
-/

namespace Columnar

/-- The bytes of all values, one after the other. -/
def joined : List ByteArray → ByteArray
  | [] => .empty
  | value :: rest => value ++ joined rest

@[simp] theorem joined_append (first second : List ByteArray) :
    joined (first ++ second) = joined first ++ joined second := by
  induction first with
  | nil => simp [joined]
  | cons value rest inductionHypothesis =>
    simp [joined, inductionHypothesis, ByteArray.append_assoc]

/-- Joined values take the bytes of each of them. -/
@[simp] theorem size_joined (values : List ByteArray) :
    (joined values).size = (values.map ByteArray.size).sum := by
  induction values with
  | nil => rfl
  | cons value rest inductionHypothesis => simp [joined, inductionHypothesis]

/-- Empty values have no bytes to join. -/
@[simp] theorem joined_replicate_empty (count : Nat) :
    joined (List.replicate count .empty) = .empty := by
  induction count with
  | zero => rfl
  | succ count inductionHypothesis =>
    rw [List.replicate_succ, joined, inductionHypothesis, ByteArray.append_empty]

/-- The first bytes of joined values are the first values joined. -/
theorem extract_joined_take (values : List ByteArray) (count : Nat) :
    (joined values).extract 0 ((values.map ByteArray.size).take count).sum =
      joined (values.take count) := by
  have parts : joined values = joined (values.take count) ++ joined (values.drop count) := by
    rw [← joined_append, List.take_append_drop]
  rw [parts, ← List.map_take]
  exact ByteArray.extract_append_eq_left (size_joined _).symm

private theorem extract_middle (front value back : ByteArray) :
    (front ++ (value ++ back)).extract front.size (front.size + value.size) = value := by
  have shifted := ByteArray.extract_append_size_add (a := front) (b := value ++ back) (i := 0)
    (j := value.size)
  rw [Nat.add_zero] at shifted
  rw [shifted]
  exact ByteArray.extract_append_eq_left rfl

/-- Between two neighbouring offsets lies one value. -/
theorem extract_joined {values : List ByteArray} {index : Nat} {value : ByteArray}
    (found : values[index]? = some value) :
    (joined values).extract ((values.map ByteArray.size).take index).sum
      ((values.map ByteArray.size).take (index + 1)).sum = value := by
  obtain ⟨inside, rfl⟩ := List.getElem?_eq_some_iff.mp found
  have parts : joined values =
      joined (values.take index) ++ (values[index] ++ joined (values.drop (index + 1))) := by
    conv => lhs; rw [← List.take_append_drop index values, joined_append]
    rw [List.drop_eq_getElem_cons inside]
    rfl
  have first : ((values.map ByteArray.size).take index).sum =
      (joined (values.take index)).size := by
    rw [size_joined, List.map_take]
  have last : ((values.map ByteArray.size).take (index + 1)).sum =
      (joined (values.take index)).size + values[index].size := by
    rw [← List.map_take, ← List.take_append_getElem inside, List.map_append, List.sum_append,
      size_joined]
    simp
  rw [parts, first, last]
  exact extract_middle _ _ _

namespace ByteStrings

/-- The buffer that holds the values of a list. -/
def ofList (capacity : Nat) (values : List ByteArray) : ByteStrings :=
  ⟨capacity, (offsetsOf (values.map ByteArray.size)).toArray, joined values⟩

@[simp] theorem capacity_ofList (capacity : Nat) (values : List ByteArray) :
    (ofList capacity values).capacity = capacity := rfl

@[simp] theorem count_ofList (capacity : Nat) (values : List ByteArray) :
    (ofList capacity values).count = values.length := by
  rw [count, ofList, countOf_offsetsOf, List.length_map]

@[simp] theorem lastOffset_ofList (capacity : Nat) (values : List ByteArray) :
    (ofList capacity values).lastOffset = (values.map ByteArray.size).sum :=
  endOf_offsetsOf _

theorem offsetsSize_ofList (capacity : Nat) {values : List ByteArray} {total : Nat}
    (exact : Exact (values.length + 1) total) :
    offsetsSize (ofList capacity values).offsets total = (total + 1) * offsetBytes := by
  rw [← List.length_map ByteArray.size] at exact
  exact offsetsSize_eq (exact_offsetsOf exact)

/-- An appended value is the last of the list. -/
theorem push_ofList (capacity : Nat) (values : List ByteArray) (value : ByteArray) :
    (ofList capacity values).push value ((values.map ByteArray.size).sum + value.size) =
      ofList capacity (values ++ [value]) := by
  simp [push, ofList, offsetsOf_append_singleton, joined]

/-- Padding appends empty values to the list. -/
theorem pad_ofList (capacity : Nat) {count : Nat} {values : List ByteArray}
    (more : values.length ≤ count) (exact : Exact (values.length + 1) count) :
    (ofList capacity values).pad count = ofList capacity (padTo .empty count values) := by
  have offsets : offsetsOf ((padTo .empty count values).map ByteArray.size) =
      offsetsOf (values.map ByteArray.size ++
        List.replicate (count - (values.map ByteArray.size).length) 0) := by
    rw [map_padTo, padTo, ByteArray.size_empty]
  have data : joined (padTo .empty count values) = joined values := by
    rw [padTo, joined_append, joined_replicate_empty, ByteArray.append_empty]
  rw [← List.length_map ByteArray.size] at more exact
  have resized := resize_offsetsOf more exact
  simp only [pad, ofList, resized, offsets, data]

/-- Cutting a buffer keeps the first values with their bytes. -/
@[simp] theorem truncate_ofList (capacity count : Nat) (values : List ByteArray) :
    (ofList capacity values).truncate count = ofList capacity (values.take count) := by
  unfold truncate
  rw [count_ofList]
  split
  · simp [ofList, endOf_offsetsOf, extract_joined_take]
  · rename_i enough
    rw [List.take_of_length_le (by omega)]

/-- The value at an index is the one of the list. -/
theorem get?_ofList (capacity : Nat) (values : List ByteArray) (index : Nat) :
    (ofList capacity values).get? index = values[index]? := by
  by_cases inside : index < values.length
  · have first : (offsetsOf (values.map ByteArray.size))[index]? =
        some ((values.map ByteArray.size).take index).sum :=
      getElem?_offsetsOf (by simpa using Nat.le_of_lt inside)
    have last : (offsetsOf (values.map ByteArray.size))[index + 1]? =
        some ((values.map ByteArray.size).take (index + 1)).sum :=
      getElem?_offsetsOf (by simpa using Nat.succ_le_of_lt inside)
    have found : values[index]? = some values[index] := List.getElem?_eq_getElem inside
    simp only [get?, ofList, List.getElem?_toArray, first, last, found, extract_joined found]
  · have missing : (offsetsOf (values.map ByteArray.size))[index + 1]? = none := by
      rw [List.getElem?_eq_none]
      simp
      omega
    have absent : values[index]? = none := List.getElem?_eq_none (by omega)
    simp only [get?, ofList, List.getElem?_toArray, missing, absent]
    split <;> simp_all

/-- All values come back in order. -/
@[simp] theorem values_ofList (capacity : Nat) (values : List ByteArray) :
    (ofList capacity values).values = values.toArray := by
  have looked : (ofList capacity values).get? = fun index => values[index]? :=
    funext (get?_ofList capacity values)
  have found : (List.range values.length).map (fun index => values[index]?) = values.map some := by
    apply List.ext_getElem
    · simp
    · intro index _ inside
      simp at inside
      simp [inside]
  apply Array.ext'
  unfold ByteStrings.values
  rw [looked, count_ofList, Array.toList_filterMap, Array.toList_range]
  have mapped := List.filterMap_map (l := List.range values.length)
    (f := fun index => values[index]?) (g := id)
  rw [found] at mapped
  simpa using mapped.symm

/-- What a write of the last of the given values is refused for: all their bytes first, then their
offsets, then the last offset itself. -/
def writeShortage? (capacity : Nat) (values : List ByteArray) : Option Shortage :=
  (Columnar.shortage? (values.map ByteArray.size).sum capacity).or <|
    (Columnar.shortage? ((values.length + 1) * offsetBytes) capacity).or <|
      Columnar.shortage? (values.map ByteArray.size).sum maxOffset

/-- Writing drops what is there and behind it, and appends to the list with empty values in between,
unless there is no room. -/
theorem set_ofList (capacity : Nat) {values : List ByteArray} {index : Nat}
    (exact : Exact (values.length + 1) (index + 1)) (value : ByteArray) :
    (ofList capacity values).set index value =
      guarded (writeShortage? capacity (cutAt .empty values index value))
        (ofList capacity values) (ofList capacity (cutAt .empty values index value)) := by
  have begins : (ofList capacity values).start index =
      ((values.map ByteArray.size).take index).sum := by
    rw [start, count_ofList, lastOffset_ofList]
    split
    · rename_i inside
      simp only [ofList, List.getElem?_toArray]
      rw [getElem?_offsetsOf (by rw [List.length_map]; omega), Option.getD_some]
    · rw [List.take_of_length_le (by rw [List.length_map]; omega)]
  have data : ((cutAt .empty values index value).map ByteArray.size).sum =
      ((values.map ByteArray.size).take index).sum + value.size := by
    rw [map_cutAt, cutAt, padTo, ByteArray.size_empty]
    simp
  have measured : (ofList capacity values).shortage? index value.size =
      writeShortage? capacity (cutAt .empty values index value) := by
    unfold ByteStrings.shortage?
    rw [begins, offsetsSize_ofList capacity exact, writeShortage?, data, length_cutAt,
      capacity_ofList]
  have written : (ofList capacity values).put index value =
      ofList capacity (cutAt .empty values index value) := by
    simp only [put, count_ofList, begins]
    split
    · rename_i inside
      rw [truncate_ofList, ← List.map_take, push_ofList, cutAt_of_le _ (Nat.le_of_lt inside)]
    · rename_i beyond
      have padded : ((padTo .empty index values).map ByteArray.size).sum =
          ((values.map ByteArray.size).take index).sum := by
        rw [map_padTo, ByteArray.size_empty, padTo, List.take_of_length_le
          (by rw [List.length_map]; omega)]
        simp
      have behind := Nat.not_lt.mp beyond
      rw [pad_ofList capacity behind exact.of_succ, ← padded, push_ofList, cutAt_of_ge _ behind]
  unfold set
  rw [measured, written]
  cases writeShortage? capacity (cutAt .empty values index value) <;> rfl

/-- Filling pads the list with empty values, unless there is no room for their offsets; only what is
too short needs any. -/
theorem fill_ofList (capacity : Nat) {count : Nat} {values : List ByteArray}
    (exact : Exact (values.length + 1) count) :
    (ofList capacity values).fill count =
      guarded
        (if values.length < count then Columnar.shortage? ((count + 1) * offsetBytes) capacity
          else none)
        (ofList capacity values) (ofList capacity (padTo .empty count values)) := by
  unfold fill
  rw [count_ofList, capacity_ofList, offsetsSize_ofList capacity exact]
  split
  · rename_i short
    rw [pad_ofList capacity (Nat.le_of_lt short) exact]
    cases Columnar.shortage? ((count + 1) * offsetBytes) capacity <;> rfl
  · rename_i enough
    rw [padTo_of_le _ (Nat.not_lt.mp enough)]
    rfl

end ByteStrings

end Columnar
