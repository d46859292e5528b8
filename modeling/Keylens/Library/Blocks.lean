import Keylens.Library.Text
import Mathlib.Data.List.Basic

/-!
# Lists made of blocks

A list that is put together from blocks of one size, and a list that is worked
through block by block: where each item stands.
-/

namespace Keylens.Library

universe u v

variable {α : Type u} {β : Type v}

/-- What stands in place `j` of block `i`. -/
theorem getElem?_flatMap_block {size : Nat} {block : α → List β}
    (sized : ∀ item, (block item).length = size) (items : List α) {i j : Nat} {item : α}
    (here : items[i]? = some item) (inside : j < size) :
    (items.flatMap block)[size * i + j]? = (block item)[j]? := by
  induction items generalizing i with
  | nil => cases here
  | cons head rest ih =>
      rw [List.flatMap_cons]
      cases i with
      | zero =>
          cases here
          have within : size * 0 + j < (block item).length := by
            rw [sized, Nat.mul_zero, Nat.zero_add]
            exact inside
          rw [List.getElem?_append_left within, Nat.mul_zero, Nat.zero_add]
      | succ i =>
          have beyond : (block head).length ≤ size * (i + 1) + j := by
            rw [sized, Nat.mul_succ]
            omega
          rw [List.getElem?_append_right beyond, sized, ← ih (i := i) here]
          congr 1
          rw [Nat.mul_succ]
          omega

/-- Working through a list block by block, with the place of each item counted
from what there is already, is working through it at once. -/
theorem foldl_mapIdx (update : Nat → α → β) (blocks : List (List α)) :
    blocks.foldl (fun done block =>
      done ++ block.mapIdx fun i item => update (done.length + i) item) [] =
      blocks.flatten.mapIdx update := by
  induction blocks using List.reverseRecOn with
  | nil => rfl
  | append_singleton blocks block ih =>
      rw [List.foldl_concat, ih, List.flatten_append, List.flatten_singleton, List.mapIdx_append,
        List.length_mapIdx]
      simp only [Nat.add_comm]

/-- Answering a list chunk by chunk, with a slot for each item: place `i` belongs
to chunk `i / size`. -/
theorem getElem?_flatMap_chunksUpTo {size : Nat} (positive : 0 < size)
    {answer : List α × Nat → List β}
    (sized : ∀ chunk n, (answer (chunk, n)).length = chunk.length) {fuel : Nat} {items : List α}
    (enough : items.length ≤ fuel) (start : Nat) {i : Nat} (inside : i < items.length) :
    (((chunksUpTo size fuel items).zipIdx start).flatMap answer)[i]? =
      (answer ((items.drop (size * (i / size))).take size, start + i / size))[i % size]? := by
  induction fuel generalizing items start i with
  | zero => exact absurd (inside.trans_le enough) (Nat.not_lt_zero i)
  | succ fuel ih =>
      cases items with
      | nil => exact absurd inside (Nat.not_lt_zero i)
      | cons head rest =>
          rw [chunksUpTo, List.zipIdx_cons, List.flatMap_cons]
          by_cases first : i < size
          · have within : i < (answer ((head :: rest).take size, start)).length := by
              rw [sized, List.length_take]
              exact lt_min first inside
            rw [List.getElem?_append_left within, Nat.div_eq_of_lt first, Nat.mod_eq_of_lt first]
            rfl
          · have past : size ≤ i := Nat.le_of_not_lt first
            have full : (answer ((head :: rest).take size, start)).length = size := by
              rw [sized, List.length_take, min_eq_left (past.trans inside.le)]
            have shorter : ((head :: rest).drop size).length ≤ fuel := by
              rw [List.length_drop]
              omega
            have later : i - size < ((head :: rest).drop size).length := by
              rw [List.length_drop]
              omega
            have quotient : i / size = (i - size) / size + 1 :=
              Nat.div_eq_sub_div positive past
            rw [List.getElem?_append_right (full.symm ▸ past), full, ih shorter _ later,
              quotient, Nat.mod_eq_sub_mod past, List.drop_drop, Nat.mul_succ, Nat.add_comm size,
              Nat.add_assoc start 1, Nat.add_comm 1]

theorem getElem?_flatMap_chunks {size : Nat} (positive : 0 < size)
    {answer : List α × Nat → List β}
    (sized : ∀ chunk n, (answer (chunk, n)).length = chunk.length) {items : List α} {i : Nat}
    (inside : i < items.length) :
    ((chunks size items).zipIdx.flatMap answer)[i]? =
      (answer ((items.drop (size * (i / size))).take size, i / size))[i % size]? := by
  rw [chunks, getElem?_flatMap_chunksUpTo positive sized le_rfl 0 inside, Nat.zero_add]

/-- The blocks at the multiples of their size are the front of the list. -/
theorem flatMap_pages (size count : Nat) (items : List α) :
    ((List.range count).flatMap fun i => (items.drop (i * size)).take size) =
      items.take (count * size) := by
  induction count with
  | zero => rw [Nat.zero_mul, List.take_zero, List.range_zero, List.flatMap_nil]
  | succ count ih =>
      rw [List.range_succ, List.flatMap_append, ih, List.flatMap_singleton, Nat.succ_mul,
        List.take_add]

end Keylens.Library
