/-
This file develops stores of bytes that change by having data put at an offset: what a write
leaves alone, how writes that follow one another compose, what the first bytes of a list of
writes make of a store, and how a window on a store is kept up to date without being read again.
-/

import AiSwitcher.Library.Fields

namespace Storage

open Fields (patch)

variable {Byte : Type}

/-! ### Writing -/

/-- The store with the data put at an offset. -/
def put (bytes : Nat → Byte) (offset : Nat) (data : List Byte) : Nat → Byte := fun position =>
  if offset ≤ position then data[position - offset]?.getD (bytes position) else bytes position

theorem put_inside {bytes : Nat → Byte} {offset index : Nat} {data : List Byte}
    (inside : index < data.length) : put bytes offset data (offset + index) = data[index] := by
  rw [put, if_pos (Nat.le_add_right _ _), Nat.add_sub_cancel_left, List.getElem?_eq_getElem inside,
    Option.getD_some]

theorem put_outside {bytes : Nat → Byte} {offset position : Nat} {data : List Byte}
    (outside : position < offset ∨ offset + data.length ≤ position) :
    put bytes offset data position = bytes position := by
  unfold put
  split
  · rw [List.getElem?_eq_none (by omega), Option.getD_none]
  · rfl

/-- A position is outside of the data that is put, or it is that of one of its bytes. -/
theorem inside_or_outside (position offset length : Nat) :
    (∃ index < length, position = offset + index) ∨
      position < offset ∨ offset + length ≤ position := by
  by_cases inside : offset ≤ position ∧ position < offset + length
  · exact .inl ⟨position - offset, by omega, by omega⟩
  · exact .inr (by omega)

@[simp] theorem put_nil (bytes : Nat → Byte) (offset : Nat) : put bytes offset [] = bytes :=
  funext fun position => put_outside (by rw [List.length_nil]; omega)

/-- What is put behind the data is put as one with it. -/
theorem put_append (bytes : Nat → Byte) (offset : Nat) (first second : List Byte) :
    put bytes offset (first ++ second) =
      put (put bytes offset first) (offset + first.length) second := by
  funext position
  obtain ⟨index, inside, rfl⟩ | outside :=
    inside_or_outside position offset (first ++ second).length
  · rw [put_inside inside]
    rw [List.length_append] at inside
    by_cases inFirst : index < first.length
    · rw [put_outside (.inl (by omega)), put_inside inFirst, List.getElem_append_left inFirst]
    · obtain ⟨later, rfl⟩ := Nat.exists_eq_add_of_le (Nat.le_of_not_lt inFirst)
      rw [← Nat.add_assoc, put_inside (by omega), List.getElem_append_right (by omega)]
      congr 1
      omega
  · rw [put_outside outside]
    rw [List.length_append] at outside
    rw [put_outside (by omega), put_outside (by omega)]

/-! ### Windows -/

/-- The bytes of a store from an offset on. -/
def window (bytes : Nat → Byte) (offset count : Nat) : List Byte :=
  (List.range count).map fun index => bytes (offset + index)

@[simp] theorem length_window (bytes : Nat → Byte) (offset count : Nat) :
    (window bytes offset count).length = count := by
  rw [window, List.length_map, List.length_range]

theorem getElem_window {bytes : Nat → Byte} {offset count index : Nat}
    (inside : index < (window bytes offset count).length) :
    (window bytes offset count)[index] = bytes (offset + index) := by
  simp only [window, List.getElem_map, List.getElem_range]

theorem window_add (bytes : Nat → Byte) (offset first second : Nat) :
    window bytes offset (first + second) =
      window bytes offset first ++ window bytes (offset + first) second := by
  simp only [window, List.range_add, List.map_append, List.map_map, Function.comp_def,
    Nat.add_assoc]

theorem window_congr {before after : Nat → Byte} {offset count : Nat}
    (same : ∀ index < count, after (offset + index) = before (offset + index)) :
    window after offset count = window before offset count :=
  List.map_congr_left fun index member => same index (List.mem_range.mp member)

/-- Data that are found where they were put are all of what a write has done. -/
theorem put_of_window {before : Nat → Byte} {offset : Nat} {stored data : List Byte}
    (same : stored.length = data.length)
    (found : window (put before offset stored) offset data.length = data) : stored = data := by
  refine List.ext_getElem same fun index inStored inData => ?_
  have inWindow : index < (window (put before offset stored) offset data.length).length := by
    rwa [length_window]
  have read := getElem_window inWindow
  rw [put_inside inStored] at read
  rw [← read]
  exact List.getElem_of_eq found _

theorem take_window (bytes : Nat → Byte) (offset : Nat) {count taken : Nat}
    (within : taken ≤ count) :
    (window bytes offset count).take taken = window bytes offset taken := by
  obtain ⟨rest, rfl⟩ := Nat.exists_eq_add_of_le within
  rw [window_add, List.take_left' (length_window _ _ _)]

theorem drop_window (bytes : Nat → Byte) (offset dropped rest : Nat) :
    (window bytes offset (dropped + rest)).drop dropped = window bytes (offset + dropped) rest := by
  rw [window_add, List.drop_left' (length_window _ _ _)]

/-- A window on what has been put. -/
theorem window_put_inside {bytes : Nat → Byte} {offset index count : Nat} {data : List Byte}
    (inside : index + count ≤ data.length) :
    window (put bytes offset data) (offset + index) count = (data.drop index).take count := by
  refine List.ext_getElem ?_ fun position inWindow inData => ?_
  · rw [length_window, List.length_take, List.length_drop]
    omega
  · rw [length_window] at inWindow
    rw [getElem_window, List.getElem_take, List.getElem_drop, Nat.add_assoc,
      put_inside (by omega)]

/-- A window that a write does not meet stays. -/
theorem window_put_of_apart {bytes : Nat → Byte} {offset base count : Nat} {data : List Byte}
    (apart : min (offset + data.length) (base + count) ≤ max offset base) :
    window (put bytes offset data) base count = window bytes base count :=
  window_congr fun index inside => put_outside (by omega)

/-- A window follows a write by copying the part of the data that falls into it. -/
theorem window_put {bytes : Nat → Byte} {offset base count low high : Nat} {data : List Byte}
    (isLow : low = max offset base) (isHigh : high = min (offset + data.length) (base + count))
    (meets : low < high) :
    window (put bytes offset data) base count = patch (window bytes base count) (low - base)
      ((data.drop (low - offset)).take (high - low)) := by
  obtain ⟨before, rfl⟩ : ∃ before, low = base + before := ⟨low - base, by omega⟩
  obtain ⟨skipped, skips⟩ : ∃ skipped, base + before = offset + skipped :=
    ⟨base + before - offset, by omega⟩
  obtain ⟨inside, rfl⟩ : ∃ inside, high = base + before + inside :=
    ⟨high - (base + before), by omega⟩
  obtain ⟨behind, rfl⟩ : ∃ behind, count = before + inside + behind :=
    ⟨count - (before + inside), by omega⟩
  have length : ((data.drop skipped).take inside).length = inside := by
    rw [List.length_take, List.length_drop]
    omega
  rw [Nat.add_sub_cancel_left, Nat.add_sub_cancel_left,
    show base + before - offset = skipped by omega, patch, length,
    take_window _ _ (by omega), drop_window, window_add, window_add]
  congr 1
  · congr 1
    · exact window_congr fun index within => put_outside (by omega)
    · rw [skips, window_put_inside (by omega)]
  · exact window_congr fun index within => put_outside (by omega)

/-! ### Lists of writes -/

/-- The store after writes, each an offset and its data. -/
def putAll (bytes : Nat → Byte) (writes : List (Nat × List Byte)) : Nat → Byte :=
  writes.foldl (fun bytes write => put bytes write.1 write.2) bytes

/-- The number of bytes that are put. -/
def total : List (Nat × List Byte) → Nat
  | [] => 0
  | write :: rest => write.2.length + total rest

/-- The writes up to a number of bytes. -/
def takeBytes : Nat → List (Nat × List Byte) → List (Nat × List Byte)
  | _, [] => []
  | count, (offset, data) :: rest =>
      (offset, data.take count) :: takeBytes (count - data.length) rest

@[simp] theorem putAll_nil (bytes : Nat → Byte) : putAll bytes [] = bytes := rfl

@[simp] theorem putAll_cons (bytes : Nat → Byte) (write : Nat × List Byte)
    (rest : List (Nat × List Byte)) :
    putAll bytes (write :: rest) = putAll (put bytes write.1 write.2) rest := rfl

theorem putAll_append (bytes : Nat → Byte) (first second : List (Nat × List Byte)) :
    putAll bytes (first ++ second) = putAll (putAll bytes first) second :=
  List.foldl_append ..

@[simp] theorem total_cons (write : Nat × List Byte) (rest : List (Nat × List Byte)) :
    total (write :: rest) = write.2.length + total rest := rfl

theorem total_append (first second : List (Nat × List Byte)) :
    total (first ++ second) = total first + total second := by
  induction first with
  | nil => rw [List.nil_append, total, Nat.zero_add]
  | cons write first inductionHypothesis =>
    rw [List.cons_append, total_cons, inductionHypothesis, total_cons, Nat.add_assoc]

theorem putAll_takeBytes_zero (bytes : Nat → Byte) :
    ∀ writes, putAll bytes (takeBytes 0 writes) = bytes
  | [] => rfl
  | (offset, data) :: rest => by
    rw [takeBytes, putAll_cons, List.take_zero, put_nil, Nat.zero_sub,
      putAll_takeBytes_zero bytes rest]

/-- The bytes so far are the writes that are done and the first bytes of the next one. -/
theorem putAll_takeBytes {done rest : List (Nat × List Byte)} {offset count : Nat}
    {data : List Byte} (within : count ≤ data.length) : ∀ bytes : Nat → Byte,
    putAll bytes (takeBytes (total done + count) (done ++ (offset, data) :: rest)) =
      put (putAll bytes done) offset (data.take count) := by
  induction done with
  | nil =>
    intro bytes
    rw [List.nil_append, takeBytes, show total ([] : List (Nat × List Byte)) = 0 from rfl,
      Nat.zero_add, Nat.sub_eq_zero_of_le within, putAll_cons, putAll_takeBytes_zero, putAll_nil]
  | cons write done inductionHypothesis =>
    intro bytes
    rw [List.cons_append, takeBytes, total_cons, putAll_cons,
      List.take_of_length_le (by omega), show write.2.length + total done + count -
        write.2.length = total done + count by omega, inductionHypothesis, putAll_cons]

/-- The bytes of the first writes are these writes, and no bytes of the others. -/
theorem takeBytes_append_total {done rest : List (Nat × List Byte)} :
    takeBytes (total done) (done ++ rest) = done ++ takeBytes 0 rest := by
  induction done with
  | nil => rfl
  | cons write done inductionHypothesis =>
    rw [List.cons_append, takeBytes, total_cons, List.take_of_length_le (Nat.le_add_right _ _),
      Nat.add_sub_cancel_left, inductionHypothesis, List.cons_append]

/-- Writes without a byte do nothing. -/
theorem putAll_of_total {bytes : Nat → Byte} {writes : List (Nat × List Byte)}
    (none : total writes = 0) : putAll bytes writes = bytes := by
  induction writes with
  | nil => rfl
  | cons write rest inductionHypothesis =>
    rw [total_cons] at none
    rw [putAll_cons, List.length_eq_zero_iff.mp (Nat.eq_zero_of_add_eq_zero_right none), put_nil,
      inductionHypothesis (Nat.eq_zero_of_add_eq_zero_left none)]

/-- A position that no write covers keeps its byte. -/
theorem putAll_outside {position : Nat} {writes : List (Nat × List Byte)}
    (outside : ∀ write ∈ writes, position < write.1 ∨ write.1 + write.2.length ≤ position) :
    ∀ bytes : Nat → Byte, putAll bytes writes position = bytes position := by
  induction writes with
  | nil => exact fun bytes => rfl
  | cons write rest inductionHypothesis =>
    intro bytes
    rw [putAll_cons, inductionHypothesis fun other member => outside other (.tail _ member),
      put_outside (outside write List.mem_cons_self)]

end Storage
