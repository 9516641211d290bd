/-
This file relates bytes to the text they decode to where the text is ASCII: a byte of ASCII ends
whatever character is unfinished before it and stands for itself, and no other byte decodes
to a character of ASCII. So bytes can be cut wherever their text has such a character, whether
or not they are well formed.
-/

import AiSwitcher.Library.Utf8

namespace Utf8

/-! ### Single bytes -/

/-- Whatever continuation bytes come, the finished character is not of ASCII. -/
def Owes : (needed lower upper point : Nat) → Prop
  | 0, lower, upper, point => ∀ byte, lower ≤ byte → byte ≤ upper →
      128 ≤ (Char.ofNat (point * 64 + (byte - 0x80))).toNat
  | needed + 1, lower, upper, point => ∀ byte, lower ≤ byte → byte ≤ upper →
      Owes needed 0x80 0xBF (point * 64 + (byte - 0x80))

/-- A state the decoder can be in. -/
def State.Fine : State → Prop
  | .start => True
  | .inside needed lower upper point => 0x80 ≤ lower ∧ Owes needed lower upper point

/-- What the end of a malformed character emits. -/
def State.ends : State → List Char
  | .start => []
  | .inside .. => [replacement]

theorem State.fine_start : State.start.Fine := trivial

theorem toNat_ofNat_of_ascii {value : Nat} (ascii : value < 128) :
    (UInt8.ofNat value).toNat = value :=
  UInt8.toNat_ofNat_of_lt' (Nat.lt_trans ascii (by decide))

theorem toNat_ofNat_of_valid {point : Nat}
    (valid : point < 0xD800 ∨ 0xDFFF < point ∧ point < 0x110000) :
    (Char.ofNat point).toNat = point := by
  have isValid : point.isValidChar := valid
  rw [Char.ofNat, dif_pos isValid]
  rfl

theorem not_ascii_of_valid {point : Nat} (low : 128 ≤ point)
    (valid : point < 0xD800 ∨ 0xDFFF < point ∧ point < 0x110000) :
    128 ≤ (Char.ofNat point).toNat := by
  rw [toNat_ofNat_of_valid valid]
  exact low

theorem lead_ascii {byte : Nat} (ascii : byte < 128) : lead byte = ([Char.ofNat byte], .start) := by
  rw [lead, if_pos (by omega)]

theorem lead_other {byte : Nat} (other : 128 ≤ byte) :
    (lead byte).2.Fine ∧ ∀ char ∈ (lead byte).1, 128 ≤ char.toNat := by
  rw [lead, if_neg (by omega)]
  split
  · refine ⟨⟨le_refl _, fun last low high => ?_⟩, fun char member => by cases member⟩
    exact not_ascii_of_valid (by omega) (by omega)
  split
  · refine ⟨⟨by split <;> omega, fun second low high last lowLast highLast => ?_⟩,
      fun char member => by cases member⟩
    refine not_ascii_of_valid ?_ ?_
    · split at low <;> omega
    · split at high <;> omega
  split
  · refine ⟨⟨by split <;> omega,
      fun second low high third lowThird highThird last lowLast highLast => ?_⟩,
      fun char member => by cases member⟩
    refine not_ascii_of_valid ?_ ?_
    · split at low <;> omega
    · split at low <;> split at high <;> omega
  · refine ⟨trivial, fun char member => ?_⟩
    rw [List.mem_singleton.mp member]
    decide

section Inside

variable {needed lower upper point byte : Nat}

theorem step_last (inRange : lower ≤ byte ∧ byte ≤ upper) :
    step (.inside 0 lower upper point) byte =
      ([Char.ofNat (point * 64 + (byte - 0x80))], .start) := by
  rw [step.eq_def]
  dsimp only
  rw [if_pos inRange]

theorem step_more (inRange : lower ≤ byte ∧ byte ≤ upper) :
    step (.inside (needed + 1) lower upper point) byte =
      ([], .inside needed 0x80 0xBF (point * 64 + (byte - 0x80))) := by
  rw [step.eq_def]
  dsimp only
  rw [if_pos inRange]

theorem step_malformed (outside : ¬ (lower ≤ byte ∧ byte ≤ upper)) :
    step (.inside needed lower upper point) byte =
      (replacement :: (lead byte).1, (lead byte).2) := by
  rw [step.eq_def]
  dsimp only
  rw [if_neg outside]

end Inside

theorem step_ascii {state : State} (fine : state.Fine) {byte : Nat} (ascii : byte < 128) :
    step state byte = (state.ends ++ [Char.ofNat byte], .start) := by
  cases state with
  | start => exact lead_ascii ascii
  | inside needed lower upper point =>
    have low : 0x80 ≤ lower := fine.1
    rw [step_malformed (by omega), lead_ascii ascii]
    rfl

theorem step_other {state : State} (fine : state.Fine) {byte : Nat} (other : 128 ≤ byte) :
    (step state byte).2.Fine ∧ ∀ char ∈ (step state byte).1, 128 ≤ char.toNat := by
  cases state with
  | start => exact lead_other other
  | inside needed lower upper point =>
    by_cases inRange : lower ≤ byte ∧ byte ≤ upper
    · cases needed with
      | zero =>
        rw [step_last inRange]
        refine ⟨trivial, fun char member => ?_⟩
        rw [List.mem_singleton.mp member]
        exact fine.2 byte inRange.1 inRange.2
      | succ needed =>
        rw [step_more inRange]
        exact ⟨⟨le_refl _, fine.2 byte inRange.1 inRange.2⟩, fun char member => by cases member⟩
    · rw [step_malformed inRange]
      refine ⟨(lead_other other).1, fun char member => ?_⟩
      rcases List.mem_cons.mp member with rfl | ofLead
      · decide
      · exact (lead_other other).2 char ofLead

theorem decodeFrom_nil (state : State) : decodeFrom state [] = state.ends := by
  cases state <;> rfl

/-- A byte of ASCII between two texts. -/
theorem decodeFrom_append_ascii {state : State} (fine : state.Fine) {byte : UInt8}
    (ascii : byte.toNat < 128) (before after : Bytes) :
    decodeFrom state (before ++ byte :: after) =
      decodeFrom state before ++ Char.ofNat byte.toNat :: decodeFrom .start after := by
  induction before generalizing state with
  | nil =>
    rw [List.nil_append, decodeFrom_nil, decodeFrom, step_ascii fine ascii]
    exact List.append_assoc _ _ _
  | cons first rest inductionHypothesis =>
    have next : (step state first.toNat).2.Fine := by
      by_cases isAscii : first.toNat < 128
      · rw [step_ascii fine isAscii]
        trivial
      · exact (step_other fine (by omega)).1
    rw [List.cons_append, decodeFrom, inductionHypothesis next, decodeFrom, List.append_assoc]

/-! ### Cutting bytes at a character of ASCII -/

theorem ends_not_ascii (state : State) : ∀ char ∈ state.ends, 128 ≤ char.toNat := by
  cases state with
  | start => exact fun char member => by cases member
  | inside needed lower upper point =>
    intro char member
    rw [List.mem_singleton.mp member]
    decide

/-- Of a text with a character of ASCII, characters that are not come wholly before it. -/
theorem append_eq_append_ascii {others before after rest : List Char} {char : Char}
    (notAscii : ∀ other ∈ others, 128 ≤ other.toNat) (ascii : char.toNat < 128)
    (same : others ++ rest = before ++ char :: after) :
    ∃ middle, before = others ++ middle ∧ rest = middle ++ char :: after := by
  obtain ⟨middle, sameBefore, sameRest⟩ | ⟨middle, sameOthers, sameRest⟩ :=
    List.append_eq_append_iff.mp same
  · exact ⟨middle, sameBefore, sameRest⟩
  · cases middle with
    | nil =>
      rw [List.append_nil] at sameOthers
      exact ⟨[], by rw [sameOthers, List.append_nil], sameRest.symm⟩
    | cons first middle =>
      have isFirst : char = first := (List.cons.inj sameRest).1
      have member : char ∈ others := by
        rw [sameOthers, isFirst]
        exact List.mem_append_right _ List.mem_cons_self
      exact absurd (notAscii char member) (by omega)

theorem cut_ascii {bytes : Bytes} : ∀ {state : State} {before after : List Char} {char : Char},
    state.Fine → char.toNat < 128 → decodeFrom state bytes = before ++ char :: after →
      ∃ front byte back, bytes = front ++ byte :: back ∧ byte.toNat = char.toNat ∧
        decodeFrom state front = before ∧ decodeFrom .start back = after := by
  induction bytes with
  | nil =>
    intro state before after char _ ascii same
    rw [decodeFrom_nil] at same
    have member : char ∈ state.ends := by simp [same]
    exact absurd (ends_not_ascii state char member) (by omega)
  | cons first rest inductionHypothesis =>
    intro state before after char fine ascii same
    rw [decodeFrom] at same
    by_cases isAscii : first.toNat < 128
    · rw [step_ascii fine isAscii, List.append_assoc] at same
      obtain ⟨middle, rfl, isMiddle⟩ := append_eq_append_ascii (ends_not_ascii state) ascii same
      have value : (Char.ofNat first.toNat).toNat = first.toNat :=
        toNat_ofNat_of_valid (.inl (by omega))
      cases middle with
      | nil =>
        obtain ⟨isChar, isAfter⟩ := List.cons.inj isMiddle
        refine ⟨[], first, rest, rfl, by rw [← isChar, value], ?_, isAfter⟩
        rw [decodeFrom_nil, List.append_nil]
      | cons head middle =>
        obtain ⟨isHead, isAfter⟩ := List.cons.inj isMiddle
        obtain ⟨front, byte, back, rfl, isByte, isFront, isBack⟩ :=
          @inductionHypothesis .start middle after char trivial ascii isAfter
        refine ⟨first :: front, byte, back, rfl, isByte, ?_, isBack⟩
        rw [decodeFrom, step_ascii fine isAscii, List.append_assoc, isFront, ← isHead]
        rfl
    · obtain ⟨nextFine, notAscii⟩ := step_other fine (Nat.le_of_not_lt isAscii)
      obtain ⟨middle, rfl, isMiddle⟩ := append_eq_append_ascii notAscii ascii same
      obtain ⟨front, byte, back, rfl, isByte, isFront, isBack⟩ :=
        inductionHypothesis nextFine ascii isMiddle
      exact ⟨first :: front, byte, back, rfl, isByte, by rw [decodeFrom, isFront], isBack⟩

theorem decodeFrom_ne_nil {bytes : Bytes} : ∀ {needed lower upper point : Nat},
    decodeFrom (.inside needed lower upper point) bytes ≠ [] := by
  induction bytes with
  | nil => exact fun same => by cases same
  | cons first rest inductionHypothesis =>
    intro needed lower upper point same
    rw [decodeFrom] at same
    by_cases inRange : lower ≤ first.toNat ∧ first.toNat ≤ upper
    · cases needed with
      | zero =>
        rw [step_last inRange] at same
        cases same
      | succ needed =>
        rw [step_more inRange] at same
        exact inductionHypothesis same
    · rw [step_malformed inRange] at same
      cases same

theorem eq_nil_of_decodeFrom {bytes : Bytes} (empty : decodeFrom .start bytes = []) :
    bytes = [] := by
  cases bytes with
  | nil => rfl
  | cons first rest =>
    rw [decodeFrom, step, lead] at empty
    split at empty
    · cases empty
    split at empty
    · exact absurd empty decodeFrom_ne_nil
    split at empty
    · exact absurd empty decodeFrom_ne_nil
    split at empty
    · exact absurd empty decodeFrom_ne_nil
    · cases empty

/-- The bytes of a text that begins with a character of ASCII. -/
theorem cons_of_ascii {bytes : Bytes} {char : Char} {text : List Char} (ascii : char.toNat < 128)
    (decodes : decodeFrom .start bytes = char :: text) :
    ∃ rest, bytes = UInt8.ofNat char.toNat :: rest ∧ decodeFrom .start rest = text := by
  obtain ⟨front, byte, back, rfl, isByte, isFront, isBack⟩ :=
    @cut_ascii bytes .start [] text char trivial ascii decodes
  obtain rfl := eq_nil_of_decodeFrom isFront
  refine ⟨back, ?_, isBack⟩
  rw [← isByte, UInt8.ofNat_toNat]
  rfl

theorem run_of_inside {bytes : Bytes} {char : Char} {text : List Char} :
    ∀ {needed lower upper point : Nat}, (State.inside needed lower upper point).Fine →
      decodeFrom (.inside needed lower upper point) bytes = char :: text →
      ∃ run rest, bytes = run ++ rest ∧ (∀ byte ∈ run, 128 ≤ byte.toNat) ∧
        decodeFrom .start rest = text := by
  induction bytes with
  | nil =>
    intro needed lower upper point _ decodes
    exact ⟨[], [], rfl, fun byte member => (by cases member), (List.cons.inj decodes).2⟩
  | cons first rest inductionHypothesis =>
    intro needed lower upper point fine decodes
    rw [decodeFrom] at decodes
    by_cases inRange : lower ≤ first.toNat ∧ first.toNat ≤ upper
    · have other : 128 ≤ first.toNat := le_trans fine.1 inRange.1
      cases needed with
      | zero =>
        rw [step_last inRange] at decodes
        refine ⟨[first], rest, rfl, fun byte member => ?_, (List.cons.inj decodes).2⟩
        exact List.mem_singleton.mp member ▸ other
      | succ needed =>
        rw [step_more inRange] at decodes
        obtain ⟨run, after, rfl, high, isText⟩ :=
          inductionHypothesis ⟨le_refl _, fine.2 first.toNat inRange.1 inRange.2⟩ decodes
        exact ⟨first :: run, after, rfl, List.forall_mem_cons.mpr ⟨other, high⟩, isText⟩
    · rw [step_malformed inRange] at decodes
      exact ⟨[], first :: rest, rfl, fun byte member => (by cases member),
        (List.cons.inj decodes).2⟩

/-- The bytes of a text that begins with another character. -/
theorem run_of_not_ascii {bytes : Bytes} {char : Char} {text : List Char}
    (notAscii : 128 ≤ char.toNat) (decodes : decodeFrom .start bytes = char :: text) :
    ∃ run rest, bytes = run ++ rest ∧ (∀ byte ∈ run, 128 ≤ byte.toNat) ∧
      decodeFrom .start rest = text := by
  cases bytes with
  | nil => cases decodes
  | cons first rest =>
    by_cases ascii : first.toNat < 128
    · rw [decodeFrom, step, lead_ascii ascii] at decodes
      obtain rfl := (List.cons.inj decodes).1
      rw [toNat_ofNat_of_valid (.inl (by omega))] at notAscii
      exact absurd ascii (by omega)
    · have other : 128 ≤ first.toNat := by omega
      rw [decodeFrom, step] at decodes
      cases next : (lead first.toNat).2 with
      | start =>
        have alone : (lead first.toNat).1 = [replacement] := by
          revert next
          rw [lead, if_neg (by omega)]
          split
          · exact fun isStart => by cases isStart
          split
          · exact fun isStart => by cases isStart
          split
          · exact fun isStart => by cases isStart
          · exact fun _ => rfl
        rw [next, alone] at decodes
        refine ⟨[first], rest, rfl, fun byte member => ?_, (List.cons.inj decodes).2⟩
        exact List.mem_singleton.mp member ▸ other
      | inside needed lower upper point =>
        have none : (lead first.toNat).1 = [] := by
          revert next
          rw [lead, if_neg (by omega)]
          split
          · exact fun _ => rfl
          split
          · exact fun _ => rfl
          split
          · exact fun _ => rfl
          · exact fun isInside => by cases isInside
        rw [next, none, List.nil_append] at decodes
        obtain ⟨run, after, rfl, high, isText⟩ :=
          run_of_inside (next ▸ (lead_other other).1) decodes
        exact ⟨first :: run, after, rfl, List.forall_mem_cons.mpr ⟨other, high⟩, isText⟩

/-! ### Lines of decoded bytes -/

theorem newline_not_mem_decodeFrom {bytes : Bytes} (unbroken : newline ∉ bytes) :
    '\n' ∉ decodeFrom .start bytes := by
  intro inside
  obtain ⟨before, after, same⟩ := List.append_of_mem inside
  obtain ⟨front, byte, back, rfl, isByte, -, -⟩ := cut_ascii State.fine_start (by decide) same
  refine unbroken (List.mem_append_right _ (List.mem_cons.mpr (.inl ?_)))
  exact (UInt8.toNat_inj.mp isByte).symm

theorem decodeFrom_terminated (lines : List Bytes) (rest : Bytes) :
    decodeFrom .start (Lines.terminated newline lines ++ rest) =
      Lines.terminated '\n' (lines.map (decodeFrom .start)) ++ decodeFrom .start rest := by
  induction lines with
  | nil => rfl
  | cons line lines inductionHypothesis =>
    rw [List.map_cons, Lines.terminated_cons, Lines.terminated_cons, List.append_assoc,
      List.cons_append, decodeFrom_append_ascii State.fine_start (by decide), inductionHypothesis,
      List.append_assoc, List.cons_append]
    rfl

/-- Bytes decode line by line, well formed or not. -/
theorem split_decodeFrom (bytes : Bytes) :
    Lines.split '\n' (decodeFrom .start bytes) =
      (Lines.split newline bytes).map (decodeFrom .start) := by
  obtain ⟨lines, rest, rfl, unbroken, last⟩ := Lines.exists_terminated newline bytes
  rw [decodeFrom_terminated, Lines.split_form newline unbroken last,
    Lines.split_form '\n' _ (newline_not_mem_decodeFrom last), List.map_append]
  · rfl
  · exact List.forall_mem_map.mpr fun line member =>
      newline_not_mem_decodeFrom (unbroken line member)

theorem records_decodeFrom (bytes : Bytes) :
    Lines.records '\n' (decodeFrom .start bytes) =
      (Lines.records newline bytes).map (decodeFrom .start) := by
  rw [Lines.records, split_decodeFrom, ← List.map_dropLast]
  rfl

end Utf8
