/-
This file develops texts of newline-terminated records, over any alphabet with a
distinguished newline. Every text is, in one way, a list of records each followed
by a newline and then an unfinished rest without one; splitting, dropping the
unfinished rest and joining are all computed from that form. Two further sections
say when a text keeps all of another one, an order, and what happens to the records
when a text is cut in the middle of one.
-/

import Mathlib.Data.List.DropRight
import Mathlib.Data.List.Nodup
import Mathlib.Data.List.Perm.Subperm

namespace Lines

variable {Symbol : Type} (newline : Symbol)

/-! ### Texts of records -/

/-- Each record followed by a newline. -/
def terminated (lines : List (List Symbol)) : List Symbol :=
  lines.flatMap (· ++ [newline])

/-- Records cannot contain a newline. -/
def Unbroken (lines : List (List Symbol)) : Prop :=
  ∀ line ∈ lines, newline ∉ line

theorem terminated_cons (line : List Symbol) (lines : List (List Symbol)) :
    terminated newline (line :: lines) = line ++ newline :: terminated newline lines := by
  simp [terminated]

theorem terminated_append (first second : List (List Symbol)) :
    terminated newline (first ++ second) =
      terminated newline first ++ terminated newline second :=
  List.flatMap_append

theorem terminated_eq_nil_iff (lines : List (List Symbol)) :
    terminated newline lines = [] ↔ lines = [] := by
  cases lines with
  | nil => simp [terminated]
  | cons line lines => simp [terminated_cons]

/-- The form every text has. -/
theorem exists_terminated (text : List Symbol) :
    ∃ lines rest, text = terminated newline lines ++ rest ∧ Unbroken newline lines ∧
      newline ∉ rest := by
  induction text with
  | nil => exact ⟨[], [], rfl, by simp [Unbroken], List.not_mem_nil⟩
  | cons symbol text inductionHypothesis =>
    obtain ⟨lines, rest, whole, unbroken, unfinished⟩ := inductionHypothesis
    by_cases same : symbol = newline
    · refine ⟨[] :: lines, rest, ?_, ?_, unfinished⟩
      · rw [terminated_cons, whole, same]
        rfl
      · exact List.forall_mem_cons.mpr ⟨List.not_mem_nil, unbroken⟩
    · cases lines with
      | nil =>
        refine ⟨[], symbol :: rest, by rw [whole]; rfl, unbroken, ?_⟩
        rw [List.mem_cons, not_or]
        exact ⟨Ne.symm same, unfinished⟩
      | cons line lines =>
        rw [Unbroken, List.forall_mem_cons] at unbroken
        refine ⟨(symbol :: line) :: lines, rest, ?_, ?_, unfinished⟩
        · rw [whole, terminated_cons, terminated_cons]
          rfl
        · refine List.forall_mem_cons.mpr ⟨?_, unbroken.2⟩
          rw [List.mem_cons, not_or]
          exact ⟨Ne.symm same, unbroken.1⟩

theorem unbroken_append {first second : List (List Symbol)} :
    Unbroken newline (first ++ second) ↔ Unbroken newline first ∧ Unbroken newline second :=
  List.forall_mem_append

theorem ends_with_newline {lines : List (List Symbol)} (present : lines ≠ []) :
    ∃ start, terminated newline lines = start ++ [newline] := by
  induction lines using List.reverseRecOn with
  | nil => exact absurd rfl present
  | append_singleton lines line _ =>
    exact ⟨terminated newline lines ++ line, by simp [terminated]⟩

/-- A text is empty or ends with a newline exactly when its last record is finished. -/
theorem finished_iff {lines : List (List Symbol)} {rest : List Symbol} (last : newline ∉ rest) :
    (terminated newline lines ++ rest = [] ∨
      (terminated newline lines ++ rest).getLast? = some newline) ↔ rest = [] := by
  constructor
  · intro ending
    by_contra present
    rcases ending with empty | newlineLast
    · exact present (List.append_eq_nil_iff.mp empty).2
    · rw [List.getLast?_append_of_ne_nil _ present] at newlineLast
      exact last (List.mem_of_getLast? newlineLast)
  · intro empty
    rw [empty, List.append_nil]
    by_cases none : lines = []
    · exact Or.inl ((terminated_eq_nil_iff newline lines).mpr none)
    · obtain ⟨start, ends⟩ := ends_with_newline newline none
      exact Or.inr (by rw [ends, List.getLast?_concat])

/-- `lines.join("\n") + "\n"` -/
theorem intercalate_append_newline {lines : List (List Symbol)} (present : lines ≠ []) :
    List.intercalate [newline] lines ++ [newline] = terminated newline lines := by
  induction lines with
  | nil => exact absurd rfl present
  | cons line lines inductionHypothesis =>
    rw [terminated_cons]
    cases lines with
    | nil => simp [List.intercalate, terminated]
    | cons next lines =>
      rw [← inductionHypothesis (by simp)]
      simp [List.intercalate, List.append_assoc]

theorem rdropWhile_append_of_forall {keep : Symbol → Bool} (text tail : List Symbol)
    (all : ∀ symbol ∈ tail, keep symbol = true) :
    (text ++ tail).rdropWhile keep = text.rdropWhile keep := by
  induction tail using List.reverseRecOn with
  | nil => rw [List.append_nil]
  | append_singleton tail symbol inductionHypothesis =>
    rw [← List.append_assoc, List.rdropWhile_concat_pos _ _ _ (all symbol (by simp))]
    exact inductionHypothesis fun other member => all other (by simp [member])

/-! ### Splitting and joining -/

section Form

variable [DecidableEq Symbol]

/-- `text.split("\n")` -/
def split : List Symbol → List (List Symbol)
  | [] => [[]]
  | symbol :: rest =>
      if symbol = newline then [] :: split rest
      else
        match split rest with
        | [] => [[symbol]]
        | line :: lines => (symbol :: line) :: lines

/-- The records of a text: its complete lines. -/
def records (text : List Symbol) : List (List Symbol) :=
  (split newline text).dropLast

/-- What follows the last newline. -/
def unfinished (text : List Symbol) : List Symbol :=
  text.rtakeWhile (· ≠ newline)

/-- Everything up to the last newline, that newline included. -/
def complete (text : List Symbol) : List Symbol :=
  text.rdropWhile (· ≠ newline)

theorem split_of_unbroken {line : List Symbol} (unbroken : newline ∉ line) :
    split newline line = [line] := by
  induction line with
  | nil => rfl
  | cons symbol rest inductionHypothesis =>
    rw [List.mem_cons, not_or] at unbroken
    rw [split, if_neg (Ne.symm unbroken.1), inductionHypothesis unbroken.2]

theorem split_line_append {line : List Symbol} (unbroken : newline ∉ line)
    (rest : List Symbol) :
    split newline (line ++ newline :: rest) = line :: split newline rest := by
  induction line with
  | nil => rw [List.nil_append, split, if_pos rfl]
  | cons symbol line inductionHypothesis =>
    rw [List.mem_cons, not_or] at unbroken
    rw [List.cons_append, split, if_neg (Ne.symm unbroken.1), inductionHypothesis unbroken.2]

theorem split_terminated_append {lines : List (List Symbol)} (unbroken : Unbroken newline lines)
    (rest : List Symbol) :
    split newline (terminated newline lines ++ rest) = lines ++ split newline rest := by
  induction lines with
  | nil => rfl
  | cons line lines inductionHypothesis =>
    rw [Unbroken, List.forall_mem_cons] at unbroken
    rw [terminated_cons, List.append_assoc, List.cons_append, split_line_append newline unbroken.1,
      inductionHypothesis unbroken.2, List.cons_append]

/-- `lines.join("\n")` splits into the lines. -/
theorem split_intercalate {lines : List (List Symbol)} (present : lines ≠ [])
    (unbroken : Unbroken newline lines) :
    split newline (List.intercalate [newline] lines) = lines := by
  induction lines with
  | nil => exact absurd rfl present
  | cons line lines inductionHypothesis =>
    rw [Unbroken, List.forall_mem_cons] at unbroken
    cases lines with
    | nil => rw [List.intercalate_singleton, split_of_unbroken newline unbroken.1]
    | cons next lines =>
      rw [List.intercalate_cons_cons, List.append_assoc, List.singleton_append,
        split_line_append newline unbroken.1,
        inductionHypothesis (List.cons_ne_nil _ _) unbroken.2]

variable {lines : List (List Symbol)} {rest : List Symbol}

theorem split_form (unbroken : Unbroken newline lines) (last : newline ∉ rest) :
    split newline (terminated newline lines ++ rest) = lines ++ [rest] := by
  rw [split_terminated_append newline unbroken, split_of_unbroken newline last]

theorem records_form (unbroken : Unbroken newline lines) (last : newline ∉ rest) :
    records newline (terminated newline lines ++ rest) = lines := by
  rw [records, split_form newline unbroken last, List.dropLast_concat]

theorem complete_form (last : newline ∉ rest) :
    complete newline (terminated newline lines ++ rest) = terminated newline lines := by
  have all : ∀ symbol ∈ rest, decide (symbol ≠ newline) = true := by
    intro symbol member
    exact decide_eq_true fun equal => last (equal ▸ member)
  rw [complete, rdropWhile_append_of_forall _ _ all]
  by_cases empty : lines = []
  · rw [empty]
    rfl
  · obtain ⟨start, ends⟩ := ends_with_newline newline empty
    rw [ends, List.rdropWhile_concat_neg _ _ _ (by simp)]

theorem unfinished_form (last : newline ∉ rest) :
    unfinished newline (terminated newline lines ++ rest) = rest := by
  have all : ∀ symbol ∈ rest.reverse, decide (symbol ≠ newline) = true := by
    intro symbol member
    exact decide_eq_true fun equal => last (equal ▸ List.mem_reverse.mp member)
  rw [unfinished, List.rtakeWhile, List.reverse_append, List.takeWhile_append_of_pos all]
  by_cases empty : lines = []
  · rw [empty]
    simp [terminated]
  · obtain ⟨start, ends⟩ := ends_with_newline newline empty
    rw [ends]
    simp

/-- `text.slice(0, -1).split("\n")` of a text that ends with a newline. -/
theorem split_dropLast_terminated (unbroken : Unbroken newline lines) (present : lines ≠ []) :
    split newline (terminated newline lines).dropLast = lines := by
  induction lines using List.reverseRecOn with
  | nil => exact absurd rfl present
  | append_singleton lines line _ =>
    have first : Unbroken newline lines := fun other member => unbroken other (by simp [member])
    have final : newline ∉ line := unbroken line (by simp)
    have text : terminated newline (lines ++ [line]) =
        (terminated newline lines ++ line) ++ [newline] := by simp [terminated]
    rw [text, List.dropLast_concat, split_form newline first final]

/-- The lines of a text that is empty or ends with a newline. -/
theorem lines_of_terminated (unbroken : Unbroken newline lines) :
    (if terminated newline lines ≠ [] then split newline (terminated newline lines).dropLast
      else []) = lines := by
  by_cases empty : lines = []
  · rw [empty]
    rfl
  · have present : terminated newline lines ≠ [] :=
      fun equal => empty ((terminated_eq_nil_iff newline lines).mp equal)
    rw [if_pos present, split_dropLast_terminated newline unbroken empty]

/-- Appending whole records to a text that ends with a newline, or is empty, appends them to its
records. -/
theorem records_append_terminated {first second : List (List Symbol)}
    (unbroken : Unbroken newline (first ++ second)) :
    records newline (terminated newline first ++ terminated newline second) = first ++ second := by
  have form := records_form newline unbroken (List.not_mem_nil (a := newline))
  rwa [List.append_nil, terminated_append] at form

end Form

/-! ### Texts that keep all of another -/

section Retaining

variable [DecidableEq Symbol]

/-- Every occurrence of a record in the older text has one in the newer text, and the older one's
unfinished rest begins one of the newer one's lines. -/
def Retains (newer older : List Symbol) : Prop :=
  List.Subperm (records newline older) (records newline newer) ∧
    ∃ line ∈ split newline newer, unfinished newline older <+: line

variable {newline}

theorem split_eq (text : List Symbol) :
    split newline text = records newline text ++ [unfinished newline text] := by
  obtain ⟨lines, rest, rfl, unbroken, last⟩ := exists_terminated newline text
  rw [split_form newline unbroken last, records_form newline unbroken last,
    unfinished_form newline last]

theorem Retains.refl (text : List Symbol) : Retains newline text text := by
  refine ⟨.refl _, unfinished newline text, ?_, List.prefix_rfl⟩
  rw [split_eq]
  exact List.mem_append_right _ List.mem_cons_self

theorem Retains.trans {newest newer older : List Symbol} (second : Retains newline newest newer)
    (first : Retains newline newer older) : Retains newline newest older := by
  refine ⟨first.1.trans second.1, ?_⟩
  obtain ⟨line, member, begins⟩ := first.2
  rw [split_eq, List.mem_append, List.mem_singleton] at member
  rcases member with isRecord | rfl
  · -- The line has been finished since, and is a record of the newest text too.
    refine ⟨line, ?_, begins⟩
    rw [split_eq]
    exact List.mem_append_left _ (second.1.subset isRecord)
  · obtain ⟨longer, member, goesOn⟩ := second.2
    exact ⟨longer, member, begins.trans goesOn⟩

/-- A line that is written on is the beginning of a line. -/
theorem exists_line_of_unbroken {rest : List Symbol} (last : newline ∉ rest) (more : List Symbol) :
    ∃ line ∈ split newline (rest ++ more), rest <+: line := by
  obtain ⟨lines, ending, rfl, unbroken, lastOfMore⟩ := exists_terminated newline more
  cases lines with
  | nil =>
    have whole : newline ∉ rest ++ ending := by
      rw [List.mem_append, not_or]
      exact ⟨last, lastOfMore⟩
    refine ⟨rest ++ ending, ?_, List.prefix_append _ _⟩
    rw [terminated, List.flatMap_nil, List.nil_append, split_of_unbroken newline whole]
    exact List.mem_cons_self
  | cons line lines =>
    have whole : newline ∉ rest ++ line := by
      rw [List.mem_append, not_or]
      exact ⟨last, unbroken line List.mem_cons_self⟩
    refine ⟨rest ++ line, ?_, List.prefix_append _ _⟩
    rw [terminated_cons, List.append_assoc, List.cons_append, ← List.append_assoc,
      split_line_append newline whole]
    exact List.mem_cons_self

/-- A text that another one continues is kept. -/
theorem Retains.of_continued {newer older : List Symbol} (continues : older <+: newer) :
    Retains newline newer older := by
  obtain ⟨more, rfl⟩ := continues
  obtain ⟨lines, rest, rfl, unbroken, last⟩ := exists_terminated newline older
  have whole : split newline (terminated newline lines ++ rest ++ more) =
      lines ++ split newline (rest ++ more) := by
    rw [List.append_assoc, split_terminated_append newline unbroken]
  constructor
  · have present : split newline (rest ++ more) ≠ [] := by
      rw [split_eq]
      exact List.append_ne_nil_of_right_ne_nil _ (List.cons_ne_nil _ _)
    rw [records_form newline unbroken last, records, whole,
      List.dropLast_append_of_ne_nil present]
    exact (List.sublist_append_left _ _).subperm
  · obtain ⟨line, member, begins⟩ := exists_line_of_unbroken last more
    rw [whole, unfinished_form newline last]
    exact ⟨line, List.mem_append_right _ member, begins⟩

/-- A text whose last line is finished is kept where its records are. -/
theorem Retains.of_finished {newer older : List Symbol} (ends : older.getLast? = some newline)
    (present : List.Subperm (records newline older) (records newline newer)) :
    Retains newline newer older := by
  obtain ⟨lines, rest, rfl, unbroken, last⟩ := exists_terminated newline older
  have finished : rest = [] := (finished_iff newline last).mp (.inr ends)
  refine ⟨present, unfinished newline newer, ?_, ?_⟩
  · rw [split_eq]
    exact List.mem_append_right _ List.mem_cons_self
  · rw [unfinished_form newline last, finished]
    exact List.nil_prefix

end Retaining

/-! ### A text cut in the middle of a record -/

/-- The records that follow a cut, when the cut left `fragment` before it: the first line goes on
the fragment. -/
def rejoin (fragment : List Symbol) : List (List Symbol) → List (List Symbol)
  | [] => []
  | line :: lines => (fragment ++ line) :: lines

theorem rejoin_nil_fragment (lines : List (List Symbol)) : rejoin [] lines = lines := by
  cases lines <;> rfl

theorem unbroken_rejoin {fragment : List Symbol} {lines : List (List Symbol)}
    (whole : newline ∉ fragment) (unbroken : Unbroken newline lines) :
    Unbroken newline (rejoin fragment lines) := by
  cases lines with
  | nil => exact unbroken
  | cons line lines =>
    rw [Unbroken, List.forall_mem_cons] at unbroken
    refine List.forall_mem_cons.mpr ⟨?_, unbroken.2⟩
    rw [List.mem_append, not_or]
    exact ⟨whole, unbroken.1⟩

/-- A fragment before terminated lines is a fragment before the first of them. -/
theorem fragment_append_terminated (fragment : List Symbol) {lines : List (List Symbol)}
    (present : lines ≠ []) :
    fragment ++ terminated newline lines = terminated newline (rejoin fragment lines) := by
  cases lines with
  | nil => exact absurd rfl present
  | cons line lines => simp [rejoin, terminated_cons]

variable [DecidableEq Symbol]

/-- The records of a text cut after `fragment`, whose rest is terminated lines and `tail`. -/
theorem records_cut {before after : List (List Symbol)} {fragment tail : List Symbol}
    (unbrokenBefore : Unbroken newline before) (unbrokenAfter : Unbroken newline after)
    (whole : newline ∉ fragment) (last : newline ∉ tail) :
    records newline (terminated newline before ++ fragment ++ (terminated newline after ++ tail)) =
      before ++ rejoin fragment after := by
  by_cases empty : after = []
  · subst empty
    have joined : newline ∉ fragment ++ tail := by
      rw [List.mem_append, not_or]
      exact ⟨whole, last⟩
    have form := records_form newline unbrokenBefore joined
    simpa [terminated, rejoin, List.append_assoc] using form
  · have text : terminated newline before ++ fragment ++ (terminated newline after ++ tail) =
        terminated newline (before ++ rejoin fragment after) ++ tail := by
      rw [terminated_append, ← fragment_append_terminated newline fragment empty]
      simp only [List.append_assoc]
    rw [text, records_form newline _ last]
    exact (unbroken_append newline).mpr
      ⟨unbrokenBefore, unbroken_rejoin newline whole unbrokenAfter⟩

/-! ### Reading in parts -/

theorem unbroken_records (text : List Symbol) : Unbroken newline (records newline text) := by
  obtain ⟨lines, rest, rfl, unbroken, last⟩ := exists_terminated newline text
  rw [records_form newline unbroken last]
  exact unbroken

theorem records_eq_nil_iff (text : List Symbol) : records newline text = [] ↔ newline ∉ text := by
  obtain ⟨lines, rest, rfl, unbroken, last⟩ := exists_terminated newline text
  rw [records_form newline unbroken last]
  cases lines with
  | nil => exact iff_of_true rfl last
  | cons line lines =>
    rw [terminated_cons]
    simp

theorem prefix_of_terminated {first second : List (List Symbol)} (unbroken : Unbroken newline first)
    (unbrokenSecond : Unbroken newline second)
    (within : terminated newline first <+: terminated newline second) : first <+: second := by
  obtain ⟨rest, whole⟩ := within
  have read := split_terminated_append newline unbroken rest
  have form := split_form newline unbrokenSecond (List.not_mem_nil (a := newline))
  rw [List.append_nil] at form
  rw [whole, form, split_eq, ← List.append_assoc] at read
  obtain ⟨same, -⟩ := List.append_inj' read rfl
  exact ⟨records newline rest, same.symm⟩

/-- A part of a text completes its records and begins the line that the rest goes on. -/
theorem split_append (first second : List Symbol) :
    split newline (first ++ second) =
      records newline first ++ split newline (unfinished newline first ++ second) := by
  obtain ⟨lines, rest, rfl, unbroken, last⟩ := exists_terminated newline first
  rw [List.append_assoc, split_terminated_append newline unbroken, records_form newline unbroken last,
    unfinished_form newline last]

theorem append_parts (first second : List Symbol) :
    records newline (first ++ second) =
        records newline first ++ records newline (unfinished newline first ++ second) ∧
      unfinished newline (first ++ second) =
        unfinished newline (unfinished newline first ++ second) := by
  have whole := split_append newline first second
  rw [split_eq, split_eq, ← List.append_assoc] at whole
  obtain ⟨records, unfinished⟩ := List.append_inj' whole rfl
  exact ⟨records, List.singleton_injective unfinished⟩

section Rewriting

variable {Other : Type} {other : Other} {rewrite : Symbol → List Other}

omit [DecidableEq Symbol] in
theorem terminated_flatMap (kept : rewrite newline = [other]) (lines : List (List Symbol)) :
    (terminated newline lines).flatMap rewrite =
      terminated other (lines.map (·.flatMap rewrite)) := by
  induction lines with
  | nil => rfl
  | cons line lines inductionHypothesis =>
    rw [List.map_cons, terminated_cons, terminated_cons, List.flatMap_append, List.flatMap_cons, kept,
      inductionHypothesis]
    rfl

variable [DecidableEq Other]

/-- Rewriting every symbol but newlines rewrites every line. -/
theorem split_flatMap (only : ∀ symbol, other ∈ rewrite symbol → symbol = newline)
    (kept : rewrite newline = [other]) (text : List Symbol) :
    split other (text.flatMap rewrite) = (split newline text).map (·.flatMap rewrite) := by
  have absent {line : List Symbol} (unbroken : newline ∉ line) : other ∉ line.flatMap rewrite := by
    intro inside
    obtain ⟨symbol, member, there⟩ := List.mem_flatMap.mp inside
    exact unbroken (only symbol there ▸ member)
  obtain ⟨lines, rest, rfl, unbroken, last⟩ := exists_terminated newline text
  rw [List.flatMap_append, terminated_flatMap newline kept, split_form newline unbroken last,
    split_form other (List.forall_mem_map.mpr fun line member => absent (unbroken line member))
      (absent last), List.map_append]
  rfl

end Rewriting

end Lines
