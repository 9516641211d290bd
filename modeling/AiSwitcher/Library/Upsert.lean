/-
This file develops keyed tables and the merge of one table into another row by row: a
row with a new key is added, a row whose key is there is joined with the row it meets,
and a merge fails where a changed row violates another unique constraint.

`Rules.upsertAll_eq_some` says when a merge succeeds and what it gives. When the join
of two rows absorbs both of them, `Rules.mem_union_back` says that two tables merged
into each other, one after the other, end with the same rows, and
`Rules.upsertAll_again` that merging again changes nothing.
-/

import Mathlib.Data.List.Nodup

namespace Upsert

/-- The key of a row, what becomes of a row when another one with its key arrives, and whether two
rows with different keys violate another unique constraint. -/
structure Rules (Row Key : Type) where
  key : Row → Key
  onConflict : Row → Row → Row
  clash : Row → Row → Bool

variable {Row Key : Type} [DecidableEq Key] (rules : Rules Row Key)

namespace Rules

/-! ### Merging -/

/-- The table after a row has arrived. -/
def put (table : List Row) (row : Row) : List Row :=
  if (table.map rules.key).contains (rules.key row) then
    table.map fun other => if rules.key other = rules.key row then rules.onConflict other row else other
  else table ++ [row]

/-- The row that arrived leaves the other rows unique. -/
def admits (table : List Row) (row : Row) : Bool :=
  (rules.put table row).all fun changed => rules.key changed != rules.key row ||
    table.all fun other => rules.key other == rules.key row || !rules.clash other changed

/-- `INSERT … ON CONFLICT (key) DO UPDATE` of one row. -/
def upsert (table : List Row) (row : Row) : Option (List Row) :=
  if rules.admits table row then some (rules.put table row) else none

def upsertAll (table : List Row) : List Row → Option (List Row)
  | [] => some table
  | row :: rest => (rules.upsert table row).bind fun changed => upsertAll changed rest

/-- The rows of both tables, those with the same key joined. -/
def union (table rows : List Row) : List Row :=
  (table.map fun other =>
    (rows.find? fun row => rules.key row = rules.key other).elim other (rules.onConflict other)) ++
    rows.filter fun row => !(table.map rules.key).contains (rules.key row)

/-- No row that arrives clashes with a row that is there by then: one that arrived before, or one
that has not been met yet. -/
def ClashFree (table rows : List Row) : Prop :=
  ∀ before row after, rows = before ++ row :: after →
    rules.admits (rules.union table before) row = true

/-- The rows of the table are unique. -/
def Unclashing (table : List Row) : Prop :=
  ∀ left ∈ table, ∀ right ∈ table, rules.key left ≠ rules.key right → rules.clash left right = false

def Distinct (table : List Row) : Prop := (table.map rules.key).Nodup

/-- A join is a row with the same key that absorbs both rows. -/
structure Lawful : Prop where
  key : ∀ left right, rules.key left = rules.key right →
    rules.key (rules.onConflict left right) = rules.key left
  same : ∀ row, rules.onConflict row row = row
  again : ∀ left right, rules.key left = rules.key right →
    rules.onConflict (rules.onConflict left right) right = rules.onConflict left right
  back : ∀ left right, rules.key left = rules.key right →
    rules.onConflict right (rules.onConflict left right) = rules.onConflict left right
  symmetric : ∀ left right, rules.clash left right = rules.clash right left

variable {rules} {table rows rest : List Row} {row : Row}

/-! ### One row -/

theorem mem_keys {key : Key} :
    (table.map rules.key).contains key = true ↔ ∃ other ∈ table, rules.key other = key := by
  rw [List.contains_iff_mem, List.mem_map]

theorem keys_put (lawful : rules.Lawful) :
    (rules.put table row).map rules.key = if (table.map rules.key).contains (rules.key row) then
      table.map rules.key else table.map rules.key ++ [rules.key row] := by
  unfold put
  split_ifs with known
  · rw [List.map_map]
    refine List.map_congr_left fun other _ => ?_
    show rules.key (if _ then _ else _) = _
    split_ifs with same
    · exact lawful.key other row same
    · rfl
  · rw [List.map_append, List.map_singleton]

theorem distinct_put (lawful : rules.Lawful) (distinct : rules.Distinct table) :
    rules.Distinct (rules.put table row) := by
  unfold Distinct at distinct ⊢
  rw [keys_put lawful]
  split_ifs with known
  · exact distinct
  · rw [List.nodup_append]
    refine ⟨distinct, List.nodup_singleton _, fun key isKey other isOther same => known ?_⟩
    rw [List.mem_singleton] at isOther
    rw [List.contains_iff_mem, ← isOther, ← same]
    exact isKey

theorem unclashing_put (lawful : rules.Lawful) (unclashing : rules.Unclashing table)
    (admits : rules.admits table row = true) : rules.Unclashing (rules.put table row) := by
  -- a row of the changed table is the one that changed or was there before
  have origin : ∀ other ∈ rules.put table row, rules.key other = rules.key row ∨ other ∈ table := by
    intro other member
    unfold put at member
    split_ifs at member with known
    · obtain ⟨before, isBefore, rfl⟩ := List.mem_map.mp member
      split_ifs with same
      · exact Or.inl ((lawful.key before row same).trans same)
      · exact Or.inr isBefore
    · rcases List.mem_append.mp member with isBefore | isRow
      · exact Or.inr isBefore
      · exact Or.inl (congrArg rules.key (List.mem_singleton.mp isRow))
  have changed : ∀ left ∈ rules.put table row, rules.key left = rules.key row →
      ∀ right ∈ table, rules.key right ≠ rules.key row → rules.clash right left = false := by
    intro left isLeft same right isRight different
    have checked := List.all_eq_true.mp admits left isLeft
    rw [Bool.or_eq_true, bne_iff_ne] at checked
    have others := List.all_eq_true.mp (checked.resolve_left (not_not.mpr same)) right isRight
    rw [Bool.or_eq_true, beq_iff_eq, Bool.not_eq_true'] at others
    exact others.resolve_left different
  intro left isLeft right isRight different
  rcases origin left isLeft with sameLeft | wasLeft
  · rcases origin right isRight with sameRight | wasRight
    · exact absurd (sameLeft.trans sameRight.symm) different
    · rw [lawful.symmetric]
      exact changed left isLeft sameLeft right wasRight fun same => different (sameLeft.trans same.symm)
  · by_cases sameLeft : rules.key left = rules.key row
    · rcases origin right isRight with sameRight | wasRight
      · exact absurd (sameLeft.trans sameRight.symm) different
      · rw [lawful.symmetric]
        exact changed left isLeft sameLeft right wasRight fun same =>
          different (sameLeft.trans same.symm)
    · rcases origin right isRight with sameRight | wasRight
      · exact changed right isRight sameRight left wasLeft sameLeft
      · exact unclashing left wasLeft right wasRight different

/-! ### All rows -/

theorem union_nil : rules.union table [] = table := by
  unfold union
  simp

theorem find?_eq_none_of_distinct (distinct : rules.Distinct (row :: rest)) {key : Key}
    (same : key = rules.key row) : (rest.find? fun other => rules.key other = key) = none := by
  refine List.find?_eq_none.mpr fun other member isSame => ?_
  unfold Distinct at distinct
  rw [List.map_cons, List.nodup_cons] at distinct
  refine distinct.1 (List.mem_map.mpr ⟨other, member, ?_⟩)
  rw [← same]
  exact of_decide_eq_true isSame

theorem union_cons (lawful : rules.Lawful) (distinct : rules.Distinct (row :: rest)) :
    rules.union table (row :: rest) = rules.union (rules.put table row) rest := by
  have apart := (List.nodup_cons.mp (show (rules.key row :: rest.map rules.key).Nodup from distinct)).1
  unfold union
  rw [keys_put lawful]
  unfold put
  by_cases known : (table.map rules.key).contains (rules.key row) = true
  · rw [if_pos known, if_pos known, List.filter_cons_of_neg (by rw [known]; decide), List.map_map]
    refine congrArg (· ++ _) (List.map_congr_left fun other _ => ?_)
    dsimp only [Function.comp_apply]
    by_cases same : rules.key other = rules.key row
    · rw [List.find?_cons_of_pos (by exact decide_eq_true same.symm), if_pos same,
        find?_eq_none_of_distinct distinct ((lawful.key other row same).trans same)]
      rfl
    · rw [List.find?_cons_of_neg (by exact fun is => same (of_decide_eq_true is).symm), if_neg same]
  · rw [if_neg known, if_neg known, List.filter_cons_of_pos (by rw [Bool.not_eq_true] at known; rw [known]; rfl),
      List.map_append, List.append_assoc]
    refine congr (congrArg _ (List.map_congr_left fun other member => ?_)) ?_
    · rw [List.find?_cons_of_neg]
      intro same
      exact known (mem_keys.mpr ⟨other, member, (of_decide_eq_true same).symm⟩)
    · rw [List.map_singleton, find?_eq_none_of_distinct distinct rfl, List.singleton_append]
      refine congrArg _ (List.filter_congr fun other member => ?_)
      have different : rules.key other ≠ rules.key row := fun same =>
        apart (List.mem_map.mpr ⟨other, member, same⟩)
      simp [different]

theorem clashFree_cons (lawful : rules.Lawful) (distinct : rules.Distinct (row :: rest)) :
    rules.ClashFree table (row :: rest) ↔
      rules.admits table row = true ∧ rules.ClashFree (rules.put table row) rest := by
  have shorter : ∀ before other after, rest = before ++ other :: after →
      rules.union table (row :: before) = rules.union (rules.put table row) before := by
    rintro before other after rfl
    refine union_cons lawful (distinct.sublist ?_)
    exact ((List.sublist_append_left before _).cons_cons row).map _
  constructor
  · intro free
    refine ⟨?_, fun before other after split => ?_⟩
    · have first := free [] row rest rfl
      rwa [union_nil] at first
    · rw [← shorter before other after split]
      exact free (row :: before) other after (congrArg (List.cons row) split)
  · rintro ⟨admits, free⟩ before other after split
    cases before with
    | nil =>
      rw [List.nil_append, List.cons.injEq] at split
      rw [union_nil, ← split.1]
      exact admits
    | cons first before =>
      rw [List.cons_append, List.cons.injEq] at split
      obtain ⟨rfl, split⟩ := split
      rw [shorter before other after split]
      exact free before other after split

/-- Without a further constraint nothing clashes. -/
theorem clashFree_of_never (never : ∀ left right, rules.clash left right = false)
    (table rows : List Row) : rules.ClashFree table rows := by
  intro before row after _
  unfold admits
  simp [never]

/-- A merge succeeds exactly when no row clashes, and then gives the rows of both. -/
theorem upsertAll_eq_some (lawful : rules.Lawful) :
    ∀ {table rows result : List Row}, rules.Distinct rows →
      (rules.upsertAll table rows = some result ↔
        rules.ClashFree table rows ∧ rules.union table rows = result) := by
  intro table rows
  induction rows generalizing table with
  | nil =>
    intro result _
    rw [union_nil]
    constructor
    · rintro ⟨⟩
      exact ⟨fun before row after split => by simp at split, rfl⟩
    · rintro ⟨-, rfl⟩
      rfl
  | cons row rest inductionHypothesis =>
    intro result distinct
    rw [clashFree_cons lawful distinct, union_cons lawful distinct, and_assoc,
      ← inductionHypothesis (List.nodup_cons.mp
        (show (rules.key row :: rest.map rules.key).Nodup from distinct)).2]
    show (rules.upsert table row).bind _ = _ ↔ _
    unfold upsert
    by_cases admits : rules.admits table row = true
    · rw [if_pos admits, Option.bind_some]
      exact (and_iff_right admits).symm
    · rw [if_neg admits]
      exact ⟨fun fails => (nomatch fails), fun both => absurd both.1 admits⟩

theorem distinct_union (lawful : rules.Lawful) :
    ∀ {table rows : List Row}, rules.Distinct rows → rules.Distinct table →
      rules.Distinct (rules.union table rows) := by
  intro table rows
  induction rows generalizing table with
  | nil => exact fun _ distinct => by rwa [union_nil]
  | cons row rest inductionHypothesis =>
    intro distinctRows distinct
    rw [union_cons lawful distinctRows]
    exact inductionHypothesis (List.nodup_cons.mp
      (show (rules.key row :: rest.map rules.key).Nodup from distinctRows)).2
      (distinct_put lawful distinct)

theorem unclashing_union (lawful : rules.Lawful) :
    ∀ {table rows : List Row}, rules.Distinct rows → rules.Unclashing table →
      rules.ClashFree table rows → rules.Unclashing (rules.union table rows) := by
  intro table rows
  induction rows generalizing table with
  | nil => exact fun _ unclashing _ => by rwa [union_nil]
  | cons row rest inductionHypothesis =>
    intro distinct unclashing free
    rw [clashFree_cons lawful distinct] at free
    rw [union_cons lawful distinct]
    exact inductionHypothesis (List.nodup_cons.mp
      (show (rules.key row :: rest.map rules.key).Nodup from distinct)).2
      (unclashing_put lawful unclashing free.1) free.2

/-! ### The rows of a merge -/

omit [DecidableEq Key] in
theorem eq_of_key (distinct : rules.Distinct rows) {left right : Row} (isLeft : left ∈ rows)
    (isRight : right ∈ rows) (same : rules.key left = rules.key right) : left = right :=
  List.inj_on_of_nodup_map distinct isLeft isRight same

/-- Where a row of the merged table comes from. -/
theorem mem_union (distinct : rules.Distinct rows) :
    row ∈ rules.union table rows ↔
      (∃ mine ∈ table, ∃ theirs ∈ rows, rules.key theirs = rules.key mine ∧
        row = rules.onConflict mine theirs) ∨
      (row ∈ table ∧ ∀ theirs ∈ rows, rules.key theirs ≠ rules.key row) ∨
      (row ∈ rows ∧ ∀ mine ∈ table, rules.key mine ≠ rules.key row) := by
  unfold union
  rw [List.mem_append, List.mem_map, List.mem_filter, Bool.not_eq_true', ← Bool.not_eq_true,
    mem_keys, ← or_assoc]
  refine or_congr ?_ (and_congr_right fun _ => by simp)
  constructor
  · rintro ⟨mine, isMine, rfl⟩
    cases found : rows.find? fun row => rules.key row = rules.key mine with
    | none =>
      refine Or.inr ⟨isMine, fun theirs isTheirs same => ?_⟩
      exact List.find?_eq_none.mp found theirs isTheirs (decide_eq_true same)
    | some theirs =>
      have same := List.find?_some found
      exact Or.inl ⟨mine, isMine, theirs, List.mem_of_find?_eq_some found, of_decide_eq_true same, rfl⟩
  · rintro (⟨mine, isMine, theirs, isTheirs, same, rfl⟩ | ⟨isMine, alone⟩)
    · refine ⟨mine, isMine, ?_⟩
      cases found : rows.find? fun row => rules.key row = rules.key mine with
      | none => exact absurd (decide_eq_true same) (List.find?_eq_none.mp found theirs isTheirs)
      | some other =>
        have sameOther := List.find?_some found
        rw [eq_of_key distinct (List.mem_of_find?_eq_some found) isTheirs
          ((of_decide_eq_true sameOther).trans same.symm)]
        rfl
    · refine ⟨row, isMine, ?_⟩
      rw [List.find?_eq_none.mpr fun theirs isTheirs same =>
        alone theirs isTheirs (of_decide_eq_true same)]
      rfl

/-- A row that arrived is absorbed by the row with its key. -/
theorem absorbs (lawful : rules.Lawful) (distinct : rules.Distinct rows)
    (isRow : row ∈ rules.union table rows) {theirs : Row} (isTheirs : theirs ∈ rows)
    (same : rules.key row = rules.key theirs) :
    rules.onConflict row theirs = row ∧ rules.onConflict theirs row = row := by
  rcases (mem_union distinct).mp isRow with ⟨mine, -, other, isOther, sameKey, rfl⟩ | ⟨-, alone⟩ |
      ⟨isRow, -⟩
  · rw [lawful.key mine other sameKey.symm, ← sameKey] at same
    obtain rfl := eq_of_key distinct isOther isTheirs same
    exact ⟨lawful.again mine other sameKey.symm, lawful.back mine other sameKey.symm⟩
  · exact absurd same.symm (alone theirs isTheirs)
  · obtain rfl := eq_of_key distinct isRow isTheirs same
    exact ⟨lawful.same row, lawful.same row⟩

theorem key_mem_union (lawful : rules.Lawful) (distinct : rules.Distinct rows) {key : Key} :
    (∃ row ∈ rules.union table rows, rules.key row = key) ↔
      (∃ mine ∈ table, rules.key mine = key) ∨ ∃ theirs ∈ rows, rules.key theirs = key := by
  constructor
  · rintro ⟨row, isRow, rfl⟩
    rcases (mem_union distinct).mp isRow with ⟨mine, isMine, other, -, sameKey, rfl⟩ |
        ⟨isMine, -⟩ | ⟨isTheirs, -⟩
    · exact Or.inl ⟨mine, isMine, (lawful.key mine other sameKey.symm).symm⟩
    · exact Or.inl ⟨row, isMine, rfl⟩
    · exact Or.inr ⟨row, isTheirs, rfl⟩
  · have joins : ∀ mine ∈ table, ∃ row ∈ rules.union table rows, rules.key row = rules.key mine := by
      intro mine isMine
      by_cases both : ∃ theirs ∈ rows, rules.key theirs = rules.key mine
      · obtain ⟨theirs, isTheirs, same⟩ := both
        exact ⟨_, (mem_union distinct).mpr (Or.inl ⟨mine, isMine, theirs, isTheirs, same, rfl⟩),
          lawful.key mine theirs same.symm⟩
      · refine ⟨mine, (mem_union distinct).mpr (Or.inr (Or.inl ⟨isMine, fun theirs isTheirs same =>
          both ⟨theirs, isTheirs, same⟩⟩)), rfl⟩
    rintro (⟨mine, isMine, rfl⟩ | ⟨theirs, isTheirs, rfl⟩)
    · exact joins mine isMine
    · by_cases both : ∃ mine ∈ table, rules.key mine = rules.key theirs
      · obtain ⟨mine, isMine, same⟩ := both
        rw [← same]
        exact joins mine isMine
      · exact ⟨theirs, (mem_union distinct).mpr (Or.inr (Or.inr ⟨isTheirs, fun mine isMine same =>
          both ⟨mine, isMine, same⟩⟩)), rfl⟩

/-- The merged table merged back gives the same rows. -/
theorem mem_union_back (lawful : rules.Lawful) (distinct : rules.Distinct rows)
    (distinctTable : rules.Distinct table) :
    row ∈ rules.union rows (rules.union table rows) ↔ row ∈ rules.union table rows := by
  rw [mem_union (distinct_union lawful distinct distinctTable)]
  constructor
  · rintro (⟨theirs, isTheirs, other, isOther, same, rfl⟩ | ⟨isTheirs, alone⟩ | ⟨isRow, -⟩)
    · rw [(absorbs lawful distinct isOther isTheirs same).2]
      exact isOther
    · obtain ⟨other, isOther, same⟩ := (key_mem_union lawful distinct).mpr
        (Or.inr ⟨row, isTheirs, rfl⟩)
      exact absurd same (alone other isOther)
    · exact isRow
  · intro isRow
    by_cases both : ∃ theirs ∈ rows, rules.key theirs = rules.key row
    · obtain ⟨theirs, isTheirs, same⟩ := both
      refine Or.inl ⟨theirs, isTheirs, row, isRow, same.symm, ?_⟩
      exact (absorbs lawful distinct isRow isTheirs same.symm).2.symm
    · exact Or.inr (Or.inr ⟨isRow, fun theirs isTheirs same => both ⟨theirs, isTheirs, same⟩⟩)

/-! ### Merging again -/

theorem put_absorbed (known : ∃ other ∈ table, rules.key other = rules.key row)
    (absorbed : ∀ other ∈ table, rules.key other = rules.key row → rules.onConflict other row = other) :
    rules.put table row = table := by
  unfold put
  rw [if_pos (mem_keys.mpr known)]
  calc (table.map fun other => if rules.key other = rules.key row then rules.onConflict other row
          else other) = table.map id := List.map_congr_left fun other member => by
        split_ifs with same
        · exact absorbed other member same
        · rfl
    _ = table := List.map_id table

theorem upsertAll_absorbed (unclashing : rules.Unclashing table)
    (absorbed : ∀ row ∈ rows, rules.put table row = table) : rules.upsertAll table rows = some table := by
  induction rows with
  | nil => rfl
  | cons row rest inductionHypothesis =>
    rw [List.forall_mem_cons] at absorbed
    have admits : rules.admits table row = true := by
      unfold admits
      rw [absorbed.1]
      refine List.all_eq_true.mpr fun changed isChanged => ?_
      rw [Bool.or_eq_true, bne_iff_ne, or_iff_not_imp_left, not_not]
      intro same
      refine List.all_eq_true.mpr fun other isOther => ?_
      rw [Bool.or_eq_true, beq_iff_eq, Bool.not_eq_true', or_iff_not_imp_left]
      exact fun different => unclashing other isOther changed isChanged (same ▸ different)
    show (rules.upsert table row).bind _ = _
    rw [upsert, if_pos admits, Option.bind_some, absorbed.1]
    exact inductionHypothesis absorbed.2

/-- The same rows merged once more change nothing. -/
theorem upsertAll_again (lawful : rules.Lawful) (distinct : rules.Distinct rows)
    (unclashing : rules.Unclashing table) (free : rules.ClashFree table rows) :
    rules.upsertAll (rules.union table rows) rows = some (rules.union table rows) := by
  refine upsertAll_absorbed (unclashing_union lawful distinct unclashing free) fun row isRow => ?_
  refine put_absorbed ((key_mem_union lawful distinct).mpr (Or.inr ⟨row, isRow, rfl⟩)) ?_
  exact fun other isOther same => (absorbs lawful distinct isOther isRow same).1

end Rules

end Upsert
