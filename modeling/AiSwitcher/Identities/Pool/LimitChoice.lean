/-
This file proves what the choice of `swapIfLimited` is worth: that the member swapped to
may be used, that no member with more headroom is passed over, and that the order of the
members does not matter.

The choice is described without its filters and sorts, as four ways of being chosen: below
the threshold, below 100 percent, not known to be exhausted, and on paid capacity. Only
the last may take a member that is known to be at 100 percent.
-/

import AiSwitcher.Identities.Pool.LimitCalls

namespace AiSwitcher.Limits

open Interrupted

/-! ### The best row -/

/-- The utilisation that is known of a row. -/
def known (row : MemberRow) : Option ℚ := (rank row).util

/-- The utilisation that a row is ranked by. -/
def standing (row : MemberRow) : ℚ := (known row).getD 1000

/-- A row that `chooseBest` does not filter out. -/
def Passes (belowPercent : Option ℚ) (requireKnown : Bool) (row : MemberRow) : Prop :=
  (requireKnown = true → known row ≠ none) ∧
    ∀ percent, belowPercent = some percent → ∃ util, known row = some util ∧ util < percent

theorem precedes_total (first second : Ranked) :
    first.precedes second ∨ second.precedes first := by
  unfold Ranked.precedes
  rcases lt_trichotomy (first.util.getD 1000) (second.util.getD 1000) with less | same | more
  · exact .inl (.inl less)
  · cases first.extra <;> cases second.extra <;> simp [same]
  · exact .inr (.inl more)

theorem precedes_trans (first second third : Ranked) (before : first.precedes second)
    (after : second.precedes third) : first.precedes third := by
  unfold Ranked.precedes at *
  rcases before with less | ⟨same, extra⟩
  · rcases after with further | ⟨equal, -⟩
    · exact .inl (less.trans further)
    · exact .inl (equal ▸ less)
  · rcases after with further | ⟨equal, more⟩
    · exact .inl (same ▸ further)
    · exact .inr ⟨same.trans equal, fun isExtra => extra (more isExtra)⟩

instance : Std.Total Ranked.precedes := ⟨precedes_total⟩

instance : IsTrans Ranked Ranked.precedes := ⟨precedes_trans⟩

theorem passes_iff (belowPercent : Option ℚ) (requireKnown : Bool) (row : MemberRow) :
    ((!requireKnown || (rank row).util.isSome) = true ∧
      (belowPercent.all fun percent => (rank row).util.any (· < percent)) = true) ↔
        Passes belowPercent requireKnown row := by
  unfold Passes known
  cases requireKnown <;> cases belowPercent <;> cases (rank row).util <;> simp

theorem mem_ranked {rows : List MemberRow} {belowPercent : Option ℚ} {requireKnown : Bool}
    {ranked : Ranked} :
    ranked ∈ (((rows.map rank).filter fun row => !requireKnown || row.util.isSome).filter fun row =>
        belowPercent.all fun percent => row.util.any (· < percent)).insertionSort Ranked.precedes ↔
      ∃ row ∈ rows, rank row = ranked ∧ Passes belowPercent requireKnown row := by
  rw [List.mem_insertionSort, List.mem_filter, List.mem_filter, List.mem_map]
  constructor
  · rintro ⟨⟨⟨row, member, rfl⟩, isKnown⟩, below⟩
    exact ⟨row, member, rfl, (passes_iff _ _ row).mp ⟨isKnown, below⟩⟩
  · rintro ⟨row, member, rfl, passes⟩
    obtain ⟨isKnown, below⟩ := (passes_iff _ _ row).mpr passes
    exact ⟨⟨⟨row, member, rfl⟩, isKnown⟩, below⟩

/-- The best row passes, and no row that passes stands lower. -/
theorem chooseBest_eq_some {rows : List MemberRow} {belowPercent : Option ℚ} {requireKnown : Bool}
    {name : String} (chosen : chooseBest rows belowPercent requireKnown = some name) :
    ∃ row ∈ rows, row.name = name ∧ Passes belowPercent requireKnown row ∧
      ∀ other ∈ rows, Passes belowPercent requireKnown other → standing row ≤ standing other := by
  unfold chooseBest at chosen
  obtain ⟨ranked, isHead, rfl⟩ := Option.map_eq_some_iff.mp chosen
  obtain ⟨row, member, isRanked, passes⟩ := mem_ranked.mp (List.mem_of_mem_head? isHead)
  refine ⟨row, member, congrArg Ranked.name isRanked, passes, fun other isOther otherPasses => ?_⟩
  have sorted := List.pairwise_insertionSort Ranked.precedes
    (((rows.map rank).filter fun row => !requireKnown || row.util.isSome).filter fun row =>
      belowPercent.all fun percent => row.util.any (· < percent))
  have isThere := mem_ranked.mpr ⟨other, isOther, rfl, otherPasses⟩
  obtain ⟨tail, isList⟩ := List.head?_eq_some_iff.mp isHead
  rw [isList] at sorted isThere
  show (rank row).util.getD 1000 ≤ (rank other).util.getD 1000
  rw [isRanked]
  rcases List.mem_cons.mp isThere with same | inTail
  · rw [same]
  · exact ((List.pairwise_cons.mp sorted).1 _ inTail).elim le_of_lt fun equal => le_of_eq equal.1

theorem chooseBest_eq_none {rows : List MemberRow} {belowPercent : Option ℚ} {requireKnown : Bool}
    (none : chooseBest rows belowPercent requireKnown = none) {row : MemberRow}
    (member : row ∈ rows) : ¬ Passes belowPercent requireKnown row := by
  intro passes
  have isThere := mem_ranked.mpr ⟨row, member, rfl, passes⟩
  unfold chooseBest at none
  rw [Option.map_eq_none_iff, List.head?_eq_none_iff] at none
  rw [none] at isThere
  cases isThere

/-! ### The ways of being chosen -/

namespace Deciding

variable (deciding : Deciding) (usage : PoolUsage) (rows : List MemberRow)

/-- A member that is not under a hard limit. -/
def Free (row : MemberRow) : Prop := row ∈ rows ∧ row.blockedUntil = none

/-- A free member is known to be below a utilisation. -/
def HasBelow (percent : ℚ) : Prop :=
  ∃ row, Free rows row ∧ ∃ util, known row = some util ∧ util < percent

/-- No member is below the utilisation that the row is below, and better. -/
def BestBelow (percent : ℚ) (row : MemberRow) : Prop :=
  ∃ util, known row = some util ∧ util < percent ∧
    ∀ other, Free rows other → ∀ otherUtil, known other = some otherUtil → util ≤ otherUtil

/-- A member on paid capacity, which may be used at any utilisation. -/
def Paid (row : MemberRow) : Prop :=
  ∃ reading, row.usage = some reading ∧ reading.extraUsage = true

/-- The ways in which a row is chosen. -/
inductive Choice (row : MemberRow) : Prop where
  | belowThreshold (free : Free rows row)
      (best : BestBelow rows (poolThreshold deciding.pool) row)
  /-- Better than the active member, unless the limit is a hard one. -/
  | belowHundred (free : Free rows row) (none : ¬ HasBelow rows (poolThreshold deciding.pool))
      (best : BestBelow rows 100 row)
      (worth : deciding.options.assumeLimited = true ∨
        ∃ util, known row = some util ∧ util < activeUtil usage)
  /-- After a hard limit, a member that is not known to be exhausted. -/
  | unknown (free : Free rows row) (none : ¬ HasBelow rows 100)
      (hard : deciding.options.assumeLimited = true)
      (notLive : ∃ reading, row.usage = some reading ∧ reading.status ≠ .live)
  /-- The active member is exhausted and has no paid capacity itself. -/
  | paid (free : Free rows row) (none : ¬ HasBelow rows 100)
      (soft : deciding.options.assumeLimited = false) (exhausted : 100 ≤ activeUtil usage)
      (unpaid : usage.extraUsage = false) (paid : Paid row)
      (best : ∀ other, Free rows other → Paid other → standing row ≤ standing other)

variable {deciding usage rows}

theorem free_iff {row : MemberRow} :
    row ∈ rows.filter (fun row => row.blockedUntil.isNone) ↔ Free rows row := by
  rw [List.mem_filter, Option.isNone_iff_eq_none]
  rfl

/-- A best free row below a utilisation. -/
theorem chooseBest_below {percent : ℚ} {name : String}
    (chosen : chooseBest (rows.filter fun row => row.blockedUntil.isNone) (some percent) true =
      some name) : ∃ row, row.name = name ∧ Free rows row ∧ BestBelow rows percent row := by
  obtain ⟨row, member, isName, ⟨-, below⟩, best⟩ := chooseBest_eq_some chosen
  obtain ⟨util, isKnown, isBelow⟩ := below percent rfl
  refine ⟨row, isName, free_iff.mp member, util, isKnown, isBelow, ?_⟩
  intro other free otherUtil isOther
  by_cases alsoBelow : otherUtil < percent
  · have passes : Passes (some percent) true other := by
      refine ⟨fun _ => by rw [isOther]; exact Option.some_ne_none _, fun bound same => ?_⟩
      cases same
      exact ⟨otherUtil, isOther, alsoBelow⟩
    have lower := best other (free_iff.mpr free) passes
    unfold standing at lower
    rw [isKnown, isOther] at lower
    exact lower
  · exact (isBelow.trans_le (not_lt.mp alsoBelow)).le

theorem chooseBest_none {percent : ℚ}
    (none : chooseBest (rows.filter fun row => row.blockedUntil.isNone) (some percent) true =
      none) : ¬ HasBelow rows percent := by
  rintro ⟨row, free, util, isKnown, below⟩
  refine chooseBest_eq_none none (free_iff.mpr free) ⟨fun _ => ?_, fun bound same => ?_⟩
  · rw [isKnown]
    exact Option.some_ne_none _
  · cases same
    exact ⟨util, isKnown, below⟩

theorem maxUtilization_of_known {row : MemberRow} {util : ℚ} (isKnown : known row = some util) :
    row.usage.bind PoolUsage.maxUtilization = some util := by
  unfold known rank at isKnown
  obtain ⟨reading, isReading, has⟩ := Option.bind_eq_some_iff.mp isKnown
  rw [isReading, Option.bind_some]
  split_ifs at has
  exact has

theorem find?_of_nodup_names {row : MemberRow} (distinct : (rows.map MemberRow.name).Nodup)
    (member : row ∈ rows) : rows.find? (fun other => other.name == row.name) = some row := by
  cases found : rows.find? (fun other => other.name == row.name) with
  | none => exact absurd (beq_self_eq_true row.name) (List.find?_eq_none.mp found row member)
  | some other =>
    have isSame := List.find?_some found
    have same : other.name = row.name := eq_of_beq isSame
    rw [List.inj_on_of_nodup_map distinct (List.mem_of_find?_eq_some found) member same]

variable (deciding usage rows)

/-- `target` of `swapIfLimited`, the member with known headroom. -/
def headroomTarget : Option String :=
  let usableRows := rows.filter fun row => row.blockedUntil.isNone
  let fallback := chooseBest usableRows (some 100) true
  let fallbackUtil := fallback.bind fun name =>
    ((rows.find? fun row => row.name == name).bind MemberRow.usage).bind PoolUsage.maxUtilization
  (chooseBest usableRows (some (poolThreshold deciding.pool)) true).or
    (if fallbackUtil.any fun util =>
        deciding.options.assumeLimited || decide (util < activeUtil usage) then fallback else none)

theorem chooseTarget_eq : deciding.chooseTarget usage rows =
    if deciding.options.assumeLimited then
      (headroomTarget deciding usage rows).or (((rows.filter fun row =>
        row.blockedUntil.isNone).find? fun row => row.usage.any (·.status ≠ .live)).map
          MemberRow.name)
    else (headroomTarget deciding usage rows).or
      (if activeUtil usage < 100 || usage.extraUsage then none
      else chooseBest ((rows.filter fun row => row.blockedUntil.isNone).filter fun row =>
        row.usage.any PoolUsage.extraUsage) none false) := rfl

variable {deciding usage rows}

theorem headroomTarget_eq_some (distinct : (rows.map MemberRow.name).Nodup) {name : String}
    (chosen : headroomTarget deciding usage rows = some name) :
    ∃ row, row.name = name ∧ Choice deciding usage rows row := by
  unfold headroomTarget at chosen
  rcases Option.or_eq_some_iff.mp chosen with below | ⟨noneBelow, fallback⟩
  · obtain ⟨row, isName, free, best⟩ := chooseBest_below below
    exact ⟨row, isName, .belowThreshold free best⟩
  · split_ifs at fallback with worthy
    obtain ⟨row, isName, free, best⟩ := chooseBest_below fallback
    have ⟨util, isKnown, _⟩ := best
    rw [fallback, Option.bind_some, ← isName, find?_of_nodup_names distinct free.1,
      Option.bind_some, maxUtilization_of_known isKnown] at worthy
    refine ⟨row, isName, .belowHundred free (chooseBest_none noneBelow) best ?_⟩
    rcases (Bool.or_eq_true _ _).mp worthy with hard | better
    · exact .inl hard
    · exact .inr ⟨util, isKnown, of_decide_eq_true better⟩

theorem headroomTarget_eq_none (distinct : (rows.map MemberRow.name).Nodup)
    (none : headroomTarget deciding usage rows = none) :
    ¬ HasBelow rows (poolThreshold deciding.pool) ∧
      (HasBelow rows 100 → deciding.options.assumeLimited = false ∧
        ∃ row, Free rows row ∧ BestBelow rows 100 row ∧ ∀ util, known row = some util →
          activeUtil usage ≤ util) := by
  unfold headroomTarget at none
  obtain ⟨noneBelow, noFallback⟩ := Option.or_eq_none_iff.mp none
  refine ⟨chooseBest_none noneBelow, fun has => ?_⟩
  cases fallback : chooseBest (rows.filter fun row => row.blockedUntil.isNone) (some 100) true with
  | none => exact absurd has (chooseBest_none fallback)
  | some name =>
    obtain ⟨row, isName, free, best⟩ := chooseBest_below fallback
    have ⟨util, isKnown, _⟩ := best
    rw [fallback] at noFallback
    split_ifs at noFallback with worthy
    rw [Option.bind_some, ← isName, find?_of_nodup_names distinct free.1,
      Option.bind_some, maxUtilization_of_known isKnown, Option.any_some, Bool.or_eq_true,
      decide_eq_true_eq, not_or, Bool.not_eq_true, not_lt] at worthy
    refine ⟨worthy.1, row, free, best, fun other isOther => ?_⟩
    rw [isKnown] at isOther
    cases isOther
    exact worthy.2

theorem paid_iff {row : MemberRow} :
    row.usage.any PoolUsage.extraUsage = true ↔ Paid row := by
  unfold Paid
  cases row.usage <;> simp

theorem passes_unbounded (row : MemberRow) : Passes none false row :=
  ⟨fun required => absurd required Bool.false_ne_true, fun percent bound => by cases bound⟩

theorem notLive_iff {row : MemberRow} :
    row.usage.any (fun reading => decide (reading.status ≠ .live)) = true ↔
      ∃ reading, row.usage = some reading ∧ reading.status ≠ .live := by
  cases row.usage <;> simp

/-- Who is chosen is chosen in one of the ways. -/
theorem choice_of_chooseTarget (distinct : (rows.map MemberRow.name).Nodup) {name : String}
    (chosen : deciding.chooseTarget usage rows = some name) :
    ∃ row, row.name = name ∧ Choice deciding usage rows row := by
  rw [chooseTarget_eq] at chosen
  split_ifs at chosen with hard stays
  · rcases Option.or_eq_some_iff.mp chosen with headroom | ⟨noHeadroom, isUnknown⟩
    · exact headroomTarget_eq_some distinct headroom
    · obtain ⟨row, found, isName⟩ := Option.map_eq_some_iff.mp isUnknown
      have notLive := List.find?_some found
      refine ⟨row, isName, .unknown (free_iff.mp (List.mem_of_find?_eq_some found)) (fun has => ?_)
        hard (notLive_iff.mp notLive)⟩
      have soft := ((headroomTarget_eq_none distinct noHeadroom).2 has).1
      rw [hard] at soft
      cases soft
  · rw [Option.or_none] at chosen
    exact headroomTarget_eq_some distinct chosen
  · rw [Bool.not_eq_true] at hard
    rw [Bool.or_eq_true, decide_eq_true_eq, not_or, not_lt, Bool.not_eq_true] at stays
    rcases Option.or_eq_some_iff.mp chosen with headroom | ⟨noHeadroom, isPaid⟩
    · exact headroomTarget_eq_some distinct headroom
    · obtain ⟨row, member, isName, -, best⟩ := chooseBest_eq_some isPaid
      obtain ⟨free, paid⟩ := List.mem_filter.mp member
      refine ⟨row, isName, .paid (free_iff.mp free) (fun has => ?_) hard stays.1 stays.2
        (paid_iff.mp paid) fun other isFree isPaid => ?_⟩
      · obtain ⟨-, other, -, ⟨util, isKnown, below, -⟩, better⟩ :=
          (headroomTarget_eq_none distinct noHeadroom).2 has
        exact absurd (stays.1.trans (better util isKnown)) (not_le.mpr below)
      · exact best other (List.mem_filter.mpr ⟨free_iff.mpr isFree, paid_iff.mpr isPaid⟩)
          (passes_unbounded other)

theorem HasBelow.mono {lower upper : ℚ} (le : lower ≤ upper) (has : HasBelow rows lower) :
    HasBelow rows upper := by
  obtain ⟨row, free, util, isKnown, below⟩ := has
  exact ⟨row, free, util, isKnown, below.trans_le le⟩

theorem BestBelow.hasBelow {percent : ℚ} {row : MemberRow} (best : BestBelow rows percent row)
    (free : Free rows row) : HasBelow rows percent := by
  obtain ⟨util, isKnown, below, -⟩ := best
  exact ⟨row, free, util, isKnown, below⟩

theorem headroomTarget_of_chooseTarget (noTarget : deciding.chooseTarget usage rows = none) :
    headroomTarget deciding usage rows = none := by
  rw [chooseTarget_eq] at noTarget
  split_ifs at noTarget
  · exact (Option.or_eq_none_iff.mp noTarget).1
  · rwa [Option.or_none] at noTarget
  · exact (Option.or_eq_none_iff.mp noTarget).1

/-- Somebody is chosen when somebody may be. -/
theorem chooseTarget_ne_none (distinct : (rows.map MemberRow.name).Nodup) {row : MemberRow}
    (choice : Choice deciding usage rows row) : deciding.chooseTarget usage rows ≠ none := by
  intro none
  have noHeadroom := headroomTarget_of_chooseTarget none
  obtain ⟨noneBelow, active⟩ := headroomTarget_eq_none distinct noHeadroom
  rw [chooseTarget_eq, noHeadroom, Option.none_or, Option.none_or] at none
  cases choice with
  | belowThreshold free best => exact noneBelow (best.hasBelow free)
  | belowHundred free _ best worth =>
    obtain ⟨soft, other, isFree, ⟨least, isLeast, -, lowest⟩, better⟩ := active (best.hasBelow free)
    rcases worth with hard | ⟨util, isKnown, below⟩
    · rw [soft] at hard
      cases hard
    · exact absurd ((better least isLeast).trans (lowest row free util isKnown)) (not_le.mpr below)
  | unknown free _ hard notLive =>
    rw [if_pos hard, Option.map_eq_none_iff, List.find?_eq_none] at none
    exact none row (free_iff.mpr free) (notLive_iff.mpr notLive)
  | paid free _ soft exhausted unpaid paid best =>
    rw [soft, unpaid, if_neg Bool.false_ne_true, if_neg (by simpa using exhausted)] at none
    exact chooseBest_eq_none none (List.mem_filter.mpr ⟨free_iff.mpr free, paid_iff.mpr paid⟩)
      (passes_unbounded row)

theorem BestBelow.standing_eq {percent : ℚ} {first second : MemberRow}
    (best : BestBelow rows percent first) (other : BestBelow rows percent second)
    (free : Free rows first) (alsoFree : Free rows second) : standing first = standing second := by
  obtain ⟨util, isKnown, -, lowest⟩ := best
  obtain ⟨otherUtil, isOther, -, alsoLowest⟩ := other
  unfold standing
  rw [isKnown, isOther]
  exact le_antisymm (lowest second alsoFree otherUtil isOther) (alsoLowest first free util isKnown)

theorem standing_of_notLive {row : MemberRow}
    (notLive : ∃ reading, row.usage = some reading ∧ reading.status ≠ .live) :
    standing row = 1000 := by
  obtain ⟨reading, isReading, notLive⟩ := notLive
  simp [standing, known, rank, isReading, notLive]

/-- All rows that may be chosen stand at the same utilisation. -/
theorem Choice.standing_eq (atMost : poolThreshold deciding.pool ≤ 100) {first second : MemberRow}
    (choice : Choice deciding usage rows first) (other : Choice deciding usage rows second) :
    standing first = standing second := by
  cases choice with
  | belowThreshold free best =>
    have has := best.hasBelow free
    cases other with
    | belowThreshold alsoFree alsoBest => exact best.standing_eq alsoBest free alsoFree
    | belowHundred _ none => exact absurd has none
    | unknown _ none => exact absurd (has.mono atMost) none
    | paid _ none => exact absurd (has.mono atMost) none
  | belowHundred free noneBelow best =>
    have has := best.hasBelow free
    cases other with
    | belowThreshold alsoFree alsoBest => exact absurd (alsoBest.hasBelow alsoFree) noneBelow
    | belowHundred alsoFree _ alsoBest => exact best.standing_eq alsoBest free alsoFree
    | unknown _ none => exact absurd has none
    | paid _ none => exact absurd has none
  | unknown free none hard notLive =>
    cases other with
    | belowThreshold alsoFree alsoBest =>
      exact absurd ((alsoBest.hasBelow alsoFree).mono atMost) none
    | belowHundred alsoFree _ alsoBest => exact absurd (alsoBest.hasBelow alsoFree) none
    | unknown _ _ _ alsoNotLive => rw [standing_of_notLive notLive, standing_of_notLive alsoNotLive]
    | paid _ _ soft =>
      rw [hard] at soft
      cases soft
  | paid free none soft _ _ paid best =>
    cases other with
    | belowThreshold alsoFree alsoBest =>
      exact absurd ((alsoBest.hasBelow alsoFree).mono atMost) none
    | belowHundred alsoFree _ alsoBest => exact absurd (alsoBest.hasBelow alsoFree) none
    | unknown _ _ hard =>
      rw [hard] at soft
      cases soft
    | paid alsoFree _ _ _ _ alsoPaid alsoBest =>
      exact le_antisymm (best second alsoFree alsoPaid) (alsoBest first free paid)

/-- Only the members count, not their order. -/
theorem Choice.congr {again : Deciding} {others : List MemberRow}
    (hard : again.options = deciding.options)
    (threshold : poolThreshold again.pool = poolThreshold deciding.pool)
    (same : ∀ row, row ∈ others ↔ row ∈ rows) {row : MemberRow}
    (choice : Choice deciding usage rows row) : Choice again usage others row := by
  have sameFree : Free rows = Free others := funext fun row => by unfold Free; rw [same]
  have sameBelow : HasBelow rows = HasBelow others := by unfold HasBelow; rw [sameFree]
  have sameBest : BestBelow rows = BestBelow others := by unfold BestBelow; rw [sameFree]
  cases choice with
  | belowThreshold free best =>
    rw [sameFree] at free
    rw [sameBest, ← threshold] at best
    exact .belowThreshold free best
  | belowHundred free none best worth =>
    rw [sameFree] at free
    rw [sameBelow, ← threshold] at none
    rw [sameBest] at best
    exact .belowHundred free none best (by rw [hard]; exact worth)
  | unknown free none isHard notLive =>
    rw [sameFree] at free
    rw [sameBelow] at none
    exact .unknown free none (by rw [hard]; exact isHard) notLive
  | paid free none soft exhausted unpaid paid best =>
    rw [sameFree] at free best
    rw [sameBelow] at none
    exact .paid free none (by rw [hard]; exact soft) exhausted unpaid paid best

/-- A row that is chosen has a reading. -/
theorem Choice.isSome_usage {row : MemberRow} (choice : Choice deciding usage rows row) :
    row.usage.isSome = true := by
  have read : ∀ {util}, known row = some util → row.usage.isSome = true := by
    intro util isKnown
    obtain ⟨reading, isReading, -⟩ := Option.bind_eq_some_iff.mp isKnown
    rw [isReading]
    rfl
  cases choice with
  | belowThreshold _ best => exact read best.choose_spec.1
  | belowHundred _ _ best => exact read best.choose_spec.1
  | unknown _ _ _ notLive =>
    obtain ⟨reading, isReading, -⟩ := notLive
    rw [isReading]
    rfl
  | paid _ _ _ _ _ paid =>
    obtain ⟨reading, isReading, -⟩ := paid
    rw [isReading]
    rfl

theorem Choice.free {row : MemberRow} (choice : Choice deciding usage rows row) :
    Free rows row := by
  cases choice <;> assumption

/-- A row that is known to be exhausted is chosen on paid capacity only. -/
theorem Choice.paid_of_exhausted (atMost : poolThreshold deciding.pool ≤ 100) {row : MemberRow}
    (choice : Choice deciding usage rows row) {util : ℚ} (isKnown : known row = some util)
    (exhausted : 100 ≤ util) :
    Paid row ∧ deciding.options.assumeLimited = false ∧ 100 ≤ activeUtil usage ∧
      usage.extraUsage = false := by
  cases choice with
  | belowThreshold _ best =>
    obtain ⟨own, isOwn, below, -⟩ := best
    rw [isKnown] at isOwn
    cases isOwn
    exact absurd (exhausted.trans_lt below) (not_lt.mpr atMost)
  | belowHundred _ _ best =>
    obtain ⟨own, isOwn, below, -⟩ := best
    rw [isKnown] at isOwn
    cases isOwn
    exact absurd below (not_lt.mpr exhausted)
  | unknown _ _ _ notLive =>
    obtain ⟨reading, isReading, notLive⟩ := notLive
    simp [known, rank, isReading, notLive] at isKnown
  | paid _ _ soft exhausted unpaid paid => exact ⟨paid, soft, exhausted, unpaid⟩

/-- A free member below the threshold, or below 100 percent, is not passed over for a worse one. -/
theorem Choice.below {row other : MemberRow} (atMost : poolThreshold deciding.pool ≤ 100)
    (choice : Choice deciding usage rows row) (free : Free rows other) {util : ℚ}
    (isKnown : known other = some util) :
    (util < poolThreshold deciding.pool → ∃ own, known row = some own ∧ own ≤ util) ∧
      (util < 100 → ∃ own, known row = some own ∧ own < 100) := by
  have has : ∀ {percent}, util < percent → HasBelow rows percent :=
    fun below => ⟨other, free, util, isKnown, below⟩
  cases choice with
  | belowThreshold _ best =>
    obtain ⟨own, isOwn, below, lowest⟩ := best
    exact ⟨fun _ => ⟨own, isOwn, lowest other free util isKnown⟩,
      fun _ => ⟨own, isOwn, below.trans_le atMost⟩⟩
  | belowHundred _ none best =>
    obtain ⟨own, isOwn, below, -⟩ := best
    exact ⟨fun less => absurd (has less) none, fun _ => ⟨own, isOwn, below⟩⟩
  | unknown _ none =>
    exact ⟨fun less => absurd ((has less).mono atMost) none, fun less => absurd (has less) none⟩
  | paid _ none =>
    exact ⟨fun less => absurd ((has less).mono atMost) none, fun less => absurd (has less) none⟩

end Deciding

/-! ### A call on one state of the registry -/

/-- What one call reads: the registry, the ledger, the clock and the readings of the members. -/
structure Snapshot where
  file : List Identity
  ledger : List LedgerLine
  now : ℤ
  readings : Identity → PoolUsage

/-- Every action may fail; the world are the members swapped to, the latest first. -/
def Snapshot.Answers (snapshot : Snapshot) : Behaviour PoolAction (List Identity)
  | _, .loadRegistry, swaps, answer, after =>
      after = swaps ∧ ∀ file, answer = .ok file → file = snapshot.file
  | _, .now injected, swaps, answer, after =>
      after = swaps ∧ answer = injected.getD snapshot.now
  | _, .readLedger, swaps, answer, after => after = swaps ∧ answer = snapshot.ledger
  | _, .fetchUsage member, swaps, answer, after =>
      after = swaps ∧ ∀ usage, answer = .ok usage → usage = snapshot.readings member
  | _, .swapCredentials _ _ target, swaps, _, after => after = target :: swaps
  | _, .acquire _, swaps, _, after => after = swaps
  | _, .release _, swaps, _, after => after = swaps
  | _, .saveRegistry _, swaps, _, after => after = swaps
  | _, .appendLedger _, swaps, _, after => after = swaps

/-- What a call decides by. -/
def Snapshot.deciding (snapshot : Snapshot) (options : LimitOptions) (clock : Option ℤ)
    (pool : PoolIdentity) (active : String) : Deciding where
  options
  now := clock.getD snapshot.now
  pool
  members := membersOf snapshot.file pool
  active

namespace Deciding

variable (deciding : Deciding) (snapshot : Snapshot) (paths : Paths)

def eventsIn : List SwapEvent :=
  eventsForPool paths (sortedEvents snapshot.ledger) deciding.pool

/-- The row of a member. -/
def rowIn (name : String) : MemberRow where
  name
  usage := ((snapshot.file.find? fun member => member.name == name).filter fun member =>
    !member.retired).map snapshot.readings
  blockedUntil := deciding.blockedUntil (deciding.eventsIn snapshot paths) name

def others : List String := (allowedAccounts deciding.pool).filter (· ≠ deciding.active)

variable {deciding} in
theorem mem_others {name : String} :
    name ∈ deciding.others ↔ isAllowed deciding.pool name = true ∧ name ≠ deciding.active := by
  unfold others allowedAccounts
  rw [List.mem_filter, List.mem_filter, decide_eq_true_eq]
  refine and_congr_left fun _ => ⟨fun member => member.2, fun allowed => ⟨?_, allowed⟩⟩
  exact List.contains_iff_mem.mp ((Bool.and_eq_true _ _).mp allowed).1

def rowsIn : List MemberRow := deciding.others.map (deciding.rowIn snapshot paths)

end Deciding

/-! ### What the call reads -/

section Reading

open Program

variable {snapshot : Snapshot} {swaps : List Identity} {paths : Paths} {deciding : Deciding}

theorem name_of_find? {file : List Identity} {account : String} {identity : Identity}
    (found : file.find? (fun identity => identity.name == account) = some identity) :
    identity.name = account := by
  have isNamed := List.find?_some found
  exact eq_of_beq isNamed

theorem mem_file_of_membersOf {file : List Identity} {pool : PoolIdentity} {identity : Identity}
    (member : identity ∈ membersOf file pool) : identity ∈ file := by
  obtain ⟨account, -, found⟩ := List.mem_filterMap.mp member
  exact List.mem_of_find?_eq_some found

/-- A member is the identity of the file that has its name. -/
theorem find?_membersOf {file : List Identity} {pool : PoolIdentity} {name : String}
    (member : name ∈ pool.swapPool.accounts) :
    (membersOf file pool).find? (fun identity => identity.name == name) =
      file.find? fun identity => identity.name == name := by
  cases found : file.find? fun identity => identity.name == name with
  | none =>
    exact List.find?_eq_none.mpr fun identity isMember =>
      List.find?_eq_none.mp found identity (mem_file_of_membersOf isMember)
  | some identity =>
    unfold membersOf
    generalize pool.swapPool.accounts = accounts at member
    induction accounts with
    | nil => cases member
    | cons account accounts inductionHypothesis =>
      rw [List.filterMap_cons]
      by_cases same : account = name
      · subst same
        rw [found]
        dsimp only
        rw [List.find?_cons, name_of_find? found, beq_self_eq_true]
      · have later := inductionHypothesis ((List.mem_cons.mp member).resolve_left fun equal =>
          same equal.symm)
        cases other : file.find? fun identity => identity.name == account with
        | none => exact later
        | some _ =>
          dsimp only
          rw [List.find?_cons, name_of_find? other, beq_false_of_ne same]
          exact later

theorem find?_of_find?_membersOf {file : List Identity} {pool : PoolIdentity} {name : String}
    {member : Identity}
    (found : (membersOf file pool).find? (fun identity => identity.name == name) = some member) :
    file.find? (fun identity => identity.name == name) = some member := by
  obtain ⟨account, -, isMember⟩ := List.mem_filterMap.mp (List.mem_of_find?_eq_some found)
  rw [← name_of_find? found, name_of_find? isMember]
  exact isMember

theorem reads_loadIdentitiesFile : Reads snapshot.Answers loadIdentitiesFile swaps
    fun file => file = snapshot.file ∧ (keysOf snapshot.file).Nodup := by
  refine reads_bind (reads_attempt fun answer after answers => answers) fun file isFile => ?_
  subst isFile
  cases unique : duplicateKey [] (keysOf snapshot.file) with
  | some key => exact reads_fail
  | none => exact reads_done ⟨rfl, (duplicateKey_eq_none unique).1⟩

theorem reads_check {Result : Type} {outcome : Except String Result} :
    Reads snapshot.Answers (check outcome) swaps fun result => outcome = .ok result := by
  refine reads_ofExcept fun result ok => ?_
  cases outcome with
  | ok found => exact congrArg Except.ok (Except.ok.inj ok)
  | error message => cases ok

theorem reads_recentEvents (pool : PoolIdentity) :
    Reads snapshot.Answers (Deciding.recentEvents paths pool) swaps
      fun events => events = eventsForPool paths (sortedEvents snapshot.ledger) pool := by
  refine reads_bind (reads_perform fun answer after answers => answers) fun lines isLines => ?_
  subst isLines
  exact reads_done rfl

theorem reads_alreadyHandled (pool : PoolIdentity) :
    Reads snapshot.Answers (deciding.alreadyHandled paths pool) swaps fun _ => True := by
  unfold Deciding.alreadyHandled
  cases deciding.failureAtMs with
  | none => exact reads_done trivial
  | some failure => exact reads_bind (reads_recentEvents pool) fun _ _ => reads_done trivial

theorem reads_cooldown (pool : PoolIdentity) :
    Reads snapshot.Answers (deciding.cooldown paths pool) swaps fun _ => True :=
  reads_bind (reads_recentEvents pool) fun _ _ => reads_done trivial

theorem reads_settledBefore :
    Reads snapshot.Answers (deciding.settledBefore paths) swaps fun _ => True := by
  unfold Deciding.settledBefore
  split_ifs
  · exact reads_bind (reads_alreadyHandled _) fun _ _ => reads_done trivial
  · exact reads_cooldown _

theorem reads_guard (activeMember : Identity) (current : PoolIdentity) :
    Reads snapshot.Answers (deciding.guard paths activeMember current) swaps fun _ => True := by
  have ledger : Reads snapshot.Answers (deciding.guardLedger paths current) swaps
      fun _ => True := by
    unfold Deciding.guardLedger
    split_ifs
    · refine reads_bind (reads_alreadyHandled _) fun isHandled _ => ?_
      split_ifs
      · exact reads_fail
      · exact reads_done trivial
    · exact reads_done trivial
  have usage : Reads snapshot.Answers (deciding.guardUsage activeMember) swaps fun _ => True := by
    unfold Deciding.guardUsage
    split_ifs
    · refine reads_bind (reads_attempt fun answer after answers => answers) fun usage _ => ?_
      split_ifs
      · exact reads_fail
      · exact reads_done trivial
    · exact reads_done trivial
  have cooldown : Reads snapshot.Answers (deciding.guardCooldown paths current) swaps
      fun _ => True := by
    unfold Deciding.guardCooldown
    split_ifs
    · exact reads_done trivial
    · refine reads_bind (reads_cooldown _) fun cooling _ => ?_
      cases cooling with
      | none => exact reads_done trivial
      | some outcome => exact reads_fail
  unfold Deciding.guard
  split_ifs
  · exact reads_fail
  · exact reads_fail
  · exact reads_bind ledger fun _ _ => reads_bind usage fun _ _ => cooldown

theorem reads_memberUsage (paths : Paths)
    (inFile : deciding.members = membersOf snapshot.file deciding.pool) {name : String} (member : name ∈ deciding.pool.swapPool.accounts) :
    Reads snapshot.Answers (deciding.memberUsage name) swaps
      fun usage => usage = (deciding.rowIn snapshot paths name).usage := by
  unfold Deciding.memberUsage Deciding.rowIn
  rw [inFile, find?_membersOf member]
  cases snapshot.file.find? fun identity => identity.name == name with
  | none => exact reads_done rfl
  | some identity =>
    dsimp only
    by_cases retired : identity.retired = true
    · rw [if_pos retired]
      exact reads_done (by simp [retired])
    · rw [if_neg retired]
      have usage : Reads snapshot.Answers (attempt (.fetchUsage identity)) swaps
          fun usage => usage = snapshot.readings identity :=
        reads_attempt fun answer after answers => answers
      refine reads_bind usage fun usage isUsage => ?_
      subst isUsage
      exact reads_done (by simp [retired])

theorem reads_fetchRows (inFile : deciding.members = membersOf snapshot.file deciding.pool)
    (names : List String) (members : ∀ name ∈ names, name ∈ deciding.pool.swapPool.accounts) :
    Reads snapshot.Answers (deciding.fetchRows (deciding.eventsIn snapshot paths) names) swaps
      fun rows => rows = names.map (deciding.rowIn snapshot paths) := by
  induction names with
  | nil => exact reads_done rfl
  | cons name names inductionHypothesis =>
    refine reads_bind (reads_memberUsage paths inFile (members name List.mem_cons_self))
      fun usage isUsage => ?_
    refine reads_bind (inductionHypothesis fun other member =>
      members other (List.mem_cons_of_mem _ member)) fun rows isRows => ?_
    subst isUsage isRows
    exact reads_done rfl

theorem reads_persistActive (pool : PoolIdentity) (target : Identity) :
    Reads snapshot.Answers (persistActive pool target) swaps fun _ => True := by
  refine reads_bind reads_loadIdentitiesFile fun fresh _ => ?_
  cases (fresh.find? fun identity => identity.name == pool.name).bind Identity.swapPool with
  | none => exact reads_done trivial
  | some freshPool =>
    dsimp only
    split_ifs
    · exact reads_done trivial
    · exact reads_attempt fun answer after answers => ⟨answers, fun _ _ => trivial⟩

theorem reads_recordSwap (options : PerformSwapOptions) (pool : PoolIdentity) (target : Identity)
    (fsResult : SwapResult) :
    Reads snapshot.Answers (recordSwap options pool target fsResult) swaps fun _ => True := by
  unfold recordSwap
  split_ifs
  · exact reads_done trivial
  · refine reads_bind (reads_perform fun answer after answers => answers) fun ts _ => ?_
    exact reads_attempt fun answer after answers => ⟨answers, fun _ _ => trivial⟩

end Reading

/-! ### What the call swaps to -/

section Swapping

open Program

variable {snapshot : Snapshot} {swaps : List Identity} {paths : Paths} {tool : String}
  {wanted : Identity → Prop}

/-- Only wanted members are swapped to. -/
def Targets (wanted : Identity → Prop) (before after : List Identity) : Prop :=
  after = before ∨ ∃ target, wanted target ∧ after = target :: before

theorem mem_of_targets {before after : List Identity}
    (reached : Relation.ReflTransGen (Targets wanted) before after)
    (earlier : ∀ target ∈ before, wanted target) : ∀ target ∈ after, wanted target := by
  induction reached with
  | refl => exact earlier
  | tail _ step inductionHypothesis =>
    obtain rfl | ⟨target, isWanted, rfl⟩ := step
    · exact inductionHypothesis
    · intro other member
      obtain rfl | member := List.mem_cons.mp member
      · exact isWanted
      · exact inductionHypothesis other member

theorem swapTarget_eq_ok {options : PerformSwapOptions} {file : List Identity}
    {pool : PoolIdentity} {target : Identity}
    (ok : swapTarget tool options file pool = .ok target) :
    findIdentityByNameOrAlias file options.target = some target ∧ target.retired = false := by
  unfold swapTarget memberIdentity at ok
  cases found : findIdentityByNameOrAlias file options.target with
  | none =>
    rw [found] at ok
    cases ok
  | some identity =>
    rw [found] at ok
    dsimp only at ok
    by_cases isMember : pool.swapPool.accounts.contains identity.name = true
    · rw [if_pos isMember] at ok
      dsimp only at ok
      split_ifs at ok with retired
      cases ok
      exact ⟨rfl, Bool.not_eq_true _ ▸ retired⟩
    · rw [if_neg isMember] at ok
      cases ok

/-- What a swap with these options may swap to is wanted. -/
def Wants (wanted : Identity → Prop) (snapshot : Snapshot) (options : PerformSwapOptions) : Prop :=
  (∀ current swaps, Reads snapshot.Answers (options.guard current) swaps fun _ => True) ∧
    ∀ target, findIdentityByNameOrAlias snapshot.file options.target = some target →
      target.retired = false → wanted target

theorem safe_swapLocked {options : PerformSwapOptions} (wants : Wants wanted snapshot options) :
    (swapLocked paths tool options).safe snapshot.Answers (Targets wanted) (fun _ _ => True)
      swaps := by
  have stays : ∀ swaps, Targets wanted swaps swaps := fun swaps => .inl rfl
  refine safe_reads_bind reads_loadIdentitiesFile (stays _) ?_ fun _ => trivial
  rintro file ⟨rfl, -⟩
  refine safe_reads_bind reads_check (stays _) (fun pool _ => ?_) fun _ => trivial
  refine safe_reads_bind (wants.1 pool swaps) (stays _) (fun _ _ => ?_) fun _ => trivial
  refine safe_reads_bind reads_check (stays _) (fun target ok => ?_) fun _ => trivial
  obtain ⟨found, inUse⟩ := swapTarget_eq_ok ok
  have isWanted : Targets wanted swaps (target :: swaps) :=
    .inr ⟨target, wants.2 target found inUse, rfl⟩
  refine safe_attempt_bind (fun fsResult after answers => ?_) fun error after answers => ?_
  · obtain rfl : after = target :: swaps := answers
    have rest : Reads snapshot.Answers
        (persistActive pool target >>= fun _ => recordSwap options pool target fsResult >>= fun _ =>
          pure fsResult) (target :: swaps) fun _ => True :=
      reads_bind (reads_persistActive pool target) fun _ _ =>
        reads_bind (reads_recordSwap options pool target fsResult) fun _ _ => reads_done trivial
    exact ⟨isWanted, safe_of_reads rest (stays _) fun _ _ => trivial⟩
  · obtain rfl : after = target :: swaps := answers
    exact ⟨isWanted, trivial⟩

theorem safe_performPoolSwap {options : PerformSwapOptions}
    (wants : Wants wanted snapshot options) :
    (performPoolSwap paths tool options).safe snapshot.Answers (Targets wanted) (fun _ _ => True)
      swaps := by
  have stays : ∀ swaps, Targets wanted swaps swaps := fun swaps => .inl rfl
  refine safe_reads_bind reads_loadIdentitiesFile (stays _) ?_ fun _ => trivial
  rintro file ⟨rfl, -⟩
  refine safe_reads_bind reads_check (stays _) (fun pool _ => ?_) fun _ => trivial
  refine safe_attempt_bind (fun _ after answers => ?_) fun error after answers => ?_
  · obtain rfl : after = swaps := answers
    refine ⟨stays _, safe_andThen _ _ ?_⟩
    refine safe_mono (fun outcome world _ => ?_) _ _ (safe_swapLocked wants)
    refine safe_perform_bind fun answer after answers => ?_
    obtain rfl : after = world := answers
    exact ⟨stays _, safe_ofExcept trivial⟩
  · obtain rfl : after = swaps := answers
    exact ⟨stays _, trivial⟩

variable {deciding : Deciding}

/-- The member that a name stands for is in use and is chosen in one of the ways. -/
def Deciding.ChosenBy (deciding : Deciding) (snapshot : Snapshot) (paths : Paths)
    (usage : PoolUsage) (target : Identity) : Prop :=
  target.retired = false ∧
    deciding.Choice usage (deciding.rowsIn snapshot paths)
      (deciding.rowIn snapshot paths target.name)

theorem distinct_rowsIn (distinct : deciding.pool.swapPool.accounts.Nodup) :
    ((deciding.rowsIn snapshot paths).map MemberRow.name).Nodup := by
  have names : (deciding.rowsIn snapshot paths).map MemberRow.name = deciding.others := by
    unfold Deciding.rowsIn
    rw [List.map_map]
    exact List.map_id' _
  rw [names]
  exact (distinct.filter _).filter _

/-- The chosen name finds the member whose reading was taken. -/
theorem chosenBy_of_chooseTarget (nodup : (keysOf snapshot.file).Nodup) {usage : PoolUsage}
    (distinct : deciding.pool.swapPool.accounts.Nodup) {name : String}
    (chosen : deciding.chooseTarget usage (deciding.rowsIn snapshot paths) = some name)
    {target : Identity} (found : findIdentityByNameOrAlias snapshot.file name = some target)
    (inUse : target.retired = false) : deciding.ChosenBy snapshot paths usage target := by
  obtain ⟨row, isName, choice⟩ := Deciding.choice_of_chooseTarget (distinct_rowsIn distinct) chosen
  obtain ⟨own, isOther, isRow⟩ := List.mem_map.mp choice.free.1
  have same : own = name := by rw [← isName, ← isRow]; rfl
  subst same
  have read := choice.isSome_usage
  rw [← isRow] at read choice
  unfold Deciding.rowIn at read
  cases member : snapshot.file.find? fun identity => identity.name == own with
  | none =>
    rw [member] at read
    cases read
  | some identity =>
    have isNamed := name_of_find? member
    have again := findIdentity_of_mem nodup (List.mem_of_find?_eq_some member)
    rw [isNamed, found] at again
    cases again
    rw [← isNamed] at choice
    exact ⟨inUse, choice⟩

theorem safe_decideOn (inFile : deciding.members = membersOf snapshot.file deciding.pool)
    (nodup : (keysOf snapshot.file).Nodup) (distinct : deciding.pool.swapPool.accounts.Nodup)
    (reason : SwapReason) (activeMember : Identity) (usage : PoolUsage)
    (isWanted : ∀ target, deciding.ChosenBy snapshot paths usage target → wanted target) :
    (deciding.decideOn paths tool reason activeMember usage).safe snapshot.Answers
      (Targets wanted) (fun _ _ => True) swaps := by
  have stays : ∀ swaps, Targets wanted swaps swaps := fun swaps => .inl rfl
  unfold Deciding.decideOn
  split_ifs
  · trivial
  · trivial
  refine safe_reads_bind (reads_recentEvents _) (stays _) ?_ fun _ => trivial
  rintro events rfl
  have members : ∀ name ∈ deciding.others, name ∈ deciding.pool.swapPool.accounts :=
    fun name member => List.mem_of_mem_filter (List.mem_of_mem_filter member)
  have others : Reads snapshot.Answers (deciding.fetchRows (deciding.eventsIn snapshot paths)
      deciding.others) swaps fun rows => rows = deciding.rowsIn snapshot paths :=
    reads_fetchRows inFile _ members
  refine safe_reads_bind others (stays _) (fun rows isRows => ?_) fun _ => trivial
  rw [isRows]
  cases chosen : deciding.chooseTarget usage (deciding.rowsIn snapshot paths) with
  | none => trivial
  | some target =>
    have wants : Wants wanted snapshot
        (deciding.swapOptions paths reason activeMember usage target) :=
      ⟨fun current swaps => reads_guard activeMember current, fun found isFound inUse =>
        isWanted found (chosenBy_of_chooseTarget nodup distinct chosen isFound inUse)⟩
    refine safe_andThen _ _ (safe_mono (fun outcome world _ => ?_) _ _ (safe_performPoolSwap wants))
    rcases outcome with (error | error) | result <;> trivial

/-- Whoever a call swaps to is chosen by the readings. -/
theorem safe_swapIfLimited (poolKey : Option String) (reason : SwapReason) (clock : Option ℤ)
    (options : LimitOptions) {pool : PoolIdentity} {active : String}
    (isPool : requirePool paths snapshot.file poolKey tool = .ok pool)
    (isActive : pool.swapPool.active = some active) (distinct : pool.swapPool.accounts.Nodup)
    (isWanted : ∀ activeMember,
      snapshot.file.find? (fun member => member.name == active) = some activeMember →
        ∀ target, (snapshot.deciding options clock pool active).ChosenBy snapshot paths
          (snapshot.readings activeMember) target → wanted target) :
    (swapIfLimited paths tool poolKey reason clock options).safe snapshot.Answers
      (Targets wanted) (fun _ _ => True) swaps := by
  have stays : ∀ swaps, Targets wanted swaps swaps := fun swaps => .inl rfl
  refine safe_reads_bind reads_loadIdentitiesFile (stays _) ?_ fun _ => trivial
  rintro file ⟨rfl, nodup⟩
  refine safe_reads_bind reads_check (stays _) (fun found isFound => ?_) fun _ => trivial
  cases isFound.symm.trans isPool
  rw [isActive]
  dsimp only
  split_ifs
  · trivial
  refine safe_reads_bind (reads_perform fun answer after answers => answers) (stays _) ?_
    fun _ => trivial
  rintro now rfl
  refine safe_reads_bind reads_settledBefore (stays _) (fun settled _ => ?_) fun _ => trivial
  cases settled with
  | some outcome => trivial
  | none =>
    dsimp only
    cases found : (membersOf snapshot.file pool).find? fun member => member.name == active with
    | none => trivial
    | some activeMember =>
      have usage : Reads snapshot.Answers (attempt (.fetchUsage activeMember)) swaps
          fun usage => usage = snapshot.readings activeMember :=
        reads_attempt fun answer after answers => answers
      refine safe_reads_bind usage (stays _) (fun usage isUsage => ?_) fun _ => trivial
      rw [isUsage]
      exact safe_decideOn rfl nodup distinct reason activeMember _
        (isWanted activeMember (find?_of_find?_membersOf found))

end Swapping

/-! ### A good choice -/

section Good

variable {snapshot : Snapshot} {paths : Paths} {deciding : Deciding}

/-- What is promised of a member that is swapped to, against every other member of the pool that is
allowed, in use and under no hard limit. -/
structure Deciding.ChosenWell (deciding : Deciding) (snapshot : Snapshot) (paths : Paths)
    (target : Identity) : Prop where
  allowed : isAllowed deciding.pool target.name = true
  inUse : target.retired = false
  notActive : target.name ≠ deciding.active
  free : (deciding.rowIn snapshot paths target.name).blockedUntil = none
  /-- At 100 percent it has paid capacity, and the exhausted active member has none. -/
  exhausted : ∀ util, known (deciding.rowIn snapshot paths target.name) = some util → 100 ≤ util →
    Deciding.Paid (deciding.rowIn snapshot paths target.name) ∧
      deciding.options.assumeLimited = false ∧ ∃ activeMember,
        snapshot.file.find? (fun member => member.name == deciding.active) = some activeMember ∧
          100 ≤ Deciding.activeUtil (snapshot.readings activeMember) ∧
          (snapshot.readings activeMember).extraUsage = false
  /-- No member below the threshold has more headroom. -/
  lowest : ∀ row, Deciding.Free (deciding.rowsIn snapshot paths) row →
    ∀ util, known row = some util → util < poolThreshold deciding.pool →
      ∃ own, known (deciding.rowIn snapshot paths target.name) = some own ∧ own ≤ util
  /-- Included capacity goes before paid capacity. -/
  included : ∀ row, Deciding.Free (deciding.rowsIn snapshot paths) row →
    ∀ util, known row = some util → util < 100 →
      ∃ own, known (deciding.rowIn snapshot paths target.name) = some own ∧ own < 100

theorem Deciding.ChosenBy.well {activeMember target : Identity}
    (atMost : poolThreshold deciding.pool ≤ 100)
    (isActive : snapshot.file.find? (fun member => member.name == deciding.active) =
      some activeMember)
    (chosen : deciding.ChosenBy snapshot paths (snapshot.readings activeMember) target) :
    deciding.ChosenWell snapshot paths target := by
  obtain ⟨inUse, choice⟩ := chosen
  obtain ⟨name, isOther, isRow⟩ := List.mem_map.mp choice.free.1
  have same : name = target.name := congrArg MemberRow.name isRow
  rw [same] at isOther
  obtain ⟨allowed, notActive⟩ := Deciding.mem_others.mp isOther
  exact {
    allowed
    inUse
    notActive
    free := choice.free.2
    exhausted := by
      intro util isKnown exhausted
      obtain ⟨paid, soft, reached, unpaid⟩ := choice.paid_of_exhausted atMost isKnown exhausted
      exact ⟨paid, soft, activeMember, isActive, reached, unpaid⟩
    lowest := fun row free util isKnown => (choice.below atMost free isKnown).1
    included := fun row free util isKnown => (choice.below atMost free isKnown).2 }

/-- The same pool with its accounts in another order, and the same members. -/
structure Reordered (snapshot : Snapshot) (pool : PoolIdentity) (other : Snapshot)
    (reordered : PoolIdentity) : Prop where
  accounts : reordered.swapPool.accounts.Perm pool.swapPool.accounts
  active : reordered.swapPool.active = pool.swapPool.active
  disallowed : reordered.swapPool.disallowed = pool.swapPool.disallowed
  threshold : reordered.swapPool.thresholdPercent = pool.swapPool.thresholdPercent
  name : reordered.identity.name = pool.identity.name
  aliases : reordered.identity.aliases = pool.identity.aliases
  configDir : reordered.identity.configDir = pool.identity.configDir
  ledger : other.ledger = snapshot.ledger
  now : other.now = snapshot.now
  readings : other.readings = snapshot.readings
  members : ∀ name, name ∈ pool.swapPool.accounts ∨ pool.swapPool.active = some name →
    other.file.find? (fun member => member.name == name) =
      snapshot.file.find? fun member => member.name == name

variable {pool reordered : PoolIdentity} {other : Snapshot} {options : LimitOptions}
  {clock : Option ℤ} {active : String}

theorem Reordered.rowIn (same : Reordered snapshot pool other reordered) {name : String}
    (member : name ∈ pool.swapPool.accounts) :
    (other.deciding options clock reordered active).rowIn other paths name =
      (snapshot.deciding options clock pool active).rowIn snapshot paths name := by
  have events : (other.deciding options clock reordered active).eventsIn other paths =
      (snapshot.deciding options clock pool active).eventsIn snapshot paths := by
    unfold Deciding.eventsIn eventsForPool Snapshot.deciding
    dsimp only [PoolIdentity.name]
    rw [same.ledger, same.name, same.aliases, same.configDir]
  unfold Deciding.rowIn
  rw [same.members name (.inl member), same.readings, events]
  unfold Deciding.blockedUntil Snapshot.deciding
  rw [same.now]

theorem Reordered.mem_rowsIn (same : Reordered snapshot pool other reordered) (row : MemberRow) :
    row ∈ (snapshot.deciding options clock pool active).rowsIn snapshot paths ↔
      row ∈ (other.deciding options clock reordered active).rowsIn other paths := by
  have others : ∀ name, name ∈ (other.deciding options clock reordered active).others ↔
      name ∈ (snapshot.deciding options clock pool active).others := by
    intro name
    rw [Deciding.mem_others, Deciding.mem_others]
    unfold isAllowed Snapshot.deciding
    simp [same.accounts.mem_iff, same.disallowed]
  have account : ∀ name ∈ (snapshot.deciding options clock pool active).others,
      name ∈ pool.swapPool.accounts :=
    fun name member => List.mem_of_mem_filter (List.mem_of_mem_filter member)
  unfold Deciding.rowsIn
  rw [List.mem_map, List.mem_map]
  constructor
  · rintro ⟨name, member, rfl⟩
    exact ⟨name, (others name).mpr member, same.rowIn (account name member)⟩
  · rintro ⟨name, member, rfl⟩
    have isOther := (others name).mp member
    exact ⟨name, isOther, (same.rowIn (account name isOther)).symm⟩

/-- The order of the accounts does not decide at which utilisation the chosen member stands. -/
theorem Reordered.standing_eq (same : Reordered snapshot pool other reordered)
    (isActive : pool.swapPool.active = some active) (atMost : poolThreshold pool ≤ 100)
    {activeMember otherActive target otherTarget : Identity}
    (isMember : snapshot.file.find? (fun member => member.name == active) = some activeMember)
    (isOther : other.file.find? (fun member => member.name == active) = some otherActive)
    (chosen : (snapshot.deciding options clock pool active).ChosenBy snapshot paths
      (snapshot.readings activeMember) target)
    (otherChosen : (other.deciding options clock reordered active).ChosenBy other paths
      (other.readings otherActive) otherTarget) :
    standing ((snapshot.deciding options clock pool active).rowIn snapshot paths target.name) =
      standing ((other.deciding options clock reordered active).rowIn other paths
        otherTarget.name) := by
  rw [same.members active (.inr isActive), isMember] at isOther
  cases isOther
  have choice := otherChosen.2
  rw [same.readings] at choice
  have threshold : poolThreshold pool = poolThreshold reordered := by
    unfold poolThreshold
    rw [same.threshold]
  have again : (snapshot.deciding options clock pool active).Choice (snapshot.readings activeMember)
      ((snapshot.deciding options clock pool active).rowsIn snapshot paths)
      ((other.deciding options clock reordered active).rowIn other paths otherTarget.name) := by
    refine Deciding.Choice.congr ?_ threshold same.mem_rowsIn choice
    rfl
  exact chosen.2.standing_eq atMost again

/-- Whoever a call has swapped to is chosen by the readings. -/
theorem chosenBy_of_reaches {tool : String} {poolKey : Option String} {reason : SwapReason}
    {outcome : Option (Except PoolError LimitedOutcome)} {swaps : List Identity}
    (isPool : requirePool paths snapshot.file poolKey tool = .ok pool)
    (isActive : pool.swapPool.active = some active) (distinct : pool.swapPool.accounts.Nodup)
    (reaches : (swapIfLimited paths tool poolKey reason clock options).Reaches snapshot.Answers []
      outcome swaps) {target : Identity} (member : target ∈ swaps) :
    ∃ activeMember,
      snapshot.file.find? (fun member => member.name == active) = some activeMember ∧
        (snapshot.deciding options clock pool active).ChosenBy snapshot paths
          (snapshot.readings activeMember) target := by
  have safe : (swapIfLimited paths tool poolKey reason clock options).safe snapshot.Answers
      (Targets fun target => ∃ activeMember,
        snapshot.file.find? (fun member => member.name == active) = some activeMember ∧
          (snapshot.deciding options clock pool active).ChosenBy snapshot paths
            (snapshot.readings activeMember) target) (fun _ _ => True) [] :=
    safe_swapIfLimited poolKey reason clock options isPool isActive distinct
      fun activeMember isMember target chosen => ⟨activeMember, isMember, chosen⟩
  exact mem_of_targets (reaches.safe safe).1 (by simp) target member

end Good

namespace Exhausted

def first : Identity := ⟨"first", "/home/u/first", [], false, none⟩

def second : Identity := ⟨"second", "/home/u/second", [], false, none⟩

def swapPool : SwapPool := ⟨["first", "second"], some "first", [], none⟩

def pool : PoolIdentity := ⟨⟨"pool", "/home/u/pool", [], false, some swapPool⟩, swapPool, rfl⟩

/-- Both members are at 100 percent, the second has paid capacity. -/
def snapshot : Snapshot where
  file := [pool.identity, first, second]
  ledger := []
  now := 0
  readings := fun member => ⟨.live, some 100, [], member.name == "second", some 0⟩

def paths : Paths := ⟨id, id⟩

def options : LimitOptions := ⟨false, false, none, none, none⟩

/-- Every action succeeds. -/
def answer : (Answer : Type) → PoolAction Answer → List Identity → Answer × List Identity
  | _, .loadRegistry, swaps => (.ok snapshot.file, swaps)
  | _, .now injected, swaps => (injected.getD snapshot.now, swaps)
  | _, .readLedger, swaps => (snapshot.ledger, swaps)
  | _, .fetchUsage member, swaps => (.ok (snapshot.readings member), swaps)
  | _, .acquire _, swaps => (.ok (), swaps)
  | _, .release _, swaps => ((), swaps)
  | _, .swapCredentials pool _ target, swaps =>
      (.ok ⟨pool.name, none, target.name, false, .written, []⟩, target :: swaps)
  | _, .saveRegistry _, swaps => (.ok (), swaps)
  | _, .appendLedger _, swaps => (.ok (), swaps)

theorem answers (Answer : Type) (action : PoolAction Answer) (swaps : List Identity) :
    snapshot.Answers Answer action swaps (answer Answer action swaps).1
      (answer Answer action swaps).2 := by
  cases action with
  | loadRegistry => exact ⟨rfl, fun file same => (Except.ok.inj same).symm⟩
  | now injected => exact ⟨rfl, rfl⟩
  | readLedger => exact ⟨rfl, rfl⟩
  | fetchUsage member => exact ⟨rfl, fun usage same => (Except.ok.inj same).symm⟩
  | _ => rfl

def call : PoolProgram LimitedOutcome := swapIfLimited paths "claude" none .auto none options

theorem reaches : call.Reaches snapshot.Answers [] (some (call.run answer []).1) [second] := by
  have run := Program.reaches_run answers call []
  have swapped : (call.run answer []).2 = [second] := by decide +kernel
  rwa [swapped] at run

end Exhausted

end AiSwitcher.Limits
