/-
This file embeds how a swap pool's cost reaches its members: the part of
`poolMemberModelUsage` of `src/cli/claude-swap/attribution.ts` that sums the messages of
each member, and `swapPoolUsageResults` and `poolDailyTotals` of `src/cli/usage/run.ts`.
What a model cost the whole pool is split by the members' shares of its tokens; what a
member's report then carries for a model is spread over its days in proportion to the
list price of each day.

The first split is exact. The second one has nothing to spread by where the list price
of a model is unknown, and then the days carry nothing of its cost.
-/

import AiSwitcher.Library.Lists
import AiSwitcher.Library.Tally
import Mathlib.Algebra.BigOperators.Ring.Finset
import Mathlib.Algebra.BigOperators.Ring.List
import Mathlib.Algebra.Order.BigOperators.Group.List
import Mathlib.Algebra.Order.Field.Rat
import Mathlib.Tactic.FieldSimp
import Mathlib.Tactic.Ring

namespace AiSwitcher.PoolCosts

variable {Member Model Day : Type} [DecidableEq Member] [DecidableEq Model] [DecidableEq Day]

/-! ### The messages of a pool -/

structure TokscaleEntry (Model : Type) where
  model : Model
  input : Nat
  output : Nat
  cacheRead : Nat
  cacheWrite : Nat
  messageCount : Nat
  cost : ℚ

/-- Input, output, cache reads, cache writes, messages and cost of a day. -/
abbrev DayRow := Fin 6 → ℚ

abbrev DailyTotals (Day : Type) := List (Day × DayRow)

/-- A message that counts, charged to the member active at its time. -/
structure Hit (Member Model Day : Type) where
  member : Option Member
  model : Model
  time : ℤ
  day : Day
  input : Nat
  output : Nat
  cacheRead : Nat
  cacheWrite : Nat

structure PoolMemberUsage (Member Model Day : Type) where
  member : Option Member
  entries : List (TokscaleEntry Model)
  firstMs : ℤ
  lastMs : ℤ
  dailyUsage : List (Day × Nat)
  dailyByModel : List (Model × DailyTotals Day)

/-- The list price of a message, where the model has one. -/
abbrev Estimate (Model : Type) := (model : Model) → (input output cacheRead cacheWrite : Nat) → Option ℚ

namespace Hit

variable (estimate : Estimate Model) (hit : Hit Member Model Day)

def listPrice : ℚ :=
  (estimate hit.model hit.input hit.output hit.cacheRead hit.cacheWrite).getD 0

def entry : TokscaleEntry Model where
  model := hit.model
  input := hit.input
  output := hit.output
  cacheRead := hit.cacheRead
  cacheWrite := hit.cacheWrite
  messageCount := 1
  cost := hit.listPrice estimate

def row : DayRow
  | 0 => hit.input
  | 1 => hit.output
  | 2 => hit.cacheRead
  | 3 => hit.cacheWrite
  | 4 => 1
  | 5 => hit.listPrice estimate

end Hit

def TokscaleEntry.plus (entry more : TokscaleEntry Model) : TokscaleEntry Model where
  model := entry.model
  input := entry.input + more.input
  output := entry.output + more.output
  cacheRead := entry.cacheRead + more.cacheRead
  cacheWrite := entry.cacheWrite + more.cacheWrite
  messageCount := entry.messageCount + more.messageCount
  cost := entry.cost + more.cost

/-- The entry of the model, which is found or pushed, takes what the message adds. -/
def addEntry (entries : List (TokscaleEntry Model)) (more : TokscaleEntry Model) :
    List (TokscaleEntry Model) :=
  match entries with
  | [] => [more]
  | entry :: rest =>
      if entry.model = more.model then entry.plus more :: rest else entry :: addEntry rest more

/-- `addDailyTotals(dailyByModel[model] ??= {}, day, …)` -/
def addDaily (dailyByModel : List (Model × DailyTotals Day)) (model : Model) (day : Day)
    (row : DayRow) : List (Model × DailyTotals Day) :=
  match dailyByModel with
  | [] => [(model, Tally.add [] day row)]
  | (other, days) :: rest =>
      if other = model then (other, Tally.add days day row) :: rest
      else (other, days) :: addDaily rest model day row

namespace PoolMemberUsage

def empty (member : Option Member) (time : ℤ) : PoolMemberUsage Member Model Day where
  member
  entries := []
  firstMs := time
  lastMs := time
  dailyUsage := []
  dailyByModel := []

def add (estimate : Estimate Model) (usage : PoolMemberUsage Member Model Day)
    (hit : Hit Member Model Day) : PoolMemberUsage Member Model Day where
  member := usage.member
  entries := addEntry usage.entries (hit.entry estimate)
  firstMs := min usage.firstMs hit.time
  lastMs := max usage.lastMs hit.time
  dailyUsage := Tally.add usage.dailyUsage hit.day (hit.input + hit.output)
  dailyByModel := addDaily usage.dailyByModel hit.model hit.day (hit.row estimate)

end PoolMemberUsage

/-- The member's row, which is found or new, takes the message. -/
def addHit (estimate : Estimate Model) (usages : List (PoolMemberUsage Member Model Day))
    (hit : Hit Member Model Day) : List (PoolMemberUsage Member Model Day) :=
  match usages with
  | [] => [(PoolMemberUsage.empty hit.member hit.time).add estimate hit]
  | usage :: rest =>
      if usage.member = hit.member then usage.add estimate hit :: rest
      else usage :: addHit estimate rest hit

/-- The rows of the messages that count, each once. -/
def poolMemberModelUsage (estimate : Estimate Model) (hits : List (Hit Member Model Day)) :
    List (PoolMemberUsage Member Model Day) :=
  hits.foldl (addHit estimate) []

/-! ### What the members are charged -/

def TokscaleEntry.tokens (entry : TokscaleEntry Model) : Nat :=
  entry.input + entry.output + entry.cacheRead + entry.cacheWrite

/-- What each model cost the pool, from the entries of its report. -/
def poolCost (report : List (TokscaleEntry Model)) : List (Model × ℚ) :=
  Tally.addAll [] (report.map fun entry => (entry.model, entry.cost))

def modelTokens (usages : List (PoolMemberUsage Member Model Day)) : List (Model × Nat) :=
  Tally.addAll [] (usages.flatMap fun usage =>
    usage.entries.map fun entry => (entry.model, entry.tokens))

/-- What the entry costs once the pool's cost of its model has been split. -/
def charged (costs : List (Model × ℚ)) (tokens : List (Model × Nat)) (entry : TokscaleEntry Model) :
    ℚ :=
  let total := Tally.get tokens entry.model
  if entry.model ∈ costs.map Prod.fst ∧ 0 < total then
    Tally.get costs entry.model * (entry.tokens / total)
  else entry.cost

def charge (report : List (TokscaleEntry Model)) (usages : List (PoolMemberUsage Member Model Day)) :
    List (PoolMemberUsage Member Model Day) :=
  usages.map fun usage =>
    { usage with
      entries := usage.entries.map fun entry =>
        { entry with cost := charged (poolCost report) (modelTokens usages) entry } }

/-- The sum of what a list price estimated for each day. -/
def estimated (days : DailyTotals Day) : ℚ :=
  (days.map fun day => day.2 5).sum

def scaled (factor : ℚ) (row : DayRow) : DayRow :=
  fun column => if column = 5 then row column * factor else row column

def poolDailyTotals (usage : PoolMemberUsage Member Model Day) : DailyTotals Day :=
  usage.dailyByModel.foldl (fun totals (model, days) =>
    let reported :=
      ((usage.entries.find? fun entry => entry.model = model).map TokscaleEntry.cost).getD 0
    let factor := if 0 < estimated days then reported / estimated days else 0
    Tally.addAll totals (days.map fun (day, row) => (day, scaled factor row))) []

structure TokscaleReport (Model : Type) where
  entries : List (TokscaleEntry Model)
  totalInput : Nat
  totalOutput : Nat
  totalCacheRead : Nat
  totalCacheWrite : Nat
  totalMessages : Nat
  totalCost : ℚ

def reportFromEntries (entries : List (TokscaleEntry Model)) : TokscaleReport Model where
  entries
  totalInput := (entries.map TokscaleEntry.input).sum
  totalOutput := (entries.map TokscaleEntry.output).sum
  totalCacheRead := (entries.map TokscaleEntry.cacheRead).sum
  totalCacheWrite := (entries.map TokscaleEntry.cacheWrite).sum
  totalMessages := (entries.map TokscaleEntry.messageCount).sum
  totalCost := (entries.map TokscaleEntry.cost).sum

structure UsageResult (Member Model Day : Type) where
  /-- None for the unattributed remainder. -/
  identity : Option Member
  report : TokscaleReport Model
  dateSpan : ℤ × ℤ
  dailyUsage : List (Day × Nat)
  dailyTotals : DailyTotals Day

/-- The rows of one pool, of the members the caller asked for. -/
def swapPoolUsageResults (wanted : Option Member → Bool) (report : List (TokscaleEntry Model))
    (usages : List (PoolMemberUsage Member Model Day)) : List (UsageResult Member Model Day) :=
  ((charge report usages).filter fun usage => wanted usage.member).map fun usage =>
    { identity := usage.member
      report := reportFromEntries usage.entries
      dateSpan := (usage.firstMs, usage.lastMs)
      dailyUsage := usage.dailyUsage
      dailyTotals := poolDailyTotals usage }

/-! ### The rows of the members -/

omit [DecidableEq Day] in
theorem estimated_eq_total (days : DailyTotals Day) : estimated days = Tally.total days 5 := by
  induction days with
  | nil => rfl
  | cons day rest inductionHypothesis =>
    rw [Tally.total_cons, Pi.add_apply, ← inductionHypothesis]
    exact List.sum_cons

theorem estimated_add (days : DailyTotals Day) (day : Day) (row : DayRow) :
    estimated (Tally.add days day row) = estimated days + row 5 := by
  rw [estimated_eq_total, Tally.total_add, Pi.add_apply, ← estimated_eq_total]

theorem estimated_addAll (days more : DailyTotals Day) :
    estimated (Tally.addAll days more) = estimated days + estimated more := by
  simp only [estimated_eq_total, Tally.total_addAll, Pi.add_apply]

/-- The days of a model are what its entry sums up. -/
structure Spread (entry : TokscaleEntry Model) (daily : Model × DailyTotals Day) : Prop where
  model : entry.model = daily.1
  cost : entry.cost = estimated daily.2

structure PoolMemberUsage.WellFormed (usage : PoolMemberUsage Member Model Day) : Prop where
  distinct : (usage.entries.map TokscaleEntry.model).Nodup
  spread : List.Forall₂ Spread usage.entries usage.dailyByModel

theorem mem_models_addEntry {entries : List (TokscaleEntry Model)} {more : TokscaleEntry Model}
    {model : Model} : model ∈ (addEntry entries more).map TokscaleEntry.model ↔
      model ∈ entries.map TokscaleEntry.model ∨ model = more.model := by
  induction entries with
  | nil => simp [addEntry]
  | cons entry rest inductionHypothesis =>
    rw [addEntry]
    by_cases same : entry.model = more.model
    · rw [if_pos same, List.map_cons, List.map_cons, List.mem_cons, List.mem_cons, ← same]
      show model = entry.model ∨ _ ↔ _
      tauto
    · rw [if_neg same, List.map_cons, List.mem_cons, inductionHypothesis, List.map_cons,
        List.mem_cons, or_assoc]

theorem nodup_models_addEntry {entries : List (TokscaleEntry Model)} {more : TokscaleEntry Model}
    (distinct : (entries.map TokscaleEntry.model).Nodup) :
    ((addEntry entries more).map TokscaleEntry.model).Nodup := by
  induction entries with
  | nil => exact List.nodup_singleton _
  | cons entry rest inductionHypothesis =>
    obtain ⟨fresh, restDistinct⟩ := List.nodup_cons.mp distinct
    rw [addEntry]
    by_cases same : entry.model = more.model
    · rw [if_pos same]
      exact distinct
    · rw [if_neg same, List.map_cons, List.nodup_cons, mem_models_addEntry, not_or]
      exact ⟨⟨fresh, same⟩, inductionHypothesis restDistinct⟩

omit [DecidableEq Member] in
theorem forall₂_spread_add {estimate : Estimate Model} (hit : Hit Member Model Day)
    {entries : List (TokscaleEntry Model)} {dailyByModel : List (Model × DailyTotals Day)}
    (spread : List.Forall₂ Spread entries dailyByModel) :
    List.Forall₂ Spread (addEntry entries (hit.entry estimate))
      (addDaily dailyByModel hit.model hit.day (hit.row estimate)) := by
  induction spread with
  | nil =>
    refine .cons ⟨rfl, ?_⟩ .nil
    exact (add_zero _).symm
  | @cons entry daily entries dailyByModel this _ inductionHypothesis =>
    obtain ⟨other, days⟩ := daily
    obtain ⟨rfl, cost⟩ := this
    rw [addEntry, addDaily]
    by_cases same : entry.model = hit.model
    · rw [if_pos (show entry.model = (hit.entry estimate).model from same), if_pos same]
      refine .cons ⟨rfl, ?_⟩ ‹_›
      rw [estimated_add, ← cost]
      rfl
    · rw [if_neg (show entry.model ≠ (hit.entry estimate).model from same), if_neg same]
      exact .cons ⟨rfl, cost⟩ inductionHypothesis

omit [DecidableEq Member] in
theorem PoolMemberUsage.WellFormed.add {usage : PoolMemberUsage Member Model Day}
    (wellFormed : usage.WellFormed) (estimate : Estimate Model) (hit : Hit Member Model Day) :
    (usage.add estimate hit).WellFormed :=
  ⟨nodup_models_addEntry wellFormed.distinct, forall₂_spread_add hit wellFormed.spread⟩

theorem wellFormed_addHit {estimate : Estimate Model}
    {usages : List (PoolMemberUsage Member Model Day)}
    (wellFormed : ∀ usage ∈ usages, usage.WellFormed) (hit : Hit Member Model Day) :
    ∀ usage ∈ addHit estimate usages hit, usage.WellFormed := by
  induction usages with
  | nil =>
    have empty : (PoolMemberUsage.empty hit.member hit.time :
        PoolMemberUsage Member Model Day).WellFormed := ⟨List.nodup_nil, .nil⟩
    exact List.forall_mem_singleton.mpr (empty.add estimate hit)
  | cons usage rest inductionHypothesis =>
    rw [List.forall_mem_cons] at wellFormed
    rw [addHit]
    by_cases same : usage.member = hit.member
    · rw [if_pos same]
      exact List.forall_mem_cons.mpr ⟨wellFormed.1.add estimate hit, wellFormed.2⟩
    · rw [if_neg same]
      exact List.forall_mem_cons.mpr ⟨wellFormed.1, inductionHypothesis wellFormed.2⟩

theorem wellFormed_poolMemberModelUsage (estimate : Estimate Model)
    (hits : List (Hit Member Model Day)) :
    ∀ usage ∈ poolMemberModelUsage estimate hits, usage.WellFormed := by
  have run : ∀ usages : List (PoolMemberUsage Member Model Day),
      (∀ usage ∈ usages, usage.WellFormed) →
        ∀ usage ∈ hits.foldl (addHit estimate) usages, usage.WellFormed := by
    induction hits with
    | nil => exact fun _ wellFormed => wellFormed
    | cons hit rest inductionHypothesis =>
      exact fun usages wellFormed => inductionHypothesis _ (wellFormed_addHit wellFormed hit)
  exact run [] (List.forall_mem_nil _)

/-! ### The split by tokens -/

/-- The costs of a model in the rows, added up. -/
def costOf (model : Model) (usages : List (PoolMemberUsage Member Model Day)) : ℚ :=
  (((usages.flatMap PoolMemberUsage.entries).filter fun entry => entry.model = model).map
    TokscaleEntry.cost).sum

omit [DecidableEq Member] [DecidableEq Day] in
theorem get_modelTokens (usages : List (PoolMemberUsage Member Model Day)) (model : Model) :
    Tally.get (modelTokens usages) model =
      (((usages.flatMap PoolMemberUsage.entries).filter fun entry => entry.model = model).map
        TokscaleEntry.tokens).sum := by
  rw [modelTokens, Tally.get_addAll, ← List.map_flatMap, List.filter_map, List.map_map]
  exact zero_add _

omit [DecidableEq Member] [DecidableEq Day] in
theorem flatMap_entries_charge (report : List (TokscaleEntry Model))
    (usages : List (PoolMemberUsage Member Model Day)) :
    (charge report usages).flatMap PoolMemberUsage.entries =
      (usages.flatMap PoolMemberUsage.entries).map fun entry =>
        { entry with cost := charged (poolCost report) (modelTokens usages) entry } := by
  rw [charge, List.flatMap_map, List.map_flatMap]

omit [DecidableEq Member] [DecidableEq Day] in
/-- The members' costs of a model add up to what it cost the pool. -/
theorem costOf_charge (report : List (TokscaleEntry Model))
    (usages : List (PoolMemberUsage Member Model Day)) {model : Model}
    (priced : model ∈ (poolCost report).map Prod.fst)
    (held : 0 < Tally.get (modelTokens usages) model) :
    costOf model (charge report usages) = Tally.get (poolCost report) model := by
  have share : ∀ entry ∈ (usages.flatMap PoolMemberUsage.entries).filter
      (fun entry => entry.model = model), charged (poolCost report) (modelTokens usages) entry =
        Tally.get (poolCost report) model / Tally.get (modelTokens usages) model * entry.tokens := by
    intro entry member
    obtain rfl := of_decide_eq_true (List.mem_filter.mp member).2
    rw [charged, if_pos ⟨priced, held⟩]
    ring
  rw [costOf, flatMap_entries_charge, List.filter_map, List.map_map]
  have whole : ((Tally.get (modelTokens usages) model : Nat) : ℚ) ≠ 0 := by
    exact_mod_cast held.ne'
  calc (((usages.flatMap PoolMemberUsage.entries).filter fun entry => entry.model = model).map
        (charged (poolCost report) (modelTokens usages))).sum
      = (((usages.flatMap PoolMemberUsage.entries).filter fun entry => entry.model = model).map
          fun entry => Tally.get (poolCost report) model / Tally.get (modelTokens usages) model *
            (entry.tokens : ℚ)).sum := by rw [List.map_congr_left share]
    _ = Tally.get (poolCost report) model / Tally.get (modelTokens usages) model *
          (Tally.get (modelTokens usages) model : Nat) := by
        rw [List.sum_map_mul_left, get_modelTokens, Nat.cast_list_sum, List.map_map]
        rfl
    _ = Tally.get (poolCost report) model := div_mul_cancel₀ _ whole

/-! ### The split by days -/

omit [DecidableEq Day] in
theorem estimated_scaled (factor : ℚ) (days : DailyTotals Day) :
    estimated (days.map fun (day, row) => (day, scaled factor row)) = estimated days * factor := by
  rw [estimated, estimated, ← List.sum_map_mul_right, List.map_map]
  rfl

/-- What of a model's cost its days carry. -/
theorem estimated_mul_factor (estimate reported : ℚ) :
    estimate * (if 0 < estimate then reported / estimate else 0) =
      if 0 < estimate then reported else 0 := by
  by_cases known : 0 < estimate
  · rw [if_pos known, if_pos known, mul_div_cancel₀ _ known.ne']
  · rw [if_neg known, if_neg known, mul_zero]

/-- The cost that the report carries for a model. -/
def reported (entries : List (TokscaleEntry Model)) (model : Model) : ℚ :=
  ((entries.find? fun entry => entry.model = model).map TokscaleEntry.cost).getD 0

omit [DecidableEq Member] in
theorem estimated_poolDailyTotals (usage : PoolMemberUsage Member Model Day) :
    estimated (poolDailyTotals usage) = (usage.dailyByModel.map fun daily =>
      if 0 < estimated daily.2 then reported usage.entries daily.1 else 0).sum := by
  have run : ∀ (dailyByModel : List (Model × DailyTotals Day)) (totals : DailyTotals Day),
      estimated (dailyByModel.foldl (fun totals (model, days) =>
        let factor := if 0 < estimated days then
          reported usage.entries model / estimated days else 0
        Tally.addAll totals (days.map fun (day, row) => (day, scaled factor row))) totals) =
      estimated totals + (dailyByModel.map fun daily =>
        if 0 < estimated daily.2 then reported usage.entries daily.1 else 0).sum := by
    intro dailyByModel
    induction dailyByModel with
    | nil => exact fun totals => (add_zero _).symm
    | cons daily rest inductionHypothesis =>
      intro totals
      rw [List.foldl_cons, inductionHypothesis, estimated_addAll, estimated_scaled,
        estimated_mul_factor, List.map_cons, List.sum_cons, add_assoc]
  exact (run usage.dailyByModel []).trans (zero_add _)

omit [DecidableEq Model] [DecidableEq Day] in
theorem sum_spread {cost : TokscaleEntry Model → ℚ} {reported : Model → ℚ}
    {entries : List (TokscaleEntry Model)} {dailyByModel : List (Model × DailyTotals Day)}
    (spread : List.Forall₂ Spread entries dailyByModel)
    (same : ∀ entry ∈ entries, reported entry.model = cost entry) :
    (dailyByModel.map fun daily => if 0 < estimated daily.2 then reported daily.1 else 0).sum =
      (entries.map fun entry => if 0 < entry.cost then cost entry else 0).sum := by
  induction spread with
  | nil => rfl
  | cons this _ inductionHypothesis =>
    rw [List.forall_mem_cons] at same
    rw [List.map_cons, List.sum_cons, List.map_cons, List.sum_cons, inductionHypothesis same.2,
      ← this.model, ← this.cost, same.1]

/-- What a member is charged for models that have no list price to spread it by. -/
def unspread (report : List (TokscaleEntry Model))
    (usages : List (PoolMemberUsage Member Model Day))
    (usage : PoolMemberUsage Member Model Day) : ℚ :=
  ((usage.entries.filter fun entry => ¬ 0 < entry.cost).map
    (charged (poolCost report) (modelTokens usages))).sum

omit [DecidableEq Member] in
/-- The days of a member's row carry its cost but for what was not spread. -/
theorem estimated_add_unspread (report : List (TokscaleEntry Model))
    (usages : List (PoolMemberUsage Member Model Day)) {usage : PoolMemberUsage Member Model Day}
    (wellFormed : usage.WellFormed) :
    let cost := charged (poolCost report) (modelTokens usages)
    let entries := usage.entries.map fun entry => { entry with cost := cost entry }
    estimated (poolDailyTotals { usage with entries := entries }) +
        unspread report usages usage = (reportFromEntries entries).totalCost := by
  intro cost entries
  have found : ∀ entry ∈ usage.entries, reported entries entry.model = cost entry := by
    intro entry member
    have only := List.find?_of_nodup_map wellFormed.distinct member
    rw [reported, List.find?_map]
    show ((usage.entries.find? fun other => other.model = entry.model).map _ |>.map _).getD 0 = _
    rw [only]
    rfl
  have carried : estimated (poolDailyTotals { usage with entries := entries }) =
      (usage.entries.map fun entry => if 0 < entry.cost then cost entry else 0).sum :=
    (estimated_poolDailyTotals _).trans (sum_spread wellFormed.spread found)
  have whole : (reportFromEntries entries).totalCost = (usage.entries.map cost).sum := by
    show (entries.map TokscaleEntry.cost).sum = _
    rw [List.map_map]
    rfl
  rw [carried, whole]
  exact List.sum_map_ite_add_sum_filter _ cost usage.entries

/-- The members' costs of every model the pool's report prices, the unattributed remainder
included, add up to what it cost the pool if the transcripts hold a token of it; and the days of
every row add up to the cost of its report. The second is so exactly if what each of these members
is charged for models without a list price adds up to nothing. -/
theorem poolCosts_exact_iff (estimate : Estimate Model) (hits : List (Hit Member Model Day))
    (report : List (TokscaleEntry Model)) (wanted : Option Member → Bool) :
    let usages := poolMemberModelUsage estimate hits
    ((∀ model, (∃ entry ∈ report, entry.model = model) →
        (∃ usage ∈ usages, ∃ entry ∈ usage.entries, entry.model = model ∧ 0 < entry.tokens) →
        costOf model (charge report usages) =
          ((report.filter fun entry => entry.model = model).map TokscaleEntry.cost).sum) ∧
      ∀ result ∈ swapPoolUsageResults wanted report usages,
        estimated result.dailyTotals = result.report.totalCost) ↔
      ∀ usage ∈ usages, wanted usage.member = true → unspread report usages usage = 0 := by
  intro usages
  have wellFormed := wellFormed_poolMemberModelUsage estimate hits
  have split : ∀ model, (∃ entry ∈ report, entry.model = model) →
      (∃ usage ∈ usages, ∃ entry ∈ usage.entries, entry.model = model ∧ 0 < entry.tokens) →
      costOf model (charge report usages) =
        ((report.filter fun entry => entry.model = model).map TokscaleEntry.cost).sum := by
    rintro model ⟨priced, inReport, rfl⟩ ⟨usage, isUsage, entry, isEntry, same, held⟩
    have isPriced : priced.model ∈ (poolCost report).map Prod.fst := by
      rw [poolCost, Tally.mem_keys_addAll, List.map_map]
      exact .inr (List.mem_map_of_mem inReport)
    have isHeld : 0 < Tally.get (modelTokens usages) priced.model := by
      rw [get_modelTokens]
      refine held.trans_le (List.single_le_sum (fun _ _ => Nat.zero_le _) _ ?_)
      refine List.mem_map_of_mem (List.mem_filter.mpr ⟨?_, decide_eq_true same⟩)
      exact List.mem_flatMap.mpr ⟨usage, isUsage, isEntry⟩
    rw [costOf_charge report usages isPriced isHeld, poolCost, Tally.get_addAll, List.filter_map,
      List.map_map]
    exact zero_add _
  refine (and_iff_right split).trans ?_
  have rows : (∀ result ∈ swapPoolUsageResults wanted report usages,
      estimated result.dailyTotals = result.report.totalCost) ↔
      ∀ usage ∈ usages, wanted usage.member = true →
        estimated (poolDailyTotals { usage with
          entries := usage.entries.map fun entry =>
            { entry with cost := charged (poolCost report) (modelTokens usages) entry } }) =
          (reportFromEntries (usage.entries.map fun entry =>
            { entry with
              cost := charged (poolCost report) (modelTokens usages) entry })).totalCost := by
    rw [swapPoolUsageResults, List.forall_mem_map]
    simp only [charge, List.mem_filter, List.mem_map, and_imp, forall_exists_index,
      forall_apply_eq_imp_iff₂]
  rw [rows]
  refine forall₂_congr fun usage isUsage => imp_congr_right fun _ => ?_
  rw [← estimated_add_unspread report usages (wellFormed usage isUsage)]
  exact left_eq_add

/-- One message of a model without a list price. -/
def unpricedHit : Hit Unit Unit Unit := ⟨some (), (), 0, (), 10, 0, 0, 0⟩

/-- The report carries what the pool's report says the message cost, its day nothing. -/
theorem poolCosts_unpriced :
    let results := swapPoolUsageResults (fun _ => true) [⟨(), 10, 0, 0, 0, 1, 3⟩]
      (poolMemberModelUsage (fun _ _ _ _ _ => none) [unpricedHit])
    results.map (fun result => (estimated result.dailyTotals, result.report.totalCost)) =
        [(0, 3)] ∧
      ¬ ∀ result ∈ results, estimated result.dailyTotals = result.report.totalCost := by
  decide +kernel

end AiSwitcher.PoolCosts
