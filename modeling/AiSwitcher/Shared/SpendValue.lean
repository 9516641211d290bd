/-
This file embeds how local spend is valued: `valueRecords` of `src/shared/local-spend.ts` and the
Bedrock prices of `src/identities/model-pricing.ts`. A model id is lowered, loses the name of a
region in front, and is looked up in the price table, once more without the name of a vendor; a
model that is not found is valued at the highest price of every kind.

The table is a plain object, so the name of a member that every object has is found in it too, and
what is found then has no prices: the value is not a number, and neither is any total it enters.
Amounts are exact; one that is not a number is `none`.
-/

import AiSwitcher.Library.LowerCase
import Mathlib.Algebra.BigOperators.Group.List.Lemmas
import Mathlib.Algebra.Order.BigOperators.Group.List
import Mathlib.Data.NNRat.Defs
import Mathlib.Data.Rat.Cast.Order
import Mathlib.Tactic.NormNum
import Mathlib.Tactic.Positivity

namespace AiSwitcher.SpendValue

open JavaScript LowerCase
open JsonText (Units codeUnits)

/-! ### The price table -/

structure BedrockModelPrice where
  usdPer1mInput : ℚ
  usdPer1mOutput : ℚ
  usdPer1mCacheRead : ℚ
  usdPer1mCacheWrite : ℚ
deriving DecidableEq

def awsBedrockModelPrices : List (String × BedrockModelPrice) :=
  [("openai.gpt-6-astra", ⟨11, 55, 11 / 10, 55 / 4⟩),
    ("openai.gpt-5.6-luna", ⟨11 / 50, 33 / 25, 11 / 500, 11 / 40⟩)]

/-- The members that a plain object inherits. -/
def inheritedMembers : List String :=
  ["constructor", "__proto__", "__defineGetter__", "__defineSetter__", "__lookupGetter__",
    "__lookupSetter__", "hasOwnProperty", "isPrototypeOf", "propertyIsEnumerable",
    "toLocaleString", "toString", "valueOf"]

def unitsOf (name : String) : Units := codeUnits name.toList

/-- What an object has under a name. -/
inductive Found where
  | price (price : BedrockModelPrice)
  | inherited
deriving DecidableEq

/-- `AWS_BEDROCK_MODEL_PRICES[key]` -/
def lookup (key : Units) : Option Found :=
  match awsBedrockModelPrices.find? fun entry => unitsOf entry.1 == key with
  | some entry => some (.price entry.2)
  | none => if inheritedMembers.any fun name => unitsOf name == key then some .inherited else none

/-- The code unit of `.`. -/
def dot : UInt16 := 46

/-- `text.replace(/^(first|second|…)\./, "")` -/
def stripName (names : List String) (text : Units) : Units :=
  match names.find? fun name => (unitsOf name ++ [dot]).isPrefixOf text with
  | some name => text.drop (unitsOf name ++ [dot]).length
  | none => text

def regionNames : List String := ["us", "eu", "apac", "global", "ca"]

def vendorNames : List String := ["openai", "anthropic", "meta", "amazon"]

def normaliseBedrockModelId (unicode : UnicodeCase) (model : Units) : Units :=
  stripName regionNames (toLowerCase unicode (trimUnits model))

/-- What the table has for a normalised id, looked up as it is or without its vendor. -/
def resolve (id : Units) : Option Found :=
  (lookup id).or (lookup (stripName vendorNames id))

/-! ### Values of records -/

structure TokenCounts where
  input : ℚ≥0
  output : ℚ≥0
  cacheRead : ℚ≥0
  cacheWrite : ℚ≥0

structure UsageRecord where
  model : Units
  tokens : TokenCounts

def BedrockModelPrice.cost (price : BedrockModelPrice) (tokens : TokenCounts) : ℚ :=
  (tokens.input * price.usdPer1mInput + tokens.output * price.usdPer1mOutput +
    tokens.cacheRead * price.usdPer1mCacheRead +
    tokens.cacheWrite * price.usdPer1mCacheWrite) / 1000000

/-- Nothing for a model that is not in the table, and an amount or no number for any other. -/
def estimateBedrockTokenCost (unicode : UnicodeCase) (model : Units) (tokens : TokenCounts) :
    Option (Option ℚ) :=
  (resolve (normaliseBedrockModelId unicode model)).map fun found =>
    match found with
    | .price price => some (price.cost tokens)
    | .inherited => none

/-- `Math.max(...prices)` -/
def highest : List ℚ → ℚ
  | [] => 0
  | price :: prices => prices.foldl max price

def unknownBedrockModelFallbackPrice : BedrockModelPrice :=
  let prices := awsBedrockModelPrices.map Prod.snd
  { usdPer1mInput := highest (prices.map BedrockModelPrice.usdPer1mInput)
    usdPer1mOutput := highest (prices.map BedrockModelPrice.usdPer1mOutput)
    usdPer1mCacheRead := highest (prices.map BedrockModelPrice.usdPer1mCacheRead)
    usdPer1mCacheWrite := highest (prices.map BedrockModelPrice.usdPer1mCacheWrite) }

/-- A sum of two numbers. -/
def plus (first second : Option ℚ) : Option ℚ :=
  first.bind fun first => second.map (first + ·)

structure SpendTotals where
  usd : Option ℚ
  unknownModelUsd : Option ℚ

def SpendTotals.add (unicode : UnicodeCase) (totals : SpendTotals) (record : UsageRecord) :
    SpendTotals :=
  match estimateBedrockTokenCost unicode record.model record.tokens with
  | some priced => { totals with usd := plus totals.usd priced }
  | none =>
      let valued := unknownBedrockModelFallbackPrice.cost record.tokens
      { usd := plus totals.usd (some valued)
        unknownModelUsd := plus totals.unknownModelUsd (some valued) }

def valueRecords (unicode : UnicodeCase) (records : List UsageRecord) : SpendTotals :=
  records.foldl (SpendTotals.add unicode) ⟨some 0, some 0⟩

/-! ### Looking ids up -/

/-- What an id has to begin with to be found, or to lose a vendor. -/
def knownWords : List Units :=
  (awsBedrockModelPrices.map fun entry => unitsOf entry.1) ++ inheritedMembers.map unitsOf ++
    vendorNames.map fun name => unitsOf name ++ [dot]

theorem mem_knownWords_of_lookup {key : Units} (found : lookup key ≠ none) : key ∈ knownWords := by
  rw [lookup] at found
  split at found
  next entry isEntry =>
    have same : unitsOf entry.1 = key := by simpa using List.find?_some isEntry
    refine List.mem_append_left _ (List.mem_append_left _ ?_)
    exact List.mem_map.mpr ⟨entry, List.mem_of_find?_eq_some isEntry, same⟩
  next =>
    split at found
    next isMember =>
      obtain ⟨name, member, same⟩ := List.any_eq_true.mp isMember
      refine List.mem_append_left _ (List.mem_append_right _ ?_)
      exact List.mem_map.mpr ⟨name, member, beq_iff_eq.mp same⟩
    next => exact absurd rfl found

theorem stripName_of_no_name {names : List String} {text : Units}
    (none : ∀ name ∈ names, ¬ unitsOf name ++ [dot] <+: text) : stripName names text = text := by
  have absent : (names.find? fun name => (unitsOf name ++ [dot]).isPrefixOf text) = Option.none :=
    List.find?_eq_none.mpr fun name member isPrefix =>
      none name member (List.isPrefixOf_iff_prefix.mp isPrefix)
  rw [stripName, absent]

theorem resolve_eq_none {id : Units} (unknown : ∀ word ∈ knownWords, ¬ word <+: id) :
    resolve id = none := by
  have absent : lookup id = none := by
    by_contra found
    exact unknown id (mem_knownWords_of_lookup found) (List.prefix_refl _)
  have kept : stripName vendorNames id = id := stripName_of_no_name fun name member =>
    unknown _ (List.mem_append_right _ (List.mem_map.mpr ⟨name, member, rfl⟩))
  rw [resolve, kept, absent]
  rfl

theorem isAscii_knownWords : ∀ word ∈ knownWords, IsAscii word := by
  decide +kernel

/-- An id that is not of ASCII is in no table. -/
theorem resolve_of_not_ascii {id : Units} (other : ¬ IsAscii id) : resolve id = none := by
  have absent {key : Units} (notAscii : ¬ IsAscii key) : lookup key = none := by
    by_contra found
    exact notAscii (isAscii_knownWords key (mem_knownWords_of_lookup found))
  have stripped : ¬ IsAscii (stripName vendorNames id) := by
    rw [stripName]
    split
    next name isName =>
      have begins : unitsOf name ++ [dot] <+: id := by simpa using List.find?_some isName
      obtain ⟨rest, whole⟩ := begins
      have nameAscii : IsAscii (unitsOf name ++ [dot]) := by
        refine isAscii_knownWords _ (List.mem_append_right _ ?_)
        exact List.mem_map.mpr ⟨name, List.mem_of_find?_eq_some isName, rfl⟩
      intro restAscii
      rw [← whole, List.drop_left] at restAscii
      refine other ?_
      rw [← whole]
      exact List.forall_mem_append.mpr ⟨nameAscii, restAscii⟩
    next => exact other
  rw [resolve, absent other, absent stripped]
  rfl

theorem resolve_of_alike {first second : Units} (alike : List.Forall₂ Alike first second) :
    resolve first = resolve second := by
  rcases eq_or_of_alike alike with rfl | ⟨firstOther, secondOther⟩
  · rfl
  · rw [resolve_of_not_ascii firstOther, resolve_of_not_ascii secondOther]

/-! ### What is found -/

def tableNames : List String := awsBedrockModelPrices.map Prod.fst

/-- An id is one of the names, as it is or without its vendor. -/
def Names (names : List String) (id : Units) : Prop :=
  ∃ name ∈ names, id = unitsOf name ∨ stripName vendorNames id = unitsOf name

instance (names : List String) (id : Units) : Decidable (Names names id) :=
  inferInstanceAs (Decidable (∃ name ∈ names, _))

theorem lookup_cases (key : Units) :
    (∃ entry ∈ awsBedrockModelPrices, key = unitsOf entry.1 ∧ lookup key = some (.price entry.2)) ∨
      (∃ name ∈ inheritedMembers, key = unitsOf name ∧ lookup key = some .inherited) ∨
      (∀ name ∈ tableNames ++ inheritedMembers, key ≠ unitsOf name) ∧ lookup key = none := by
  rw [lookup]
  split
  next entry isEntry =>
    have same : unitsOf entry.1 = key := by simpa using List.find?_some isEntry
    exact .inl ⟨entry, List.mem_of_find?_eq_some isEntry, same.symm, rfl⟩
  next absent =>
    split
    next isMember =>
      obtain ⟨name, member, same⟩ := List.any_eq_true.mp isMember
      exact .inr (.inl ⟨name, member, (beq_iff_eq.mp same).symm, rfl⟩)
    next noMember =>
      refine .inr (.inr ⟨fun name member same => ?_, rfl⟩)
      rcases List.mem_append.mp member with inTable | isInherited
      · obtain ⟨entry, isEntry, rfl⟩ := List.mem_map.mp inTable
        exact List.find?_eq_none.mp absent entry isEntry (beq_iff_eq.mpr same.symm)
      · exact noMember (List.any_eq_true.mpr ⟨name, isInherited, beq_iff_eq.mpr same.symm⟩)

theorem lookup_tableName : ∀ entry ∈ awsBedrockModelPrices,
    (lookup (unitsOf entry.1)).isSome ∧
      lookup (stripName vendorNames (unitsOf entry.1)) = none := by
  decide +kernel

theorem inheritedMember_ne_tableName : ∀ entry ∈ awsBedrockModelPrices,
    ∀ name ∈ inheritedMembers, unitsOf name ≠ unitsOf entry.1 := by
  decide +kernel

theorem lookup_eq_inherited_iff (key : Units) :
    lookup key = some .inherited ↔ ∃ name ∈ inheritedMembers, key = unitsOf name := by
  rcases lookup_cases key with ⟨entry, isEntry, same, found⟩ | ⟨name, member, same, found⟩ |
    ⟨other, found⟩
  · rw [found]
    refine iff_of_false (fun equal => Found.noConfusion (Option.some.inj equal)) ?_
    rintro ⟨name, member, isName⟩
    exact inheritedMember_ne_tableName entry isEntry name member (isName.symm.trans same)
  · exact iff_of_true found ⟨name, member, same⟩
  · rw [found]
    refine iff_of_false (Option.some_ne_none _).symm ?_
    rintro ⟨name, member, isName⟩
    exact other name (List.mem_append_right _ member) isName

theorem lookup_ne_none_iff (key : Units) :
    lookup key ≠ none ↔ ∃ name ∈ tableNames ++ inheritedMembers, key = unitsOf name := by
  rcases lookup_cases key with ⟨entry, isEntry, same, found⟩ | ⟨name, member, same, found⟩ |
    ⟨other, found⟩
  · refine iff_of_true (by rw [found]; exact Option.some_ne_none _) ⟨entry.1, ?_, same⟩
    exact List.mem_append_left _ (List.mem_map_of_mem isEntry)
  · exact iff_of_true (by rw [found]; exact Option.some_ne_none _)
      ⟨name, List.mem_append_right _ member, same⟩
  · refine iff_of_false (fun present => present found) ?_
    rintro ⟨name, member, isName⟩
    exact other name member isName

theorem resolve_ne_none_iff (id : Units) :
    resolve id ≠ none ↔ Names (tableNames ++ inheritedMembers) id := by
  have either : resolve id ≠ none ↔ lookup id ≠ none ∨ lookup (stripName vendorNames id) ≠ none := by
    rw [resolve, Ne, Option.or_eq_none_iff, not_and_or]
  rw [either, lookup_ne_none_iff, lookup_ne_none_iff, ← exists_or]
  exact exists_congr fun name => and_or_left.symm

theorem resolve_eq_inherited_iff (id : Units) :
    resolve id = some .inherited ↔ Names inheritedMembers id := by
  have either : resolve id = some .inherited ↔
      lookup id = some .inherited ∨ lookup (stripName vendorNames id) = some .inherited := by
    rw [resolve]
    rcases lookup_cases id with ⟨entry, isEntry, same, found⟩ | ⟨name, member, same, found⟩ |
      ⟨other, found⟩
    · rw [same, (lookup_tableName entry isEntry).2, ← same, found, Option.or_none]
      exact (or_iff_left (Option.some_ne_none _).symm).symm
    · rw [found]
      exact iff_of_true rfl (.inl rfl)
    · rw [found, Option.none_or]
      exact (or_iff_right (Option.some_ne_none _).symm).symm
  rw [either, lookup_eq_inherited_iff, lookup_eq_inherited_iff, ← exists_or]
  exact exists_congr fun name => and_or_left.symm

/-! ### Region prefixes -/

/-- The name of a region and a dot in front of an id, in any case. -/
structure RegionPrefix (written : Units) : Prop where
  region : ∃ region ∈ regionNames, written.map lowerAscii = unitsOf region

/-- The id itself begins with the name of a region, or with whitespace. -/
def Doubled (unicode : UnicodeCase) (base : Units) : Prop :=
  (∃ unit rest, base = unit :: rest ∧ isSpace unit = true) ∨
    ∃ region ∈ regionNames, unitsOf region ++ [dot] <+: toLowerCase unicode (trimUnits base)

/-- Of several names in front of a text there is only one. -/
theorem stripName_append {names : List String}
    (apart : ∀ first ∈ names, ∀ second ∈ names,
      unitsOf first ++ [dot] <+: unitsOf second ++ [dot] → first = second)
    {name : String} (member : name ∈ names) (rest : Units) :
    stripName names (unitsOf name ++ dot :: rest) = rest := by
  have whole : unitsOf name ++ dot :: rest = (unitsOf name ++ [dot]) ++ rest := by simp
  rw [stripName, whole]
  split
  next other isOther =>
    have otherPrefix : unitsOf other ++ [dot] <+: (unitsOf name ++ [dot]) ++ rest := by
      simpa using List.find?_some isOther
    have isName := List.mem_of_find?_eq_some isOther
    have same : other = name := by
      rcases List.prefix_or_prefix_of_prefix otherPrefix (List.prefix_append _ rest) with
        inName | inOther
      · exact apart other isName name member inName
      · exact (apart name member other isName inOther).symm
    rw [same, List.drop_left]
  next isNone =>
    have found := List.find?_eq_none.mp isNone name member
    exact absurd (List.isPrefixOf_iff_prefix.mpr (List.prefix_append _ rest)) found

theorem regionNames_apart : ∀ first ∈ regionNames, ∀ second ∈ regionNames,
    unitsOf first ++ [dot] <+: unitsOf second ++ [dot] → first = second := by
  decide +kernel

theorem RegionPrefix.facts {written : Units} (isPrefix : RegionPrefix written) :
    IsAscii written ∧ written ≠ [] ∧ ∀ unit ∈ written, isSpace unit = false := by
  obtain ⟨region, isRegion, same⟩ := isPrefix.region
  have regionFacts : ∀ region ∈ regionNames, unitsOf region ≠ [] ∧ IsAscii (unitsOf region) ∧
      (unitsOf region).all (!isSpace ·) = true := by decide +kernel
  obtain ⟨present, letters, notSpaces⟩ := regionFacts region isRegion
  refine ⟨fun unit member => ?_, ?_, fun unit member => ?_⟩
  · have letter : lowerAscii unit ∈ unitsOf region := same ▸ List.mem_map_of_mem member
    exact lt_of_lowerAscii (letters _ letter)
  · rintro rfl
    exact present same.symm
  · have letter : lowerAscii unit ∈ unitsOf region := same ▸ List.mem_map_of_mem member
    by_contra space
    rw [Bool.not_eq_false] at space
    have notSpace := List.all_eq_true.mp notSpaces _ letter
    rw [lowerAscii_of_isSpace space, space] at notSpace
    cases notSpace

theorem isAscii_regions : ∀ region ∈ regionNames, IsAscii (unitsOf region ++ [dot]) := by
  decide +kernel

/-- What is looked up of a prefixed id. -/
theorem normalise_region (unicode : UnicodeCase) {written : Units} (isPrefix : RegionPrefix written)
    (base : Units) :
    normaliseBedrockModelId unicode (written ++ dot :: base) =
      toLowerCaseFrom unicode (written ++ [dot]) (base.rdropWhile isSpace) := by
  obtain ⟨ascii, present, notSpace⟩ := isPrefix.facts
  obtain ⟨region, isRegion, same⟩ := isPrefix.region
  have trimmed : trimUnits (written ++ dot :: base) = written ++ dot :: base.rdropWhile isSpace := by
    obtain ⟨unit, rest, rfl⟩ := List.exists_cons_of_ne_nil present
    rw [← rdropWhile_append (show isSpace dot = false by decide)]
    exact trimUnits_of_start (notSpace unit (.head _)) _
  have dotted : written ++ dot :: base.rdropWhile isSpace =
      (written ++ [dot]) ++ base.rdropWhile isSpace := by
    rw [List.append_assoc, List.singleton_append]
  have dottedAscii : IsAscii (written ++ [dot]) :=
    List.forall_mem_append.mpr ⟨ascii, List.forall_mem_singleton.mpr (by decide)⟩
  have lowered : toLowerCase unicode (written ++ dot :: base.rdropWhile isSpace) =
      unitsOf region ++ dot :: toLowerCaseFrom unicode (written ++ [dot])
        (base.rdropWhile isSpace) := by
    rw [dotted, toLowerCase, toLowerCaseFrom_append unicode dottedAscii, List.map_append, same,
      List.append_assoc]
    rfl
  rw [normaliseBedrockModelId, trimmed, lowered, stripName_append regionNames_apart isRegion]

theorem knownWords_no_space : ∀ word ∈ knownWords, (word.head?.all (!isSpace ·)) = true := by
  decide +kernel

theorem knownWords_ne_nil : ∀ word ∈ knownWords, word ≠ [] := by
  decide +kernel

theorem knownWords_no_region : ∀ word ∈ knownWords, ∀ region ∈ regionNames,
    ¬ word <+: unitsOf region ++ [dot] ∧ ¬ unitsOf region ++ [dot] <+: word := by
  decide +kernel

/-- What stands in front of a text decides nothing about what is found under its lower case. -/
theorem resolve_toLowerCaseFrom (unicode : UnicodeCase) (before text : Units) :
    resolve (toLowerCaseFrom unicode before text) = resolve (toLowerCase unicode text) :=
  resolve_of_alike (alike_toLowerCaseFrom unicode text before [])

theorem head_rdropWhile (unit : UInt16) (rest : Units) :
    (unit :: rest).rdropWhile isSpace = [] ∨
      ∃ more, (unit :: rest).rdropWhile isSpace = unit :: more := by
  obtain ⟨removed, whole⟩ := List.rdropWhile_prefix isSpace (unit :: rest)
  cases kept : (unit :: rest).rdropWhile isSpace with
  | nil => exact .inl rfl
  | cons head more =>
    rw [kept] at whole
    obtain rfl := (List.cons.inj whole).1
    exact .inr ⟨more, rfl⟩

/-- A prefixed id is in no table when the id behind the prefix is doubled. -/
theorem resolve_region_doubled (unicode : UnicodeCase) {written : Units}
    (isPrefix : RegionPrefix written) {base : Units} (doubled : Doubled unicode base) :
    resolve (normaliseBedrockModelId unicode (written ++ dot :: base)) = none := by
  rw [normalise_region unicode isPrefix]
  refine resolve_eq_none fun word isWord begins => ?_
  have spaced {unit : UInt16} {rest : Units} (whole : base = unit :: rest)
      (space : isSpace unit = true) : False := by
    rw [whole] at begins
    rcases head_rdropWhile unit rest with empty | ⟨more, kept⟩
    · rw [empty] at begins
      exact knownWords_ne_nil word isWord (List.prefix_nil.mp begins)
    · rw [kept, toLowerCase_space unicode space] at begins
      obtain ⟨letter, letters, rfl⟩ := List.exists_cons_of_ne_nil (knownWords_ne_nil word isWord)
      have notSpace := knownWords_no_space _ isWord
      rw [(List.cons_prefix_cons.mp begins).1, List.head?_cons, Option.all_some, space] at notSpace
      cases notSpace
  rcases doubled with ⟨unit, rest, whole, space⟩ | ⟨region, isRegion, inBase⟩
  · exact spaced whole space
  · cases base with
    | nil => exact absurd (List.prefix_nil.mp inBase) (by simp)
    | cons unit rest =>
      by_cases space : isSpace unit = true
      · exact spaced rfl space
      · rw [trimUnits_of_start (Bool.not_eq_true _ ▸ space)] at inBase
        have regionAscii : IsAscii (unitsOf region ++ [dot]) := isAscii_regions region isRegion
        have inLowered := (prefix_iff_of_alike regionAscii
          (alike_toLowerCaseFrom unicode _ (written ++ [dot]) [])).mpr inBase
        obtain ⟨wordFirst, regionFirst⟩ := knownWords_no_region word isWord region isRegion
        rcases List.prefix_or_prefix_of_prefix begins inLowered with inRegion | inWord
        · exact wordFirst inRegion
        · exact regionFirst inWord

/-- And any other is found as the id behind the prefix is. -/
theorem resolve_region_single (unicode : UnicodeCase) {written : Units}
    (isPrefix : RegionPrefix written) {base : Units} (single : ¬ Doubled unicode base) :
    resolve (normaliseBedrockModelId unicode (written ++ dot :: base)) =
      resolve (normaliseBedrockModelId unicode base) := by
  have trimmed : trimUnits base = base.rdropWhile isSpace := by
    cases base with
    | nil => rfl
    | cons unit rest =>
      refine trimUnits_of_start ?_ rest
      by_contra space
      exact single (.inl ⟨unit, rest, rfl, Bool.not_eq_false _ ▸ space⟩)
  have kept : normaliseBedrockModelId unicode base =
      toLowerCase unicode (base.rdropWhile isSpace) := by
    rw [normaliseBedrockModelId, ← trimmed]
    exact stripName_of_no_name fun region isRegion begins =>
      single (.inr ⟨region, isRegion, begins⟩)
  rw [normalise_region unicode isPrefix, kept, resolve_toLowerCaseFrom]

/-! ### The whole valuation -/

/-- What one record adds to the total. -/
def recordValue (unicode : UnicodeCase) (record : UsageRecord) : Option ℚ :=
  (estimateBedrockTokenCost unicode record.model record.tokens).getD
    (some (unknownBedrockModelFallbackPrice.cost record.tokens))

/-- The model has an entry of its own in the table. -/
def Listed (unicode : UnicodeCase) (model : Units) : Prop :=
  Names tableNames (normaliseBedrockModelId unicode model)

instance (unicode : UnicodeCase) (model : Units) : Decidable (Listed unicode model) :=
  inferInstanceAs (Decidable (Names _ _))

/-- Total, monotone and conservative, and blind to the names of regions. -/
structure Valued (unicode : UnicodeCase) (records : List UsageRecord) : Prop where
  total : ∃ values : List ℚ, records.map (recordValue unicode) = values.map some ∧
    (valueRecords unicode records).usd = some values.sum ∧ 0 ≤ values.sum
  grows : ∀ start record rest, records = start ++ record :: rest → ∃ before after,
    (valueRecords unicode start).usd = some before ∧
      (valueRecords unicode (start ++ [record])).usd = some after ∧ before ≤ after
  order : ∀ other, other.Perm records → valueRecords unicode other = valueRecords unicode records
  above : ∀ record ∈ records, ¬ Listed unicode record.model → ∃ value,
    recordValue unicode record = some value ∧
      ∀ entry ∈ awsBedrockModelPrices, entry.2.cost record.tokens ≤ value
  unlisted : ∃ values : List ℚ,
    (records.filter (¬ Listed unicode ·.model)).map (recordValue unicode) = values.map some ∧
      (valueRecords unicode records).unknownModelUsd = some values.sum
  region : ∀ record ∈ records, ∀ written base, RegionPrefix written →
    record.model = written ++ dot :: base → ∀ tokens,
      valueRecords unicode [⟨record.model, tokens⟩] = valueRecords unicode [⟨base, tokens⟩]

/-- What a record is worth whose id names no inherited member. -/
def worth (unicode : UnicodeCase) (record : UsageRecord) : ℚ :=
  match resolve (normaliseBedrockModelId unicode record.model) with
  | some (.price price) => price.cost record.tokens
  | _ => unknownBedrockModelFallbackPrice.cost record.tokens

/-- The id names a member that every object has. -/
def Inherited (unicode : UnicodeCase) (model : Units) : Prop :=
  Names inheritedMembers (normaliseBedrockModelId unicode model)

variable {unicode : UnicodeCase}

theorem not_inherited_iff {model : Units} :
    ¬ Inherited unicode model ↔
      resolve (normaliseBedrockModelId unicode model) ≠ some .inherited :=
  not_congr (resolve_eq_inherited_iff _).symm

/-- An id that names no inherited member is listed or not found. -/
theorem resolve_of_plain {model : Units} (plain : ¬ Inherited unicode model) :
    (Listed unicode model ∧ ∃ entry ∈ awsBedrockModelPrices,
        resolve (normaliseBedrockModelId unicode model) = some (.price entry.2)) ∨
      ¬ Listed unicode model ∧ resolve (normaliseBedrockModelId unicode model) = none := by
  rw [not_inherited_iff] at plain
  rw [Listed]
  generalize normaliseBedrockModelId unicode model = id at plain
  by_cases absent : resolve id = none
  · refine .inr ⟨fun ⟨name, member, isName⟩ => ?_, absent⟩
    exact (resolve_ne_none_iff id).mpr ⟨name, List.mem_append_left _ member, isName⟩ absent
  rw [resolve] at plain absent ⊢
  rcases lookup_cases id with ⟨entry, isEntry, same, found⟩ | ⟨name, member, same, found⟩ |
    ⟨other, found⟩
  · refine .inl ⟨⟨entry.1, List.mem_map_of_mem isEntry, .inl same⟩, entry, isEntry, ?_⟩
    rw [found]
    rfl
  · rw [found] at plain
    exact absurd rfl plain
  · rw [found, Option.none_or] at plain absent ⊢
    rcases lookup_cases (stripName vendorNames id) with ⟨entry, isEntry, same, inTable⟩ |
      ⟨name, member, same, inherited⟩ | ⟨unknown, missing⟩
    · exact .inl ⟨⟨entry.1, List.mem_map_of_mem isEntry, .inr same⟩, entry, isEntry, inTable⟩
    · exact absurd inherited plain
    · exact absurd missing absent

/-- The price of no kind of token is above the other's. -/
structure BedrockModelPrice.AtMost (price other : BedrockModelPrice) : Prop where
  input : price.usdPer1mInput ≤ other.usdPer1mInput
  output : price.usdPer1mOutput ≤ other.usdPer1mOutput
  cacheRead : price.usdPer1mCacheRead ≤ other.usdPer1mCacheRead
  cacheWrite : price.usdPer1mCacheWrite ≤ other.usdPer1mCacheWrite

theorem BedrockModelPrice.AtMost.cost_le {price other : BedrockModelPrice}
    (atMost : price.AtMost other) (tokens : TokenCounts) : price.cost tokens ≤ other.cost tokens := by
  rw [cost, cost]
  have inputs : (0 : ℚ) ≤ tokens.input := tokens.input.2
  have outputs : (0 : ℚ) ≤ tokens.output := tokens.output.2
  have reads : (0 : ℚ) ≤ tokens.cacheRead := tokens.cacheRead.2
  have writes : (0 : ℚ) ≤ tokens.cacheWrite := tokens.cacheWrite.2
  refine div_le_div_of_nonneg_right ?_ (by norm_num)
  gcongr
  · exact atMost.input
  · exact atMost.output
  · exact atMost.cacheRead
  · exact atMost.cacheWrite

theorem fallback_eq : unknownBedrockModelFallbackPrice = ⟨11, 55, 11 / 10, 55 / 4⟩ := by
  decide +kernel

theorem entry_atMost_fallback : ∀ entry ∈ awsBedrockModelPrices,
    entry.2.AtMost unknownBedrockModelFallbackPrice := by
  intro entry isEntry
  rw [fallback_eq]
  rcases List.mem_cons.mp isEntry with rfl | isSecond
  · exact ⟨le_rfl, le_rfl, le_rfl, le_rfl⟩
  · obtain rfl := List.mem_singleton.mp isSecond
    constructor <;> norm_num

theorem free_atMost_entry : ∀ entry ∈ awsBedrockModelPrices,
    BedrockModelPrice.AtMost ⟨0, 0, 0, 0⟩ entry.2 := by
  intro entry isEntry
  rcases List.mem_cons.mp isEntry with rfl | isSecond
  · constructor <;> norm_num
  · obtain rfl := List.mem_singleton.mp isSecond
    constructor <;> norm_num

theorem entry_cost_nonneg {entry : String × BedrockModelPrice}
    (isEntry : entry ∈ awsBedrockModelPrices) (tokens : TokenCounts) :
    0 ≤ entry.2.cost tokens := by
  have free : BedrockModelPrice.cost ⟨0, 0, 0, 0⟩ tokens = 0 := by
    rw [BedrockModelPrice.cost]
    norm_num
  exact free ▸ (free_atMost_entry entry isEntry).cost_le tokens

theorem fallback_cost_nonneg (tokens : TokenCounts) :
    0 ≤ unknownBedrockModelFallbackPrice.cost tokens :=
  (entry_cost_nonneg (.head _) tokens).trans ((entry_atMost_fallback _ (.head _)).cost_le tokens)

theorem worth_nonneg {record : UsageRecord} (plain : ¬ Inherited unicode record.model) :
    0 ≤ worth unicode record := by
  rw [worth]
  rcases resolve_of_plain plain with ⟨_, entry, isEntry, found⟩ | ⟨_, absent⟩
  · rw [found]
    exact entry_cost_nonneg isEntry _
  · rw [absent]
    exact fallback_cost_nonneg _

theorem recordValue_of_plain {record : UsageRecord} (plain : ¬ Inherited unicode record.model) :
    recordValue unicode record = some (worth unicode record) := by
  rw [recordValue, estimateBedrockTokenCost, worth]
  rcases resolve_of_plain plain with ⟨_, entry, isEntry, found⟩ | ⟨_, absent⟩
  · rw [found]
    rfl
  · rw [absent]
    rfl

/-- A record whose id names no inherited member enters the totals with its worth. -/
theorem add_of_plain {record : UsageRecord} (plain : ¬ Inherited unicode record.model)
    (usd unknown : ℚ) :
    SpendTotals.add unicode ⟨some usd, some unknown⟩ record =
      ⟨some (usd + worth unicode record),
        some (unknown + if Listed unicode record.model then 0 else worth unicode record)⟩ := by
  rcases resolve_of_plain plain with ⟨listed, entry, isEntry, found⟩ | ⟨unlisted, absent⟩
  · rw [SpendTotals.add, estimateBedrockTokenCost, worth, found, if_pos listed, add_zero]
    rfl
  · rw [SpendTotals.add, estimateBedrockTokenCost, worth, absent, if_neg unlisted]
    rfl

theorem valueRecords_concat (records : List UsageRecord) (record : UsageRecord) :
    valueRecords unicode (records ++ [record]) =
      (valueRecords unicode records).add unicode record := by
  rw [valueRecords, List.foldl_append]
  rfl

/-- Where no id names an inherited member, the totals are the sums of the worths. -/
theorem valueRecords_of_plain {records : List UsageRecord}
    (plain : ∀ record ∈ records, ¬ Inherited unicode record.model) :
    valueRecords unicode records =
      ⟨some (records.map (worth unicode)).sum,
        some ((records.filter (¬ Listed unicode ·.model)).map (worth unicode)).sum⟩ := by
  induction records using List.reverseRecOn with
  | nil => rfl
  | append_singleton records record inductionHypothesis =>
    obtain ⟨before, last⟩ := List.forall_mem_append.mp plain
    rw [valueRecords_concat, inductionHypothesis before,
      add_of_plain (last record (.head _)), List.filter_append, List.map_append,
      List.map_append, List.sum_append, List.sum_append, List.map_singleton, List.sum_singleton]
    by_cases listed : Listed unicode record.model
    · rw [if_pos listed, List.filter_cons_of_neg (by simpa using listed)]
      rfl
    · rw [if_neg listed, List.filter_cons_of_pos (by simpa using listed)]
      simp

/-- An id that names an inherited member has no value. -/
theorem recordValue_of_inherited {record : UsageRecord}
    (inherited : Inherited unicode record.model) : recordValue unicode record = none := by
  rw [recordValue, estimateBedrockTokenCost, (resolve_eq_inherited_iff _).mpr inherited]
  rfl

/-- What the totals of one record tell about its id. -/
theorem valueRecords_singleton_of_unlisted {model : Units} (tokens : TokenCounts)
    (absent : resolve (normaliseBedrockModelId unicode model) = none) :
    valueRecords unicode [⟨model, tokens⟩] =
      ⟨some (0 + unknownBedrockModelFallbackPrice.cost tokens),
        some (0 + unknownBedrockModelFallbackPrice.cost tokens)⟩ := by
  rw [valueRecords, List.foldl_cons, SpendTotals.add, estimateBedrockTokenCost, absent]
  rfl

theorem valueRecords_singleton_of_listed {model : Units} {found : Found} (tokens : TokenCounts)
    (isFound : resolve (normaliseBedrockModelId unicode model) = some found) :
    (valueRecords unicode [⟨model, tokens⟩]).unknownModelUsd = some 0 := by
  rw [valueRecords, List.foldl_cons, SpendTotals.add, estimateBedrockTokenCost, isFound]
  rfl

/-- The condition on the region prefix of one id. -/
def Stripped (unicode : UnicodeCase) (model : Units) : Prop :=
  ∀ written base, RegionPrefix written → model = written ++ dot :: base → Doubled unicode base →
    ¬ Names (tableNames ++ inheritedMembers) (normaliseBedrockModelId unicode base)

/-- A prefixed id is valued as its base just when a doubled base is in no table. -/
theorem stripped_iff (model : Units) :
    Stripped unicode model ↔
      ∀ written base, RegionPrefix written → model = written ++ dot :: base → ∀ tokens,
        valueRecords unicode [⟨model, tokens⟩] = valueRecords unicode [⟨base, tokens⟩] := by
  refine forall₂_congr fun written base => forall₂_congr fun isPrefix whole => ?_
  subst whole
  have known := resolve_ne_none_iff (normaliseBedrockModelId unicode base)
  by_cases doubled : Doubled unicode base
  · rw [← known, not_not]
    have absent := resolve_region_doubled unicode isPrefix doubled
    constructor
    · intro missing tokens
      rw [valueRecords_singleton_of_unlisted tokens absent,
        valueRecords_singleton_of_unlisted tokens (missing doubled)]
    · intro same _
      by_contra present
      obtain ⟨found, isFound⟩ := Option.ne_none_iff_exists'.mp present
      have unknown := congrArg SpendTotals.unknownModelUsd (same ⟨1, 0, 0, 0⟩)
      rw [valueRecords_singleton_of_unlisted _ absent, valueRecords_singleton_of_listed _ isFound,
        fallback_eq] at unknown
      revert unknown
      decide +kernel
  · refine iff_of_true (fun isDoubled => absurd isDoubled doubled) fun tokens => ?_
    rw [valueRecords, valueRecords, List.foldl_cons, List.foldl_cons, SpendTotals.add,
      SpendTotals.add, estimateBedrockTokenCost, estimateBedrockTokenCost,
      resolve_region_single unicode isPrefix doubled]

theorem exists_values {records : List UsageRecord}
    (plain : ∀ record ∈ records, ¬ Inherited unicode record.model) :
    records.map (recordValue unicode) = (records.map (worth unicode)).map some := by
  rw [List.map_map]
  exact List.map_congr_left fun record member => recordValue_of_plain (plain record member)

theorem Valued.plain {records : List UsageRecord} (valued : Valued unicode records) :
    ∀ record ∈ records, ¬ Inherited unicode record.model := by
  intro record member inherited
  obtain ⟨values, same, -⟩ := valued.total
  have isValue : recordValue unicode record ∈ values.map some :=
    same ▸ List.mem_map_of_mem member
  obtain ⟨value, -, isSome⟩ := List.mem_map.mp isValue
  rw [recordValue_of_inherited inherited] at isSome
  exact Option.some_ne_none _ isSome

/-- The valuation is total, monotone and conservative just when no id names a member that every
object has, and no id has a second region or whitespace behind its region and names, without the
first region, what the table has. -/
theorem valued_iff (unicode : UnicodeCase) (records : List UsageRecord) :
    Valued unicode records ↔
      ∀ record ∈ records, ¬ Inherited unicode record.model ∧ Stripped unicode record.model := by
  constructor
  · exact fun valued record member =>
      ⟨valued.plain record member, (stripped_iff _).mpr (valued.region record member)⟩
  intro sound
  have plain : ∀ record ∈ records, ¬ Inherited unicode record.model :=
    fun record member => (sound record member).1
  have totals := valueRecords_of_plain plain
  refine ⟨⟨_, exists_values plain, congrArg SpendTotals.usd totals, ?_⟩, ?_, ?_, ?_, ?_, ?_⟩
  · exact List.sum_nonneg fun value isValue => by
      obtain ⟨record, member, rfl⟩ := List.mem_map.mp isValue
      exact worth_nonneg (plain record member)
  · intro start record rest whole
    have startPlain : ∀ earlier ∈ start, ¬ Inherited unicode earlier.model := fun earlier member =>
      plain earlier (whole ▸ List.mem_append_left _ member)
    have lastPlain : ¬ Inherited unicode record.model :=
      plain record (whole ▸ List.mem_append_right _ (.head _))
    refine ⟨_, _, congrArg SpendTotals.usd (valueRecords_of_plain startPlain), ?_,
      le_add_of_nonneg_right (worth_nonneg lastPlain)⟩
    rw [valueRecords_concat, valueRecords_of_plain startPlain, add_of_plain lastPlain]
  · intro other permuted
    rw [totals, valueRecords_of_plain fun record member => plain record (permuted.mem_iff.mp member),
      (permuted.map (worth unicode)).sum_eq, ((permuted.filter _).map (worth unicode)).sum_eq]
  · intro record member unlisted
    refine ⟨_, recordValue_of_plain (plain record member), fun entry isEntry => ?_⟩
    rcases resolve_of_plain (plain record member) with ⟨listed, _⟩ | ⟨_, absent⟩
    · exact absurd listed unlisted
    · rw [worth, absent]
      exact (entry_atMost_fallback entry isEntry).cost_le record.tokens
  · exact ⟨_, exists_values fun record member => plain record (List.mem_of_mem_filter member),
      congrArg SpendTotals.unknownModelUsd totals⟩
  · exact fun record member => (stripped_iff _).mp (sound record member).2

/-- Letters outside ASCII kept as they are. -/
def plainCase : UnicodeCase where
  lower _ unit _ := [unit]
  alike _ _ unit _ := .cons (.refl unit) .nil
  space _ _ _ _ := rfl

/-- A model with the name of an inherited member: the total is not a number. -/
theorem valueRecords_constructor :
    valueRecords plainCase [⟨unitsOf "constructor", ⟨1, 0, 0, 0⟩⟩] = ⟨none, some 0⟩ ∧
      ¬ Valued plainCase [⟨unitsOf "constructor", ⟨1, 0, 0, 0⟩⟩] := by
  have inherited : Inherited plainCase (unitsOf "constructor") := by
    rw [Inherited]
    decide +kernel
  refine ⟨?_, fun valued => valued.plain _ (.head _) inherited⟩
  rw [valueRecords, List.foldl_cons, SpendTotals.add, estimateBedrockTokenCost,
    (resolve_eq_inherited_iff _).mpr inherited]
  rfl

end AiSwitcher.SpendValue
