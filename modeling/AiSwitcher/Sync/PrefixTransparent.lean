/-
This file proves that the cache of block digests does not show: whatever was asked, saved and
loaded before, a call answers what hashing the history from its start gives. The invariant is
that the blocks of every entry, in memory and saved, are the digests of leading blocks; growth
keeps it, so nothing depends on when an entry is judged usable.
-/

import AiSwitcher.Library.Text
import AiSwitcher.Sync.PrefixCache
import Mathlib.Algebra.BigOperators.Group.List.Basic
import Mathlib.Algebra.Group.Action.Defs
import Mathlib.Data.Set.Function

namespace AiSwitcher.Sync.PrefixCache

open Interrupted
open Utf8 (Bytes)

variable {digests : Digests}

/-! ### Leading blocks -/

theorem slice_grown {before after : Bytes} (grows : before <+: after) {position length : Nat}
    (within : position + length ≤ before.length) :
    slice after position length = slice before position length := by
  obtain ⟨more, rfl⟩ := grows
  rw [slice, slice, List.drop_append_of_le_length (by omega), List.take_append_of_le_length]
  rw [List.length_drop]
  omega

theorem length_blockDigests (content : Bytes) (count : Nat) :
    (blockDigests digests content count).length = count := by
  rw [blockDigests, List.length_map, List.length_range]

theorem blockDigests_succ (content : Bytes) (count : Nat) :
    blockDigests digests content (count + 1) =
      blockDigests digests content count ++ [digests.sha (slice content (count * BLOCK) BLOCK)] := by
  rw [blockDigests, List.range_succ, List.map_append]
  rfl

theorem blockDigests_grown {before after : Bytes} (grows : before <+: after) {count : Nat}
    (within : count * BLOCK ≤ before.length) :
    blockDigests digests after count = blockDigests digests before count := by
  refine List.map_congr_left fun index member => ?_
  have small := List.mem_range.mp member
  have wide := Nat.mul_le_mul_right BLOCK (Nat.succ_le_of_lt small)
  rw [Nat.succ_mul] at wide
  rw [slice_grown grows (wide.trans within)]

theorem take_blockDigests (content : Bytes) {first count : Nat} (shorter : first ≤ count) :
    (blockDigests digests content count).take first = blockDigests digests content first := by
  rw [blockDigests, ← List.map_take, List.take_range, Nat.min_eq_left shorter, blockDigests]

theorem hashPrefix_grown {before after : Bytes} (grows : before <+: after) {length : Nat}
    (within : length ≤ before.length) :
    hashPrefix digests after length = hashPrefix digests before length := by
  have whole := Nat.div_mul_le_self length BLOCK
  rw [hashPrefix, hashPrefix, blockDigests_grown grows (whole.trans within),
    slice_grown grows (by omega)]

/-! ### The invariant -/

/-- The blocks are the digests of leading blocks of the content. -/
structure Covers (digests : Digests) (content : Bytes) (blocks : List (List Char)) : Prop where
  within : blocks.length * BLOCK ≤ content.length
  leading : blocks = blockDigests digests content blocks.length

theorem Covers.grown {before after : Bytes} {blocks : List (List Char)}
    (covers : Covers digests before blocks) (grows : before <+: after) :
    Covers digests after blocks :=
  ⟨covers.within.trans grows.length_le,
    covers.leading.trans (blockDigests_grown grows covers.within).symm⟩

theorem covers_blockDigests {content : Bytes} {count : Nat} (within : count * BLOCK ≤ content.length) :
    Covers digests content (blockDigests digests content count) :=
  ⟨by rwa [length_blockDigests], by rw [length_blockDigests]⟩

def ValidEntries (digests : Digests) (content : String → Bytes) (entries : Entries) : Prop :=
  ∀ path entry, entries path = some entry → Covers digests (content path) entry.blocks

structure Valid (digests : Digests) (world : World) : Prop where
  memory : ValidEntries digests world.content world.entries
  saved : ∀ entries, world.saved = some entries → ValidEntries digests world.content entries

theorem ValidEntries.grown {before after : String → Bytes} {entries : Entries}
    (valid : ValidEntries digests before entries) (grows : ∀ path, before path <+: after path) :
    ValidEntries digests after entries :=
  fun path entry holds => (valid path entry holds).grown (grows path)

theorem Valid.grown {before after : World} (valid : Valid digests before)
    (grown : Grown before after) : Valid digests after := by
  obtain ⟨grows, same⟩ := grown
  rw [same]
  exact ⟨valid.memory.grown grows, fun entries saved => (valid.saved entries saved).grown grows⟩

/-- Where a call may stand: the invariant holds and the histories have only grown. -/
structure Since (digests : Digests) (start world : World) : Prop where
  valid : Valid digests world
  grows : ∀ path, start.content path <+: world.content path

theorem Since.trans {first second third : World} (earlier : Since digests first second)
    (later : Since digests second third) : Since digests first third :=
  ⟨later.valid, fun path => (earlier.grows path).trans (later.grows path)⟩

theorem Valid.since {world : World} (valid : Valid digests world) : Since digests world world :=
  ⟨valid, fun _ => List.prefix_refl _⟩

/-! ### What the actions do -/

section Rules

variable {ino : String → Nat} {Result : Type} {post : Except Unit Result → World → Prop}
  {world : World}

/-- Whatever is answered, every action keeps the invariant and the program ends in `post`. -/
abbrev Ends (digests : Digests) (ino : String → Nat) (post : Except Unit Result → World → Prop)
    (program : Call Result) (world : World) : Prop :=
  program.safe (behaviour ino) (Since digests) post world

theorem ends_perform {Answer : Type} {action : Action Answer} {next : Answer → Call Result}
    (goesOn : ∀ grown answer after, Grown world grown → Does ino action grown answer after →
      Since digests world after ∧ Ends digests ino post (next answer) after) :
    Ends digests ino post (Program.perform action >>= next) world := by
  refine Program.safe_perform_bind fun answer after answers => ?_
  obtain ⟨grown, grows, does⟩ := answers
  exact goesOn grown answer after grows does

theorem ends_readAt {path : String} {position length : Nat} {next : Option Bytes → Call Result}
    (valid : Valid digests world)
    (goesOn : ∀ answer after, Since digests world after →
      (position + length ≤ (world.content path).length →
        answer = some (slice (world.content path) position length)) →
      Ends digests ino post (next answer) after) :
    Ends digests ino post (Program.perform (.readAt path position length) >>= next) world := by
  refine ends_perform fun grown answer after grows does => ?_
  obtain ⟨rfl, rfl⟩ := does
  have since : Since digests world after := ⟨valid.grown grows, grows.1⟩
  refine ⟨since, goesOn _ _ since fun within => ?_⟩
  rw [if_pos (within.trans (grows.1 path).length_le), slice_grown (grows.1 path) within]

/-- The program ends with a result of which `between` holds. -/
def Returns {First : Type} (between : First → World → Prop) : Except Unit First → World → Prop
  | .ok value, world => between value world
  | .error _, _ => False

theorem ends_bind {First : Type} {between : First → World → Prop} {program : Call First}
    {next : First → Call Result} (first : Ends digests ino (Returns between) program world)
    (goesOn : ∀ value after, between value after → Ends digests ino post (next value) after) :
    Ends digests ino post (program >>= next) world := by
  refine Program.safe_bind program world (Program.safe_mono ?_ program world first)
  intro outcome after holds
  cases outcome with
  | ok value => exact goesOn value after holds
  | error _ => exact holds.elim

theorem ends_mono {First : Type} {between weaker : First → World → Prop} {program : Call First}
    (first : Ends digests ino (Returns between) program world)
    (implies : ∀ value after, between value after → weaker value after) :
    Ends digests ino (Returns weaker) program world := by
  refine Program.safe_mono ?_ program world first
  intro outcome after holds
  cases outcome with
  | ok value => exact implies value after holds
  | error _ => exact holds

/-! ### What the parts of a call return -/

theorem windowOf_ends {path : String} {covered : Nat} (valid : Valid digests world) :
    Ends digests ino (Returns fun window after => Since digests world after ∧
      (covered ≤ (world.content path).length → window.isSome = true))
      (windowOf digests path covered) world := by
  unfold windowOf
  dsimp only
  split
  · exact ⟨valid.since, fun _ => rfl⟩
  · refine ends_readAt valid fun bytes after since reads => ⟨since, fun within => ?_⟩
    rw [Option.isSome_map, reads (by omega)]
    rfl

theorem knownBlocks_ends {path : String} {info : Stat} {entry : Option PrefixEntry}
    (valid : Valid digests world) :
    Ends digests ino (Returns fun known after => Since digests world after ∧
      ∀ blocks, known = some blocks → ∃ held, entry = some held ∧ blocks = held.blocks)
      (knownBlocks digests path info entry) world := by
  cases entry with
  | none => exact ⟨valid.since, fun _ same => by cases same⟩
  | some entry =>
    have uses (blocks : List (List Char)) (same : some entry.blocks = some blocks) :
        ∃ held, some entry = some held ∧ blocks = held.blocks :=
      ⟨entry, rfl, (Option.some.inj same).symm⟩
    rw [knownBlocks]
    split
    · split
      · exact ⟨valid.since, uses⟩
      · refine ends_bind (windowOf_ends valid) fun window after holds => ⟨holds.1, ?_⟩
        split
        · exact uses
        · exact fun _ same => by cases same
    · exact ⟨valid.since, fun _ same => by cases same⟩

theorem next_within {known missing block size : Nat}
    (within : (known + (missing + 1)) * block ≤ size) : known * block + block ≤ size := by
  rw [← Nat.succ_mul]
  exact (Nat.mul_le_mul_right block (by omega)).trans within

theorem readBlocks_ends {path : String} {missing : Nat} : ∀ {world : World}
    {blocks : List (List Char)}, Valid digests world →
    blocks = blockDigests digests (world.content path) blocks.length →
    (blocks.length + missing) * BLOCK ≤ (world.content path).length →
    Ends digests ino (Returns fun result after => Since digests world after ∧
      result = some (blockDigests digests (after.content path) (blocks.length + missing)))
      (readBlocks digests path missing blocks) world := by
  induction missing with
  | zero =>
    intro world blocks valid leading _
    exact ⟨valid.since, congrArg some leading⟩
  | succ missing inductionHypothesis =>
    intro world blocks valid leading within
    unfold readBlocks
    refine ends_readAt valid fun bytes after since reads => ?_
    have here := next_within within
    rw [reads here]
    have grows := since.grows path
    have more : blocks ++ [digests.sha (slice (world.content path) (blocks.length * BLOCK) BLOCK)] =
        blockDigests digests (after.content path) (blocks.length + 1) := by
      rw [blockDigests_succ, blockDigests_grown grows (by omega), slice_grown grows here, ← leading]
    have length : (blocks ++
        [digests.sha (slice (world.content path) (blocks.length * BLOCK) BLOCK)]).length =
          blocks.length + 1 := List.length_append
    refine ends_mono (inductionHypothesis since.valid (by rw [length]; exact more) ?_) ?_
    · rw [length, Nat.add_assoc, Nat.add_comm 1]
      exact within.trans grows.length_le
    · intro result later holds
      refine ⟨since.trans holds.1, ?_⟩
      rw [holds.2, length, Nat.add_assoc, Nat.add_comm 1]

theorem ends_touch {path : String} {next : Unit → Call Result} (valid : Valid digests world)
    (goesOn : ∀ after, Since digests world after → Ends digests ino post (next ()) after) :
    Ends digests ino post (Program.perform (.touch path) >>= next) world := by
  refine ends_perform fun grown _ after grows does => ?_
  cases does
  have still := valid.grown grows
  have since : Since digests world { grown with
      dirty := true, touched := Function.update grown.touched path true } :=
    ⟨⟨still.memory, still.saved⟩, grows.1⟩
  exact ⟨since, goesOn _ since⟩

theorem ends_setEntry {path : String} {entry : PrefixEntry} {next : Unit → Call Result}
    (valid : Valid digests world) (covers : Covers digests (world.content path) entry.blocks)
    (goesOn : ∀ after, Since digests world after → Ends digests ino post (next ()) after) :
    Ends digests ino post (Program.perform (.setEntry path entry) >>= next) world := by
  refine ends_perform fun grown _ after grows does => ?_
  cases does
  have still := valid.grown grows
  have since : Since digests world { grown with
      entries := Function.update grown.entries path (some entry) } := by
    refine ⟨⟨fun other held holds => ?_, still.saved⟩, grows.1⟩
    dsimp only at holds ⊢
    by_cases same : other = path
    · rw [same, Function.update_self] at holds
      rw [same, ← Option.some.inj holds]
      exact covers.grown (grows.1 path)
    · rw [Function.update_of_ne same] at holds
      exact still.memory other held holds
  exact ⟨since, goesOn _ since⟩

/-- What a call returns: the digest as if nothing was known, or nothing as the history was too
short. -/
def Answered (digests : Digests) (start : World) (path : String) (length : Nat) :
    Option (List Char) → World → Prop
  | some digest, after => length ≤ (after.content path).length ∧
      digest = hashPrefix digests (after.content path) length
  | none, _ => (start.content path).length < length

theorem answer_ends {path : String} {length : Nat} {blocks : List (List Char)}
    (valid : Valid digests world) (long : length ≤ (world.content path).length)
    (leading : blocks = blockDigests digests (world.content path) (length / BLOCK)) :
    Ends digests ino (Returns fun result after => Since digests world after ∧
      result = some (hashPrefix digests (after.content path) length))
      (answer digests path length blocks) world := by
  have whole := Nat.div_mul_le_self length BLOCK
  refine ends_touch valid fun touched since => ?_
  refine ends_readAt since.valid fun bytes after reading reads => ⟨since.trans reading, ?_⟩
  have grows := since.grows path
  have longer := long.trans grows.length_le
  have same : hashPrefix digests (after.content path) length =
      hashPrefix digests (touched.content path) length :=
    hashPrefix_grown (reading.grows path) longer
  rw [reads (by omega), same, hashPrefix, Option.map_some, leading,
    blockDigests_grown grows (whole.trans long)]

theorem covers_known {path : String} {entry : Option PrefixEntry} {known : Option (List (List Char))}
    (held : ∀ held, entry = some held → Covers digests (world.content path) held.blocks)
    (uses : ∀ blocks, known = some blocks → ∃ held, entry = some held ∧ blocks = held.blocks) :
    Covers digests (world.content path) (known.getD []) := by
  cases known with
  | none => exact ⟨by rw [Option.getD_none, List.length_nil, Nat.zero_mul]; exact Nat.zero_le _, rfl⟩
  | some blocks =>
    obtain ⟨entry, isEntry, rfl⟩ := uses blocks rfl
    exact held entry isEntry

theorem prefixOf_ends {path : String} {length : Nat} (valid : Valid digests world) :
    Ends digests ino (Returns fun result after => Since digests world after ∧
      Answered digests world path length result after) (prefixOf digests path length) world := by
  have whole := Nat.div_mul_le_self length BLOCK
  refine ends_perform fun grown info after grows does => ?_
  obtain ⟨rfl, -, size⟩ := does
  have since : Since digests world after := ⟨valid.grown grows, grows.1⟩
  refine ⟨since, ?_⟩
  dsimp only
  split
  · next short => exact ⟨since, ((grows.1 path).length_le.trans_eq size.symm).trans_lt short⟩
  next long =>
  have long : length ≤ (after.content path).length := by omega
  refine ends_perform fun grown entry looked grows does => ?_
  obtain ⟨rfl, rfl⟩ := does
  have looking : Since digests after looked := ⟨since.valid.grown grows, grows.1⟩
  refine ⟨looking, ?_⟩
  have sinceLooked := since.trans looking
  have longLooked := long.trans (grows.1 path).length_le
  refine ends_bind (knownBlocks_ends sinceLooked.valid) fun known judged holds => ?_
  obtain ⟨judging, uses⟩ := holds
  have sinceJudged := sinceLooked.trans judging
  have longJudged := longLooked.trans (judging.grows path).length_le
  have held (entry : PrefixEntry) (isEntry : looked.entries path = some entry) :
      Covers digests (judged.content path) entry.blocks :=
    (sinceLooked.valid.memory path entry isEntry).grown (judging.grows path)
  have covers := covers_known held uses
  have ending {world' : World} (since' : Since digests world world')
      (long' : length ≤ (world'.content path).length) {blocks : List (List Char)}
      (leading : blocks = blockDigests digests (world'.content path) (length / BLOCK)) :
      Ends digests ino (Returns fun result after => Since digests world after ∧
        Answered digests world path length result after)
        (answer digests path length blocks) world' := by
    refine ends_mono (answer_ends since'.valid long' leading) fun result last holds => ?_
    rw [holds.2]
    exact ⟨since'.trans holds.1, long'.trans (holds.1.grows path).length_le, rfl⟩
  split
  · next fewer =>
    rw [List.take_of_length_le (Nat.le_of_lt fewer)]
    have sum : (known.getD []).length + (length / BLOCK - (known.getD []).length) = length / BLOCK :=
      by omega
    refine ends_bind (readBlocks_ends sinceJudged.valid covers.leading
      (by rw [sum]; exact whole.trans longJudged)) fun result hashed holds => ?_
    rw [sum] at holds
    obtain ⟨hashing, rfl⟩ := holds
    have sinceHashed := sinceJudged.trans hashing
    have longHashed := longJudged.trans (hashing.grows path).length_le
    refine ends_bind (windowOf_ends sinceHashed.valid) fun window sampled holds => ?_
    obtain ⟨sampling, isSome⟩ := holds
    obtain ⟨window, rfl⟩ := Option.isSome_iff_exists.mp (isSome (whole.trans longHashed))
    have sinceSampled := sinceHashed.trans sampling
    have longSampled := longHashed.trans (sampling.grows path).length_le
    have same := @blockDigests_grown digests _ _ (sampling.grows path) _ (whole.trans longHashed)
    refine ends_setEntry sinceSampled.valid ?_ fun last setting => ?_
    · rw [← same]
      exact covers_blockDigests (whole.trans longSampled)
    · refine ending (sinceSampled.trans setting) (longSampled.trans (setting.grows path).length_le) ?_
      rw [blockDigests_grown (setting.grows path) (whole.trans longSampled), same]
  · next enough =>
    have leading : (known.getD []).take (length / BLOCK) =
        blockDigests digests (judged.content path) (length / BLOCK) := by
      rw [covers.leading, take_blockDigests _ (Nat.le_of_not_lt enough)]
    split
    · next blocks entry isEntry =>
      refine ends_setEntry sinceJudged.valid (held entry isEntry) fun last setting => ?_
      refine ending (sinceJudged.trans setting) (longJudged.trans (setting.grows path).length_le) ?_
      rw [blockDigests_grown (setting.grows path) (whole.trans longJudged)]
      exact leading
    · exact ending sinceJudged longJudged leading

theorem save_ends (valid : Valid digests world) :
    Ends digests ino (fun _ after => Since digests world after) save world := by
  refine ends_perform fun grown dirty after grows does => ?_
  obtain ⟨rfl, -⟩ := does
  have since : Since digests world after := ⟨valid.grown grows, grows.1⟩
  refine ⟨since, ?_⟩
  split
  · refine ends_perform fun grown _ forgot grows does => ?_
    obtain ⟨entries, rfl, fewer⟩ := does
    have still := since.valid.grown grows
    have forgetting : Since digests after { grown with entries := entries } := by
      refine ⟨⟨fun path entry holds => ?_, still.saved⟩, grows.1⟩
      rcases fewer path with same | ⟨-, gone⟩
      · exact still.memory path entry (same.symm.trans holds)
      · have absent : none = some entry := gone.symm.trans holds
        cases absent
    refine ⟨forgetting, Program.safe_attempt_bind (fun _ wrote answers => ?_)
      fun _ wrote answers => ?_⟩
    · obtain ⟨grown', grows', ⟨-, rfl⟩ | ⟨impossible, -⟩⟩ := answers
      · have kept := forgetting.valid.grown grows'
        have writing : Since digests { grown with entries := entries }
            { grown' with saved := some grown'.entries } :=
          ⟨⟨kept.memory, fun saved same => Option.some.inj same ▸ kept.memory⟩, grows'.1⟩
        refine ⟨writing, fun _ last answers => ?_⟩
        obtain ⟨grown'', grows'', rfl⟩ := answers
        have settled := writing.valid.grown grows''
        have cleaning : Since digests { grown' with saved := some grown'.entries }
            { grown'' with dirty := false } :=
          ⟨⟨settled.memory, settled.saved⟩, grows''.1⟩
        exact ⟨cleaning, ((since.trans forgetting).trans writing).trans cleaning⟩
      · cases impossible
    · obtain ⟨grown', grows', ⟨impossible, -⟩ | ⟨-, rfl⟩⟩ := answers
      · cases impossible
      · have failing : Since digests { grown with entries := entries } wrote :=
          ⟨forgetting.valid.grown grows', grows'.1⟩
        exact ⟨failing, (since.trans forgetting).trans failing⟩
  · exact since

theorem load_since {after : World} (valid : Valid digests world)
    (does : Does ino .load world () after) : Since digests world after := by
  obtain ⟨entries, source, rfl⟩ := does
  refine ⟨⟨fun path entry holds => ?_, valid.saved⟩, fun _ => List.prefix_refl _⟩
  rcases source with saved | empty
  · exact valid.saved entries saved path entry holds
  · have absent : none = some entry := (empty path).symm.trans holds
    cases absent

/-- What a call says, if it is for a digest. -/
def Request.Answers (digests : Digests) (start : World) : Request → Option (List Char) → World → Prop
  | .prefixOf path length => Answered digests start path length
  | _ => fun _ _ => True

theorem request_ends (call : Request) (valid : Valid digests world) :
    Ends digests ino (fun outcome after => Since digests world after ∧
      ∀ answer, outcome = .ok answer → call.Answers digests world answer after)
      (request digests call) world := by
  cases call with
  | prefixOf path length =>
    refine Program.safe_mono (fun outcome after holds => ?_) _ _ (prefixOf_ends valid)
    cases outcome with
    | ok answer => exact ⟨holds.1, fun _ same => Except.ok.inj same ▸ holds.2⟩
    | error _ => exact holds.elim
  | save =>
    refine Program.safe_andThen _ _ (Program.safe_mono (fun outcome after holds => ?_) _ _
      (save_ends valid))
    exact ⟨holds, fun _ _ => trivial⟩
  | load =>
    refine ends_perform fun grown _ after grows does => ?_
    have growing : Since digests world grown := ⟨valid.grown grows, grows.1⟩
    have since := growing.trans (load_since growing.valid does)
    exact ⟨since, since, fun _ _ => trivial⟩

end Rules

/-! ### Runs -/

/-- A call of a run: what was asked and answered, and the worlds before and after. -/
structure Exchange where
  request : Request
  outcome : Option (List Char)
  before : World
  after : World

/-- A sequence of calls, with growth in between. A process may end within a call; the next one
starts from what was saved. -/
inductive Run (digests : Digests) (ino : String → Nat) : World → List Exchange → World → Prop
  | done (world : World) : Run digests ino world [] world
  | grow {world grown last : World} {exchanges : List Exchange} (grows : Grown world grown)
      (rest : Run digests ino grown exchanges last) : Run digests ino world exchanges last
  | call {world after last : World} {call : Request} {outcome : Option (List Char)}
      {exchanges : List Exchange}
      (reaches : (request digests call).Reaches (behaviour ino) world (some (.ok outcome)) after)
      (rest : Run digests ino after exchanges last) :
      Run digests ino world (⟨call, outcome, world, after⟩ :: exchanges) last
  | restart {world between after last : World} {call : Request}
      {outcome : Option (Except Unit (Option (List Char)))} {exchanges : List Exchange}
      (reaches : (request digests call).Reaches (behaviour ino) world outcome between)
      (loads : Does ino .load between () after) (rest : Run digests ino after exchanges last) :
      Run digests ino world exchanges last

theorem since_of_reaches {ino : String → Nat} {world after : World} {call : Request}
    {outcome : Option (Except Unit (Option (List Char)))} (valid : Valid digests world)
    (reaches : (request digests call).Reaches (behaviour ino) world outcome after) :
    Since digests world after := by
  obtain ⟨steps, -⟩ := reaches.safe (request_ends call valid)
  clear reaches
  induction steps with
  | refl => exact valid.since
  | tail _ last inductionHypothesis => exact inductionHypothesis.trans last

/-- Every call of a run from valid entries is answered as if nothing was known. -/
theorem Run.answers {ino : String → Nat} {world last : World} {exchanges : List Exchange}
    (run : Run digests ino world exchanges last) (valid : Valid digests world) :
    Since digests world last ∧ ∀ exchange ∈ exchanges,
      Since digests exchange.after last ∧
        exchange.request.Answers digests exchange.before exchange.outcome exchange.after := by
  induction run with
  | done world => exact ⟨valid.since, List.forall_mem_nil _⟩
  | grow grows _ inductionHypothesis =>
    obtain ⟨since, all⟩ := inductionHypothesis (valid.grown grows)
    exact ⟨Since.trans ⟨valid.grown grows, grows.1⟩ since, all⟩
  | call reaches _ inductionHypothesis =>
    have calling := since_of_reaches valid reaches
    obtain ⟨since, all⟩ := inductionHypothesis calling.valid
    refine ⟨calling.trans since, List.forall_mem_cons.mpr ⟨⟨since, ?_⟩, all⟩⟩
    exact ((reaches.safe (request_ends _ valid)).2 _ rfl).2 _ rfl
  | restart reaches loads _ inductionHypothesis =>
    have calling := since_of_reaches valid reaches
    have loading := load_since calling.valid loads
    obtain ⟨since, all⟩ := inductionHypothesis loading.valid
    exact ⟨(calling.trans loading).trans since, all⟩

/-! ### Equal answers -/

/-- What is digested for the first `length` bytes. -/
def hashed (digests : Digests) (content : Bytes) (length : Nat) : List Bytes :=
  let rest := slice content (length / BLOCK * BLOCK) (length - length / BLOCK * BLOCK)
  Utf8.encode (message length (blockDigests digests content (length / BLOCK)) (digests.sha rest)) ::
    rest :: (List.range (length / BLOCK)).map fun index => slice content (index * BLOCK) BLOCK

theorem append_colon_injective {first second firstRest secondRest : List Char}
    (firstPlain : ':' ∉ first) (secondPlain : ':' ∉ second)
    (same : first ++ ':' :: firstRest = second ++ ':' :: secondRest) :
    first = second ∧ firstRest = secondRest := by
  have cut {plain rest : List Char} (absent : ':' ∉ plain) :
      (plain ++ ':' :: rest).takeWhile (· ≠ ':') = plain := by
    have all : ∀ character ∈ plain, decide (character ≠ ':') = true := fun character member =>
      decide_eq_true fun isColon => absent (isColon ▸ member)
    rw [List.takeWhile_append_of_pos all]
    exact List.append_nil _
  have heads := congrArg (List.takeWhile (· ≠ ':')) same
  rw [cut firstPlain, cut secondPlain] at heads
  rw [heads] at same
  exact ⟨heads, (List.cons.inj (List.append_cancel_left same)).2⟩

theorem flatten_injective {width : Nat} : ∀ {first second : List (List Char)},
    first.length = second.length → (∀ part ∈ first, part.length = width) →
    (∀ part ∈ second, part.length = width) → first.flatten = second.flatten → first = second
  | [], [], _, _, _, _ => rfl
  | _ :: _, _ :: _, lengths, firstWide, secondWide, same => by
      rw [List.forall_mem_cons] at firstWide secondWide
      obtain ⟨here, rest⟩ := List.append_inj same (firstWide.1.trans secondWide.1.symm)
      rw [here, flatten_injective (Nat.succ.inj lengths) firstWide.2 secondWide.2 rest]

theorem length_of_mem_blockDigests {content : Bytes} {count : Nat} {digest : List Char}
    (member : digest ∈ blockDigests digests content count) : digest.length = 64 := by
  obtain ⟨index, -, rfl⟩ := List.mem_map.mp member
  exact digests.length_sha _

theorem length_flatten_blockDigests (content : Bytes) (count : Nat) :
    (blockDigests digests content count).flatten.length = count * 64 := by
  rw [List.length_flatten, List.map_congr_left fun _ member => length_of_mem_blockDigests member,
    List.map_const', List.sum_replicate, length_blockDigests, smul_eq_mul]

theorem message_injective {first second : Nat} {firstContent secondContent : Bytes}
    {firstRest secondRest : List Char}
    (same : message first (blockDigests digests firstContent (first / BLOCK)) firstRest =
      message second (blockDigests digests secondContent (second / BLOCK)) secondRest) :
    first = second ∧ blockDigests digests firstContent (first / BLOCK) =
      blockDigests digests secondContent (first / BLOCK) ∧ firstRest = secondRest := by
  rw [message, message, List.append_assoc, List.append_assoc] at same
  obtain ⟨digits, tails⟩ := append_colon_injective
    (JavaScript.not_mem_toDigits rfl first) (JavaScript.not_mem_toDigits rfl second)
    (List.append_cancel_left same)
  obtain rfl := JavaScript.toDigits_injective digits
  obtain ⟨blocks, rests⟩ := List.append_inj tails
    (by rw [length_flatten_blockDigests, length_flatten_blockDigests])
  refine ⟨rfl, @flatten_injective 64 _ _ ?_ ?_ ?_ blocks, (List.cons.inj rests).2⟩
  · rw [length_blockDigests, length_blockDigests]
  · exact fun _ member => length_of_mem_blockDigests member
  · exact fun _ member => length_of_mem_blockDigests member

theorem take_eq_of_slices {first second : Bytes} {size : Nat} : ∀ {count : Nat},
    (∀ index < count, slice first (index * size) size = slice second (index * size) size) →
    first.take (count * size) = second.take (count * size) := by
  intro count
  induction count with
  | zero => intro _; rw [Nat.zero_mul, List.take_zero, List.take_zero]
  | succ count inductionHypothesis =>
    intro same
    have last := same count (Nat.lt_succ_self count)
    rw [slice, slice] at last
    rw [Nat.succ_mul, List.take_add, List.take_add, last,
      inductionHypothesis fun index small => same index (Nat.lt_succ_of_lt small)]

/-- Equal answers mean equal lengths and equal bytes. -/
theorem hashPrefix_injective {first second : Bytes} {firstLength secondLength : Nat}
    (collisionFree : Set.InjOn digests.sha
      {bytes | bytes ∈ hashed digests first firstLength ∨ bytes ∈ hashed digests second secondLength})
    (same : hashPrefix digests first firstLength = hashPrefix digests second secondLength) :
    firstLength = secondLength ∧ first.take firstLength = second.take firstLength := by
  have texts := Utf8.encode_injective
    (collisionFree (.inl List.mem_cons_self) (.inr List.mem_cons_self) same)
  obtain ⟨rfl, blocks, rests⟩ := message_injective texts
  refine ⟨rfl, ?_⟩
  have restSame := collisionFree (.inl (List.mem_cons_of_mem _ List.mem_cons_self))
    (.inr (List.mem_cons_of_mem _ List.mem_cons_self)) rests
  have blocksSame : ∀ index < firstLength / BLOCK,
      slice first (index * BLOCK) BLOCK = slice second (index * BLOCK) BLOCK := by
    intro index small
    have among := List.mem_range.mpr small
    refine collisionFree (.inl ?_) (.inr ?_) (List.map_inj_left.mp blocks index among)
    · exact List.mem_cons_of_mem _ (List.mem_cons_of_mem _ (List.mem_map_of_mem among))
    · exact List.mem_cons_of_mem _ (List.mem_cons_of_mem _ (List.mem_map_of_mem among))
  have whole : firstLength / BLOCK * BLOCK + (firstLength - firstLength / BLOCK * BLOCK) =
      firstLength := Nat.add_sub_cancel' (Nat.div_mul_le_self _ _)
  rw [← whole, List.take_add, List.take_add, take_eq_of_slices blocksSame]
  exact congrArg _ restSame

/-! ### Transparency -/

/-- In every run every call is answered as hashing the history from its start answers, and equal
answers mean equal beginnings. -/
theorem prefixCache_transparent (digests : Digests) (ino : String → Nat)
    (content : String → Bytes) (exchanges : List Exchange) (last : World)
    (run : Run digests ino ⟨content, fun _ => none, false, fun _ => false, none⟩ exchanges last) :
    (∀ exchange ∈ exchanges, ∀ path length, exchange.request = .prefixOf path length →
      Answered digests exchange.before path length exchange.outcome exchange.after) ∧
    (∀ first ∈ exchanges, ∀ second ∈ exchanges, ∀ firstPath firstLength secondPath secondLength,
      first.request = .prefixOf firstPath firstLength →
      second.request = .prefixOf secondPath secondLength →
      first.outcome.isSome = true → first.outcome = second.outcome →
      Set.InjOn digests.sha {bytes | bytes ∈ hashed digests (last.content firstPath) firstLength ∨
        bytes ∈ hashed digests (last.content secondPath) secondLength} →
      firstLength = secondLength ∧
        (last.content firstPath).take firstLength = (last.content secondPath).take firstLength) := by
  have valid : Valid digests ⟨content, fun _ => none, false, fun _ => false, none⟩ := by
    refine ⟨fun _ _ holds => ?_, fun _ holds => ?_⟩
    · cases holds
    · cases holds
  have all := (run.answers valid).2
  have answered (exchange : Exchange) (member : exchange ∈ exchanges) (path : String)
      (length : Nat) (asks : exchange.request = .prefixOf path length) :
      Answered digests exchange.before path length exchange.outcome exchange.after := by
    have answers := (all exchange member).2
    rwa [asks] at answers
  have final (exchange : Exchange) (member : exchange ∈ exchanges) {path : String}
      {length : Nat} (asks : exchange.request = .prefixOf path length) {digest : List Char}
      (isDigest : exchange.outcome = some digest) :
      digest = hashPrefix digests (last.content path) length := by
    have holds := answered exchange member path length asks
    rw [isDigest] at holds
    rw [holds.2, hashPrefix_grown ((all exchange member).1.grows path) holds.1]
  refine ⟨answered, ?_⟩
  intro first firstMember second secondMember firstPath firstLength secondPath secondLength
    firstAsks secondAsks isSome same collisionFree
  obtain ⟨digest, isDigest⟩ := Option.isSome_iff_exists.mp isSome
  have firstFinal := final first firstMember firstAsks isDigest
  have secondFinal := final second secondMember secondAsks (same ▸ isDigest)
  obtain ⟨lengths, taken⟩ := hashPrefix_injective collisionFree (firstFinal.symm.trans secondFinal)
  exact ⟨lengths, lengths ▸ taken⟩

/-- SHA-256 at the two inputs of a first call over three bytes. -/
def sampleDigests : Digests where
  sha bytes :=
    if bytes = [1, 2, 3] then
      "039058c6f2c0cb492c533b0a4d14ef77cc0f78abccced5287d84a1a2011cfb81".toList
    else "dcbfcbaf7bc611f66d76311b8a6021f82a13cb4ce59174cb3a8e852e2b0e11d7".toList
  length_sha bytes := by split <;> decide

def sampleWorld : World :=
  ⟨fun path => if path = "history.jsonl" then [1, 2, 3] else [], fun _ => none, false,
    fun _ => false, none⟩

def sampleCall : Exchange where
  request := .prefixOf "history.jsonl" 3
  outcome := some (hashPrefix sampleDigests [1, 2, 3] 3)
  before := sampleWorld
  after := { sampleWorld with
    dirty := true, touched := Function.update (fun _ => false) "history.jsonl" true }

theorem prefixCache_transparent_call :
    Answered sampleDigests sampleWorld "history.jsonl" 3 sampleCall.outcome sampleCall.after := by
  let ino : String → Nat := fun _ => 7
  have still (world : World) : Grown world world := ⟨fun _ => List.prefix_refl _, rfl⟩
  have stats : behaviour ino _ (.stat "history.jsonl") sampleWorld ⟨7, 3, 0⟩ sampleWorld :=
    ⟨_, still _, rfl, rfl, rfl⟩
  have looks : behaviour ino _ (.entry "history.jsonl") sampleWorld none sampleWorld :=
    ⟨_, still _, rfl, rfl⟩
  have touches : behaviour ino _ (.touch "history.jsonl") sampleWorld () sampleCall.after :=
    ⟨_, still _, rfl⟩
  have reads : behaviour ino _ (.readAt "history.jsonl" 0 3) sampleCall.after (some [1, 2, 3])
      sampleCall.after := ⟨_, still _, rfl, rfl⟩
  have run : Run sampleDigests ino sampleWorld [sampleCall] sampleCall.after :=
    .call (.act stats (.act looks (.act touches (.act reads (.done _ _))))) (.done _)
  exact (prefixCache_transparent sampleDigests _ _ _ _ run).1 sampleCall List.mem_cons_self _ _ rfl

end AiSwitcher.Sync.PrefixCache
