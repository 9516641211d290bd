/-
This file embeds the two ways a session history reaches another host, of
`src/sync/dedupe.ts`: `mergeJsonlFiles` merges a whole copy into the destination,
`mergeJsonlTail` only the bytes the sender holds beyond a prefix both sides share.

The tail merge compares the lines beyond the cut as if both sides' first such line
began there. When the cut falls inside a record both first lines lack the same
fragment, and the destination's is a different record than the line compared. The
exact condition under which that does no harm is `TailTransfer.Agrees`.
-/

import AiSwitcher.Library.Control
import AiSwitcher.Library.Utf8
import AiSwitcher.Sync.Dedupe

namespace AiSwitcher

open JavaScript
open Utf8 (Bytes newline)

/-! ### Appending to a live history -/

inductive JsonlMergeResult where
  | merged
  | unchanged
  | deferred
  | busy
  deriving DecidableEq

/-- What the system answers while `appendJsonlPayload` runs. Nobody else writes the history, but
every lookup may fail and every snapshot may differ all the same. -/
structure AppendRun where
  /-- `hasOpenOwner` finds a native process or cannot tell. -/
  owned : Bool
  opens : Bool
  sameAfterOpen : Bool
  ownedBeforeWrite : Bool
  sameBeforeWrite : Bool
  /-- How many bytes of the payload the one write takes. -/
  written : Nat
  sameAfterWrite : Bool

def appendJsonlPayload (text payload : Bytes) (run : AppendRun) : JsonlMergeResult × Bytes :=
  if run.owned then (.busy, text)
  else if ¬ run.opens then (.deferred, text)
  else if ¬ run.sameAfterOpen then (.deferred, text)
  else if text ≠ [] ∧ text.getLast? ≠ some newline then (.deferred, text)
  else if run.ownedBeforeWrite then (.deferred, text)
  else if ¬ run.sameBeforeWrite then (.deferred, text)
  else
    let after := text ++ payload.take run.written
    if run.written ≠ payload.length then (.deferred, after)
    else if ¬ run.sameAfterWrite then (.deferred, after)
    else (.merged, after)

/-- The run in which nothing goes wrong. -/
def AppendRun.quiet (payload : Bytes) : AppendRun where
  owned := false
  opens := true
  sameAfterOpen := true
  ownedBeforeWrite := false
  sameBeforeWrite := true
  written := payload.length
  sameAfterWrite := true

/-- A history is appended to as a whole or the answer is not `merged`. -/
theorem appendJsonlPayload_merged {text payload after : Bytes} {result : JsonlMergeResult}
    {run : AppendRun} (append : appendJsonlPayload text payload run = (result, after))
    (notBusy : result ≠ .busy) (notDeferred : result ≠ .deferred) :
    (text = [] ∨ text.getLast? = some newline) ∧ after = text ++ payload := by
  have busy : ∀ other : Bytes, (JsonlMergeResult.busy, other) ≠ (result, after) :=
    fun other equal => notBusy (congrArg Prod.fst equal).symm
  have deferred : ∀ other : Bytes, (JsonlMergeResult.deferred, other) ≠ (result, after) :=
    fun other equal => notDeferred (congrArg Prod.fst equal).symm
  obtain ⟨-, append⟩ := past_guard append (busy _)
  obtain ⟨-, append⟩ := past_guard append (deferred _)
  obtain ⟨-, append⟩ := past_guard append (deferred _)
  obtain ⟨ending, append⟩ := past_guard append (deferred _)
  obtain ⟨-, append⟩ := past_guard append (deferred _)
  obtain ⟨-, append⟩ := past_guard append (deferred _)
  obtain ⟨whole, append⟩ := past_guard append (deferred _)
  obtain ⟨-, append⟩ := past_guard append (deferred _)
  refine ⟨by tauto, ?_⟩
  have appended : text ++ payload.take run.written = after := congrArg Prod.snd append
  rw [← appended, not_not.mp whole, List.take_length]

theorem appendJsonlPayload_quiet {text : Bytes} (payload : Bytes)
    (ending : text = [] ∨ text.getLast? = some newline) :
    appendJsonlPayload text payload (.quiet payload) = (.merged, text ++ payload) := by
  have terminated : ¬ (text ≠ [] ∧ text.getLast? ≠ some newline) := by tauto
  simp [appendJsonlPayload, AppendRun.quiet, terminated]

/-! ### What a merge adds -/

/-- `mergeJsonlLineSetsOnto(held, [incoming]).slice(held.length)` -/
def additions {Line : Type} [DecidableEq Line] (held incoming : List Line) : List Line :=
  (mergeJsonlLineSetsOnto held [incoming]).drop held.length

section Additions

variable {Line : Type} [DecidableEq Line]

theorem append_additions (held incoming : List Line) :
    held ++ additions held incoming = mergeJsonlLineSetsOnto held [incoming] := by
  obtain ⟨added, whole⟩ := prefix_mergeJsonlLineSetsOnto held [incoming]
  rw [additions, ← whole, List.drop_left]

theorem multiset_append (first second : List Line) (line : Line) :
    multiset (first ++ second) line = multiset first line + multiset second line := by
  simp only [multiset_eq_count, List.count_append]

theorem multiset_cons (head : Line) (lines : List Line) (line : Line) :
    multiset (head :: lines) line = (if head = line then 1 else 0) + multiset lines line := by
  rw [multiset_eq_count, multiset_eq_count, List.count_cons, Nat.add_comm]
  simp only [beq_iff_eq]

theorem multiset_pos_iff (lines : List Line) (line : Line) :
    0 < multiset lines line ↔ line ∈ lines := by
  rw [multiset_eq_count, List.count_pos_iff]

theorem multiset_additions (held incoming : List Line) (line : Line) :
    multiset (additions held incoming) line = multiset incoming line - multiset held line := by
  have total := count_mergeJsonlLineSetsOnto held [incoming] line
  simp only [← append_additions, List.count_append, mostIn, List.map_cons, List.map_nil,
    List.foldr_cons, List.foldr_nil] at total
  simp only [multiset_eq_count]
  omega

theorem mem_incoming_of_mem_additions {held incoming : List Line} {line : Line}
    (member : line ∈ additions held incoming) : line ∈ incoming := by
  have present := (multiset_pos_iff _ _).mpr member
  rw [multiset_additions] at present
  exact (multiset_pos_iff _ _).mp (by omega)

/-- Without held lines every incoming line is an addition. -/
theorem eq_nil_of_additions_nil {incoming : List Line} (nothing : additions [] incoming = []) :
    incoming = [] := by
  refine List.eq_nil_iff_forall_not_mem.mpr fun line member => ?_
  have absent := multiset_additions [] incoming line
  have present := (multiset_pos_iff _ _).mpr member
  have empty : multiset ([] : List Line) line = 0 := rfl
  rw [nothing, empty] at absent
  omega

/-- The union of multisets, as the code counts. -/
theorem coe_eq_union_iff (all first second : List Line) :
    (all : Multiset Line) = (first : Multiset Line) ∪ (second : Multiset Line) ↔
      ∀ line, multiset all line = max (multiset first line) (multiset second line) := by
  simp only [Multiset.ext, Multiset.count_union, Multiset.coe_count, multiset_eq_count]

end Additions

/-! ### The full transfer -/

/-- What the system answers while `mergeJsonlFiles` runs. -/
structure FileRun where
  /-- The exclusive creation finds no file, and an empty one afterwards. -/
  creates : Bool
  emptyAfterCreate : Bool
  /-- How many bytes the one write of a new history takes. -/
  written : Nat
  sameAfterCreate : Bool
  /-- Both snapshots around reading the destination are the same. -/
  sameAfterRead : Bool
  append : AppendRun

def readLines (file : Bytes) : List (List Char) :=
  let text := Utf8.decode file
  if text = [] then [] else (Lines.split '\n' text).dropLast

/-- `lines.join("\n") + "\n"`, or nothing. -/
def joinLines (lines : List (List Char)) : List Char :=
  if lines = [] then [] else List.intercalate ['\n'] lines ++ ['\n']

def mergeJsonlFiles {Path : Type} [DecidableEq Path] (contents : Path → Bytes) (paths : List Path)
    (destination : Option Bytes) (dryRun : Bool) (run : FileRun) :
    JsonlMergeResult × Option Bytes :=
  let uniquePaths := paths.eraseDups
  if uniquePaths = [] then (.unchanged, destination)
  else
    let sources := uniquePaths.map fun path => readLines (contents path)
    match destination with
    | none =>
      if dryRun then (.merged, none)
      else if ¬ run.creates then (.deferred, none)
      else if ¬ run.emptyAfterCreate then (.deferred, some [])
      else
        let payload := Utf8.encode (joinLines (mergeJsonlLineSets sources))
        let created := payload.take run.written
        if run.written ≠ payload.length then (.deferred, some created)
        else if ¬ run.sameAfterCreate then (.deferred, some created)
        else (.merged, some created)
    | some file =>
      if ¬ run.sameAfterRead then (.deferred, some file)
      else
        let text := Utf8.decode file
        if text ≠ [] ∧ text.getLast? ≠ some '\n' then (.deferred, some file)
        else
          let destinationLines := if text ≠ [] then Lines.split '\n' text.dropLast else []
          let merged := mergeJsonlLineSetsOnto destinationLines sources
          let added := merged.drop destinationLines.length
          if added = [] then (.unchanged, some file)
          else if dryRun then (.merged, some file)
          else
            let (result, after) := appendJsonlPayload file (Utf8.encode (joinLines added))
              run.append
            (result, some after)

/-! ### The tail transfer -/

inductive JsonlTailResult where
  | of (result : JsonlMergeResult)
  | diverged
  deriving DecidableEq

/-- What the system answers while `mergeJsonlTail` runs. -/
structure TailRun where
  /-- `hasOpenOwner` finds a native process or cannot tell. -/
  owned : Bool
  /-- The bytes beyond the cut are read and the snapshot afterwards is the same. -/
  sameAfterRead : Bool
  append : AppendRun

variable {Digest : Type} [DecidableEq Digest]

/-- The hash of the first `length` bytes, none when the file is shorter. -/
def hashPrefix (digest : Bytes → Digest) (file : Bytes) (length : Nat) : Option Digest :=
  if file.length < length then none else some (digest (file.take length))

def mergeJsonlTail (digest : Bytes → Digest) (destination : Option Bytes) (offset : Nat)
    (prefixHash : Digest) (tail : Bytes) (run : TailRun) : JsonlTailResult × Option Bytes :=
  match destination with
  | none => (.diverged, none)
  | some file =>
    if file.length < offset then (.diverged, some file)
    else
      let complete := Lines.complete newline tail
      if complete ≠ [] ∧ run.owned then (.of .busy, some file)
      else if hashPrefix digest file offset ≠ some prefixHash then (.diverged, some file)
      else if complete = [] then (.of .unchanged, some file)
      else if ¬ run.sameAfterRead then (.of .deferred, some file)
      else
        let extra := file.drop offset
        if extra ≠ [] ∧ extra.getLast? ≠ some newline then (.of .deferred, some file)
        else
          let held := if extra ≠ [] then Lines.split newline extra.dropLast else []
          let incoming := if complete ≠ [] then Lines.split newline complete.dropLast else []
          let added := additions held incoming
          if added = [] then (.of .unchanged, some file)
          else
            let payload := List.intercalate [newline] added ++ [newline]
            let (result, after) := appendJsonlPayload file payload run.append
            (.of result, some after)

/-- A sender and a receiver, and an offset up to which they hold the same bytes: what `applyTails`
admits and the prefix hash witnesses. -/
structure TailTransfer where
  sender : Bytes
  receiver : Bytes
  offset : Nat
  within : offset ≤ min sender.length receiver.length
  agree : sender.take offset = receiver.take offset

/-! ### When a cut inside a record does no harm -/

/-- The lists `extras` and `lines` beyond a cut begin with the different lines `extra` and `line`,
and the cut left `fragment` before both. The receiver's extras have each of the four lines involved
often enough that the wrong count of it does not show. -/
structure Surplus (fragment extra line : Bytes) (extras lines : List Bytes) : Prop where
  first : multiset lines line ≤ multiset extras line
  rejoined : multiset lines (fragment ++ extra) ≤ multiset extras (fragment ++ extra)
  spare : ∀ other ∈ [extra, fragment ++ line],
    multiset lines other + multiset [extra, fragment ++ line] other ≤ multiset extras other

/-- Comparing the lines beyond the cut is comparing the records they complete. -/
def TailAgrees (fragment : Bytes) : List Bytes → List Bytes → Prop
  | extra :: extras, line :: lines =>
      fragment = [] ∨ extra = line ∨
        Surplus fragment extra line (extra :: extras) (line :: lines)
  | _, _ => True

/-- The counts that the tail merge compares, against those of the records. -/
theorem surplus_iff {fragment extra line : Bytes} (broken : fragment ≠ []) (differ : extra ≠ line)
    (extras lines : List Bytes) :
    (∀ other, multiset ((fragment ++ extra) :: extras) other +
        (multiset (line :: lines) other - multiset (extra :: extras) other) =
      max (multiset ((fragment ++ extra) :: extras) other)
        (multiset ((fragment ++ line) :: lines) other)) ↔
      Surplus fragment extra line (extra :: extras) (line :: lines) := by
  have extraLonger : fragment ++ extra ≠ extra := by simpa using broken
  have lineLonger : fragment ++ line ≠ line := by simpa using broken
  have rejoinedDiffer : fragment ++ extra ≠ fragment ++ line := by simpa using differ
  have empty : ∀ other, multiset ([] : List Bytes) other = 0 := fun _ => rfl
  constructor
  · intro counts
    have atLine := counts line
    have atExtra := counts extra
    have atRejoinedExtra := counts (fragment ++ extra)
    have atRejoinedLine := counts (fragment ++ line)
    simp only [multiset_cons, if_true, extraLonger, lineLonger, rejoinedDiffer, differ,
      differ.symm, extraLonger.symm, lineLonger.symm, rejoinedDiffer.symm, if_false] at *
    refine ⟨?_, ?_, ?_⟩
    · simp only [multiset_cons, differ, if_true, if_false]
      split_ifs at atLine <;> omega
    · simp only [multiset_cons, if_false, extraLonger.symm]
      split_ifs at atRejoinedExtra ⊢ <;> omega
    · simp only [List.forall_mem_cons, List.not_mem_nil, false_imp_iff, implies_true, and_true,
        multiset_cons, empty, differ.symm, lineLonger.symm, if_true, if_false]
      by_cases meet : extra = fragment ++ line
      · simp only [meet, if_true] at *
        omega
      · simp only [meet, Ne.symm meet, if_false] at *
        omega
  · intro surplus other
    have atLine := surplus.first
    have atRejoinedExtra := surplus.rejoined
    have atExtra := surplus.spare extra (by simp)
    have atRejoinedLine := surplus.spare (fragment ++ line) (by simp)
    simp only [multiset_cons, empty] at *
    by_cases isExtra : extra = other
    · subst isExtra
      simp only [if_true, differ.symm, extraLonger, if_false] at *
      split_ifs at * <;> omega
    by_cases isLine : line = other
    · subst isLine
      simp only [if_true, differ, lineLonger, if_false] at *
      split_ifs at * <;> omega
    by_cases isRejoinedExtra : fragment ++ extra = other
    · subst isRejoinedExtra
      simp only [if_true, rejoinedDiffer.symm, isExtra, isLine, if_false] at *
      omega
    by_cases isRejoinedLine : fragment ++ line = other
    · subst isRejoinedLine
      simp only [if_true, rejoinedDiffer, isExtra, isLine, if_false] at *
      omega
    · simp only [isExtra, isLine, isRejoinedExtra, isRejoinedLine, if_false]
      omega

/-- What the tail merge leaves is the union of the records exactly when the cut does no harm. -/
theorem tailAgrees_iff {fragment : Bytes} {extras lines : List Bytes} (present : lines ≠ [])
    (begun : fragment = [] ∨ extras ≠ []) :
    (∀ other, multiset (Lines.rejoin fragment extras) other +
        (multiset lines other - multiset extras other) =
      max (multiset (Lines.rejoin fragment extras) other)
        (multiset (Lines.rejoin fragment lines) other)) ↔
      TailAgrees fragment extras lines := by
  by_cases atBoundary : fragment = []
  · subst atBoundary
    have agrees : TailAgrees [] extras lines := by
      cases extras with
      | nil => trivial
      | cons extra extras =>
        cases lines with
        | nil => trivial
        | cons line lines => exact Or.inl rfl
    refine iff_of_true (fun other => ?_) agrees
    rw [Lines.rejoin_nil_fragment, Lines.rejoin_nil_fragment]
    omega
  obtain ⟨extra, extras, rfl⟩ := List.exists_cons_of_ne_nil (begun.resolve_left atBoundary)
  obtain ⟨line, lines, rfl⟩ := List.exists_cons_of_ne_nil present
  simp only [TailAgrees, atBoundary, false_or, Lines.rejoin]
  by_cases same : extra = line
  · subst same
    refine iff_of_true (fun other => ?_) (Or.inl rfl)
    simp only [multiset_cons]
    omega
  · rw [surplus_iff atBoundary same]
    exact (or_iff_right same).symm

namespace TailTransfer

variable (transfer : TailTransfer)

def merge (digest : Bytes → Digest) (run : TailRun) : JsonlTailResult × Option Bytes :=
  mergeJsonlTail digest (some transfer.receiver) transfer.offset
    (digest (transfer.sender.take transfer.offset)) (transfer.sender.drop transfer.offset) run

/-- The records on either side of the cut: `before` and `fragment` are shared, the receiver goes on
with `extras` and the sender with `lines`, and either may end in an unfinished record. -/
structure Cut (before extras lines : List Bytes) (fragment extraRest rest : Bytes) : Prop where
  shared : transfer.receiver.take transfer.offset = Lines.terminated newline before ++ fragment
  extra : transfer.receiver.drop transfer.offset = Lines.terminated newline extras ++ extraRest
  tail : transfer.sender.drop transfer.offset = Lines.terminated newline lines ++ rest
  beforeUnbroken : Lines.Unbroken newline before
  extrasUnbroken : Lines.Unbroken newline extras
  linesUnbroken : Lines.Unbroken newline lines
  fragmentWhole : newline ∉ fragment
  extraRestWhole : newline ∉ extraRest
  restWhole : newline ∉ rest

theorem exists_cut : ∃ before extras lines fragment extraRest rest,
    transfer.Cut before extras lines fragment extraRest rest := by
  obtain ⟨before, fragment, shared, beforeUnbroken, fragmentWhole⟩ :=
    Lines.exists_terminated newline (transfer.receiver.take transfer.offset)
  obtain ⟨extras, extraRest, extra, extrasUnbroken, extraRestWhole⟩ :=
    Lines.exists_terminated newline (transfer.receiver.drop transfer.offset)
  obtain ⟨lines, rest, tail, linesUnbroken, restWhole⟩ :=
    Lines.exists_terminated newline (transfer.sender.drop transfer.offset)
  exact ⟨before, extras, lines, fragment, extraRest, rest, shared, extra, tail, beforeUnbroken,
    extrasUnbroken, linesUnbroken, fragmentWhole, extraRestWhole, restWhole⟩

namespace Cut

variable {transfer} {before extras lines : List Bytes} {fragment extraRest rest : Bytes}
  (cut : transfer.Cut before extras lines fragment extraRest rest)

include cut

theorem receiver_eq : transfer.receiver =
    Lines.terminated newline before ++ fragment ++
      (Lines.terminated newline extras ++ extraRest) := by
  rw [← cut.shared, ← cut.extra, List.take_append_drop]

theorem records_receiver :
    Lines.records newline transfer.receiver = before ++ Lines.rejoin fragment extras := by
  rw [cut.receiver_eq, Lines.records_cut newline cut.beforeUnbroken cut.extrasUnbroken
    cut.fragmentWhole cut.extraRestWhole]

theorem records_sender :
    Lines.records newline transfer.sender = before ++ Lines.rejoin fragment lines := by
  rw [← List.take_append_drop transfer.offset transfer.sender, transfer.agree, cut.shared,
    cut.tail, Lines.records_cut newline cut.beforeUnbroken cut.linesUnbroken cut.fragmentWhole
      cut.restWhole]

/-- A receiver without an unfinished record is its records. -/
theorem receiver_eq_terminated (whole : extraRest = []) (begun : fragment = [] ∨ extras ≠ []) :
    transfer.receiver =
      Lines.terminated newline (before ++ Lines.rejoin fragment extras) := by
  rw [cut.receiver_eq, whole, List.append_nil, Lines.terminated_append, List.append_assoc]
  rcases begun with empty | present
  · rw [empty, Lines.rejoin_nil_fragment, List.nil_append]
  · rw [Lines.fragment_append_terminated newline fragment present]

theorem additions_unbroken : Lines.Unbroken newline (additions extras lines) :=
  fun line member => cut.linesUnbroken line (mem_incoming_of_mem_additions member)

theorem records_receiver_append (whole : extraRest = []) (begun : fragment = [] ∨ extras ≠ []) :
    Lines.records newline
        (transfer.receiver ++ Lines.terminated newline (additions extras lines)) =
      before ++ Lines.rejoin fragment extras ++ additions extras lines := by
  rw [cut.receiver_eq_terminated whole begun]
  refine Lines.records_append_terminated newline ?_
  refine (Lines.unbroken_append newline).mpr ⟨?_, cut.additions_unbroken⟩
  refine (Lines.unbroken_append newline).mpr ⟨cut.beforeUnbroken, ?_⟩
  exact Lines.unbroken_rejoin newline cut.fragmentWhole cut.extrasUnbroken

/-- The receiver may be appended to. -/
theorem receiver_finished_iff (whole : extraRest = []) :
    (transfer.receiver = [] ∨ transfer.receiver.getLast? = some newline) ↔
      fragment = [] ∨ extras ≠ [] := by
  by_cases begun : fragment = [] ∨ extras ≠ []
  · have finished := @Lines.finished_iff _ newline (before ++ Lines.rejoin fragment extras) []
      List.not_mem_nil
    rw [List.append_nil, ← cut.receiver_eq_terminated whole begun] at finished
    exact iff_of_true (finished.mpr rfl) begun
  · have receiver : transfer.receiver = Lines.terminated newline before ++ fragment := by
      have none : extras = [] := by tauto
      rw [cut.receiver_eq, whole, none]
      simp [Lines.terminated]
    rw [receiver, Lines.finished_iff newline cut.fragmentWhole]
    tauto

/-- The guards that the cut decides, in the order of `mergeJsonlTail`. -/
theorem merge_eq (digest : Bytes → Digest) (run : TailRun) :
    transfer.merge digest run =
      if lines = [] then (.of .unchanged, some transfer.receiver)
      else if run.owned then (.of .busy, some transfer.receiver)
      else if ¬ run.sameAfterRead then (.of .deferred, some transfer.receiver)
      else if extraRest ≠ [] then (.of .deferred, some transfer.receiver)
      else if additions extras lines = [] then (.of .unchanged, some transfer.receiver)
      else
        let (result, after) := appendJsonlPayload transfer.receiver
          (Lines.terminated newline (additions extras lines)) run.append
        (.of result, some after) := by
  have long : ¬ transfer.receiver.length < transfer.offset :=
    not_lt.mpr (le_trans transfer.within (min_le_right _ _))
  have hash : hashPrefix digest transfer.receiver transfer.offset =
      some (digest (transfer.sender.take transfer.offset)) := by
    rw [hashPrefix, if_neg long, transfer.agree]
  have complete : Lines.complete newline (transfer.sender.drop transfer.offset) =
      Lines.terminated newline lines := by
    rw [cut.tail, Lines.complete_form newline cut.restWhole]
  show (if transfer.receiver.length < transfer.offset then _ else _) = _
  rw [if_neg long, hash, complete, cut.extra]
  simp only [ne_eq, not_true_eq_false, if_false, Lines.terminated_eq_nil_iff]
  by_cases none : lines = []
  · simp [none]
  rw [if_neg none, if_neg none]
  have owned : ¬ lines = [] ∧ run.owned = true ↔ run.owned = true := and_iff_right none
  have extraFinished := @Lines.finished_iff _ newline extras _ cut.extraRestWhole
  have guard : (¬ Lines.terminated newline extras ++ extraRest = [] ∧
      ¬ (Lines.terminated newline extras ++ extraRest).getLast? = some newline) ↔
      extraRest ≠ [] := by
    rw [← not_or, extraFinished]
  simp only [owned, guard]
  by_cases whole : extraRest = []
  · have held := Lines.lines_of_terminated newline cut.extrasUnbroken
    have incoming := Lines.split_dropLast_terminated newline cut.linesUnbroken none
    rw [whole, List.append_nil]
    simp only [ne_eq] at held
    simp only [held, incoming, none, not_false_eq_true, if_true]
    by_cases nothing : additions extras lines = []
    · simp [nothing]
    · simp [Lines.intercalate_append_newline newline nothing]
  · simp only [if_pos whole]

/-- A merge that neither gives up nor waits has appended the additions. -/
theorem merge_settled {digest : Bytes → Digest} {run : TailRun} {result : JsonlTailResult}
    {after : Option Bytes} (merge : transfer.merge digest run = (result, after))
    (settled : result = .of .merged ∨ result = .of .unchanged) :
    (lines = [] ∧ after = some transfer.receiver) ∨
      (lines ≠ [] ∧ extraRest = [] ∧ (fragment = [] ∨ extras ≠ []) ∧
        after = some (transfer.receiver ++ Lines.terminated newline (additions extras lines))) := by
  rw [cut.merge_eq] at merge
  by_cases none : lines = []
  · rw [if_pos none] at merge
    exact Or.inl ⟨none, (congrArg Prod.snd merge).symm⟩
  rw [if_neg none] at merge
  have busy : (JsonlTailResult.of .busy, some transfer.receiver) ≠ (result, after) := by
    intro equal
    rcases settled with rfl | rfl <;> cases equal
  have deferred : (JsonlTailResult.of .deferred, some transfer.receiver) ≠ (result, after) := by
    intro equal
    rcases settled with rfl | rfl <;> cases equal
  obtain ⟨-, merge⟩ := past_guard merge busy
  obtain ⟨-, merge⟩ := past_guard merge deferred
  obtain ⟨whole, merge⟩ := past_guard merge deferred
  rw [not_not] at whole
  by_cases nothing : additions extras lines = []
  · rw [if_pos nothing] at merge
    have same : some transfer.receiver = after := congrArg Prod.snd merge
    refine Or.inr ⟨none, whole, Or.inr fun empty => ?_, ?_⟩
    · rw [empty] at nothing
      exact none (eq_nil_of_additions_nil nothing)
    · rw [nothing, ← same]
      simp [Lines.terminated]
  · rw [if_neg nothing] at merge
    generalize append : appendJsonlPayload transfer.receiver
      (Lines.terminated newline (additions extras lines)) run.append = outcome at merge
    obtain ⟨answer, text⟩ := outcome
    have answered : JsonlTailResult.of answer = result := congrArg Prod.fst merge
    have written : some text = after := congrArg Prod.snd merge
    obtain ⟨ending, appended⟩ := appendJsonlPayload_merged append
      (by rintro rfl; rcases settled with rfl | rfl <;> cases answered)
      (by rintro rfl; rcases settled with rfl | rfl <;> cases answered)
    exact Or.inr ⟨none, whole, (cut.receiver_finished_iff whole).mp ending,
      by rw [← written, appended]⟩

/-- The run in which nothing goes wrong. -/
theorem exists_merge_settled (digest : Bytes → Digest) (whole : extraRest = [])
    (begun : fragment = [] ∨ extras ≠ []) (present : lines ≠ []) :
    ∃ run result, (result = .of .merged ∨ result = .of .unchanged) ∧
      transfer.merge digest run =
        (result,
          some (transfer.receiver ++ Lines.terminated newline (additions extras lines))) := by
  have append := appendJsonlPayload_quiet (Lines.terminated newline (additions extras lines))
    ((cut.receiver_finished_iff whole).mpr begun)
  refine ⟨⟨false, true, .quiet (Lines.terminated newline (additions extras lines))⟩, ?_⟩
  rw [cut.merge_eq, if_neg present]
  simp only [Bool.false_eq_true, if_false, not_true_eq_false, whole, ne_eq, append]
  by_cases nothing : additions extras lines = []
  · refine ⟨.of .unchanged, Or.inr rfl, ?_⟩
    rw [if_pos nothing, nothing]
    simp [Lines.terminated]
  · exact ⟨.of .merged, Or.inl rfl, by rw [if_neg nothing]⟩

end Cut

/-! ### The tail transfer against the full transfer -/

/-- Either the receiver ends in an unfinished record, and nothing is merged, or the lines beyond the
cut compare like the records they complete. -/
def Agrees : Prop :=
  Lines.unfinished newline (transfer.receiver.drop transfer.offset) ≠ [] ∨
    TailAgrees (Lines.unfinished newline (transfer.receiver.take transfer.offset))
      (Lines.records newline (transfer.receiver.drop transfer.offset))
      (Lines.records newline (transfer.sender.drop transfer.offset))

/-- The records of `after` are those of the receiver and of the sender, each as often as in the one
that has it more often. -/
def Union (after : Option Bytes) : Prop :=
  ∃ file, after = some file ∧
    (Lines.records newline file : Multiset Bytes) =
      (Lines.records newline transfer.receiver : Multiset Bytes) ∪
        (Lines.records newline transfer.sender : Multiset Bytes)

def mergeFull (run : FileRun) : JsonlMergeResult × Option Bytes :=
  mergeJsonlFiles (fun _ : Unit => transfer.sender) [()] (some transfer.receiver) false run

variable {transfer} in
theorem Cut.agrees_iff {before extras lines : List Bytes} {fragment extraRest rest : Bytes}
    (cut : transfer.Cut before extras lines fragment extraRest rest) :
    transfer.Agrees ↔ extraRest ≠ [] ∨ TailAgrees fragment extras lines := by
  rw [Agrees, cut.shared, cut.extra, cut.tail,
    Lines.unfinished_form newline cut.extraRestWhole,
    Lines.unfinished_form newline cut.fragmentWhole,
    Lines.records_form newline cut.extrasUnbroken cut.extraRestWhole,
    Lines.records_form newline cut.linesUnbroken cut.restWhole]

variable {transfer} in
/-- The receiver as it is holds all records when the sender has no line beyond the cut. -/
theorem Cut.union_of_nothing {before extras : List Bytes} {fragment extraRest rest : Bytes}
    (cut : transfer.Cut before extras [] fragment extraRest rest) :
    transfer.Union (some transfer.receiver) := by
  refine ⟨transfer.receiver, rfl, (coe_eq_union_iff _ _ _).mpr fun line => ?_⟩
  rw [cut.records_receiver, cut.records_sender, multiset_append, multiset_append]
  have none : multiset (Lines.rejoin fragment []) line = 0 := rfl
  omega

variable {transfer} in
/-- Appending the additions gives the union exactly when the cut does no harm. -/
theorem Cut.union_iff {before extras lines : List Bytes} {fragment extraRest rest : Bytes}
    (cut : transfer.Cut before extras lines fragment extraRest rest) (whole : extraRest = [])
    (begun : fragment = [] ∨ extras ≠ []) (present : lines ≠ []) :
    transfer.Union
        (some (transfer.receiver ++ Lines.terminated newline (additions extras lines))) ↔
      TailAgrees fragment extras lines := by
  rw [← tailAgrees_iff present begun]
  have counts : transfer.Union
      (some (transfer.receiver ++ Lines.terminated newline (additions extras lines))) ↔
      (Lines.records newline
          (transfer.receiver ++ Lines.terminated newline (additions extras lines)) :
        Multiset Bytes) =
        (Lines.records newline transfer.receiver : Multiset Bytes) ∪
          (Lines.records newline transfer.sender : Multiset Bytes) :=
    ⟨fun ⟨_, same, union⟩ => Option.some.inj same ▸ union, fun union => ⟨_, rfl, union⟩⟩
  rw [counts, coe_eq_union_iff, cut.records_receiver_append whole begun, cut.records_receiver,
    cut.records_sender]
  refine forall_congr' fun line => ?_
  simp only [multiset_append, multiset_additions]
  omega

/-- What the full transfer of one source does when its first guard is past. -/
theorem mergeFull_eq {run : FileRun} (stable : run.sameAfterRead = true) :
    transfer.mergeFull run =
      let text := Utf8.decode transfer.receiver
      if text ≠ [] ∧ text.getLast? ≠ some '\n' then (.deferred, some transfer.receiver)
      else
        let destinationLines := if text ≠ [] then Lines.split '\n' text.dropLast else []
        let added := additions destinationLines (readLines transfer.sender)
        if added = [] then (.unchanged, some transfer.receiver)
        else
          let (result, after) := appendJsonlPayload transfer.receiver
            (Utf8.encode (joinLines added)) run.append
          (result, some after) := by
  have unique : [()].eraseDups = [()] := rfl
  rw [mergeFull, mergeJsonlFiles, unique]
  simp only [stable]
  rfl

/-- The receiver, and the lines a merge adds to it, encoded. -/
theorem union_of_encoded {receiverLines senderLines : List (List Char)}
    (receiver : transfer.receiver = Utf8.encode (Lines.terminated '\n' receiverLines))
    (receiverUnbroken : Lines.Unbroken '\n' receiverLines)
    (sender : Lines.records newline transfer.sender = senderLines.map Utf8.encode)
    (senderUnbroken : Lines.Unbroken '\n' senderLines) :
    transfer.Union (some (transfer.receiver ++
      Utf8.encode (Lines.terminated '\n' (additions receiverLines senderLines)))) := by
  have unbroken : Lines.Unbroken '\n' (receiverLines ++ additions receiverLines senderLines) := by
    refine (Lines.unbroken_append '\n').mpr ⟨receiverUnbroken, fun line member => ?_⟩
    exact senderUnbroken line (mem_incoming_of_mem_additions member)
  have receiverRecords : Lines.records newline transfer.receiver =
      receiverLines.map Utf8.encode := by
    have form := Lines.records_form '\n' receiverUnbroken List.not_mem_nil
    rw [List.append_nil] at form
    rw [receiver, Utf8.records_encode, form]
  refine ⟨_, rfl, ?_⟩
  rw [receiverRecords, sender, receiver, ← Utf8.encode_append, Utf8.records_encode,
    Lines.records_append_terminated '\n' unbroken, append_additions, ← Multiset.map_coe,
    ← Multiset.map_coe, ← Multiset.map_coe, coe_mergeJsonlLineSetsOnto_singleton,
    Multiset.map_union Utf8.encode_injective]

/-- The full transfer of texts leaves the union of the records. -/
theorem union_of_mergeFull {received sent : List Char}
    (receiver : transfer.receiver = Utf8.encode received)
    (receiverUnmarked : ¬ Utf8.byteOrderMark <+: transfer.receiver)
    (sender : transfer.sender = Utf8.encode sent)
    (senderUnmarked : ¬ Utf8.byteOrderMark <+: transfer.sender) {run : FileRun}
    {result : JsonlMergeResult} {after : Option Bytes}
    (merge : transfer.mergeFull run = (result, after))
    (settled : result = .merged ∨ result = .unchanged) : transfer.Union after := by
  have deferred : (JsonlMergeResult.deferred, some transfer.receiver) ≠ (result, after) := by
    intro equal
    rcases settled with rfl | rfl <;> cases equal
  have stable : run.sameAfterRead = true := not_not.mp (past_guard merge deferred).1
  have receiverDecoded : Utf8.decode transfer.receiver = received := by
    rw [receiver, Utf8.decode_encode (receiver ▸ receiverUnmarked)]
  have senderLines : readLines transfer.sender = Lines.records '\n' sent := by
    rw [readLines, sender, Utf8.decode_encode (sender ▸ senderUnmarked)]
    cases sent <;> rfl
  have senderUnbroken : Lines.Unbroken '\n' (Lines.records '\n' sent) := by
    obtain ⟨lines, rest, text, unbroken, last⟩ := Lines.exists_terminated '\n' sent
    rw [text, Lines.records_form '\n' unbroken last]
    exact unbroken
  obtain ⟨lines, rest, text, unbroken, last⟩ := Lines.exists_terminated '\n' received
  rw [transfer.mergeFull_eq stable, receiverDecoded, senderLines] at merge
  obtain ⟨finished, merge⟩ := past_guard merge deferred
  have whole : rest = [] := by
    rw [text, not_and_or, not_not, not_not, Lines.finished_iff '\n' last] at finished
    exact finished
  rw [whole, List.append_nil] at text
  have destinationLines := Lines.lines_of_terminated '\n' unbroken
  rw [← text] at destinationLines
  rw [destinationLines] at merge
  have union := transfer.union_of_encoded (text ▸ receiver) unbroken
    (by rw [sender, Utf8.records_encode]) senderUnbroken
  dsimp only at merge
  generalize additions lines (Lines.records '\n' sent) = added at merge union
  by_cases nothing : added = []
  · rw [if_pos nothing] at merge
    have same : some transfer.receiver = after := congrArg Prod.snd merge
    rw [nothing] at union
    simpa [Lines.terminated, Utf8.encode, same] using union
  · rw [if_neg nothing, joinLines, if_neg nothing,
      Lines.intercalate_append_newline '\n' nothing] at merge
    generalize append : appendJsonlPayload transfer.receiver
      (Utf8.encode (Lines.terminated '\n' added)) run.append = outcome at merge
    obtain ⟨answer, text⟩ := outcome
    have answered : answer = result := congrArg Prod.fst merge
    have written : some text = after := congrArg Prod.snd merge
    obtain ⟨-, appended⟩ := appendJsonlPayload_merged append
      (by rintro rfl; rcases settled with rfl | rfl <;> cases answered)
      (by rintro rfl; rcases settled with rfl | rfl <;> cases answered)
    rw [← written, appended]
    exact union

/-- The tail transfer leaves the union of the records on every run in which it answers `merged` or
`unchanged` exactly when the cut does no harm; so does the full transfer of texts, always. -/
theorem merge_union_iff (digest : Bytes → Digest) :
    ((∀ run result after, transfer.merge digest run = (result, after) →
        (result = .of .merged ∨ result = .of .unchanged) → transfer.Union after) ↔
      transfer.Agrees) ∧
      ∀ received sent : List Char,
        transfer.receiver = Utf8.encode received → ¬ Utf8.byteOrderMark <+: transfer.receiver →
        transfer.sender = Utf8.encode sent → ¬ Utf8.byteOrderMark <+: transfer.sender →
        ∀ run result after, transfer.mergeFull run = (result, after) →
          (result = .merged ∨ result = .unchanged) → transfer.Union after := by
  refine ⟨?_, fun received sent receiver receiverUnmarked sender senderUnmarked run result after
    merge settled => transfer.union_of_mergeFull receiver receiverUnmarked sender senderUnmarked
      merge settled⟩
  obtain ⟨before, extras, lines, fragment, extraRest, rest, cut⟩ := transfer.exists_cut
  rw [cut.agrees_iff]
  by_cases present : lines = []
  · subst present
    refine iff_of_true (fun run result after merge settled => ?_) (Or.inr ?_)
    · rcases cut.merge_settled merge settled with ⟨-, same⟩ | ⟨present, -⟩
      · rw [same]
        exact cut.union_of_nothing
      · exact absurd rfl present
    · cases extras <;> trivial
  by_cases whole : extraRest = []
  · by_cases begun : fragment = [] ∨ extras ≠ []
    · rw [← cut.union_iff whole begun present, or_iff_right (not_not.mpr whole)]
      constructor
      · intro always
        obtain ⟨run, result, settled, merge⟩ :=
          cut.exists_merge_settled digest whole begun present
        exact always run result _ merge settled
      · intro union run result after merge settled
        rcases cut.merge_settled merge settled with ⟨none, -⟩ | ⟨-, -, -, same⟩
        · exact absurd none present
        · rw [same]
          exact union
    · -- The receiver ends inside the record that the cut falls in, so nothing is appended.
      have none : extras = [] := by tauto
      refine iff_of_true (fun run result after merge settled => ?_) (Or.inr ?_)
      · rcases cut.merge_settled merge settled with ⟨empty, -⟩ | ⟨-, -, started, -⟩
        · exact absurd empty present
        · exact absurd started begun
      · rw [none]
        trivial
  · refine iff_of_true (fun run result after merge settled => ?_) (Or.inl whole)
    rcases cut.merge_settled merge settled with ⟨empty, -⟩ | ⟨-, finished, -⟩
    · exact absurd empty present
    · exact absurd finished whole

/-- A receiver that went on writing the record in which the cut falls, and a sender that finished
it differently. -/
def insideRecord : TailTransfer where
  sender := Utf8.encode "[1,3]\n".toList
  receiver := Utf8.encode "[1,2]\n".toList
  offset := 3
  within := by decide
  agree := by decide

/-- The rest of the sender's record is appended as a record of its own. -/
theorem merge_insideRecord :
    insideRecord.merge id ⟨false, true, .quiet (Utf8.encode "3]\n".toList)⟩ =
        (.of .merged, some (Utf8.encode "[1,2]\n3]\n".toList)) ∧
      ¬ insideRecord.Union (some (Utf8.encode "[1,2]\n3]\n".toList)) := by
  refine ⟨by decide, ?_⟩
  rintro ⟨file, same, union⟩
  cases same
  revert union
  decide

end TailTransfer

end AiSwitcher
