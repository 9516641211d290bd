/-
This file proves that personalising a boot menu is stable: a kernel command line that passed its
checks passes them again, with the same mode, after any identity was put into it, and putting
in another identity forgets the first. Every other line stays, but for one thing: reading
the lines of a menu drops one carriage return before a newline, so a line that keeps one
loses it when the menu is personalised again.
-/

import AiSwitcher.Host.BootMenu

namespace AiSwitcher.BootMenu

open JavaScript
open Host (DriveIdentity isGptGuid)

/-! ### Characters of an identity -/

/-- Neither space nor of those that a kernel line may not have. -/
def isPlainChar (character : Char) : Bool :=
  !isSpaceChar character && !(['\\', ';', '"', '\''].contains character)

def isGuidChar (character : Char) : Bool :=
  character.isDigit || ('a' ≤ character && character ≤ 'f') || character == '-'

theorem plain_of_isGuidChar {character : Char} (isGuid : isGuidChar character = true) :
    isPlainChar character = true := by
  have all : ∀ code < 128, isGuidChar (Char.ofNat code) = true →
      isPlainChar (Char.ofNat code) = true := by decide
  have small : character.toNat < 128 := by
    simp only [isGuidChar, Bool.or_eq_true, Bool.and_eq_true, decide_eq_true_iff, beq_iff_eq,
      Char.isDigit, Char.le_def, UInt32.le_iff_toNat_le] at isGuid
    rcases isGuid with (⟨-, high⟩ | ⟨-, high⟩) | rfl
    · exact Nat.lt_of_le_of_lt high (by decide)
    · exact Nat.lt_of_le_of_lt high (by decide)
    · decide
  have whole := all character.toNat small
  rw [Char.ofNat_toNat] at whole
  exact whole isGuid

theorem guidChar_of_isGptGuid {uuid : String} (isGuid : isGptGuid uuid = true) :
    ∀ character ∈ uuid.toList, isGuidChar character = true := by
  intro character member
  rw [isGptGuid, Bool.and_eq_true, List.all_eq_true] at isGuid
  obtain ⟨index, bound, rfl⟩ := List.getElem_of_mem member
  have here := isGuid.2 (uuid.toList[index], index) (by
    rw [List.mem_zipIdx_iff_getElem?]
    exact List.getElem?_eq_getElem bound)
  dsimp only at here
  rw [isGuidChar]
  split at here
  · rw [here, Bool.or_true]
  · rw [here, Bool.true_or]

theorem guid_of_isValid {identity : DriveIdentity} (valid : identity.isValid = true)
    {id : String} (member : id ∈ identity.partitions.toList) : isGptGuid id = true := by
  rw [DriveIdentity.isValid, List.all_eq_true] at valid
  obtain ⟨index, bound, rfl⟩ := List.getElem_of_mem (List.mem_cons_of_mem identity.disk member)
  have here := valid (_, index) (by
    rw [List.mem_zipIdx_iff_getElem?]
    exact List.getElem?_eq_getElem bound)
  simp only [Bool.and_eq_true] at here
  exact here.1.1.1

theorem plain_partition {identity : DriveIdentity} (valid : identity.isValid = true) {index : Nat}
    (small : index < 5) :
    ∀ character ∈ identity.partitions[index].toList, isPlainChar character = true := by
  intro character member
  refine plain_of_isGuidChar (guidChar_of_isGptGuid (guid_of_isValid valid ?_) character member)
  exact Vector.mem_toList_iff.mpr (Vector.getElem_mem _)

theorem not_space_of_plain {character : Char} (plain : isPlainChar character = true) :
    isSpaceChar character = false := by
  rw [isPlainChar, Bool.and_eq_true, Bool.not_eq_true'] at plain
  exact plain.1

/-! ### The arguments of an identity -/

theorem plain_wordOf {key value : MenuText} (plainKey : key.all isPlainChar = true)
    (plainValue : ∀ character ∈ value, isPlainChar character = true) :
    ∀ character ∈ wordOf (key, value), isPlainChar character = true := by
  rw [List.all_eq_true] at plainKey
  intro character member
  rcases List.mem_append.mp member with inKey | inRest
  · exact plainKey character inKey
  · rcases List.mem_cons.mp inRest with rfl | inValue
    · decide
    · exact plainValue character inValue

theorem plain_bindings {identity : DriveIdentity} (valid : identity.isValid = true) :
    ∀ binding ∈ bindings identity, ∀ character ∈ wordOf binding,
      isPlainChar character = true := by
  simp only [bindings, List.forall_mem_cons]
  refine ⟨plain_wordOf (by decide) (plain_partition valid (by decide)),
    plain_wordOf (by decide) (plain_partition valid (by decide)),
    plain_wordOf (by decide) (plain_partition valid (by decide)),
    plain_wordOf (by decide) ?_, plain_wordOf (by decide) (List.all_eq_true.mp (by decide)),
    List.forall_mem_nil _⟩
  rw [List.forall_mem_append]
  exact ⟨List.all_eq_true.mp (by decide), plain_partition valid (by decide)⟩

theorem isWord_wordOf {identity : DriveIdentity} (valid : identity.isValid = true) :
    ∀ word ∈ (bindings identity).map wordOf, Words.IsWord isSpaceChar word := by
  rw [List.forall_mem_map]
  intro binding member
  refine ⟨?_, fun character among => ?_⟩
  · rw [wordOf]
    exact List.append_ne_nil_of_right_ne_nil _ (List.cons_ne_nil _ _)
  · exact not_space_of_plain (plain_bindings valid binding member character among)

/-! ### The words of a personalised line -/

theorem isWord_kept {line word : MenuText} (member : word ∈ (menuWords line).filter isKept) :
    Words.IsWord isSpaceChar word :=
  Words.isWord_of_mem_words (List.mem_of_mem_filter member)

/-- A kernel line begins with a command, which stays. -/
theorem exists_command {words : List MenuText} (kernel : isKernelLine words = true) :
    ∃ command rest, words = command :: rest ∧
      command ∈ ["linux".toList, "linuxefi".toList, "append".toList, "APPEND".toList] := by
  cases words with
  | nil => cases kernel
  | cons command rest =>
    exact ⟨command, rest, rfl, List.contains_iff_mem.mp kernel⟩

theorem isKept_command : ∀ command ∈
    ["linux".toList, "linuxefi".toList, "append".toList, "APPEND".toList],
    isKept command = true := by
  decide

theorem filter_kept_cons {words : List MenuText} (kernel : isKernelLine words = true) :
    ∃ command rest, words = command :: rest ∧
      words.filter isKept = command :: rest.filter isKept := by
  obtain ⟨command, rest, rfl, member⟩ := exists_command kernel
  exact ⟨command, rest, rfl, List.filter_cons_of_pos (isKept_command command member)⟩

theorem boundLine_eq (identity : DriveIdentity) {words : List MenuText}
    (kernel : isKernelLine words = true) :
    boundLine identity words =
      List.intercalate [' '] (words.filter isKept ++ (bindings identity).map wordOf) := by
  obtain ⟨command, rest, -, kept⟩ := filter_kept_cons kernel
  rw [boundLine, ← Words.intercalate_append_flatMap ' ' (by rw [kept]; exact List.cons_ne_nil _ _),
    List.flatMap_map]

theorem menuWords_boundLine {identity : DriveIdentity} (valid : identity.isValid = true)
    {line : MenuText} (kernel : isKernelLine (menuWords line) = true) :
    menuWords (boundLine identity (menuWords line)) =
      (menuWords line).filter isKept ++ (bindings identity).map wordOf := by
  rw [boundLine_eq identity kernel]
  refine Words.words_intercalate (by decide) ?_
  rw [List.forall_mem_append]
  exact ⟨fun _ member => isWord_kept member, isWord_wordOf valid⟩

/-- Putting in another identity forgets the first. -/
theorem filter_kept_bound (identity : DriveIdentity) (words : List MenuText) :
    (words.filter isKept ++ (bindings identity).map wordOf).filter isKept =
      words.filter isKept := by
  rw [List.filter_append, List.filter_filter]
  have none : ((bindings identity).map wordOf).filter isKept = [] := rfl
  rw [none, List.append_nil]
  simp only [Bool.and_self]

/-! ### The checks pass again -/

theorem startsWith_iff {start : String} {word : MenuText} :
    startsWith start word = true ↔ start.toList <+: word := List.isPrefixOf_iff_prefix

/-- Words with a start apart from those of the arguments are those they were. -/
theorem filter_startsWith (identity : DriveIdentity) {start : String}
    (apart : BOUND_STARTS.all (fun other => !startsWith start other.toList &&
      !startsWith other start.toList) = true)
    (none : ((bindings identity).map wordOf).filter (startsWith start) = [])
    (words : List MenuText) :
    (words.filter isKept ++ (bindings identity).map wordOf).filter (startsWith start) =
      words.filter (startsWith start) := by
  rw [List.filter_append, none, List.append_nil, List.filter_filter]
  refine List.filter_congr fun word _ => ?_
  by_cases starts : startsWith start word = true
  · have kept : isKept word = true := by
      rw [isKept, Bool.not_eq_true', List.any_eq_false]
      intro other member otherStarts
      rw [List.all_eq_true] at apart
      have both := apart other member
      rw [Bool.and_eq_true, Bool.not_eq_true', Bool.not_eq_true', ← Bool.not_eq_true,
        ← Bool.not_eq_true, startsWith_iff, startsWith_iff] at both
      rcases List.prefix_or_prefix_of_prefix (startsWith_iff.mp starts)
        (startsWith_iff.mp otherStarts) with inside | inside
      · exact both.1 inside
      · exact both.2 inside
    rw [starts, kept]
    rfl
  · rw [Bool.eq_false_iff.mpr starts]
    rfl

/-- The first two words stay where they matter. -/
theorem image_kept {words : List MenuText} (kernel : isKernelLine words = true)
    (bound : List MenuText)
    (passed : (!(words.head?.any ["APPEND".toList, "append".toList].contains) &&
      decide (words[1]? ≠ some "/arch/boot/x86_64/vmlinuz-linux".toList)) = false) :
    (!((words.filter isKept ++ bound).head?.any ["APPEND".toList, "append".toList].contains) &&
      decide ((words.filter isKept ++ bound)[1]? ≠
        some "/arch/boot/x86_64/vmlinuz-linux".toList)) = false := by
  obtain ⟨command, rest, rfl, kept⟩ := filter_kept_cons kernel
  rw [kept]
  rw [Bool.and_eq_false_iff] at passed ⊢
  refine passed.imp id fun image => ?_
  rw [decide_eq_false_iff_not, not_not] at image ⊢
  cases rest with
  | nil => cases image
  | cons second others =>
    have same : second = "/arch/boot/x86_64/vmlinuz-linux".toList := Option.some.inj image
    rw [same, List.filter_cons_of_pos (by decide)]
    rfl

/-- Of a kernel line that passed, and of the line personalised for an identity. -/
theorem not_refused_boundLine {identity : DriveIdentity} (valid : identity.isValid = true)
    {line : MenuText} (kernel : isKernelLine (menuWords line) = true)
    (passed : refusedLine line (menuWords line) = false) :
    refusedLine (boundLine identity (menuWords line))
      ((menuWords line).filter isKept ++ (bindings identity).map wordOf) = false := by
  simp only [refusedLine, Bool.or_eq_false_iff] at passed ⊢
  obtain ⟨⟨⟨⟨characters, image⟩, words⟩, base⟩, firstboot⟩ := passed
  refine ⟨⟨⟨⟨?_, ?_⟩, ?_⟩, ?_⟩, ?_⟩
  · rw [List.any_eq_false] at characters ⊢
    intro character member
    rw [boundLine_eq identity kernel] at member
    rcases Words.mem_intercalate member with rfl | ⟨word, among, inside⟩
    · decide
    rcases List.mem_append.mp among with kept | bound
    · exact characters character (Words.mem_of_mem_words inside (List.mem_of_mem_filter kept))
    · obtain ⟨binding, isBinding, rfl⟩ := List.mem_map.mp bound
      have plain := plain_bindings valid binding isBinding character inside
      rw [isPlainChar, Bool.and_eq_true, Bool.not_eq_true', Bool.not_eq_true'] at plain
      exact Bool.eq_false_iff.mp plain.2
  · exact image_kept kernel _ image
  · rw [List.any_append, Bool.or_eq_false_iff]
    refine ⟨?_, rfl⟩
    rw [List.any_eq_false] at words ⊢
    exact fun word member => words word (List.mem_of_mem_filter member)
  · rw [filter_startsWith identity (by decide) rfl]
    exact base
  · rw [filter_startsWith identity (by decide) rfl]
    exact firstboot

theorem checkLine_boundLine {identity : DriveIdentity} (valid : identity.isValid = true)
    {modes later : List MenuText} {line : MenuText} (kernel : isKernelLine (menuWords line) = true)
    (passed : checkLine modes line (menuWords line) = .ok later) :
    checkLine modes (boundLine identity (menuWords line))
      (menuWords (boundLine identity (menuWords line))) = .ok later := by
  rw [menuWords_boundLine valid kernel]
  rw [checkLine, ensure_bind_eq_ok, Bool.not_eq_true'] at passed ⊢
  rw [filter_startsWith identity (by decide) rfl]
  exact ⟨not_refused_boundLine valid kernel passed.1, passed.2⟩

theorem isKernelLine_bound (identity : DriveIdentity) {words : List MenuText}
    (kernel : isKernelLine words = true) :
    isKernelLine (words.filter isKept ++ (bindings identity).map wordOf) = true := by
  obtain ⟨command, rest, rfl, kept⟩ := filter_kept_cons kernel
  rw [kept]
  exact kernel

/-! ### Lines -/

/-- A line of the personalised menu. -/
def renewed (identity : DriveIdentity) (line : MenuText) : MenuText :=
  if isKernelLine (menuWords line) then boundLine identity (menuWords line) else line

theorem renewed_kernel (identity : DriveIdentity) {line : MenuText}
    (kernel : isKernelLine (menuWords line) = true) :
    renewed identity line = boundLine identity (menuWords line) := if_pos kernel

theorem renewed_other (identity : DriveIdentity) {line : MenuText}
    (other : ¬ isKernelLine (menuWords line) = true) : renewed identity line = line := if_neg other

/-- Putting in another identity forgets the first. -/
theorem renewed_renewed {first : DriveIdentity} (valid : first.isValid = true)
    (second : DriveIdentity) (line : MenuText) :
    renewed second (renewed first line) = renewed second line := by
  by_cases kernel : isKernelLine (menuWords line) = true
  · have words := menuWords_boundLine valid kernel
    have again : isKernelLine (menuWords (boundLine first (menuWords line))) = true := by
      rw [words]
      exact isKernelLine_bound first kernel
    rw [renewed_kernel first kernel, renewed_kernel second again, words, boundLine,
      filter_kept_bound, renewed_kernel second kernel, boundLine]
  · rw [renewed_other first kernel]

theorem patchLine_eq_ok {identity : DriveIdentity} {modes later : List MenuText}
    {line output : MenuText} :
    patchLine identity modes line = .ok (later, output) ↔
      (if isKernelLine (menuWords line) then checkLine modes line (menuWords line) = .ok later
        else modes = later) ∧ renewed identity line = output := by
  rw [patchLine, renewed]
  by_cases kernel : isKernelLine (menuWords line) = true
  · simp only [if_pos kernel]
    rw [bind_eq_ok]
    constructor
    · rintro ⟨others, passed, same⟩
      cases same
      exact ⟨passed, rfl⟩
    · rintro ⟨passed, rfl⟩
      exact ⟨later, passed, rfl⟩
  · simp only [if_neg kernel]
    constructor
    · intro same
      cases same
      exact ⟨rfl, rfl⟩
    · rintro ⟨rfl, rfl⟩
      rfl

/-- A line that was personalised is personalised again as the line itself is. -/
theorem patchLine_again {first second : DriveIdentity} (valid : first.isValid = true)
    {modes later : List MenuText} {line output : MenuText}
    (patched : patchLine first modes line = .ok (later, output)) :
    patchLine second modes line = .ok (later, renewed second line) ∧
      patchLine second modes output = .ok (later, renewed second line) := by
  obtain ⟨passed, rfl⟩ := patchLine_eq_ok.mp patched
  refine ⟨patchLine_eq_ok.mpr ⟨passed, rfl⟩,
    patchLine_eq_ok.mpr ⟨?_, renewed_renewed valid second line⟩⟩
  by_cases kernel : isKernelLine (menuWords line) = true
  · rw [if_pos kernel] at passed
    have again : isKernelLine (menuWords (boundLine first (menuWords line))) = true := by
      rw [menuWords_boundLine valid kernel]
      exact isKernelLine_bound first kernel
    rw [renewed_kernel first kernel, if_pos again]
    exact checkLine_boundLine valid kernel passed
  · rw [if_neg kernel] at passed
    rw [renewed_other first kernel, if_neg kernel]
    exact passed

/-- A personalised menu is personalised again as the menu itself is. -/
theorem patchLines_again {first second : DriveIdentity} (valid : first.isValid = true)
    {lines : List MenuText} : ∀ {modes later : List MenuText} {output : MenuText},
    patchLines first modes lines = .ok (later, output) →
    output = Lines.terminated '\n' (lines.map (renewed first)) ∧
      patchLines second modes lines =
        .ok (later, Lines.terminated '\n' (lines.map (renewed second))) ∧
      patchLines second modes (lines.map (renewed first)) =
        .ok (later, Lines.terminated '\n' (lines.map (renewed second))) := by
  induction lines with
  | nil =>
    intro modes later output patched
    cases patched
    exact ⟨rfl, rfl, rfl⟩
  | cons line rest inductionHypothesis =>
    intro modes later output patched
    rw [patchLines, bind_eq_ok] at patched
    obtain ⟨⟨between, patchedLine⟩, patchedFirst, patched⟩ := patched
    rw [bind_eq_ok] at patched
    obtain ⟨⟨last, patchedRest⟩, patchedOthers, patched⟩ := patched
    cases patched
    obtain ⟨rfl, others, othersAgain⟩ := inductionHypothesis patchedOthers
    obtain ⟨same, again⟩ := @patchLine_again first second valid _ _ _ _ patchedFirst
    obtain ⟨-, rfl⟩ := patchLine_eq_ok.mp patchedFirst
    rw [List.map_cons, List.map_cons, patchLines, patchLines, same, again, ok_bind, ok_bind]
    dsimp only
    rw [others, othersAgain, Lines.terminated_cons, Lines.terminated_cons]
    exact ⟨rfl, rfl, rfl⟩

/-! ### Reading the lines again -/

theorem mem_menuLines_unbroken (menu : MenuText) : Lines.Unbroken '\n' (menuLines menu) := by
  obtain ⟨lines, rest, rfl, unbroken, last⟩ := Lines.exists_terminated '\n' menu
  rw [menuLines, Lines.records_form '\n' unbroken last, Lines.unfinished_form '\n' last,
    Lines.unbroken_append]
  refine ⟨?_, fun line member => ?_⟩
  · intro line member
    obtain ⟨other, among, rfl⟩ := List.mem_map.mp member
    rw [stripReturn]
    split
    · exact fun newline => unbroken other among (List.dropLast_subset _ newline)
    · exact unbroken other among
  · obtain ⟨-, rfl⟩ := Words.eq_of_mem_finished member
    exact last

theorem menuLines_terminated {lines : List MenuText} (unbroken : Lines.Unbroken '\n' lines) :
    menuLines (Lines.terminated '\n' lines) = lines.map stripReturn := by
  have whole : Lines.terminated '\n' lines = Lines.terminated '\n' lines ++ [] :=
    (List.append_nil _).symm
  rw [menuLines, whole, Lines.records_form '\n' unbroken List.not_mem_nil,
    Lines.unfinished_form '\n' List.not_mem_nil]
  exact List.append_nil _

theorem terminated_injective {first second : List MenuText} (firstUnbroken : Lines.Unbroken '\n' first)
    (secondUnbroken : Lines.Unbroken '\n' second)
    (same : Lines.terminated '\n' first = Lines.terminated '\n' second) : first = second := by
  have whole := congrArg (Lines.records '\n') same
  rw [← List.append_nil (Lines.terminated '\n' first),
    ← List.append_nil (Lines.terminated '\n' second),
    Lines.records_form '\n' firstUnbroken List.not_mem_nil,
    Lines.records_form '\n' secondUnbroken List.not_mem_nil] at whole
  exact whole

theorem unbroken_map_renewed {identity : DriveIdentity} (valid : identity.isValid = true)
    {lines : List MenuText} (unbroken : Lines.Unbroken '\n' lines) :
    Lines.Unbroken '\n' (lines.map (renewed identity)) := by
  intro patched member
  obtain ⟨line, among, rfl⟩ := List.mem_map.mp member
  by_cases kernel : isKernelLine (menuWords line) = true
  · rw [renewed_kernel identity kernel, boundLine_eq identity kernel]
    intro newline
    rcases Words.mem_intercalate newline with same | ⟨word, isPart, inside⟩
    · revert same
      decide
    have isWord : Words.IsWord isSpaceChar word := by
      rcases List.mem_append.mp isPart with kept | bound
      · exact isWord_kept kept
      · exact isWord_wordOf valid word bound
    have notSpace := isWord.2 _ inside
    revert notSpace
    decide
  · rw [renewed_other identity kernel]
    exact unbroken line among

/-- A personalised kernel line ends with its last argument. -/
theorem getLast?_boundLine (identity : DriveIdentity) (words : List MenuText) :
    (boundLine identity words).getLast? = some 'n' := by
  have ends : boundLine identity words =
      (List.intercalate [' '] (words.filter isKept) ++
        ((bindings identity).dropLast.flatMap fun binding => ' ' :: wordOf binding) ++
          " copytoram=".toList) ++ ['n'] := by
    rw [List.append_assoc, List.append_assoc, boundLine]
    refine congrArg _ ?_
    simp only [bindings, List.dropLast_cons_cons, List.dropLast_singleton, List.flatMap_cons,
      List.flatMap_nil, List.append_assoc]
    rfl
  rw [ends, List.getLast?_concat]

/-! ### The arguments of a kernel line -/

theorem keyOf_eq_iff {key word : MenuText} (keyPlain : '=' ∉ key) :
    keyOf word = key ↔ word = key ∨ key ++ ['='] <+: word := by
  have all : ∀ character ∈ key, decide (character ≠ '=') = true := fun character member =>
    decide_eq_true fun same => keyPlain (same ▸ member)
  constructor
  · rintro rfl
    have whole : keyOf word ++ word.dropWhile (· ≠ '=') = word := List.takeWhile_append_dropWhile
    cases rest : word.dropWhile (· ≠ '=') with
    | nil =>
      rw [rest, List.append_nil] at whole
      exact .inl whole.symm
    | cons first others =>
      have stops := List.head?_dropWhile_not (fun character => decide (character ≠ '=')) word
      rw [rest] at stops
      have isEquals : first = '=' := not_not.mp (of_decide_eq_false stops)
      rw [rest, isEquals] at whole
      exact .inr ⟨others, by rw [List.append_assoc]; exact whole⟩
  · rintro (rfl | ⟨rest, rfl⟩)
    · exact List.takeWhile_eq_self_iff.mpr all
    · rw [keyOf, List.append_assoc, List.takeWhile_append_of_pos all]
      exact List.append_nil _

theorem filter_key_kept {words : List MenuText} (allowed : words.any refusedWord = false)
    {key : MenuText} (keyPlain : '=' ∉ key) {start : String} (isBound : start ∈ BOUND_STARTS)
    (starts : start.toList = key ++ ['=']) (bare : refusedWord key = true) :
    (words.filter isKept).filter (keyOf · = key) = [] := by
  rw [List.filter_eq_nil_iff]
  intro word member
  rw [decide_eq_true_iff, keyOf_eq_iff keyPlain]
  rintro (rfl | prefixed)
  · rw [List.any_eq_false] at allowed
    exact allowed word (List.mem_of_mem_filter member) bare
  · have kept := List.of_mem_filter member
    rw [isKept, Bool.not_eq_true', List.any_eq_false] at kept
    exact kept start isBound (startsWith_iff.mpr (starts ▸ prefixed))

def BOUND_KEYS : List MenuText :=
  ["ais.base".toList, "ais.exchange".toList, "ais.drive".toList, "archisodevice".toList,
    "copytoram".toList]

theorem keys_bindings (identity : DriveIdentity) :
    (bindings identity).map Prod.fst = BOUND_KEYS := rfl

/-- No argument may stand bare, and one with a value is not kept. -/
theorem boundKey_starts : ∀ key ∈ BOUND_KEYS, '=' ∉ key ∧ refusedWord key = true ∧
    ∃ start ∈ BOUND_STARTS, start.toList = key ++ ['='] := by
  decide

theorem filter_of_nodup_keys {pairs : List (MenuText × MenuText)}
    (distinct : (pairs.map Prod.fst).Nodup) : ∀ pair ∈ pairs,
    pairs.filter (·.1 = pair.1) = [pair] := by
  induction pairs with
  | nil => exact List.forall_mem_nil _
  | cons first rest inductionHypothesis =>
    rw [List.map_cons, List.nodup_cons] at distinct
    intro pair member
    rcases List.mem_cons.mp member with rfl | later
    · rw [List.filter_cons_of_pos (by exact decide_eq_true rfl)]
      refine congrArg _ (List.filter_eq_nil_iff.mpr fun other among => ?_)
      rw [decide_eq_true_iff]
      exact fun same => distinct.1 (same ▸ List.mem_map_of_mem among)
    · rw [List.filter_cons_of_neg, inductionHypothesis distinct.2 pair later]
      rw [decide_eq_true_iff]
      exact fun same => distinct.1 (same ▸ List.mem_map_of_mem later)

theorem filter_key_words {pairs : List (MenuText × MenuText)}
    (plain : ∀ pair ∈ pairs, '=' ∉ pair.1) (key : MenuText) :
    (pairs.map wordOf).filter (keyOf · = key) = (pairs.filter (·.1 = key)).map wordOf := by
  rw [List.filter_map]
  refine congrArg _ (List.filter_congr fun pair member => ?_)
  have isKey : keyOf (wordOf pair) = pair.1 :=
    (keyOf_eq_iff (plain pair member)).mpr (.inr ⟨pair.2, by rw [List.append_assoc]; rfl⟩)
  rw [Function.comp_apply, isKey]

/-- Each argument of the identity stands in the line once, with its value. -/
theorem filter_key_bound (identity : DriveIdentity) {words : List MenuText}
    (allowed : words.any refusedWord = false) {binding : MenuText × MenuText}
    (member : binding ∈ bindings identity) :
    (words.filter isKept ++ (bindings identity).map wordOf).filter (keyOf · = binding.1) =
      [wordOf binding] := by
  have isKey (pair : MenuText × MenuText) (among : pair ∈ bindings identity) :
      pair.1 ∈ BOUND_KEYS := keys_bindings identity ▸ List.mem_map_of_mem among
  obtain ⟨plain, bare, start, isBound, starts⟩ := boundKey_starts binding.1 (isKey binding member)
  have distinct : ((bindings identity).map Prod.fst).Nodup := by
    rw [keys_bindings]
    decide
  rw [List.filter_append, filter_key_kept allowed plain isBound starts bare,
    filter_key_words (fun pair among => (boundKey_starts pair.1 (isKey pair among)).1),
    filter_of_nodup_keys distinct binding member]
  rfl

/-- What becomes of a line: a kernel line has each argument of the identity once, with its
value; any other line stays. -/
def Personalised (identity : DriveIdentity) (before after : MenuText) : Prop :=
  if isKernelLine (menuWords before) then
    isKernelLine (menuWords after) = true ∧ ∀ binding ∈ bindings identity,
      (menuWords after).filter (keyOf · = binding.1) = [wordOf binding]
  else after = before

theorem personalised_renewed {identity : DriveIdentity} (valid : identity.isValid = true)
    {modes later : List MenuText} {line : MenuText}
    (passed : if isKernelLine (menuWords line) then
      checkLine modes line (menuWords line) = .ok later else modes = later) :
    Personalised identity line (renewed identity line) := by
  rw [Personalised]
  by_cases kernel : isKernelLine (menuWords line) = true
  · rw [if_pos kernel] at passed ⊢
    rw [renewed_kernel identity kernel, menuWords_boundLine valid kernel]
    rw [checkLine, ensure_bind_eq_ok, Bool.not_eq_true'] at passed
    have allowed : (menuWords line).any refusedWord = false := by
      have notRefused := passed.1
      simp only [refusedLine, Bool.or_eq_false_iff] at notRefused
      exact notRefused.1.1.2
    exact ⟨isKernelLine_bound identity kernel,
      fun binding member => filter_key_bound identity allowed member⟩
  · rw [if_neg kernel, renewed_other identity kernel]

theorem personalised_lines {identity : DriveIdentity} (valid : identity.isValid = true)
    {lines : List MenuText} : ∀ {modes later : List MenuText} {output : MenuText},
    patchLines identity modes lines = .ok (later, output) →
    List.Forall₂ (Personalised identity) lines (lines.map (renewed identity)) := by
  induction lines with
  | nil => exact fun _ => .nil
  | cons line rest inductionHypothesis =>
    intro modes later output patched
    rw [patchLines, bind_eq_ok] at patched
    obtain ⟨⟨between, patchedLine⟩, patchedFirst, patched⟩ := patched
    rw [bind_eq_ok] at patched
    obtain ⟨⟨last, patchedRest⟩, patchedOthers, -⟩ := patched
    exact .cons (personalised_renewed valid (patchLine_eq_ok.mp patchedFirst).1)
      (inductionHypothesis patchedOthers)

/-! ### Menus -/

/-- No line but a kernel line keeps a carriage return at its end when the lines are read. -/
def NoBareReturn (menu : MenuText) : Prop :=
  ∀ line ∈ menuLines menu, isKernelLine (menuWords line) = false → line.getLast? ≠ some '\r'

theorem stripReturn_renewed {menu : MenuText} (clean : NoBareReturn menu)
    (identity : DriveIdentity) :
    ((menuLines menu).map (renewed identity)).map stripReturn =
      (menuLines menu).map (renewed identity) := by
  rw [List.map_map]
  refine List.map_congr_left fun line member => ?_
  rw [Function.comp_apply, stripReturn]
  by_cases kernel : isKernelLine (menuWords line) = true
  · rw [renewed_kernel identity kernel, getLast?_boundLine, if_neg (by decide)]
  · rw [renewed_other identity kernel,
      if_neg (clean line member (Bool.eq_false_iff.mpr kernel))]

theorem patchMenu_eq_ok {menu result : MenuText} {identity : DriveIdentity} :
    patchMenu menu identity = .ok result ↔ ∃ modes,
      patchLines identity [] (menuLines menu) = .ok (modes, result) ∧ modes.length = 3 := by
  rw [patchMenu, bind_eq_ok]
  constructor
  · rintro ⟨⟨modes, output⟩, patched, checked⟩
    rw [ensure_bind_eq_ok, decide_eq_true_iff] at checked
    obtain ⟨three, same⟩ := checked
    cases same
    exact ⟨modes, patched, three⟩
  · rintro ⟨modes, patched, three⟩
    refine ⟨(modes, result), patched, ?_⟩
    rw [ensure_bind_eq_ok, decide_eq_true_iff]
    exact ⟨three, rfl⟩

/-- A line that keeps a carriage return loses it when the menu is personalised again. -/
theorem noBareReturn_of_again {menu result : MenuText} {identity : DriveIdentity}
    (valid : identity.isValid = true) (patched : patchMenu menu identity = .ok result)
    (again : patchMenu result identity = .ok result) : NoBareReturn menu := by
  obtain ⟨modes, patchedLines, -⟩ := patchMenu_eq_ok.mp patched
  obtain ⟨othersModes, patchedAgain, -⟩ := patchMenu_eq_ok.mp again
  obtain ⟨written, -, -⟩ := @patchLines_again identity identity valid _ _ _ _ patchedLines
  obtain ⟨rewritten, -, -⟩ := @patchLines_again identity identity valid _ _ _ _ patchedAgain
  have unbroken := unbroken_map_renewed valid (mem_menuLines_unbroken menu)
  have same : (menuLines menu).map (renewed identity) =
      (menuLines result).map (renewed identity) :=
    terminated_injective unbroken (unbroken_map_renewed valid (mem_menuLines_unbroken result))
      (written.symm.trans rewritten)
  rw [written, menuLines_terminated unbroken, List.map_map, List.map_map] at same
  intro line member other ends
  have here := List.map_inj_left.mp same line member
  have notKernel : ¬ isKernelLine (menuWords line) = true := Bool.eq_false_iff.mp other
  rw [Function.comp_apply, Function.comp_apply, renewed_other identity notKernel, stripReturn,
    if_pos ends] at here
  by_cases kernel : isKernelLine (menuWords line.dropLast) = true
  · rw [renewed_kernel identity kernel] at here
    rw [here, getLast?_boundLine] at ends
    revert ends
    decide
  · rw [renewed_other identity kernel] at here
    have nonempty : line ≠ [] := by
      rintro rfl
      cases ends
    have length := congrArg List.length here
    rw [List.length_dropLast] at length
    have positive := List.length_pos_iff.mpr nonempty
    omega

theorem patchMenu_again {menu result : MenuText} {first second : DriveIdentity}
    (valid : first.isValid = true) (clean : NoBareReturn menu)
    (patched : patchMenu menu first = .ok result) :
    patchMenu result second = patchMenu menu second ∧
      List.Forall₂ (Personalised first) (menuLines menu) (menuLines result) := by
  obtain ⟨modes, patchedLines, three⟩ := patchMenu_eq_ok.mp patched
  obtain ⟨rfl, others, again⟩ := @patchLines_again first second valid _ _ _ _ patchedLines
  have lines : menuLines (Lines.terminated '\n' ((menuLines menu).map (renewed first))) =
      (menuLines menu).map (renewed first) := by
    rw [menuLines_terminated (unbroken_map_renewed valid (mem_menuLines_unbroken menu)),
      stripReturn_renewed clean]
  refine ⟨?_, ?_⟩
  · rw [patchMenu, patchMenu, lines, others, again]
  · rw [lines]
    exact personalised_lines valid patchedLines

theorem verifyEsp_of_patchEsp {fat : FatDriver} {esp bytes : Utf8.Bytes} {identity : DriveIdentity}
    (patched : patchEsp fat esp identity = .ok bytes) : verifyEsp fat bytes identity = .ok () := by
  rw [patchEsp, ensure_bind_eq_ok, bind_eq_ok] at patched
  obtain ⟨-, written, -, patched⟩ := patched
  rw [bind_eq_ok] at patched
  obtain ⟨unmounted, -, patched⟩ := patched
  rw [check_bind_eq_ok] at patched
  obtain ⟨verified, same⟩ := patched
  cases same
  exact verified

/-- Personalising a menu is stable and complete exactly if no line but a kernel line keeps a
carriage return; what was written to the boot partition is always accepted. -/
theorem patchMenu_stable_iff (menu result : MenuText) (first second : DriveIdentity)
    (valid : first.isValid = true) (patched : patchMenu menu first = .ok result) :
    ((patchMenu result first = .ok result ∧ patchMenu result second = patchMenu menu second ∧
        List.Forall₂ (Personalised first) (menuLines menu) (menuLines result)) ↔
      NoBareReturn menu) ∧
    ∀ (fat : FatDriver) (esp bytes : Utf8.Bytes) (identity : DriveIdentity),
      patchEsp fat esp identity = .ok bytes → verifyEsp fat bytes identity = .ok () := by
  refine ⟨⟨?_, fun clean => ?_⟩, fun _ _ _ _ patched => verifyEsp_of_patchEsp patched⟩
  · exact fun ⟨again, _⟩ => noBareReturn_of_again valid patched again
  · obtain ⟨same, personalised⟩ := @patchMenu_again _ _ first second valid clean patched
    obtain ⟨again, -⟩ := @patchMenu_again _ _ first first valid clean patched
    exact ⟨again.trans patched, same, personalised⟩

def samplePartitions : Array String :=
  #["20000000-0000-4000-8000-000000000000", "30000000-0000-4000-8000-000000000000",
    "40000000-0000-4000-8000-000000000000", "50000000-0000-4000-8000-000000000000",
    "60000000-0000-4000-8000-000000000000"]

theorem size_samplePartitions : samplePartitions.size = 5 := rfl

def sampleIdentity : DriveIdentity where
  disk := "10000000-0000-4000-8000-000000000000"
  partitions := ⟨samplePartitions, size_samplePartitions⟩

/-- Three kernel lines, after a title whose carriage return stands twice. -/
def returningMenu : MenuText :=
  "title\r\r\nAPPEND archisobasedir=arch systemd.firstboot=off ais.mode=latest\n".toList ++
    "APPEND archisobasedir=arch systemd.firstboot=off ais.mode=pick ais.drive=old\n".toList ++
      "append archisobasedir=arch systemd.firstboot=off ais.mode=clean\n".toList

/-- The same with line ends of one carriage return. -/
def cleanMenu : MenuText :=
  "title\r\nAPPEND archisobasedir=arch systemd.firstboot=off ais.mode=latest\n".toList ++
    "APPEND archisobasedir=arch systemd.firstboot=off ais.mode=pick ais.drive=old\n".toList ++
      "append archisobasedir=arch systemd.firstboot=off ais.mode=clean\n".toList

def personalisedMenu (menu : MenuText) : MenuText :=
  Lines.terminated '\n' ((menuLines menu).map (renewed sampleIdentity))

theorem patchMenu_unstable : sampleIdentity.isValid = true ∧
    patchMenu returningMenu sampleIdentity = .ok (personalisedMenu returningMenu) ∧
    patchMenu (personalisedMenu returningMenu) sampleIdentity ≠
      .ok (personalisedMenu returningMenu) := by
  have characters : returningMenu = _ := congrArg₂ (· ++ ·)
    (congrArg₂ (· ++ ·) String.toList_ofList String.toList_ofList) String.toList_ofList
  rewrite [characters]
  decide +kernel

theorem patchMenu_stable_clean :
    patchMenu (personalisedMenu cleanMenu) sampleIdentity = .ok (personalisedMenu cleanMenu) := by
  have characters : cleanMenu = _ := congrArg₂ (· ++ ·)
    (congrArg₂ (· ++ ·) String.toList_ofList String.toList_ofList) String.toList_ofList
  have patched : patchMenu cleanMenu sampleIdentity = .ok (personalisedMenu cleanMenu) := by
    rewrite [characters]
    decide +kernel
  have clean : NoBareReturn cleanMenu := by
    unfold NoBareReturn
    rewrite [characters]
    decide +kernel
  exact ((patchMenu_stable_iff cleanMenu (personalisedMenu cleanMenu) sampleIdentity sampleIdentity
    (by decide +kernel) patched).1.mpr clean).1

end AiSwitcher.BootMenu
