/-
This file embeds the two lists of what is not worth carrying between hosts, of
`src/sync/rsync.ts`: `TRANSIENT_EXCLUDES`, patterns that a profile sync hands to rsync,
and `isTransientSyncPath`, the tests of a host export on one path. The tests look for
the directories of the one list anywhere in a path and for the file names of the other
at its end; rsync looks for both in every directory above a file, and knows a few
patterns that the tests do not.
-/

import AiSwitcher.Library.Glob
import AiSwitcher.Library.Lines

namespace AiSwitcher.TransientPaths

/-! ### Patterns as rsync reads them -/

/-- The names of an anchored pattern against those of the path, from the root. -/
def acceptsFrom : List (List Char) → List (List Char) → Bool
  | [], _ => true
  | _ :: _, [] => false
  | pattern :: patterns, name :: names =>
      Glob.accepts pattern name && acceptsFrom patterns names

/-- Whether the pattern excludes the file at the path, itself or with a directory above it. A
pattern that ends in a slash is about directories only; one that begins with a slash is matched
from the root on, any other one against single names. -/
def rsyncExcludes (pattern : String) (path : List Char) : Bool :=
  let names := Lines.split '/' path
  let directoriesOnly := pattern.toList.getLast? == some '/'
  let candidates := if directoriesOnly then names.dropLast else names
  let body := if directoriesOnly then pattern.toList.dropLast else pattern.toList
  match body with
  | '/' :: anchored => acceptsFrom (Lines.split '/' anchored) candidates
  | body => candidates.any (Glob.accepts body)

/-! ### The two lists -/

def reproducibleJunkDirNames : List String :=
  ["chrome-profile/", "cache/", "marketplace-cache/", "marketplaces/", "node_modules/", ".git/",
    ".venv/", "__pycache__/", "vendor/", "logs/", "debug/", "downloads/", "worktrees/",
    "computer-use/", "generated_images/", "shell-snapshots/", "shell_snapshots/"]

def transientExcludes : List String :=
  ["*.lock", "*.sock", "*.pid", "*.sqlite-shm", "*.sqlite-wal", "*.sqlite-journal", "*.db-shm",
    "*.db-wal", "*.db-journal", "*.sqlite", "*.db"] ++ reproducibleJunkDirNames ++
  ["backups/", "/.claude/identities/*/sessions/", "remote-settings.json*", "policy-limits.json*",
    "/.codex/identities/*/skills/.system/", "logs_*.sqlite*", "state_*.sqlite*",
    "models_cache.json", "worktrees.db", "active_sessions.json"]

def profileSyncSkips (path : List Char) : Bool :=
  transientExcludes.any (rsyncExcludes · path)

/-- What `.` accepts in a regular expression. -/
def isDot (char : Char) : Bool :=
  char ≠ '\n' && char ≠ '\r' && char ≠ '\u2028' && char ≠ '\u2029'

/-- `/^(?:logs|state)_.*\.sqlite(?:-(?:shm|wal|journal))?$/` -/
def isLiveDatabase (leaf : List Char) : Bool :=
  ["logs_", "state_"].any fun kind =>
    kind.toList.isPrefixOf leaf &&
      [".sqlite", ".sqlite-shm", ".sqlite-wal", ".sqlite-journal"].any fun ending =>
        let rest := leaf.drop kind.toList.length
        ending.toList.isSuffixOf rest &&
          (rest.take (rest.length - ending.toList.length)).all isDot

/-- `/\.(?:gguf|safetensors|onnx|pt|pth)$/i` -/
def isModelWeights (leaf : List Char) : Bool :=
  [".gguf", ".safetensors", ".onnx", ".pt", ".pth"].any fun ending =>
    ending.toList.isSuffixOf (leaf.map Char.toLower)

def transientEndings : List String :=
  ["*.lock", "*.sock", "*.pid", "*.sqlite-shm", "*.sqlite-wal", "*.sqlite-journal", "*.db-shm",
    "*.db-wal", "*.db-journal", "*.sqlite", "*.db"]

def transientNames : List String :=
  ["models_cache.json", "worktrees.db", "active_sessions.json"]

def isTransientSyncPath (path : List Char) : Bool :=
  let parts := Lines.split '/' path
  let leaf := parts.getLast?.getD []
  if parts.any fun part => reproducibleJunkDirNames.any fun name =>
      name.toList.getLast? == some '/' && name.toList.dropLast == part then true
  else if transientEndings.any fun pattern => (pattern.toList.drop 1).isSuffixOf leaf then true
  else if isLiveDatabase leaf then true
  else if transientNames.any fun name => name.toList == leaf then true
  else if isModelWeights leaf then true
  else false

/-! ### What each pattern excludes -/

/-- The directories above the file at a path. -/
def directories (path : List Char) : List (List Char) :=
  (Lines.split '/' path).dropLast

def leaf (path : List Char) : List Char :=
  (Lines.split '/' path).getLast?.getD []

theorem split_eq_append (path : List Char) :
    Lines.split '/' path = directories path ++ [leaf path] := by
  have whole := @Lines.split_eq Char '/' _ path
  rw [directories, leaf, whole, List.dropLast_concat, List.getLast?_concat]
  rfl

/-- A pattern about names. -/
theorem rsyncExcludes_name {pattern : String} (path : List Char)
    (start : pattern.toList.head? ≠ some '/') (ending : pattern.toList.getLast? ≠ some '/') :
    rsyncExcludes pattern path = (Lines.split '/' path).any (Glob.accepts pattern.toList) := by
  have notDirectory : (pattern.toList.getLast? == some '/') = false := beq_eq_false_iff_ne.mpr ending
  rw [rsyncExcludes, notDirectory]
  simp only [Bool.false_eq_true, if_false]
  split
  next anchored body =>
    rw [body] at start
    exact absurd rfl start
  next => rfl

/-- A pattern about the names of directories. -/
theorem rsyncExcludes_directory {pattern : String} (path : List Char) {name : List Char}
    (isPattern : pattern.toList = name ++ ['/']) (start : name.head? ≠ some '/') :
    rsyncExcludes pattern path = (directories path).any (Glob.accepts name) := by
  have directory : (pattern.toList.getLast? == some '/') = true := by
    rw [isPattern, List.getLast?_concat]
    exact beq_self_eq_true _
  have body : pattern.toList.dropLast = name := by rw [isPattern, List.dropLast_concat]
  rw [rsyncExcludes, directory]
  simp only [if_true, body]
  split
  next anchored => exact absurd rfl start
  next => rfl

/-- The name of a file that a pattern of both lists is about. -/
def TransientName (name : List Char) : Prop :=
  (∃ pattern ∈ transientEndings, pattern.toList.drop 1 <:+ name) ∨
    ∃ transient ∈ transientNames, transient.toList = name

/-- `logs_*.sqlite*` and `state_*.sqlite*` -/
def DatabaseName (name : List Char) : Prop :=
  ∃ kind ∈ ["logs_", "state_"], ∃ between, kind.toList ++ between ++ ".sqlite".toList <+: name

/-- `remote-settings.json*` and `policy-limits.json*` -/
def PairedName (name : List Char) : Prop :=
  ∃ pair ∈ ["remote-settings.json", "policy-limits.json"], pair.toList <+: name

def JunkDirectory (name : List Char) : Prop :=
  ∃ junk ∈ reproducibleJunkDirNames, junk.toList.dropLast = name

/-- `/.claude/identities/*/sessions/` and `/.codex/identities/*/skills/.system/` -/
def OfEachHost (above : List (List Char)) : Prop :=
  acceptsFrom [".claude".toList, "identities".toList, "*".toList, "sessions".toList] above = true ∨
    acceptsFrom [".codex".toList, "identities".toList, "*".toList, "skills".toList,
      ".system".toList] above = true

/-- Patterns that each look for something among the same names. -/
theorem any_excludes {patterns : List String} {path : List Char} {names : List (List Char)}
    {wanted : String → List Char → Prop}
    (one : ∀ pattern ∈ patterns, (rsyncExcludes pattern path = true ↔
      ∃ name ∈ names, wanted pattern name)) :
    patterns.any (rsyncExcludes · path) = true ↔
      ∃ name ∈ names, ∃ pattern ∈ patterns, wanted pattern name := by
  rw [List.any_eq_true]
  constructor
  · rintro ⟨pattern, member, excludes⟩
    obtain ⟨name, isName, found⟩ := (one pattern member).mp excludes
    exact ⟨name, isName, pattern, member, found⟩
  · rintro ⟨name, isName, pattern, member, found⟩
    exact ⟨pattern, member, (one pattern member).mpr ⟨name, isName, found⟩⟩

theorem any_transientEndings (path : List Char) :
    transientEndings.any (rsyncExcludes · path) = true ↔
      ∃ name ∈ Lines.split '/' path, ∃ pattern ∈ transientEndings,
        pattern.toList.drop 1 <:+ name := by
  have form : ∀ pattern ∈ transientEndings, pattern.toList.head? = some '*' ∧
      pattern.toList.getLast? ≠ some '/' ∧ '*' ∉ pattern.toList.drop 1 := by decide
  refine any_excludes fun pattern member => ?_
  obtain ⟨star, ending, plain⟩ := form pattern member
  have form : pattern.toList = '*' :: pattern.toList.drop 1 := by
    obtain ⟨rest, whole⟩ := List.head?_eq_some_iff.mp star
    rw [whole]
    rfl
  rw [rsyncExcludes_name path (by rw [star]; decide) ending, List.any_eq_true, form]
  exact exists_congr fun name => and_congr_right fun _ => Glob.accepts_ending plain name

theorem any_reproducibleJunkDirNames (path : List Char) :
    reproducibleJunkDirNames.any (rsyncExcludes · path) = true ↔
      ∃ name ∈ directories path, JunkDirectory name := by
  have form : ∀ junk ∈ reproducibleJunkDirNames, junk.toList.getLast? = some '/' ∧
      junk.toList.head? ≠ some '/' ∧ '*' ∉ junk.toList.dropLast := by decide
  refine any_excludes fun junk member => ?_
  obtain ⟨ending, start, plain⟩ := form junk member
  obtain ⟨name, form⟩ := List.getLast?_eq_some_iff.mp ending
  have isName : junk.toList.dropLast = name := by rw [form, List.dropLast_concat]
  rw [isName] at plain
  have startsName : name.head? ≠ some '/' := by
    intro slash
    obtain ⟨rest, whole⟩ := List.head?_eq_some_iff.mp slash
    rw [form, whole] at start
    exact start rfl
  rw [rsyncExcludes_directory path form startsName, List.any_eq_true, isName]
  refine exists_congr fun other => and_congr_right fun _ => ?_
  rw [Glob.accepts_literal plain]
  exact eq_comm

theorem any_transientNames (path : List Char) :
    transientNames.any (rsyncExcludes · path) = true ↔
      ∃ name ∈ Lines.split '/' path, ∃ transient ∈ transientNames, transient.toList = name := by
  have form : ∀ transient ∈ transientNames, transient.toList.head? ≠ some '/' ∧
      transient.toList.getLast? ≠ some '/' ∧ '*' ∉ transient.toList := by decide
  refine any_excludes fun transient member => ?_
  obtain ⟨start, ending, plain⟩ := form transient member
  rw [rsyncExcludes_name path start ending, List.any_eq_true]
  refine exists_congr fun name => and_congr_right fun _ => ?_
  rw [Glob.accepts_literal plain]
  exact eq_comm

theorem any_paired (path : List Char) :
    ["remote-settings.json*", "policy-limits.json*"].any (rsyncExcludes · path) = true ↔
      ∃ name ∈ Lines.split '/' path, PairedName name := by
  have one (pattern pair : String) (start : pattern.toList.head? ≠ some '/')
      (form : pattern.toList = pair.toList ++ ['*']) (plain : '*' ∉ pair.toList) :
      rsyncExcludes pattern path = true ↔
        ∃ name ∈ Lines.split '/' path, pair.toList <+: name := by
    have ending : pattern.toList.getLast? ≠ some '/' := by
      rw [form, List.getLast?_concat]
      decide
    rw [rsyncExcludes_name path start ending, List.any_eq_true, form]
    exact exists_congr fun name => and_congr_right fun _ => Glob.accepts_beginning plain name
  simp only [List.any_cons, List.any_nil, Bool.or_false, Bool.or_eq_true,
    one "remote-settings.json*" "remote-settings.json" (by decide) rfl (by decide),
    one "policy-limits.json*" "policy-limits.json" (by decide) rfl (by decide), PairedName,
    List.exists_mem_cons_iff, List.not_mem_nil, false_and, exists_false, or_false, and_or_left,
    exists_or]

theorem any_databases (path : List Char) :
    ["logs_*.sqlite*", "state_*.sqlite*"].any (rsyncExcludes · path) = true ↔
      ∃ name ∈ Lines.split '/' path, DatabaseName name := by
  have one (pattern kind : String) (start : pattern.toList.head? ≠ some '/')
      (form : pattern.toList = kind.toList ++ '*' :: (".sqlite".toList ++ ['*']))
      (plain : '*' ∉ kind.toList) :
      rsyncExcludes pattern path = true ↔ ∃ name ∈ Lines.split '/' path,
        ∃ between, kind.toList ++ between ++ ".sqlite".toList <+: name := by
    have ending : pattern.toList.getLast? ≠ some '/' := by
      rw [form, ← List.cons_append, ← List.append_assoc, List.getLast?_concat]
      decide
    rw [rsyncExcludes_name path start ending, List.any_eq_true, form]
    exact exists_congr fun name => and_congr_right fun _ =>
      Glob.accepts_around plain (by decide) name
  simp only [List.any_cons, List.any_nil, Bool.or_false, Bool.or_eq_true,
    one "logs_*.sqlite*" "logs_" (by decide) rfl (by decide),
    one "state_*.sqlite*" "state_" (by decide) rfl (by decide), DatabaseName,
    List.exists_mem_cons_iff, List.not_mem_nil, false_and, exists_false, or_false, and_or_left,
    exists_or]

theorem excludes_backups (path : List Char) :
    rsyncExcludes "backups/" path = true ↔ ∃ name ∈ directories path, name = "backups".toList := by
  rw [@rsyncExcludes_directory "backups/" path "backups".toList rfl (by decide), List.any_eq_true]
  exact exists_congr fun name => and_congr_right fun _ => Glob.accepts_literal (by decide) name

theorem excludes_ofEachHost (path : List Char) :
    ["/.claude/identities/*/sessions/", "/.codex/identities/*/skills/.system/"].any
      (rsyncExcludes · path) = true ↔ OfEachHost (directories path) := by
  rw [List.any_cons, List.any_cons, List.any_nil, Bool.or_false, Bool.or_eq_true]
  rfl

/-- What a profile sync skips. -/
theorem profileSyncSkips_iff (path : List Char) :
    profileSyncSkips path = true ↔
      (∃ name ∈ Lines.split '/' path, TransientName name ∨ DatabaseName name ∨ PairedName name) ∨
        (∃ name ∈ directories path, JunkDirectory name ∨ name = "backups".toList) ∨
          OfEachHost (directories path) := by
  have all : profileSyncSkips path = true ↔ (transientEndings ++ reproducibleJunkDirNames ++
      ["backups/"] ++
        ["/.claude/identities/*/sessions/", "/.codex/identities/*/skills/.system/"] ++
          ["remote-settings.json*", "policy-limits.json*"] ++
            ["logs_*.sqlite*", "state_*.sqlite*"] ++ transientNames).any
              (rsyncExcludes · path) = true := by
    rw [profileSyncSkips, List.any_eq_true, List.any_eq_true]
    refine exists_congr fun pattern => and_congr_left fun _ => ?_
    exact List.Perm.mem_iff (by decide)
  rw [all]
  simp only [List.any_append, Bool.or_eq_true, any_transientEndings, any_reproducibleJunkDirNames,
    any_transientNames, any_paired, any_databases, excludes_ofEachHost, TransientName, and_or_left,
    exists_or]
  rw [List.any_cons, List.any_nil, Bool.or_false, excludes_backups]
  exact Iff.of_eq (by ac_rfl)

/-! ### What the tests on one path find -/

/-- The names of live databases end like other transient names. -/
theorem transientName_of_isLiveDatabase {name : List Char} (live : isLiveDatabase name = true) :
    TransientName name := by
  have known : ∀ ending ∈ [".sqlite", ".sqlite-shm", ".sqlite-wal", ".sqlite-journal"],
      ∃ pattern ∈ transientEndings, pattern.toList.drop 1 = ending.toList := by decide
  rw [isLiveDatabase, List.any_eq_true] at live
  obtain ⟨kind, -, live⟩ := live
  rw [Bool.and_eq_true, List.any_eq_true] at live
  obtain ⟨-, ending, isEnding, live⟩ := live
  obtain ⟨pattern, member, same⟩ := known ending isEnding
  have endsRest := List.isSuffixOf_iff_suffix.mp (Bool.and_eq_true_iff.mp live).1
  exact .inl ⟨pattern, member, same ▸ endsRest.trans (List.drop_suffix _ _)⟩

/-- What a host export skips. -/
theorem isTransientSyncPath_iff (path : List Char) :
    isTransientSyncPath path = true ↔
      (∃ name ∈ Lines.split '/' path, JunkDirectory name) ∨ TransientName (leaf path) ∨
        isModelWeights (leaf path) = true := by
  have junk : ((Lines.split '/' path).any fun part => reproducibleJunkDirNames.any fun name =>
      name.toList.getLast? == some '/' && name.toList.dropLast == part) = true ↔
        ∃ name ∈ Lines.split '/' path, JunkDirectory name := by
    have directory : ∀ name ∈ reproducibleJunkDirNames,
        (name.toList.getLast? == some '/') = true := by decide
    rw [List.any_eq_true]
    refine exists_congr fun part => and_congr_right fun _ => ?_
    rw [List.any_eq_true]
    refine exists_congr fun name => and_congr_right fun member => ?_
    rw [directory name member, Bool.true_and, beq_iff_eq]
  have endings : (transientEndings.any fun pattern =>
      (pattern.toList.drop 1).isSuffixOf (leaf path)) = true ↔
        ∃ pattern ∈ transientEndings, pattern.toList.drop 1 <:+ leaf path := by
    rw [List.any_eq_true]
    exact exists_congr fun pattern => and_congr_right fun _ => List.isSuffixOf_iff_suffix
  have names : (transientNames.any fun name => name.toList == leaf path) = true ↔
      ∃ name ∈ transientNames, name.toList = leaf path := by
    rw [List.any_eq_true]
    exact exists_congr fun name => and_congr_right fun _ => beq_iff_eq
  have tests : isTransientSyncPath path = true ↔
      ((∃ name ∈ Lines.split '/' path, JunkDirectory name) ∨
        (∃ pattern ∈ transientEndings, pattern.toList.drop 1 <:+ leaf path) ∨
          isLiveDatabase (leaf path) = true ∨
            (∃ name ∈ transientNames, name.toList = leaf path) ∨
              isModelWeights (leaf path) = true) := by
    rw [← junk, ← endings, ← names]
    show (if (_ : Bool) = true then _ else if (_ : Bool) = true then _ else
      if (_ : Bool) = true then _ else if (_ : Bool) = true then _ else
        if (_ : Bool) = true then _ else _) = true ↔ _
    split_ifs with first second third fourth fifth
    · exact iff_of_true rfl (.inl first)
    · exact iff_of_true rfl (.inr (.inl second))
    · exact iff_of_true rfl (.inr (.inr (.inl third)))
    · exact iff_of_true rfl (.inr (.inr (.inr (.inl fourth))))
    · exact iff_of_true rfl (.inr (.inr (.inr (.inr fifth))))
    · refine iff_of_false not_false ?_
      rintro (found | found | found | found | found)
      · exact first found
      · exact second found
      · exact third found
      · exact fourth found
      · exact fifth found
  rw [tests]
  constructor
  · rintro (inJunk | ending | live | name | weights)
    · exact .inl inJunk
    · exact .inr (.inl (.inl ending))
    · exact .inr (.inl (transientName_of_isLiveDatabase live))
    · exact .inr (.inl (.inr name))
    · exact .inr (.inr weights)
  · rintro (inJunk | (ending | name) | weights)
    · exact .inl inJunk
    · exact .inr (.inl ending)
    · exact .inr (.inr (.inr (.inl name)))
    · exact .inr (.inr (.inr (.inr weights)))

/-! ### Where the lists drift apart -/

/-- The paths that only the profile sync has a pattern for: a directory that is named like a
transient file, backups, a log or state database under any name, one of a pair of data and
signature, or a directory each host writes for itself. -/
def OnlyProfileSync (path : List Char) : Prop :=
  (∃ name ∈ directories path, TransientName name ∨ name = "backups".toList) ∨
    (∃ name ∈ Lines.split '/' path, DatabaseName name ∨ PairedName name) ∨
      OfEachHost (directories path)

/-- A host export skips what a profile sync skips, exactly on the paths that are not for the
profile sync alone or have a junk directory, a transient file or model weights in them besides. -/
theorem isTransientSyncPath_of_skipped_iff (path : List Char) :
    (profileSyncSkips path = true → isTransientSyncPath path = true) ↔
      (OnlyProfileSync path → (∃ name ∈ Lines.split '/' path, JunkDirectory name) ∨
        TransientName (leaf path) ∨ isModelWeights (leaf path) = true) := by
  rw [isTransientSyncPath_iff, profileSyncSkips_iff, OnlyProfileSync]
  constructor
  · rintro caught (⟨name, member, transient | backups⟩ | ⟨name, member, known⟩ | eachHost)
    · have inPath : name ∈ Lines.split '/' path := by
        rw [split_eq_append]
        exact List.mem_append_left _ member
      exact caught (.inl ⟨name, inPath, .inl transient⟩)
    · exact caught (.inr (.inl ⟨name, member, .inr backups⟩))
    · exact caught (.inl ⟨name, member, .inr known⟩)
    · exact caught (.inr (.inr eachHost))
  · rintro caught (⟨name, member, transient | known⟩ | ⟨name, member, junk | backups⟩ | eachHost)
    · rw [split_eq_append, List.mem_append, List.mem_singleton] at member
      rcases member with inDirectories | rfl
      · exact caught (.inl ⟨name, inDirectories, .inl transient⟩)
      · exact .inr (.inl transient)
    · exact caught (.inr (.inl ⟨name, member, known⟩))
    · refine .inl ⟨name, ?_, junk⟩
      rw [split_eq_append]
      exact List.mem_append_left _ member
    · exact caught (.inl ⟨name, member, .inr backups⟩)
    · exact caught (.inr (.inr eachHost))

/-- A backup inside a profile. -/
theorem isTransientSyncPath_backup :
    profileSyncSkips ".claude/backups/settings.json".toList = true ∧
      isTransientSyncPath ".claude/backups/settings.json".toList = false := by
  decide +kernel

end AiSwitcher.TransientPaths
