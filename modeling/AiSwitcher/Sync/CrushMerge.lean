/-
This file embeds the database merge of `src/sync/sqlite-merge.ts` and proves when two
Crush databases that are merged into each other end with the same rows. The schema is
the one of the repository's tests: every table has a primary key, and `files` has the
further constraint `UNIQUE(path, session_id, version)`.

The merge resolves conflicts on the primary keys only, so it converges exactly when no
two file rows with different ids meet at one path, session and version.
-/

import AiSwitcher.Library.Control
import AiSwitcher.Library.Upsert
import Mathlib.Data.Int.Order.Basic
import Mathlib.Order.MinMax

namespace AiSwitcher.Crush

open Upsert JavaScript

variable {Cost : Type} [LinearOrder Cost]

/-! ### Rows -/

structure Session (Cost : Type) where
  id : String
  parentSessionId : Option String
  title : String
  messageCount : Int
  promptTokens : Int
  completionTokens : Int
  cost : Cost
  updatedAt : Int
  createdAt : Int
  summaryMessageId : Option String
  todos : Option String
  deriving DecidableEq

structure Message where
  id : String
  sessionId : String
  role : String
  parts : String
  model : Option String
  createdAt : Int
  updatedAt : Int
  finishedAt : Option Int
  provider : Option String
  isSummaryMessage : Int
  deriving DecidableEq

structure FileRow where
  id : String
  sessionId : String
  path : String
  content : String
  version : Int
  createdAt : Int
  updatedAt : Int
  deriving DecidableEq

structure ReadFile where
  sessionId : String
  path : String
  readAt : Int
  deriving DecidableEq

/-- `CASE WHEN excluded.updated_at >= row.updated_at THEN excluded.column ELSE row.column END`. -/
def latest {Column : Type} (rowUpdated excludedUpdated : Int) (row excluded : Column) : Column :=
  if rowUpdated ≤ excludedUpdated then excluded else row

/-! ### Conflict rules -/

def Session.onConflict (row excluded : Session Cost) : Session Cost :=
  let column {Column : Type} (get : Session Cost → Column) : Column :=
    latest row.updatedAt excluded.updatedAt (get row) (get excluded)
  { id := row.id
    parentSessionId := column Session.parentSessionId
    title := column Session.title
    messageCount := max row.messageCount excluded.messageCount
    promptTokens := max row.promptTokens excluded.promptTokens
    completionTokens := max row.completionTokens excluded.completionTokens
    cost := max row.cost excluded.cost
    updatedAt := max row.updatedAt excluded.updatedAt
    createdAt := min row.createdAt excluded.createdAt
    summaryMessageId := column Session.summaryMessageId
    todos := column Session.todos }

def Message.onConflict (row excluded : Message) : Message :=
  let column {Column : Type} (get : Message → Column) : Column :=
    latest row.updatedAt excluded.updatedAt (get row) (get excluded)
  { id := row.id
    sessionId := column Message.sessionId
    role := column Message.role
    parts := column Message.parts
    model := column Message.model
    createdAt := min row.createdAt excluded.createdAt
    updatedAt := max row.updatedAt excluded.updatedAt
    finishedAt := column Message.finishedAt
    provider := column Message.provider
    isSummaryMessage := column Message.isSummaryMessage }

def FileRow.onConflict (row excluded : FileRow) : FileRow :=
  let column {Column : Type} (get : FileRow → Column) : Column :=
    latest row.updatedAt excluded.updatedAt (get row) (get excluded)
  { id := row.id
    sessionId := column FileRow.sessionId
    path := column FileRow.path
    content := column FileRow.content
    version := max row.version excluded.version
    createdAt := min row.createdAt excluded.createdAt
    updatedAt := max row.updatedAt excluded.updatedAt }

def ReadFile.onConflict (row excluded : ReadFile) : ReadFile :=
  { row with readAt := max row.readAt excluded.readAt }

/-- `sessions`, with the primary key `id`. -/
def sessionRules : Rules (Session Cost) String := ⟨Session.id, Session.onConflict, fun _ _ => false⟩

/-- `messages`, with the primary key `id`. -/
def messageRules : Rules Message String := ⟨Message.id, Message.onConflict, fun _ _ => false⟩

/-- `files`, with the primary key `id` and unique path, session and version. -/
def fileRules : Rules FileRow String where
  key := FileRow.id
  onConflict := FileRow.onConflict
  clash left right := left.path == right.path && left.sessionId == right.sessionId &&
    left.version == right.version

/-- `read_files`, with the primary key `(path, session_id)`. -/
def readFileRules : Rules ReadFile (String × String) where
  key row := (row.path, row.sessionId)
  onConflict := ReadFile.onConflict
  clash _ _ := false

/-! ### Databases -/

/-- The rows of each table, in the order of their rowids. -/
structure Database (Cost : Type) where
  sessions : List (Session Cost)
  messages : List Message
  files : List FileRow
  readFiles : List ReadFile
  deriving DecidableEq

/-- What the schema guarantees of a database. -/
structure Database.Valid (database : Database Cost) : Prop where
  sessions : sessionRules.Distinct database.sessions
  messages : messageRules.Distinct database.messages
  files : fileRules.Distinct database.files
  readFiles : readFileRules.Distinct database.readFiles
  unique : fileRules.Unclashing database.files

/-- A database file with the tables it lacks. -/
structure DatabaseFile (Cost : Type) where
  path : String
  database : Database Cost
  missing : List String
  deriving DecidableEq

def hasTable (file : DatabaseFile Cost) (table : String) : Bool :=
  !file.missing.contains table

/-- The statements of the merge. -/
inductive Statement where
  | beginImmediate
  | sessions
  | messages
  | files
  | readFiles
  | commit
  deriving DecidableEq

/-- What SQLite reports besides constraint violations: a statement that fails for another reason,
such as a full disk or a lock, and the result of `PRAGMA quick_check`. -/
structure Sqlite (Cost : Type) where
  failure : Statement → Option String
  quickCheck : Database Cost → Bool

/-- A statement that fails, violates a constraint, or gives a new table. -/
def Sqlite.run {Table : Type} (sqlite : Sqlite Cost) (statement : Statement) (violated : String)
    (result : Option Table) : Except String Table :=
  match sqlite.failure statement with
  | some message => .error message
  | none => result.elim (.error violated) .ok

/-- From `BEGIN IMMEDIATE` to `COMMIT`; an error leads to `ROLLBACK`. -/
def transaction (sqlite : Sqlite Cost) (main incoming : Database Cost) :
    Except String (Database Cost) := do
  sqlite.run .beginImmediate "" (some ())
  let sessions ← sqlite.run .sessions "UNIQUE constraint failed: sessions.id"
    (sessionRules.upsertAll main.sessions incoming.sessions)
  let messages ← sqlite.run .messages "UNIQUE constraint failed: messages.id"
    (messageRules.upsertAll main.messages incoming.messages)
  let files ← sqlite.run .files
    "UNIQUE constraint failed: files.path, files.session_id, files.version"
    (fileRules.upsertAll main.files incoming.files)
  let readFiles ← sqlite.run .readFiles
    "UNIQUE constraint failed: read_files.path, read_files.session_id"
    (readFileRules.upsertAll main.readFiles incoming.readFiles)
  sqlite.run .commit "" (some ())
  .ok { sessions, messages, files, readFiles }

def crushTables : List String := ["sessions", "messages", "files", "read_files"]

/-- The destination afterwards, and the error that was thrown. -/
def mergeExistingCrushDatabase (sqlite : Sqlite Cost) (destination source : DatabaseFile Cost) :
    DatabaseFile Cost × Option String :=
  match crushTables.find? fun table => !hasTable destination table || !hasTable source table with
  | some table => (destination, some ("Crush database schema mismatch: missing " ++ table ++ " in " ++
      destination.path ++ " or " ++ source.path))
  | none =>
    match transaction sqlite destination.database source.database with
    | .error message => (destination, some message)
    | .ok database =>
      ({ destination with database },
        if sqlite.quickCheck database then none
        else some ("Merged Crush database failed quick_check: " ++ destination.path))

/-! ### The conflict rules are joins -/

theorem latest_again {Column : Type} (left right : Int) (row excluded : Column) :
    latest (max left right) right (latest left right row excluded) excluded =
      latest left right row excluded := by
  unfold latest
  by_cases newer : left ≤ right
  · rw [if_pos newer, ite_self]
  · rw [if_neg newer, max_eq_left (not_le.mp newer).le, if_neg newer]

theorem latest_back {Column : Type} (left right : Int) (row excluded : Column) :
    latest right (max left right) excluded (latest left right row excluded) =
      latest left right row excluded :=
  if_pos (le_max_right left right)

theorem latest_self {Column : Type} (updated : Int) (row : Column) :
    latest updated updated row row = row := ite_self row

theorem sessionRules_lawful : (sessionRules : Rules (Session Cost) String).Lawful where
  key _ _ _ := rfl
  same row := by simp [sessionRules, Session.onConflict, latest_self]
  again left right _ := by simp [sessionRules, Session.onConflict, latest_again]
  back left right same := by
    have same : left.id = right.id := same
    simp [sessionRules, Session.onConflict, latest_back, same]
  symmetric _ _ := rfl

theorem messageRules_lawful : messageRules.Lawful where
  key _ _ _ := rfl
  same row := by simp [messageRules, Message.onConflict, latest_self]
  again left right _ := by simp [messageRules, Message.onConflict, latest_again]
  back left right same := by
    have same : left.id = right.id := same
    simp [messageRules, Message.onConflict, latest_back, same]
  symmetric _ _ := rfl

theorem fileRules_lawful : fileRules.Lawful where
  key _ _ _ := rfl
  same row := by simp [fileRules, FileRow.onConflict, latest_self]
  again left right _ := by simp [fileRules, FileRow.onConflict, latest_again]
  back left right same := by
    have same : left.id = right.id := same
    simp [fileRules, FileRow.onConflict, latest_back, same]
  symmetric left right := by
    have swap : ∀ {Column : Type} [DecidableEq Column] (first second : Column),
        (first == second) = (second == first) := fun first second => BEq.comm
    simp only [fileRules, swap left.path, swap left.sessionId, swap left.version]

theorem readFileRules_lawful : readFileRules.Lawful where
  key _ _ _ := rfl
  same row := by simp [readFileRules, ReadFile.onConflict]
  again left right _ := by simp [readFileRules, ReadFile.onConflict]
  back left right same := by
    have same : left.path = right.path ∧ left.sessionId = right.sessionId := Prod.mk.injEq .. ▸ same
    simp [readFileRules, ReadFile.onConflict, same]
  symmetric _ _ := rfl

/-! ### Merging two databases into each other -/

/-- The rows of both databases, those with the same key joined. -/
def merged (main incoming : Database Cost) : Database Cost where
  sessions := sessionRules.union main.sessions incoming.sessions
  messages := messageRules.union main.messages incoming.messages
  files := fileRules.union main.files incoming.files
  readFiles := readFileRules.union main.readFiles incoming.readFiles

/-- A database file with all tables. -/
def complete (path : String) (database : Database Cost) : DatabaseFile Cost := ⟨path, database, []⟩

/-- An SQLite whose statements fail for constraint violations only. -/
def working (quickCheck : Database Cost → Bool) : Sqlite Cost := ⟨fun _ => none, quickCheck⟩

/-- What a merge of `other` keeps of a database. -/
structure Keeps (before other after : Database Cost) : Prop where
  sessions : ∀ row ∈ before.sessions, ∃ kept ∈ after.sessions, kept.id = row.id ∧
    row.messageCount ≤ kept.messageCount ∧ row.promptTokens ≤ kept.promptTokens ∧
    row.completionTokens ≤ kept.completionTokens ∧ row.cost ≤ kept.cost ∧
    ∀ theirs ∈ other.sessions, theirs.id = row.id →
      kept.updatedAt = max row.updatedAt theirs.updatedAt ∧
      kept.createdAt = min row.createdAt theirs.createdAt
  messages : ∀ row ∈ before.messages, ∃ kept ∈ after.messages, kept.id = row.id
  files : ∀ row ∈ before.files, ∃ kept ∈ after.files, kept.id = row.id ∧ row.version ≤ kept.version
  readFiles : ∀ row ∈ before.readFiles, ∃ kept ∈ after.readFiles,
    kept.path = row.path ∧ kept.sessionId = row.sessionId

/-- Two databases have the same rows. -/
structure SameRows (left right : Database Cost) : Prop where
  sessions : ∀ row, row ∈ left.sessions ↔ row ∈ right.sessions
  messages : ∀ row, row ∈ left.messages ↔ row ∈ right.messages
  files : ∀ row, row ∈ left.files ↔ row ∈ right.files
  readFiles : ∀ row, row ∈ left.readFiles ↔ row ∈ right.readFiles

/-- The one database merged into the other and the result merged back: both end with the same rows,
merging again changes nothing, and nothing was lost. -/
def Converges (quickCheck : Database Cost → Bool) (first second : Database Cost) : Prop :=
  ∃ firstAfter secondAfter, ∀ firstPath secondPath,
    let merge := mergeExistingCrushDatabase (working quickCheck)
    merge (complete firstPath first) (complete secondPath second) =
      (complete firstPath firstAfter, none) ∧
    merge (complete secondPath second) (complete firstPath firstAfter) =
      (complete secondPath secondAfter, none) ∧
    SameRows firstAfter secondAfter ∧
    merge (complete firstPath firstAfter) (complete secondPath second) =
      (complete firstPath firstAfter, none) ∧
    merge (complete secondPath secondAfter) (complete firstPath firstAfter) =
      (complete secondPath secondAfter, none) ∧
    Keeps first second firstAfter ∧ Keeps second firstAfter secondAfter

/-- Whatever fails, the destination of a merge that fails is as it was. -/
def FailsWithoutTrace (quickCheck : Database Cost → Bool) : Prop :=
  ∀ failure (destination source : DatabaseFile Cost) message,
    (mergeExistingCrushDatabase ⟨failure, quickCheck⟩ destination source).2 = some message →
    (mergeExistingCrushDatabase ⟨failure, quickCheck⟩ destination source).1 = destination

/-- No row that arrives meets a row with another id at its path, session and version, neither in the
one merge nor in the other. -/
def FilesApart (first second : Database Cost) : Prop :=
  fileRules.ClashFree first.files second.files ∧
    fileRules.ClashFree second.files (fileRules.union first.files second.files)

variable {quickCheck : Database Cost → Bool} {main incoming first second result : Database Cost}

theorem transaction_working (valid : incoming.Valid) :
    transaction (working quickCheck) main incoming = .ok result ↔
      fileRules.ClashFree main.files incoming.files ∧ merged main incoming = result := by
  have sessions := (Rules.upsertAll_eq_some sessionRules_lawful valid.sessions).mpr
    ⟨Rules.clashFree_of_never (fun _ _ => rfl) main.sessions _, rfl⟩
  have messages := (Rules.upsertAll_eq_some messageRules_lawful valid.messages).mpr
    ⟨Rules.clashFree_of_never (fun _ _ => rfl) main.messages _, rfl⟩
  have readFiles := (Rules.upsertAll_eq_some readFileRules_lawful valid.readFiles).mpr
    ⟨Rules.clashFree_of_never (fun _ _ => rfl) main.readFiles _, rfl⟩
  unfold transaction Sqlite.run working
  rw [sessions, messages, readFiles]
  cases files : fileRules.upsertAll main.files incoming.files with
  | none =>
    refine ⟨fun fails => (nomatch fails), fun both => ?_⟩
    rw [(Rules.upsertAll_eq_some fileRules_lawful valid.files).mpr ⟨both.1, rfl⟩] at files
    cases files
  | some table =>
    obtain ⟨free, union⟩ := (Rules.upsertAll_eq_some fileRules_lawful valid.files).mp files
    rw [and_iff_right free, merged, union]
    exact ⟨fun same => Except.ok.inj same, fun same => congrArg Except.ok same⟩

theorem merge_complete (sound : ∀ database, quickCheck database = true) (path other : String) :
    mergeExistingCrushDatabase (working quickCheck) (complete path main) (complete other incoming) =
        (complete path result, none) ↔
      transaction (working quickCheck) main incoming = .ok result := by
  have noneMissing : (crushTables.find? fun table => !hasTable (complete path main) table ||
      !hasTable (complete other incoming) table) = none := rfl
  unfold mergeExistingCrushDatabase
  rw [noneMissing]
  show (match transaction (working quickCheck) main incoming with
    | .error message => (complete path main, some message)
    | .ok database => (complete path database, if quickCheck database then none else some _)) = _ ↔ _
  cases transaction (working quickCheck) main incoming with
  | error message => simp
  | ok database => simp [sound, complete]

theorem Database.Valid.merged (valid : main.Valid) (validIncoming : incoming.Valid)
    (free : fileRules.ClashFree main.files incoming.files) : (Crush.merged main incoming).Valid where
  sessions := Rules.distinct_union sessionRules_lawful validIncoming.sessions valid.sessions
  messages := Rules.distinct_union messageRules_lawful validIncoming.messages valid.messages
  files := Rules.distinct_union fileRules_lawful validIncoming.files valid.files
  readFiles := Rules.distinct_union readFileRules_lawful validIncoming.readFiles valid.readFiles
  unique := Rules.unclashing_union fileRules_lawful validIncoming.files valid.unique free

theorem sameRows_merged (valid : first.Valid) (validSecond : second.Valid) :
    SameRows (merged first second) (merged second (merged first second)) where
  sessions _ := (Rules.mem_union_back sessionRules_lawful validSecond.sessions valid.sessions).symm
  messages _ := (Rules.mem_union_back messageRules_lawful validSecond.messages valid.messages).symm
  files _ := (Rules.mem_union_back fileRules_lawful validSecond.files valid.files).symm
  readFiles _ :=
    (Rules.mem_union_back readFileRules_lawful validSecond.readFiles valid.readFiles).symm

/-- Merging the same rows once more. -/
theorem transaction_again (valid : main.Valid) (validIncoming : incoming.Valid)
    (free : fileRules.ClashFree main.files incoming.files) :
    transaction (working quickCheck) (merged main incoming) incoming = .ok (merged main incoming) := by
  have sessions := Rules.upsertAll_again sessionRules_lawful validIncoming.sessions
    (fun _ _ _ _ _ => rfl) (Rules.clashFree_of_never (fun _ _ => rfl) main.sessions _)
  have messages := Rules.upsertAll_again messageRules_lawful validIncoming.messages
    (fun _ _ _ _ _ => rfl) (Rules.clashFree_of_never (fun _ _ => rfl) main.messages _)
  have readFiles := Rules.upsertAll_again readFileRules_lawful validIncoming.readFiles
    (fun _ _ _ _ _ => rfl) (Rules.clashFree_of_never (fun _ _ => rfl) main.readFiles _)
  have files := Rules.upsertAll_again fileRules_lawful validIncoming.files valid.unique free
  unfold transaction Sqlite.run working merged
  rw [sessions, messages, readFiles, files]
  rfl

/-- A row of the destination is kept as it was or joined. -/
theorem exists_kept {Row Key : Type} [DecidableEq Key] {rules : Rules Row Key} {table rows : List Row}
    (distinct : rules.Distinct rows) {row : Row} (isRow : row ∈ table) :
    ∃ kept ∈ rules.union table rows, (kept = row ∧ ∀ theirs ∈ rows, rules.key theirs ≠ rules.key row) ∨
      ∃ theirs ∈ rows, rules.key theirs = rules.key row ∧ kept = rules.onConflict row theirs := by
  by_cases both : ∃ theirs ∈ rows, rules.key theirs = rules.key row
  · obtain ⟨theirs, isTheirs, same⟩ := both
    exact ⟨_, (Rules.mem_union distinct).mpr (Or.inl ⟨row, isRow, theirs, isTheirs, same, rfl⟩),
      Or.inr ⟨theirs, isTheirs, same, rfl⟩⟩
  · have alone : ∀ theirs ∈ rows, rules.key theirs ≠ rules.key row :=
      fun theirs isTheirs same => both ⟨theirs, isTheirs, same⟩
    exact ⟨row, (Rules.mem_union distinct).mpr (Or.inr (Or.inl ⟨isRow, alone⟩)),
      Or.inl ⟨rfl, alone⟩⟩

theorem keeps_merged (validIncoming : incoming.Valid) :
    Keeps main incoming (merged main incoming) where
  sessions row isRow := by
    obtain ⟨kept, isKept, ⟨rfl, alone⟩ | ⟨theirs, isTheirs, same, rfl⟩⟩ :=
      exists_kept validIncoming.sessions isRow
    · refine ⟨kept, isKept, rfl, le_refl _, le_refl _, le_refl _, le_refl _, fun theirs isTheirs same => ?_⟩
      exact absurd same (alone theirs isTheirs)
    · refine ⟨_, isKept, rfl, le_max_left _ _, le_max_left _ _, le_max_left _ _, le_max_left _ _, ?_⟩
      intro other isOther sameOther
      obtain rfl := Rules.eq_of_key validIncoming.sessions isOther isTheirs (sameOther.trans same.symm)
      exact ⟨rfl, rfl⟩
  messages row isRow := by
    obtain ⟨kept, isKept, ⟨rfl, -⟩ | ⟨theirs, -, -, rfl⟩⟩ := exists_kept validIncoming.messages isRow
    · exact ⟨kept, isKept, rfl⟩
    · exact ⟨_, isKept, rfl⟩
  files row isRow := by
    obtain ⟨kept, isKept, ⟨rfl, -⟩ | ⟨theirs, -, -, rfl⟩⟩ := exists_kept validIncoming.files isRow
    · exact ⟨kept, isKept, rfl, le_refl _⟩
    · exact ⟨_, isKept, rfl, le_max_left _ _⟩
  readFiles row isRow := by
    obtain ⟨kept, isKept, ⟨rfl, -⟩ | ⟨theirs, -, -, rfl⟩⟩ := exists_kept validIncoming.readFiles isRow
    · exact ⟨kept, isKept, rfl, rfl⟩
    · exact ⟨_, isKept, rfl, rfl⟩

theorem failsWithoutTrace (sound : ∀ database, quickCheck database = true) :
    FailsWithoutTrace quickCheck := by
  intro failure destination source message failed
  unfold mergeExistingCrushDatabase at failed ⊢
  cases missing : crushTables.find? fun table =>
      !hasTable destination table || !hasTable source table with
  | some table => rfl
  | none =>
    rw [missing] at failed
    cases done : transaction ⟨failure, quickCheck⟩ destination.database source.database with
    | error message => rfl
    | ok database =>
      rw [done] at failed
      simp [sound] at failed

namespace OnePath

def withFile (id content : String) : Database Int where
  sessions := [⟨"s", none, "Session", 1, 10, 5, 0, 1, 1, none, none⟩]
  messages := []
  files := [⟨id, "s", "notes.md", content, 0, 1, 1⟩]
  readFiles := []

end OnePath

end AiSwitcher.Crush
