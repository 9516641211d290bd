/-
This file embeds `classify` of `src/live/path-classes.ts`, which gives the files of a home
directory their classes on the drive, and compares it with `classifyPath` of the host, which does
the same on a computer. Both read one table of rules, and each has the code around it written on
its own: the host also refuses names that not every file system can store and the files of models,
and a member that every object inherits is found in the tables of the drive.
-/

import AiSwitcher.Exchange.Contract
import AiSwitcher.Library.Lists
import AiSwitcher.Shared.SpendValue

namespace AiSwitcher.Live

open JavaScript
open Exchange (PathClass pathParts below safeComponent safeRelativePath classifyPath)
open SpendValue (inheritedMembers)

/-- What `classify` returns: a class, `"ignore"`, or an inherited member of a table, which is no
text at all. -/
inductive LivePathClass where
  | known (pathClass : PathClass)
  | ignore
  | inherited
  deriving DecidableEq

/-- `text.includes(part)` -/
def includes (text part : String) : Bool :=
  text.toList.tails.any part.toList.isPrefixOf

/-- `table[name]`, where that is no `undefined`. -/
def memberOf (table : List (String × PathClass)) (name : String) : Option LivePathClass :=
  match table.lookup name with
  | some pathClass => some (.known pathClass)
  | none => if inheritedMembers.contains name then some .inherited else none

def cleanPath (path : String) : Option String :=
  if path == "" || (path.toList.any fun character => character.toNat == 92) ||
      startsWith path "/" || (path.toList.any fun character => character.toNat == 0) then none
  else
    let parts := pathParts path
    if parts.any fun part => part == "" || part == "." || part == ".." then none
    else some (.ofList (List.intercalate ['/'] (parts.map String.toList)))

/-- The class of a path below the root of a tool. -/
def classifyBelow (root relative : String) : LivePathClass :=
  let parts := pathParts relative
  let identityRoot := parts.head? == some "identities" && 3 ≤ parts.length
  let configDirRelative := if identityRoot then parts.drop 2 else parts
  let leaf := parts.getLast?.getD relative
  if Exchange.PathRules.authNames.contains leaf && (identityRoot || parts.length ≤ 2) then
    .known .auth
  else if root == ".opencode" &&
      (relative == "data/opencode/auth.json" || relative == "opencode/auth.json") then .known .auth
  else if root == ".kimi-code" && identityRoot &&
      endsWith relative "/credentials/kimi-code.json" then .known .auth
  else if root == ".zai" && leaf == "crush.json" && (identityRoot || parts.length ≤ 2) then
    .known .auth
  else if root == ".ali" && leaf == "console-cookie.txt" &&
      (identityRoot || parts.length ≤ 2) then .known .auth
  else if identityRoot && leaf == "identities.json" then .known .configIdentity
  else if identityRoot && Exchange.PathRules.identityConfigNames.contains leaf then
    .known (if leaf == "identities.json" then .configIdentity else .configSettings)
  else if identityRoot && (includes relative "/plugins/" || startsWith relative "plugins/") then
    .known .configPlugins
  else if Exchange.PathRules.pluginDirectories.any (fun directory =>
      (identityRoot && configDirRelative.contains directory) || below directory relative) then
    .known .configPlugins
  else if (configDirRelative.any fun part => Exchange.PathRules.logDirectories.contains part) &&
      (identityRoot || [".claude", ".codex", ".grok", ".kimi-code", ".pi"].contains root) then
    .known .logs
  else if root == ".pi" && startsWith relative "agent/sessions/" then .known .logs
  else .ignore

/-- The class of a path in its normal form. -/
def classifyNormal (normal : String) : LivePathClass :=
  if Exchange.PathRules.protectedPaths.contains normal then .ignore
  else if normal == Exchange.PathRules.sshRoot || below Exchange.PathRules.sshRoot normal then
    .known .ssh
  else if Exchange.PathRules.identityRegistryPaths.contains normal then .known .configIdentity
  else
    (memberOf Exchange.PathRules.configPaths normal).getD <|
    if Exchange.PathRules.sharedLogDirectories.any (below · normal) then .known .logs
    else if Exchange.PathRules.sharedConfigDirectories.any (below · normal) then
      .known .configSettings
    else if Exchange.PathRules.authPaths.contains normal then .known .auth
    else
      (memberOf Exchange.PathRules.rootConfigPaths normal).getD <|
      match Exchange.PathRules.toolRoots.find? (below · normal) with
      | none => .ignore
      | some root => classifyBelow root (sliceFrom normal (root.length + 1))

def classify (path : String) : LivePathClass :=
  match cleanPath path with
  | none => .ignore
  | some normal => classifyNormal normal

/-! ### The same classes on both sides -/

/-- A class of the host, on the drive. -/
def LivePathClass.ofHost : Option PathClass → LivePathClass
  | some pathClass => .known pathClass
  | none => .ignore

theorem includes_eq_true_iff (text part : String) :
    includes text part = true ↔ part.toList <:+: text.toList := by
  simp only [includes, List.any_eq_true, List.mem_tails, List.isPrefixOf_iff_prefix,
    List.infix_iff_prefix_suffix]
  exact exists_congr fun _ => and_comm

/-- The host looks for a part that is followed by another one. -/
theorem contains_dropLast_pathParts (relative : String) :
    (pathParts relative).dropLast.contains "plugins" =
      (includes relative "/plugins/" || startsWith relative "plugins/") := by
  have whole : '/' ∉ "plugins".toList := by decide
  have member : (pathParts relative).dropLast.contains "plugins" = true ↔
      "plugins".toList ∈ (relative.toList.splitOn '/').dropLast := by
    rw [List.contains_iff_mem, pathParts, ← List.map_dropLast, List.mem_map]
    constructor
    · rintro ⟨part, isPart, named⟩
      rwa [← named, String.toList_ofList]
    · exact fun isPart => ⟨_, isPart, String.ofList_toList⟩
  rw [Bool.eq_iff_iff, member, List.mem_dropLast_splitOn_iff whole, Bool.or_eq_true,
    includes_eq_true_iff, startsWith, List.isPrefixOf_iff_prefix, or_comm]
  rfl

theorem classifyBelow_eq (root relative : String) :
    classifyBelow root relative = .ofHost (Exchange.classifyRelative root relative) := by
  have merged (first second : Bool) (rest : LivePathClass) :
      (if first then .known .configPlugins else if second then .known .configPlugins else rest) =
        if first || second then .known .configPlugins else rest := by
    cases first <;> rfl
  have listed : (relative == "data/opencode/auth.json" || relative == "opencode/auth.json") =
      ["data/opencode/auth.json", "opencode/auth.json"].contains relative := by
    simp only [List.contains_cons, List.contains_nil, Bool.or_false]
  simp only [classifyBelow, Exchange.classifyRelative, ← contains_dropLast_pathParts, merged, listed,
    apply_ite LivePathClass.ofHost]
  rfl

/-- The files of models, which the host leaves to the drive's own storage. -/
def isModelFile (path : String) : Bool :=
  let leaf := (pathParts path).getLast?.getD path
  [".gguf", ".safetensors", ".onnx", ".pt", ".pth"].any fun ending =>
    endsWith (.ofList (leaf.toList.map Char.toLower)) ending

/-- What the host does with a path that it can store. -/
def hostClass (path : String) : Option PathClass :=
  if Exchange.PathRules.protectedPaths.contains path then none
  else if path == Exchange.PathRules.sshRoot || below Exchange.PathRules.sshRoot path then some .ssh
  else if Exchange.PathRules.identityRegistryPaths.contains path then some .configIdentity
  else
    (Exchange.PathRules.configPaths.lookup path).or <|
    if Exchange.PathRules.sharedLogDirectories.any (below · path) then some .logs
    else if Exchange.PathRules.sharedConfigDirectories.any (below · path) then some .configSettings
    else if Exchange.PathRules.authPaths.contains path then some .auth
    else
      (Exchange.PathRules.rootConfigPaths.lookup path).or <|
      match Exchange.PathRules.toolRoots.find? (below · path) with
      | some root => Exchange.classifyRelative root (sliceFrom path (root.length + 1))
      | none => none

theorem classifyPath_eq (path : String) : classifyPath path =
    if !safeRelativePath path then none else if isModelFile path then none else hostClass path :=
  rfl

theorem classifyPath_eq_some_iff {path : String} {pathClass : PathClass} :
    classifyPath path = some pathClass ↔ safeRelativePath path = true ∧ isModelFile path = false ∧
      hostClass path = some pathClass := by
  rw [classifyPath_eq]
  cases safeRelativePath path <;> cases isModelFile path <;> simp

theorem getD_memberOf {table : List (String × PathClass)} {path : String}
    (own : path ∉ inheritedMembers) (rest : Option PathClass) :
    (memberOf table path).getD (.ofHost rest) = .ofHost ((table.lookup path).or rest) := by
  rw [memberOf]
  cases table.lookup path with
  | some pathClass => rfl
  | none => rw [if_neg (by simpa using own)]; rfl

theorem classifyNormal_eq {path : String} (own : path ∉ inheritedMembers) :
    classifyNormal path = .ofHost (hostClass path) := by
  have below : (match Exchange.PathRules.toolRoots.find? (below · path) with
      | none => LivePathClass.ignore
      | some root => classifyBelow root (sliceFrom path (root.length + 1))) =
      .ofHost (match Exchange.PathRules.toolRoots.find? (below · path) with
        | some root => Exchange.classifyRelative root (sliceFrom path (root.length + 1))
        | none => none) := by
    cases Exchange.PathRules.toolRoots.find? (below · path) with
    | none => rfl
    | some root => exact classifyBelow_eq root _
  simp only [classifyNormal, hostClass, apply_ite LivePathClass.ofHost, ← getD_memberOf own, ← below]
  rfl

/-- The path of the parts of a path. -/
theorem ofList_intercalate_pathParts (path : String) :
    String.ofList (List.intercalate ['/'] ((pathParts path).map String.toList)) = path := by
  have parts : (pathParts path).map String.toList = path.toList.splitOn '/' := by
    rw [pathParts, List.map_map]
    exact List.map_id'' (fun part => String.toList_ofList) _
  rw [parts, List.intercalate_splitOn, String.ofList_toList]

theorem eq_of_cleanPath {path normal : String} (clean : cleanPath path = some normal) :
    normal = path := by
  rw [cleanPath] at clean
  dsimp only at clean
  split_ifs at clean
  rw [← Option.some.inj clean, ofList_intercalate_pathParts]

theorem cleanPath_of_safe {path : String} (safe : safeRelativePath path = true) :
    cleanPath path = some path := by
  simp only [safeRelativePath, Bool.and_eq_true, bne_iff_ne, Bool.not_eq_true', List.any_eq_false,
    List.all_eq_true, Bool.or_eq_true, beq_iff_eq, not_or] at safe
  obtain ⟨⟨⟨present, relative⟩, plain⟩, safeParts⟩ := safe
  have noBackslash : (path.toList.any fun character => character.toNat == 92) = false :=
    List.any_eq_false.mpr fun character member => by simpa using (plain character member).1
  have noNull : (path.toList.any fun character => character.toNat == 0) = false :=
    List.any_eq_false.mpr fun character member => by simpa using (plain character member).2
  have named : ((pathParts path).any fun part => part == "" || part == "." || part == "..") =
      false := by
    refine List.any_eq_false.mpr fun part member => ?_
    have isSafe := safeParts part member
    simp only [safeComponent, Bool.and_eq_true, bne_iff_ne] at isSafe
    simp [isSafe]
  rw [cleanPath, noBackslash, noNull, relative, beq_false_of_ne present]
  dsimp only
  rw [named, ofList_intercalate_pathParts]
  rfl

theorem ofHost_ne_inherited (pathClass : Option PathClass) :
    LivePathClass.ofHost pathClass ≠ .inherited := by
  cases pathClass <;> exact LivePathClass.noConfusion

theorem ofHost_eq_known_iff {pathClass : Option PathClass} {known : PathClass} :
    LivePathClass.ofHost pathClass = .known known ↔ pathClass = some known := by
  cases pathClass <;> simp [LivePathClass.ofHost]

theorem classify_inherited : ∀ name ∈ inheritedMembers,
    classify name = .inherited ∧ classifyPath name = none := by
  decide +kernel

/-- Of a path that is no inherited member, the drive knows what the host does, if the path is in its
normal form. -/
theorem classify_eq {path : String} (own : path ∉ inheritedMembers) :
    classify path = if cleanPath path = some path then .ofHost (hostClass path) else .ignore := by
  rw [classify]
  cases clean : cleanPath path with
  | none => rfl
  | some normal =>
    obtain rfl := eq_of_cleanPath clean
    rw [if_pos rfl, ← classifyNormal_eq own]

/-- The drive gives a path the class that the host gives it. -/
theorem classify_of_classifyPath {path : String} {pathClass : PathClass}
    (isClass : classifyPath path = some pathClass) : classify path = .known pathClass := by
  have own : path ∉ inheritedMembers := by
    intro member
    rw [(classify_inherited path member).2] at isClass
    exact Option.some_ne_none _ isClass.symm
  obtain ⟨safe, -, isHost⟩ := classifyPath_eq_some_iff.mp isClass
  rw [classify_eq own, if_pos (cleanPath_of_safe safe), isHost]
  rfl

/-- Both sides give a path the same class. The host gives one to those of the drive's paths that
it can store and that are no files of models, and the drive gives none that the host does not have,
except to the inherited members. -/
theorem classify_agrees (path : String) :
    (∀ pathClass, classifyPath path = some pathClass ↔ classify path = .known pathClass ∧
      safeRelativePath path = true ∧ isModelFile path = false) ∧
    (classify path = .inherited ↔ path ∈ inheritedMembers) := by
  by_cases own : path ∈ inheritedMembers
  · obtain ⟨isInherited, noClass⟩ := classify_inherited path own
    refine ⟨fun pathClass => ?_, iff_of_true isInherited own⟩
    rw [isInherited, noClass]
    exact iff_of_false (Option.some_ne_none _).symm fun both => LivePathClass.noConfusion both.1
  · rw [classify_eq own]
    refine ⟨fun pathClass => ?_, iff_of_false (fun same => ?_) own⟩
    · constructor
      · intro isClass
        obtain ⟨safe, plain, -⟩ := classifyPath_eq_some_iff.mp isClass
        exact ⟨classify_eq own ▸ classify_of_classifyPath isClass, safe, plain⟩
      · rintro ⟨isClass, safe, plain⟩
        rw [if_pos (cleanPath_of_safe safe)] at isClass
        exact classifyPath_eq_some_iff.mpr ⟨safe, plain, ofHost_eq_known_iff.mp isClass⟩
    · split_ifs at same
      exact ofHost_ne_inherited _ same

end AiSwitcher.Live
