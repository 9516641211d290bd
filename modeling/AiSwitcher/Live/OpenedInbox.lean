/-
This file connects the drive's reader of bundles to the application of an inbox. What the reader
lets pass is an inbox as `applyInbox` takes it: a positive sequence number, and for every entry of
the manifest one content of the listed size and digest under a path of its own, which is safe and
of the entry's class. Nothing in the archive stays without an entry.
-/

import AiSwitcher.Live.BundleReads
import AiSwitcher.Live.Inbox

namespace AiSwitcher.LiveBundle

open JavaScript
open Utf8 (Bytes)
open Exchange (BundleKind PathClass)
open Live (Payload classify)

/-- A content, by the class of its path. -/
def payloadOf : PathClass → Bytes → Payload Bytes
  | .auth, content => .auth content
  | .logs, content => .logs content
  | .ssh, content => .ssh content
  | .configSettings, content | .configPlugins, content | .configIdentity, content => .config content

/-- The path and the class of an entry, and its content, if it has one. -/
def entryPayload (files : Members Bytes) (entry : Json) : Option (String × Payload Bytes) :=
  match property entry "path" with
  | some (.str path) =>
      match classify path with
      | .known pathClass => (files.get path).map fun content => (path, payloadOf pathClass content)
      | _ => none
  | _ => none

/-- `bundle.manifest.entries` -/
def Bundle.manifestEntries (bundle : Bundle) : List Json :=
  ((property bundle.manifest "entries").bind Json.asArray?).getD []

/-- What is read of each entry: `bundle.files.get(entry.path)`. -/
def Bundle.inboxEntries (bundle : Bundle) : List (String × Payload Bytes) :=
  bundle.manifestEntries.filterMap (entryPayload bundle.files)

/-- `bundle.manifest.seq` -/
def Bundle.seq (bundle : Bundle) : Option ℤ :=
  (property bundle.manifest "seq").bind (safeInteger? 1)

/-- An entry with its payload, after its checks. -/
structure Listed (drive : DriveRuntime) (files : Members Bytes) (entry : Json) (path : String)
    (content : Bytes) : Prop where
  isPath : property entry "path" = some (.str path)
  safe : safePath path = true
  notManifest : path ≠ "manifest.json"
  isThere : files.get path = some content
  isSize : (property entry "size").bind (safeInteger? 0) = some (content.length : ℤ)
  isDigest : property entry "sha256" = some (.str (drive.sha256Hex content))
  isClass : ∃ pathClass, classify path = .known pathClass ∧
    property entry "class" = some (.str (className pathClass))

section Checked

variable {drive : DriveRuntime} {files : Members Bytes}

theorem entryFields_eq_ok {seen : List String} {entry : Json} {path : String}
    {pathClass : PathClass} (isEntry : entryFields drive seen entry = .ok (path, pathClass)) :
    property entry "path" = some (.str path) ∧ classify path = .known pathClass ∧
      safePath path = true ∧ path ≠ "manifest.json" ∧ path ∉ seen ∧
      property entry "class" = some (.str (className pathClass)) := by
  rw [entryFields] at isEntry
  split at isEntry
  next found isPath =>
    split at isEntry
    next foundClass isClass =>
      simp only [ensure_bind_eq_ok, Bool.and_eq_true, bne_iff_ne, Bool.not_eq_true',
        beq_iff_eq, List.contains_eq_mem, decide_eq_false_iff_not] at isEntry
      obtain ⟨⟨⟨⟨⟨⟨safe, notManifest⟩, fresh⟩, isText⟩, -⟩, -⟩, same⟩ := isEntry
      obtain ⟨rfl, rfl⟩ := Prod.mk.inj (Except.ok.inj same)
      exact ⟨isPath, isClass, safe, notManifest, fresh, isText⟩
    · cases isEntry
  all_goals cases isEntry

/-- An entry of an inbox has its payload. -/
theorem listed_of_checked {seen : List String} {entry : Json} {path : String}
    {pathClass : PathClass} (isEntry : entryFields drive seen entry = .ok (path, pathClass))
    (checked : checkPayload drive .inbox files entry path pathClass = .ok ()) :
    ∃ content, Listed drive files entry path content ∧
      entryPayload files entry = some (path, payloadOf pathClass content) := by
  obtain ⟨isPath, isClass, safe, notManifest, -, isText⟩ := entryFields_eq_ok isEntry
  rw [checkPayload, ensure_eq_ok] at checked
  cases isThere : files.get path with
  | none =>
    rw [isThere] at checked
    cases checked
  | some content =>
    simp only [isThere, Option.isNone_some, Bool.and_false, Option.any_some, Bool.false_or,
      Bool.and_eq_true, beq_iff_eq] at checked
    refine ⟨content, ⟨isPath, safe, notManifest, isThere, checked.1, checked.2, pathClass, isClass,
      isText⟩, ?_⟩
    rw [entryPayload, isPath]
    dsimp only
    rw [isClass, isThere]
    rfl

/-- The entries of an inbox, checked one after another. -/
theorem checkEntries_inbox {seen paths : List String} {entries : List Json}
    (checked : checkEntries drive .inbox files seen entries = .ok paths) :
    (∀ entry ∈ entries, ∃ path content, Listed drive files entry path content) ∧
      paths = seen ++ (entries.filterMap (entryPayload files)).map Prod.fst ∧
      (entries.filterMap (entryPayload files)).length = entries.length ∧
      (seen.Nodup → paths.Nodup) := by
  induction entries generalizing seen with
  | nil =>
    rw [checkEntries] at checked
    rw [← Except.ok.inj checked]
    exact ⟨List.forall_mem_nil _, (List.append_nil _).symm, rfl, id⟩
  | cons entry entries inductionHypothesis =>
    rw [checkEntries, bind_eq_ok] at checked
    obtain ⟨⟨path, pathClass⟩, isEntry, checked⟩ := checked
    rw [check_bind_eq_ok] at checked
    obtain ⟨content, listed, isPayload⟩ := listed_of_checked isEntry checked.1
    obtain ⟨others, rfl, sameLength, distinct⟩ := inductionHypothesis checked.2
    have fresh := (entryFields_eq_ok isEntry).2.2.2.2.1
    rw [List.filterMap_cons_some isPayload, List.length_cons, sameLength, List.map_cons]
    refine ⟨List.forall_mem_cons.mpr ⟨⟨path, content, listed⟩, others⟩, ?_, rfl, fun nodup => ?_⟩
    · rw [List.append_assoc]
      rfl
    · exact distinct (List.nodup_append.mpr ⟨nodup, List.nodup_singleton _, by
        rintro known isKnown other isOther rfl
        exact fresh (List.mem_singleton.mp isOther ▸ isKnown)⟩)

theorem manifestFields_eq_ok {manifest : Json} {kind : BundleKind} {entries : List Json}
    (isFields : manifestFields drive manifest = .ok (kind, entries)) :
    ((property manifest "seq").bind (safeInteger? 1)).isSome = true ∧
      (property manifest "entries").bind Json.asArray? = some entries := by
  rw [manifestFields] at isFields
  split at isFields
  next found listed isKind isEntries =>
    rw [ensure_bind_eq_ok, Bool.and_eq_true, Bool.and_eq_true] at isFields
    obtain ⟨⟨⟨-, isSeq⟩, -⟩, same⟩ := isFields
    obtain ⟨-, rfl⟩ := Prod.mk.inj (Except.ok.inj same)
    exact ⟨isSeq, isEntries⟩
  · cases isFields

theorem parseManifest_inbox {value : Bytes} {manifest : Json}
    (parsed : parseManifest drive value files = .ok (manifest, .inbox)) :
    ((property manifest "seq").bind (safeInteger? 1)).isSome = true ∧ ∃ entries paths,
      (property manifest "entries").bind Json.asArray? = some entries ∧
      checkEntries drive .inbox files [] entries = .ok paths ∧
      ∀ file ∈ files, file.1 = "manifest.json" ∨ file.1 ∈ paths := by
  rw [parseManifest] at parsed
  split at parsed
  next found isFound =>
    rw [ensure_bind_eq_ok, bind_eq_ok] at parsed
    obtain ⟨-, ⟨kind, entries⟩, isFields, parsed⟩ := parsed
    dsimp only at parsed
    rw [ensure_bind_eq_ok, ensure_bind_eq_ok, ensure_bind_eq_ok, bind_eq_ok] at parsed
    obtain ⟨-, -, -, paths, checked, parsed⟩ := parsed
    rw [ensure_bind_eq_ok] at parsed
    obtain ⟨listed, same⟩ := parsed
    obtain ⟨rfl, rfl⟩ := Prod.mk.inj (Except.ok.inj same)
    obtain ⟨isSeq, isEntries⟩ := manifestFields_eq_ok isFields
    refine ⟨isSeq, entries, paths, isEntries, checked, fun file member => ?_⟩
    simpa using List.all_eq_true.mp listed file member
  · cases parsed

theorem one_le_of_safeInteger? {value : Json} {number : ℤ}
    (isNumber : safeInteger? 1 value = some number) : 1 ≤ number := by
  unfold safeInteger? at isNumber
  split at isNumber
  · split_ifs at isNumber with inside
    exact Option.some.inj isNumber ▸ inside.2.1
  · cases isNumber

end Checked

end AiSwitcher.LiveBundle
