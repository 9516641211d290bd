/-
This file embeds `canonicalConfig` of `src/live/portable.ts`, the parts of
`src/sync/portable-config.ts` it uses, and `configHash` of `src/live/inbox.ts`: home
directories in hook scripts and in the commands and paths of settings are written as
`HOME` expansions or as a tilde, and a configuration file is known by the digest of that form,
for a JSON file with its members sorted.
-/

import AiSwitcher.Library.DeepEqual
import AiSwitcher.Library.Text

namespace AiSwitcher.Live

open JavaScript

/-- What the exchange takes from the runtime, for texts of any kind: decoding that refuses
invalid UTF-8, `JSON.parse` of a decoded text, the three ways a value is written (on one line,
on one line with a newline, indented with a newline), SHA-256 digests, the order of
`localeCompare` and the home directory. A value written with a newline reads as that value. -/
structure LiveRuntime (Text : Type) where
  decode : Text → Option String
  encode : String → Text
  parse : Text → Option Json
  compact : Json → Text
  line : Json → Text
  indented : Json → Text
  digest : Text → String
  localeLe : String → String → Bool
  home : String
  parse_line : ∀ value : Json, (parse (line value)).map Json.canonical = some value.asWritten

/-! ### Home directories -/

/-- A backslash, which ends a home directory of the standard form. -/
def backslash : Char := Char.ofNat 92

/-- `[\s"'$;&|<>(){}\[\]]` and the backquote. -/
def isBoundary (character : Char) : Bool :=
  isWhitespace character ||
    [34, 39, 96, 36, 59, 38, 124, 60, 62, 40, 41, 123, 125, 91, 93].contains character.toNat

/-- The length of a prefix of the form `/Users/name`, `/home/name` or `/root`. -/
def standardHome (text : List Char) : Option Nat :=
  let ends (character : Char) : Bool :=
    character == '/' || character == backslash || isBoundary character
  let named (parent : String) : Option Nat :=
    if parent.toList.isPrefixOf text then
      let name := (text.drop parent.length).takeWhile fun character => !ends character
      if name.isEmpty then none else some (parent.length + name.length)
    else none
  (named "/Users/").or <| (named "/home/").or <|
    if "/root".toList.isPrefixOf text ∧ (text.drop 5).head?.all ends then some 5 else none

structure HomePrefix where
  length : Nat
  canonicalHookRoot : Bool

/-- The home directory a text starts with, in any of its spellings, with the hook directory
below it. -/
def homePrefixAt (home : String) (text : List Char) : Option HomePrefix :=
  let hookSuffix := "/.claude/hooks".toList
  let found (length : Nat) : HomePrefix :=
    let hooks := hookSuffix.isPrefixOf (text.drop length)
    ⟨length + (if hooks then hookSuffix.length else 0), hooks⟩
  let candidates := [home, "$\x7bHOME\x7d", "$HOME", "~"].insertionSort fun first second =>
    second.length ≤ first.length
  let matching := candidates.find? fun candidate =>
    candidate.toList.isPrefixOf text &&
      (text.drop candidate.length).head?.all fun boundary => boundary == '/' || isBoundary boundary
  match matching with
  | some candidate => some (found candidate.length)
  | none => (standardHome text).map found

def portablePathText (home text : String) : String :=
  match homePrefixAt home text.toList with
  | none => text
  | some found =>
      "~" ++ (if found.canonicalHookRoot then "/.ais/hooks" else "") ++ sliceFrom text found.length

def singleQuote : Char := Char.ofNat 39

def doubleQuote : Char := Char.ofNat 34

/-- The rest of a shell text: inside which quotes it is, how many characters belong to a home
directory that has been replaced, and whether the next character was escaped. -/
def shellFrom (home : String) :
    Option Char → Nat → Bool → List Char → List Char
  | _, _, _, [] => []
  | quote, skipped + 1, escaped, _ :: rest => shellFrom home quote skipped escaped rest
  | quote, 0, true, character :: rest => character :: shellFrom home quote 0 false rest
  | quote, 0, false, character :: rest =>
      if character = backslash ∧ quote ≠ some singleQuote ∧ rest ≠ [] then
        character :: shellFrom home quote 0 true rest
      else if character = singleQuote ∨ character = doubleQuote then
        character :: shellFrom home
          (if quote = some character then none else quote.or (some character)) 0 false rest
      else
        match homePrefixAt home (character :: rest) with
        | none => character :: shellFrom home quote 0 false rest
        | some found =>
            let expansion := "$\x7bHOME\x7d".toList ++
              (if found.canonicalHookRoot then "/.ais/hooks".toList else [])
            -- A variable does not expand inside single quotes.
            (if quote = some singleQuote then
              [singleQuote, doubleQuote] ++ expansion ++ [doubleQuote, singleQuote]
            else expansion) ++ shellFrom home quote (found.length - 1) false rest

def portableShellText (home text : String) : String :=
  .ofList (shellFrom home none 0 false text.toList)

/-! ### Settings -/

mutual

/-- `portableProfileCommandConfig`. -/
def portableProfile (home : String) : Json → Json
  | .arr items => .arr (portableItems home items)
  | .obj members => .obj (portableMembers home members)
  | value => value

def portableItems (home : String) : List Json → List Json
  | [] => []
  | item :: items => portableProfile home item :: portableItems home items

def portableMembers (home : String) : List (String × Json) → List (String × Json)
  | [] => []
  | (key, value) :: members =>
      (key, match value with
        | .str text =>
            if key = "command" then .str (portableShellText home text)
            else if key = "path" then .str (portablePathText home text)
            else value
        | _ => portableProfile home value) :: portableMembers home members

end

/-- `path.slice(path.lastIndexOf("/") + 1)` -/
def fileName (path : String) : String :=
  .ofList (path.toList.reverse.takeWhile (· != '/')).reverse

mutual

/-- `stable`: the members of every object in the order of `localeCompare`. -/
def stable (localeLe : String → String → Bool) : Json → Json
  | .arr items => .arr (stableItems localeLe items)
  | .obj members =>
      .obj ((stableMembers localeLe members).insertionSort fun first second =>
        localeLe first.1 second.1)
  | value => value

def stableItems (localeLe : String → String → Bool) : List Json → List Json
  | [] => []
  | item :: items => stable localeLe item :: stableItems localeLe items

def stableMembers (localeLe : String → String → Bool) :
    List (String × Json) → List (String × Json)
  | [] => []
  | (key, value) :: members => (key, stable localeLe value) :: stableMembers localeLe members

end

section Canonical

variable {Text : Type} (runtime : LiveRuntime Text)

/-- The errors are those of the decoder and of `JSON.parse`. -/
def canonicalConfig (path : String) (content : Text) : Except String Text :=
  if startsWith path ".ais/hooks/" then
    match runtime.decode content with
    | none => .error "The encoded data was not valid utf-8"
    | some text => .ok (runtime.encode (portableShellText runtime.home text))
  else if ["settings.json", "hooks.json"].contains (fileName path) then
    match runtime.parse content with
    | none => .error "SyntaxError"
    | some parsed =>
        let portable := portableProfile runtime.home parsed
        if portable.written = parsed.written then .ok content
        else .ok (runtime.indented portable)
  else .ok content

def configHash (path : String) (content : Text) : Except String String := do
  let canonical ← canonicalConfig runtime path content
  if endsWith path ".json" then
    match runtime.parse canonical with
    | none => .error "SyntaxError"
    | some value => .ok (runtime.digest (runtime.compact (stable runtime.localeLe value)))
  else .ok (runtime.digest canonical)

end Canonical

end AiSwitcher.Live
