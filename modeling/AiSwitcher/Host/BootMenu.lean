/-
This file embeds how the boot menus of a drive are personalised
(`apps/host/crates/core/src/drive_identity.rs`): every kernel command line is checked, cut into
words, freed of the arguments that name a drive and given those of the new identity. The FAT
driver is a parameter.
-/

import AiSwitcher.Host.Registry
import AiSwitcher.Library.Control
import AiSwitcher.Library.Utf8
import AiSwitcher.Library.Words

namespace AiSwitcher.BootMenu

open JavaScript
open Host (DriveIdentity)

abbrev MenuText := List Char

def LAYOUT_UNAVAILABLE : String := "This operation needs a reviewed image layout contract."

/-! ### Lines and words -/

/-- `char::is_whitespace` -/
def isSpaceChar (character : Char) : Bool :=
  let code := character.toNat
  (0x9 ≤ code && code ≤ 0xD) || code == 0x20 || code == 0x85 || code == 0xA0 || code == 0x1680 ||
    (0x2000 ≤ code && code ≤ 0x200A) || code == 0x2028 || code == 0x2029 || code == 0x202F ||
    code == 0x205F || code == 0x3000

/-- Without one carriage return at the end. -/
def stripReturn (line : MenuText) : MenuText :=
  if line.getLast? = some '\r' then line.dropLast else line

/-- `str::lines`: a line that no newline ends keeps its carriage return. -/
def menuLines (menu : MenuText) : List MenuText :=
  (Lines.records '\n' menu).map stripReturn ++ Words.finished (Lines.unfinished '\n' menu)

/-- `str::split_whitespace` -/
def menuWords (line : MenuText) : List MenuText := Words.words isSpaceChar line

def startsWith (start : String) (word : MenuText) : Bool := start.toList.isPrefixOf word

/-- What stands before the first equals sign. -/
def keyOf (word : MenuText) : MenuText := word.takeWhile (· ≠ '=')

/-! ### The checks of a kernel line -/

def isKernelLine (words : List MenuText) : Bool :=
  words.head?.any fun word =>
    ["linux".toList, "linuxefi".toList, "append".toList, "APPEND".toList].contains word

/-- Arguments that would override the image or the drive. -/
def refusedWord (word : MenuText) : Bool :=
  (keyOf word = word && ["archisobasedir".toList, "archisodevice".toList, "copytoram".toList,
      "ais.base".toList, "ais.exchange".toList, "ais.drive".toList].contains (keyOf word)) ||
    startsWith "cow_" (keyOf word) || startsWith "img_" (keyOf word) ||
    keyOf word = "dm_snap_prefix".toList ||
    (startsWith "archiso" (keyOf word) &&
      !(["archisobasedir".toList, "archisodevice".toList].contains (keyOf word))) ||
    (startsWith "copytoram" (keyOf word) && keyOf word ≠ "copytoram".toList)

def refusedLine (line : MenuText) (words : List MenuText) : Bool :=
  line.any ['\\', ';', '"', '\''].contains ||
    (!(words.head?.any ["APPEND".toList, "append".toList].contains) &&
      words[1]? ≠ some "/arch/boot/x86_64/vmlinuz-linux".toList) ||
    words.any refusedWord ||
    words.filter (startsWith "archisobasedir=") ≠ ["archisobasedir=arch".toList] ||
    words.filter (startsWith "systemd.firstboot=") ≠ ["systemd.firstboot=off".toList]

/-- The modes seen so far, with the one of this line. -/
def checkLine (modes : List MenuText) (line : MenuText) (words : List MenuText) :
    Except String (List MenuText) := do
  ensure (!refusedLine line words) LAYOUT_UNAVAILABLE
  match (words.filter (startsWith "ais.mode=")).map (List.drop "ais.mode=".length) with
  | [mode] =>
      ensure (["latest".toList, "pick".toList, "clean".toList].contains mode &&
        !modes.contains mode) LAYOUT_UNAVAILABLE
      return modes ++ [mode]
  | _ => .error LAYOUT_UNAVAILABLE

/-! ### Personalising -/

/-- The arguments that name a drive, as keys and values. -/
def bindings (identity : DriveIdentity) : List (MenuText × MenuText) :=
  [("ais.base".toList, identity.partitions[2].toList),
    ("ais.exchange".toList, identity.partitions[3].toList),
    ("ais.drive".toList, identity.partitions[4].toList),
    ("archisodevice".toList, "/dev/disk/by-partuuid/".toList ++ identity.partitions[2].toList),
    ("copytoram".toList, "n".toList)]

def wordOf (binding : MenuText × MenuText) : MenuText := binding.1 ++ '=' :: binding.2

def BOUND_STARTS : List String :=
  ["ais.base=", "ais.exchange=", "ais.drive=", "archisodevice=", "copytoram="]

def isKept (word : MenuText) : Bool := !BOUND_STARTS.any fun start => startsWith start word

def boundLine (identity : DriveIdentity) (words : List MenuText) : MenuText :=
  List.intercalate [' '] (words.filter isKept) ++
    (bindings identity).flatMap fun binding => ' ' :: wordOf binding

def patchLine (identity : DriveIdentity) (modes : List MenuText) (line : MenuText) :
    Except String (List MenuText × MenuText) :=
  if isKernelLine (menuWords line) then do
    let modes ← checkLine modes line (menuWords line)
    return (modes, boundLine identity (menuWords line))
  else .ok (modes, line)

def patchLines (identity : DriveIdentity) (modes : List MenuText) :
    List MenuText → Except String (List MenuText × MenuText)
  | [] => .ok (modes, [])
  | line :: rest => do
      let (modes, patched) ← patchLine identity modes line
      let (modes, output) ← patchLines identity modes rest
      return (modes, patched ++ '\n' :: output)

def patchMenu (menu : MenuText) (identity : DriveIdentity) : Except String MenuText := do
  let (modes, output) ← patchLines identity [] (menuLines menu)
  ensure (modes.length = 3) LAYOUT_UNAVAILABLE
  return output

/-! ### The boot partition -/

def MENUS : List String := ["boot/grub/grub.cfg", "syslinux/syslinux.cfg"]

def MAX_MENU_BYTES : Nat := 256 * 1024

/-- The files of a FAT image: reading one, replacing its content, and unmounting. -/
structure FatDriver where
  read : Utf8.Bytes → String → Option Utf8.Bytes
  replace : Utf8.Bytes → String → Utf8.Bytes → Option Utf8.Bytes
  unmount : Utf8.Bytes → Option Utf8.Bytes

def orUnavailable {Result : Type} : Option Result → Except String Result
  | some result => .ok result
  | none => .error LAYOUT_UNAVAILABLE

/-- `read_to_string`: the bytes must be well formed. -/
def readToString (bytes : Utf8.Bytes) : Option MenuText :=
  let text := Utf8.decodeFrom .start bytes
  if Utf8.encode text = bytes then some text else none

def readMenu (fat : FatDriver) (esp : Utf8.Bytes) (name : String) : Except String MenuText := do
  let bytes ← orUnavailable (fat.read esp name)
  let menu ← orUnavailable (readToString (bytes.take (MAX_MENU_BYTES + 1)))
  ensure ((Utf8.encode menu).length ≤ MAX_MENU_BYTES) LAYOUT_UNAVAILABLE
  return menu

def verifyMenus (fat : FatDriver) (esp : Utf8.Bytes) (identity : DriveIdentity) :
    List String → Except String Unit
  | [] => .ok ()
  | name :: names => do
      let menu ← readMenu fat esp name
      let patched ← patchMenu menu identity
      ensure (patched = menu) LAYOUT_UNAVAILABLE
      verifyMenus fat esp identity names

def verifyEsp (fat : FatDriver) (esp : Utf8.Bytes) (identity : DriveIdentity) :
    Except String Unit := do
  ensure identity.isValid LAYOUT_UNAVAILABLE
  verifyMenus fat esp identity MENUS

def patchMenus (fat : FatDriver) (identity : DriveIdentity) (esp : Utf8.Bytes) :
    List String → Except String Utf8.Bytes
  | [] => .ok esp
  | name :: names => do
      let menu ← readMenu fat esp name
      let patched ← patchMenu menu identity
      let esp ← orUnavailable (fat.replace esp name (Utf8.encode patched))
      patchMenus fat identity esp names

/-- What was written is verified before it is returned. -/
def patchEsp (fat : FatDriver) (esp : Utf8.Bytes) (identity : DriveIdentity) :
    Except String Utf8.Bytes := do
  ensure identity.isValid LAYOUT_UNAVAILABLE
  let bytes ← patchMenus fat identity esp MENUS
  let bytes ← orUnavailable (fat.unmount bytes)
  verifyEsp fat bytes identity
  return bytes

end AiSwitcher.BootMenu
