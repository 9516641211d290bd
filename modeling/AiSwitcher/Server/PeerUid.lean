/-
This file embeds `decodeProcAddress`, `parseProcNetTcp` and `linuxPeerUid` of `src/server/guard.ts`:
whose process is at the other end of a connection, as the socket tables of the kernel say. Texts are
lists of code units, and a number is `none` if it is NaN.
-/

import AiSwitcher.Library.Lines
import AiSwitcher.Library.Numerals
import AiSwitcher.Library.Words

namespace AiSwitcher.Guard

open JavaScript.JsonText (Units codeUnits)
open JavaScript.LowerCase (isSpace lowerAscii)
open JavaScript.Numerals

def text (literal : String) : Units := codeUnits literal.toList

def newline : UInt16 := 10

def blank : UInt16 := 32

def dot : UInt16 := 46

def colon : UInt16 := 58

/-! ### The code -/

def isLoopbackAddress (address : Units) : Bool :=
  address ≠ [] && ((text "127.").isPrefixOf address || address = text "127.0.0.1" ||
    address = text "::1" || address = text "::ffff:127.0.0.1")

structure ProcNetRow where
  localAddress : Units
  localPort : Option ℤ
  remoteAddress : Units
  remotePort : Option ℤ
  state : Units
  uid : Option ℤ
  inode : Option ℤ

/-- `String(number)` -/
def printNumber : Option ℤ → Units
  | none => text "NaN"
  | some (.ofNat number) => decimal number
  | some (.negSucc number) => 45 :: decimal (number + 1)

/-- `number.toString(16)` -/
def printHex : Option ℤ → Units
  | none => text "NaN"
  | some (.ofNat number) => codeUnits (Nat.toDigits 16 number)
  | some (.negSucc number) => 45 :: codeUnits (Nat.toDigits 16 (number + 1))

/-- Words of eight digits, their last two digits first. -/
def procBytes (hex : Units) : List (Option ℤ) :=
  (List.range ((hex.length + 7) / 8)).flatMap fun word =>
    [6, 4, 2, 0].map fun place => parseInt 16 ((hex.drop (8 * word + place)).take 2)

def joinDots (bytes : List (Option ℤ)) : Units := List.intercalate [dot] (bytes.map printNumber)

def decodeProcAddress (hex : Units) : Units :=
  let bytes := procBytes hex
  if bytes.length = 4 then joinDots bytes
  else if (bytes.take 10).all (· = some 0) && bytes[10]? = some (some 255) &&
      bytes[11]? = some (some 255) then joinDots (bytes.drop 12)
  else if (bytes.take 15).all (· = some 0) && bytes[15]? = some (some 1) then text "::1"
  else bytes.flatMap fun byte => (printHex byte).leftpad 2 48

/-- `line.trim().split(/\s+/)` -/
def splitSpaces (line : Units) : List Units :=
  match Words.words isSpace line with
  | [] => [[]]
  | words => words

/-- The body of the loop; a line may be passed over. -/
def parseLine (line : Units) : Option ProcNetRow :=
  let f := splitSpaces line
  if f.length < 8 then none
  else
    match Lines.split colon (f.getD 1 []), Lines.split colon (f.getD 2 []) with
    | la :: lp :: _, ra :: rp :: _ =>
        if la = [] ∨ lp = [] ∨ ra = [] ∨ rp = [] then none
        else some
          { localAddress := decodeProcAddress la
            localPort := parseInt 16 lp
            remoteAddress := decodeProcAddress ra
            remotePort := parseInt 16 rp
            state := f.getD 3 []
            uid := parseInt 10 (f.getD 7 [])
            inode := parseInt 10 (f.getD 9 (text "0")) }
    | _, _ => none

def parseProcNetTcp (table : Units) : List ProcNetRow :=
  ((Lines.split newline table).drop 1).filterMap parseLine

/-- `address.replace(/^::ffff:/i, "")` -/
def dropMapped (address : Units) : Units :=
  if (address.take 7).map lowerAscii = text "::ffff:" then address.drop 7 else address

def isHit (want : Units) (peerPort serverPort : ℕ) (dest : Option Units) (row : ProcNetRow) :
    Bool :=
  if row.state ≠ text "01" ∨ row.inode = some 0 then false
  else if row.localAddress ≠ want ∨ row.localPort ≠ some ↑peerPort ∨
      row.remotePort ≠ some ↑serverPort then false
  else
    match dest with
    | none | some [] => isLoopbackAddress row.remoteAddress
    | some dest => row.remoteAddress = dest

/-- A table that cannot be read is `none`, and then the call throws. -/
def linuxPeerUid (address : Units) (peerPort serverPort : ℕ) (serverAddress : Option Units)
    (files : List (Option Units)) : Option (Option (Option ℤ)) := do
  let tables ← files.mapM id
  let hits := (tables.flatMap parseProcNetTcp).filter
    (isHit (dropMapped address) peerPort serverPort (serverAddress.map dropMapped))
  match hits with
  | [hit] => some (some hit.uid)
  | _ => some none

/-! ### Socket tables of the kernel -/

/-- Four bytes in the order of the network. -/
structure Word where
  first : UInt8
  second : UInt8
  third : UInt8
  fourth : UInt8
  deriving DecidableEq

inductive Address where
  | ipv4 (word : Word)
  | ipv6 (first second third fourth : Word)
  deriving DecidableEq

structure Endpoint where
  address : Address
  port : UInt16

/-- A word that the columns of a table can have. -/
abbrev Column := { word : Units // Words.IsWord isSpace word }

/-- One socket of a table; what the server does not look at may be any words. -/
structure Socket where
  slot : Column
  local_ : Endpoint
  remote : Endpoint
  state : UInt8
  queues : Column
  timer : Column
  retransmits : Column
  uid : ℕ
  timeout : Column
  inode : ℕ
  more : List Column

/-- The kernel takes four bytes as one number, whose lowest byte comes first. -/
def Word.number (word : Word) : ℕ :=
  word.first.toNat + 2 ^ 8 * (word.second.toNat + 2 ^ 8 * (word.third.toNat +
    2 ^ 8 * word.fourth.toNat))

/-- `%08X` -/
def Word.hex (word : Word) : Units := numeral 16 8 word.number

def Address.hex : Address → Units
  | ipv4 word => word.hex
  | ipv6 first second third fourth => first.hex ++ (second.hex ++ (third.hex ++ fourth.hex))

def Endpoint.column (endpoint : Endpoint) : Units :=
  endpoint.address.hex ++ colon :: numeral 16 4 endpoint.port.toNat

/-- The columns with their widths. -/
def Socket.columns (socket : Socket) : List (ℕ × Units) :=
  [(5, socket.slot.1), (0, socket.local_.column), (0, socket.remote.column),
    (0, numeral 16 2 socket.state.toNat), (0, socket.queues.1), (0, socket.timer.1),
    (0, socket.retransmits.1), (5, decimal socket.uid), (8, socket.timeout.1),
    (0, decimal socket.inode)] ++ socket.more.map fun column => (0, column.1)

def columnText (column : ℕ × Units) : Units := column.2.leftpad column.1 blank

def Socket.line (socket : Socket) (padding : ℕ) : Units :=
  List.intercalate [blank] (socket.columns.map columnText) ++ List.replicate padding blank

/-- A column with an address and a port. -/
def HasPort (column : Units) : Prop :=
  ∃ address port more, Lines.split colon column = address :: port :: more ∧ address ≠ [] ∧ port ≠ []

/-- A line without the columns of a socket: too few of them, or no address and port where they
belong. -/
def Malformed (line : Units) : Prop :=
  (splitSpaces line).length < 10 ∨ ¬ HasPort ((splitSpaces line).getD 1 []) ∨
    ¬ HasPort ((splitSpaces line).getD 2 [])

inductive TableLine where
  | socket (held : Socket) (padding : ℕ)
  | malformed (line : Units) (oneLine : newline ∉ line) (isMalformed : Malformed line)

def TableLine.text : TableLine → Units
  | .socket held padding => held.line padding
  | .malformed line _ _ => line

def TableLine.sockets : TableLine → List Socket
  | .socket held _ => [held]
  | .malformed _ _ _ => []

structure SocketTable where
  header : Units
  oneLine : newline ∉ header
  lines : List TableLine

/-- What `/proc` has; a line feed at the end is an empty last line. -/
def SocketTable.text (table : SocketTable) : Units :=
  List.intercalate [newline] (table.header :: table.lines.map TableLine.text)

def SocketTable.sockets (table : SocketTable) : List Socket := table.lines.flatMap TableLine.sockets

end AiSwitcher.Guard
