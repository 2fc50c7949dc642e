import EmojiPalette.Core.Utf8
import EmojiPalette.Library.Decimal
import Mathlib.Data.List.Sort

/-!
# Favorites and recent use

The persistent state of the palette, its text form, and the two operations that change it. The text is one line for each entry below a header line. Reading and writing keep separate checks of the same limits, so that neither trusts the other.
-/

namespace EmojiPalette

structure RecentEntry where
  sequence : Bytes
  useCount : UInt64
  lastUsed : Int64
  deriving DecidableEq

structure PersistentState where
  favorites : List Bytes
  recents : List RecentEntry
  deriving DecidableEq

/-- The text of an ASCII literal. -/
def ascii (text : List Char) : Bytes := text.map fun character => UInt8.ofNat character.toNat

namespace PersistentState

def empty : PersistentState := ⟨[], []⟩

def maximumStateSize : Nat := 1024 * 1024
def maximumSequenceSize : Nat := 128
def maximumFavorites : Nat := 500
def maximumRecents : Nat := 1000

abbrev tab : UInt8 := 9
abbrev newline : UInt8 := 10

def header : Bytes :=
  ascii ['e', 'm', 'o', 'j', 'i', '-', 'p', 'a', 'l', 'e', 't', 't', 'e', '-', 's', 't', 'a', 't', 'e'] ++
    [tab, 49]

def favoriteKind : Bytes := ascii ['f', 'a', 'v', 'o', 'r', 'i', 't', 'e']
def recentKind : Bytes := ascii ['r', 'e', 'c', 'e', 'n', 't']

def fields (value : Bytes) : List Bytes := value.splitOn tab

/-- The lines `std::getline` reads one after another: a line break at the very end starts no further line. -/
def lines (content : Bytes) : List Bytes :=
  let pieces := content.splitOn newline
  if pieces.getLast? = some [] then pieces.dropLast else pieces

/-- `parseNumber` at the type of a use count: digits only, all of the text, and in range. -/
def parseCount (text : Bytes) : Option UInt64 :=
  match Decimal.scan text with
  | some (value, []) => if value < 2 ^ 64 then some (UInt64.ofNat value) else none
  | _ => none

/-- `parseNumber` at the type of a timestamp. -/
def parseTimestamp (text : Bytes) : Option Int64 :=
  match Decimal.scanInt text with
  | some (value, []) => if -2 ^ 63 ≤ value ∧ value < 2 ^ 63 then some (Int64.ofInt value) else none
  | _ => none

def validSequence (sequence : Bytes) : Bool :=
  !sequence.isEmpty && sequence.length ≤ maximumSequenceSize && isValidUtf8 sequence

/-- A favorite's line read into the state. The set of sequences the source keeps beside the state holds exactly the state's favorites. -/
def parseFavorite (state : PersistentState) (hex : Bytes) : Option PersistentState :=
  match hexDecode hex with
  | some sequence =>
      if validSequence sequence && !state.favorites.contains sequence &&
          state.favorites.length < maximumFavorites then
        some { state with favorites := state.favorites ++ [sequence] }
      else none
  | none => none

def parseRecent (state : PersistentState) (count timestamp hex : Bytes) : Option PersistentState :=
  match parseCount count, parseTimestamp timestamp, hexDecode hex with
  | some useCount, some lastUsed, some sequence =>
      if useCount != 0 && validSequence sequence && !(state.recents.map (·.sequence)).contains sequence &&
          state.recents.length < maximumRecents then
        some { state with recents := state.recents ++ [⟨sequence, useCount, lastUsed⟩] }
      else none
  | _, _, _ => none

def parseLine (state : PersistentState) (line : Bytes) : Option PersistentState :=
  if line.isEmpty then some state
  else match fields line with
    | [kind, hex] => if kind = favoriteKind then parseFavorite state hex else none
    | [kind, count, timestamp, hex] => if kind = recentKind then parseRecent state count timestamp hex else none
    | _ => none

def parseState (content : Bytes) : Option PersistentState :=
  match lines content with
  | first :: rest => if first = header then rest.foldlM parseLine empty else none
  | [] => none

def favoriteLine (sequence : Bytes) : Bytes := favoriteKind ++ tab :: hexEncode sequence

def recentLine (recent : RecentEntry) : Bytes :=
  recentKind ++ tab :: (Decimal.print recent.useCount.toNat ++
    tab :: (Decimal.printInt recent.lastUsed.toInt ++ tab :: hexEncode recent.sequence))

/-- One of the writer's two loops: a line for each entry, unless one is invalid or its key was written before. -/
def writeEntries {Entry : Type} (valid : Entry → Bool) (key line : Entry → Bytes) (written : List Bytes) :
    List Entry → Option Bytes
  | [] => some []
  | entry :: rest =>
      if !valid entry || written.contains (key entry) then none
      else (writeEntries valid key line (key entry :: written) rest).map (line entry ++ newline :: ·)

def writeFavorites (favorites : List Bytes) : Option Bytes :=
  writeEntries validSequence id favoriteLine [] favorites

def writeRecents (recents : List RecentEntry) : Option Bytes :=
  writeEntries (fun recent => validSequence recent.sequence && recent.useCount != 0) (·.sequence) recentLine []
    recents

def serialize (state : PersistentState) : Option Bytes :=
  if state.favorites.length > maximumFavorites || state.recents.length > maximumRecents then none
  else match writeFavorites state.favorites, writeRecents state.recents with
    | some favorites, some recents =>
        let value := header ++ newline :: (favorites ++ recents)
        if value.length > maximumStateSize then none else some value
    | _, _ => none

def toggleFavorite (state : PersistentState) (sequence : Bytes) : PersistentState :=
  if sequence ∈ state.favorites then { state with favorites := state.favorites.erase sequence }
  else { state with favorites := state.favorites ++ [sequence] }

/-- The first entry of the sequence counted up, or a new entry at the end. -/
def countUse (sequence : Bytes) (timestamp : Int64) : List RecentEntry → List RecentEntry
  | [] => [⟨sequence, 1, timestamp⟩]
  | entry :: rest =>
      if entry.sequence = sequence then { entry with useCount := entry.useCount + 1, lastUsed := timestamp } :: rest
      else entry :: countUse sequence timestamp rest

/-- The order of the recents: latest use, then most uses, then the sequence. -/
def precedes (left right : RecentEntry) : Bool :=
  if left.lastUsed ≠ right.lastUsed then left.lastUsed > right.lastUsed
  else if left.useCount ≠ right.useCount then left.useCount > right.useCount
  else left.sequence < right.sequence

/-- `std::stable_sort` by the order: an element moves before another only where it precedes it. -/
def sortRecents (recents : List RecentEntry) : List RecentEntry :=
  recents.insertionSort fun left right => precedes right left = false

def recordUse (state : PersistentState) (sequence : Bytes) (timestamp : Int64) (maximumEntries : Nat) :
    PersistentState :=
  let recents := sortRecents (countUse sequence timestamp state.recents)
  { state with recents := if recents.length > maximumEntries then recents.take maximumEntries else recents }

/-- The cap `recordUse` has by default. -/
def defaultMaximumEntries : Nat := 100

end PersistentState

end EmojiPalette
