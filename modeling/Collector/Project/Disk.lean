import Collector.Error
import Collector.Text.Utf8

/-!
# Disks

Directories and files as a value. A place on a disk is the list of names that leads to it from
the root, and a path is walked name by name as an operating system does.
-/

namespace Collector

/-- What a file holds: text, or bytes that are no text. -/
inductive Content where
  | text (value : String)
  | bytes (value : List UInt8)
  deriving DecidableEq

namespace Content

/-- The content that bytes are. -/
def ofBytes (bytes : List UInt8) : Content :=
  match Text.Utf8.decode? bytes with
  | some value => .text value
  | none => .bytes bytes

/-- The text of a content, with signs in the place of what is no text. -/
def shown : Content → String
  | .text value => value
  | .bytes value => Text.Utf8.decodeLossy value

end Content

/-- What stands at a place. -/
inductive Entry where
  | directory
  | file (content : Content)
  deriving DecidableEq

/-- A place, by the names that lead to it from the root. -/
abbrev Place := List String

/-- What stands at places other than the root, which is a directory. -/
abbrev Disk := List (Place × Entry)

namespace Disk

/-! ## Places -/

/-- What stands at a place. -/
def at? (disk : Disk) (place : Place) : Option Entry :=
  if place = [] then some .directory
  else (disk.find? fun entry => entry.1 = place).map Prod.snd

/-- Puts something at a place. -/
def put (disk : Disk) (place : Place) (entry : Entry) : Disk :=
  (place, entry) :: disk.filter fun other => other.1 ≠ place

/-- Removes what stands at a place. -/
def remove (disk : Disk) (place : Place) : Disk := disk.filter fun other => other.1 ≠ place

/-- Puts something at a place, with the directories that lead there. -/
def place (disk : Disk) (place : Place) (entry : Entry) : Disk :=
  let parents := ((List.range place.length).drop 1).map place.take
  (parents.foldl (fun disk parent => put disk parent .directory) disk).put place entry

/-! ## Paths -/

/-- Fails unless a directory stands at a place. -/
def checkDirectory (disk : Disk) (place : Place) : Except FileFault Unit :=
  match disk.at? place with
  | some .directory => .ok ()
  | some (.file _) => .error .notADirectory
  | none => .error .notFound

/-- Walks from a place along the steps of a path. Every step but the first thing reached at the
end leads through a directory. -/
def walk (disk : Disk) : Place → List String → Except FileFault Place
  | place, [] => .ok place
  | place, step :: steps => do
    checkDirectory disk place
    if step = "" ∨ step = "." then walk disk place steps
    else if step = ".." then walk disk place.dropLast steps
    else walk disk (place ++ [step]) steps

/-- The place that a path leads to, from the place where the command runs. -/
def resolve (disk : Disk) (here : Place) (path : String) : Except FileFault Place :=
  if path = "" then .error .notFound
  else walk disk (if path.startsWith "/" then [] else here) (path.splitOn "/")

/-! ## Operations -/

/-- The last name of the place of something that exists. -/
def realName (disk : Disk) (here : Place) (path : String) : Except FileFault (Option String) := do
  let place ← resolve disk here path
  match disk.at? place with
  | some _ => .ok place.getLast?
  | none => .error .notFound

/-- The text of a file. -/
def readText (disk : Disk) (here : Place) (path : String) : Except FileFault String := do
  let place ← resolve disk here path
  match disk.at? place with
  | some (.file (.text text)) => .ok text
  | some (.file (.bytes _)) => .error .notText
  | some .directory => .error .isADirectory
  | none => .error .notFound

/-- Writes the text of a file, which is made if there is none. -/
def writeText (disk : Disk) (here : Place) (path text : String) : Except FileFault Disk := do
  let place ← resolve disk here path
  match disk.at? place with
  | some .directory => .error .isADirectory
  | _ => .ok (disk.put place (.file (.text text)))

end Disk

end Collector
