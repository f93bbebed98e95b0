import IgnoreRules.Path.Lexical
import IgnoreRules.Tree.Edit

/-!
Log files of limited size.  A file that the next line would fill is moved aside first, under its
own name with a number after it; the file with the greatest number is lost.  A file is known by its
path alone: one that others have put in its place is written to from then on.
-/

namespace IgnoreRules

/-- A log file and its limits.  Without a positive size the file only grows. -/
structure RotatingFile where
  path : Path
  maxBytes : Int
  backupCount : Int
deriving DecidableEq, Repr

namespace RotatingFile

def place (file : RotatingFile) (disk : Disk) : Path :=
  Path.normalAbsolute disk.current file.path

def numbered (file : RotatingFile) (disk : Disk) (number : Nat) : Path :=
  let place := file.place disk
  place.parent.child (place.lastName ++ '.' :: Nat.toDigits 10 number)

def create (file : RotatingFile) (disk : Disk) : Disk × Option Fault :=
  match disk.makeDirectories file.path.parent with
  | (disk, some fault) => (disk, some fault)
  | (disk, none) =>
      match disk.openFile (file.place disk) with
      | .ok opened => (opened, none)
      | .error fault => (disk, some fault)

/-- The next line would fill the file.  Its bytes are what stands there, plus one for each
character of the line. -/
def isFilledBy (file : RotatingFile) (disk : Disk) (line : String) : Bool :=
  let filled (size : Nat) : Bool := 0 < file.maxBytes && file.maxBytes ≤ (size + line.length : Nat)
  match disk.locate (file.place disk) with
  | .ok (_, .file content) => filled content.size
  | .ok _ => false
  | .error _ => filled 0

def shift (file : RotatingFile) : (number : Nat) → Disk → Except Disk Disk
  | 0, disk => .ok disk
  | number + 1, disk =>
      let source := file.numbered disk (number + 1)
      let target := file.numbered disk (number + 2)
      if disk.leadsSomewhere source then do
        let cleared ← disk.clear target
        let moved ← cleared.move source target
        file.shift number moved
      else file.shift number disk

def moveAside (file : RotatingFile) (disk : Disk) : Except Disk Disk := do
  let shifted ← file.shift (file.backupCount.toNat - 1) disk
  let cleared ← shifted.clear (file.numbered shifted 1)
  if cleared.leadsSomewhere (file.place cleared) then
    cleared.move (file.place cleared) (file.numbered cleared 1)
  else return cleared

/-- Moves the file aside and starts it anew; without room for backups it stays as it is.  A
directory in the way of a file, or a name that gets too long by its number, stops the move
half-way. -/
def rotate (file : RotatingFile) (disk : Disk) : Except Disk Disk := do
  let moved ← if file.backupCount ≤ 0 then .ok disk else file.moveAside disk
  match moved.openFile (file.place moved) with
  | .ok opened => return opened
  | .error _ => throw moved

def write (file : RotatingFile) (line : String) (disk : Disk) : Except Disk Disk := do
  let ready ← if file.isFilledBy disk line then file.rotate disk else .ok disk
  return ready.append (file.place ready) line.toUTF8

end RotatingFile

end IgnoreRules
