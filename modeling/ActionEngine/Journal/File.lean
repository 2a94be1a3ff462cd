import ActionEngine.Disk.Tree

/-!
# The journal's file

Lines are added to a file until it would reach its greatest size. Then the file
becomes the first of a number of backups, each older one moves on by one place, the
oldest is dropped, and a new file is begun.
-/

namespace ActionEngine.Journal

/-- A file of the journal. Without a greatest size it grows for ever. -/
structure File where
  path : Path
  level : Int
  maxBytes : Int := 1000000
  backups : Int := 3
deriving DecidableEq, Repr

namespace File

/-- The path of a backup by its number; the file itself has the number zero. -/
def numbered (f : File) : Nat → Path
  | 0 => f.path
  | n + 1 => f.path.parent.child (f.path.name ++ "." ++ toString (n + 1))

/-- The content of the file; nothing if it cannot be read. -/
def content (f : File) (d : Disk) : List UInt8 :=
  ((d.read f.path).toOption).getD []

def begin (f : File) (d : Disk) : Except Fault Disk :=
  d.write f.path (f.content d)

/-- Move the backups with at most the given number on by one place, the oldest first. -/
def shift (f : File) (d : Disk) : Nat → Disk
  | 0 => ((d.move (f.numbered 0) (f.numbered 1)).toOption).getD d
  | n + 1 =>
    shift f (((d.move (f.numbered (n + 1)) (f.numbered (n + 2))).toOption).getD d) n

/-- Begin a new file. Without backups the old one goes on. -/
def rotate (f : File) (d : Disk) : Disk :=
  match f.backups.toNat with
  | 0 => d
  | n + 1 => let d := f.shift d n; ((f.begin d).toOption).getD d

/-- The file has to be rotated before a line is added. -/
def isFull (f : File) (d : Disk) (line : String) : Bool :=
  0 < f.maxBytes && f.maxBytes ≤ (f.content d).length + line.length

def add (f : File) (d : Disk) (line : String) : Disk :=
  let d := if f.isFull d line then f.rotate d else d
  ((d.write f.path (f.content d ++ Text.utf8Encode line.toList)).toOption).getD d

end File

end ActionEngine.Journal
