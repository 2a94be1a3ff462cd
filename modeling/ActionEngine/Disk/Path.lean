import ActionEngine.Fault

/-!
# Paths

A path names a file by the directories that lead to it. It is absolute or starts at
the working directory. Empty parts and single dots say nothing and are dropped when a
path is read; double dots are kept, because what they mean depends on the disk.
-/

namespace ActionEngine

/-- A path. An absolute path starts with one slash, or with exactly two. -/
structure Path where
  slashes : Nat := 0
  parts : List String := []
deriving DecidableEq, Repr, Inhabited

namespace Path

/-- The pieces of a text between slashes. -/
def pieces : List Char → List (List Char)
  | [] => [[]]
  | c :: rest =>
    if c == '/' then [] :: pieces rest
    else match pieces rest with
      | [] => [[c]]
      | piece :: more => (c :: piece) :: more

/-- A piece that names something. -/
def isPart (piece : List Char) : Bool :=
  piece != [] && piece != ['.']

def ofText (s : String) : Path :=
  let n := (s.toList.takeWhile (· == '/')).length
  { slashes := if 2 < n then 1 else n
    parts := ((pieces s.toList).filter isPart).map String.ofList }

def text (p : Path) : String :=
  if p.slashes == 0 && p.parts.isEmpty then "."
  else String.ofList (List.replicate p.slashes '/') ++ String.intercalate "/" p.parts

def isAbsolute (p : Path) : Bool :=
  p.slashes != 0

def child (p : Path) (part : String) : Path :=
  { p with parts := p.parts ++ [part] }

/-- A path behind another one; an absolute path stays as it is. -/
def append (p q : Path) : Path :=
  if q.isAbsolute then q else { p with parts := p.parts ++ q.parts }

def parent (p : Path) : Path :=
  { p with parts := p.parts.dropLast }

/-- The last part; empty if there is none. -/
def name (p : Path) : String :=
  p.parts.getLast?.getD ""

/-- A name without its suffix: the part behind the last dot, if the dot is neither the
    first nor the last character. -/
def stem (name : List Char) : List Char :=
  let behind := name.reverse.takeWhile (· != '.')
  let before := (name.reverse.drop (behind.length + 1)).reverse
  if behind.isEmpty || before.isEmpty then name else before

/-- The path with another suffix. Only a path with a name has one. -/
def withSuffix (p : Path) (suffix : String) : Except Fault Path :=
  if p.name == "" then
    .error (.value ("PosixPath(" ++ p.text.quotedText ++ ") has an empty name"))
  else .ok (p.parent.child (String.ofList (stem p.name.toList) ++ suffix))

/-- A tilde at the start stands for the home directory. That of somebody else is not
    known. -/
def expandHome (p home : Path) : Except Fault Path :=
  match p.isAbsolute, p.parts with
  | false, first :: rest =>
    if first == "~" then .ok { home with parts := home.parts ++ rest }
    else if first.toList.head? == some '~' then
      .error (.system .runtime (some "Could not determine home directory."))
    else .ok p
  | _, _ => .ok p

/-- The path that a value spells, which has to be a text. A half in it is shown by its unit. -/
def ofValue : Value → Except Fault Path
  | .text s => .ok (ofText s.display)
  | .bytes _ => .error (.wrongKind ("argument should be a str object or an os.PathLike object " ++
      "returning str, not <class 'bytes'>"))
  | other => .error (.wrongKind
      ("expected str, bytes or os.PathLike object, not " ++ other.kind))

end Path

end ActionEngine
