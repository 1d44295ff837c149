import Callsite.FileStore

/-!
# File trees

A file system in memory, below a working directory. Directories and files are found by the names
that lead to them. Of what lies above the working directory only the directories are known that
lead there.
-/

namespace Callsite

structure FileTree where
  directories : List (List Text) := []
  files : List (List Text × List UInt8) := []
  workingDirectory : Text := []

namespace FileTree

def isDirectory (tree : FileTree) (key : List Text) : Bool :=
  key.isEmpty || tree.directories.contains key

def file? (tree : FileTree) (key : List Text) : Option (List UInt8) :=
  (tree.files.find? (·.1 = key)).map Prod.snd

/-- Adds a directory and those above it. -/
def addDirectory (tree : FileTree) (key : List Text) : FileTree :=
  let new := (List.range key.length).map fun n => key.take (n + 1)
  { tree with directories := tree.directories ++ new.filter (!tree.directories.contains ·) }

/-- Puts content in the place of a file, or adds the file. -/
def setFile (tree : FileTree) (key : List Text) (content : List UInt8) : FileTree :=
  if (tree.file? key).isSome then
    { tree with files := tree.files.map fun f => if f.1 = key then (key, content) else f }
  else { tree with files := tree.files ++ [(key, content)] }

def nameLimit : Nat := 255
def pathLimit : Nat := 4096

/-- Where a path leads: to a key of the tree, or to a directory above it. -/
inductive Place
  | inside (key : List Text)
  | above
  deriving DecidableEq

/-- Goes on from a directory above the tree, of which nothing is known but what lies above it. -/
def followAbove : List Text → Except SystemErrorCode Place
  | [] => .ok .above
  | name :: rest =>
    if name = Text.ofString "." || name = Text.ofString ".." then followAbove rest
    else .error .notFound

/-- Follows names from a directory. Every name but the last must lead to a directory; the last need
not lead anywhere. -/
def follow (tree : FileTree) : List Text → List Text → Except SystemErrorCode Place
  | here, [] => .ok (.inside here)
  | here, name :: rest =>
    if !tree.isDirectory here then
      .error (if (tree.file? here).isSome then .notADirectory else .notFound)
    else if name = Text.ofString "." then follow tree here rest
    else if name = Text.ofString ".." then
      if here.isEmpty then followAbove rest else follow tree here.dropLast rest
    else if FileName.byteLength name > nameLimit then .error .nameTooLong
    else follow tree (here ++ [name]) rest

/-- The place of a path. A slash at the end asks for a directory. -/
def locate (tree : FileTree) (path : Text) : Except SystemErrorCode Place :=
  let names := (path.splitOn '/').filter (· ≠ [])
  if path.isEmpty then .error .notFound
  else if FileName.byteLength path ≥ pathLimit then .error .nameTooLong
  else if path.startsWith "/" then followAbove names
  else follow tree [] (if path.endsWith "/" then names ++ [Text.ofString "."] else names)

def read (tree : FileTree) (path : Text) : Except SystemErrorCode (List UInt8) := do
  match ← tree.locate path with
  | .above => throw .isADirectory
  | .inside key =>
    if tree.isDirectory key then throw .isADirectory
    else match tree.file? key with
      | some content => return content
      | none => throw .notFound

/-- The names right below a key, among longer keys. -/
def below (key : List Text) (keys : List (List Text)) : List Text :=
  keys.filterMap fun k => if k.dropLast = key then k.getLast? else none

def list (tree : FileTree) (path : Text) : Except SystemErrorCode (List (Text × Bool)) := do
  match ← tree.locate path with
  | .above => return []
  | .inside key =>
    if tree.isDirectory key then
      return (below key tree.directories).map (·, false) ++
        (below key (tree.files.map Prod.fst)).map (·, true)
    else if (tree.file? key).isSome then throw .notADirectory
    else throw .notFound

def write (tree : FileTree) (path : Text) (content : List UInt8) :
    Except SystemErrorCode FileTree := do
  match ← tree.locate path with
  | .above => throw .isADirectory
  | .inside key =>
    if tree.isDirectory key then throw .isADirectory
    else return tree.setFile key content

end FileTree

instance : FileStore (StateM FileTree) where
  read path := do
    return ((← get).read path).mapError (⟨·, path⟩)
  list path := do
    return ((← get).list path).mapError (⟨·, path⟩)
  write path content := do
    match (← get).write path content with
    | .ok tree =>
      set tree
      return .ok ()
    | .error code => return .error ⟨code, path⟩
  workingDirectory := FileTree.workingDirectory <$> get

end Callsite
