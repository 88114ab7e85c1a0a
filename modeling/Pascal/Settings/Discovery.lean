import Pascal.Settings.Reader

/-!
# Finding settings

Settings are kept in a file of a fixed name, in the directory where the work is done or in one of
those around it. The nearest one counts.
-/

namespace Pascal

/-- The names on the way from the root, as they are written between slashes. -/
abbrev DirPath := List String

namespace DirPath

/-- Whether a name leads nowhere else: it is empty or a dot. -/
def stays (name : String) : Bool := name = "" || name = "."

/-- The path that a text writes. A slash at its end begins no further name. -/
def ofText (text : String) : DirPath :=
  let names := text.splitOn "/"
  if names.getLast? = some "" then names.dropLast else names

/-- The text of a path, without the names at its front that lead nowhere else. -/
def text (path : DirPath) : String := "/".intercalate (path.dropWhile stays)

/-- The names of a path that lead on. -/
def leading (path : DirPath) : DirPath := path.filter fun name => !stays name

end DirPath

/-- Files and directories below a root, at paths whose names all lead on. A directory is there as
soon as something lies in it. -/
structure FileTree where
  files : List (DirPath × ByteArray) := []
  directories : List DirPath := []

namespace FileTree

/-- The name that leads to the directory around. -/
def outward : String := ".."

def isDirectory (tree : FileTree) (place : DirPath) : Bool :=
  place.isEmpty
    || tree.directories.any (fun path => place.isPrefixOf path)
    || tree.files.any (fun (path, _) => place.isPrefixOf path && place != path)

def content? (tree : FileTree) (place : DirPath) : Option ByteArray := tree.files.lookup place

def isThere (tree : FileTree) (place : DirPath) : Bool :=
  tree.isDirectory place || (tree.content? place).isSome

/-- Takes one step along a path. Steps outward need a directory to start from, and end at the
root. -/
def step? (tree : FileTree) (place : DirPath) (name : String) : Option DirPath :=
  if DirPath.stays name then some place
  else if name = outward then
    if tree.isDirectory place && !place.isEmpty then some place.dropLast else none
  else some (place ++ [name])

def resolve? (tree : FileTree) (path : DirPath) : Option DirPath :=
  path.foldlM tree.step? []

def reaches (tree : FileTree) (path : DirPath) : Bool :=
  (tree.resolve? path).any tree.isThere

end FileTree

namespace Settings

def fileName : String := "delfin.toml"

/-- The directories from one outward to the root. The paths of those around it end with a name
that leads on. -/
def outwards (directory : DirPath) : List DirPath :=
  let around := (List.range directory.length).reverse.map fun depth => directory.take depth
  directory :: around.filter fun path => path.getLast?.all fun name => !DirPath.stays name

/-- The path of the nearest settings file from a directory outward. -/
def nearest? (tree : FileTree) (directory : DirPath) : Option DirPath :=
  ((outwards directory).map (· ++ [fileName])).find? tree.reaches

def loadAt (tree : FileTree) (path : DirPath) : Except SettingsError Settings :=
  match (tree.resolve? path).bind tree.content? with
  | some content => load content
  | none => .error .unreadable

/-- The settings in the nearest file from a directory outward. The defaults stand in for a file
that is missing or refused. -/
def loadNearest (tree : FileTree) (directory : DirPath) : Settings :=
  match (nearest? tree directory).map (loadAt tree) with
  | some (.ok settings) => settings
  | _ => {}

end Settings

end Pascal
