import PageBuild.Files.Cause
import PageBuild.Files.Path
import PageBuild.Files.Tree

/-!
# Access by path

A path is followed from the current directory, or from the root, through directories that exist;
only its last name may be missing. The operations then look at, make, write or remove what stands
there, or fail with the cause that the operating system gives.
-/
namespace PageBuild

/-- The files of a machine as a program sees them from its current directory. -/
structure Files where
  tree : FileTree
  /-- The current directory. -/
  here : Location
  deriving Inhabited

/-- A computation on files that may fail. -/
abbrev FileM := ExceptT IoCause (StateM Files)

/-- The most bytes of a name. -/
def maxName : Nat := 255

/-- The most bytes of a path. -/
def maxPath : Nat := 4095

namespace Files

/-- Follow the pieces of a path from a location. -/
def follow (tree : FileTree) : Location → List String → Except IoCause Location
  | location, [] => .ok location
  | location, piece :: rest =>
    match tree.find? location with
    | none => .error .noEntry
    | some (.file _) => .error .notDirectory
    | some .directory =>
      if Path.isBlankPiece piece then follow tree location rest
      else if piece = ".." then follow tree location.dropLast rest
      else if maxName < piece.utf8ByteSize then .error .nameTooLong
      else follow tree (location ++ [piece]) rest

/-- The location of a path, at which nothing may stand yet, and whether the path ends in a slash,
so that only a directory can stand there. -/
def locate (files : Files) (path : Path) : Except IoCause (Location × Bool) :=
  if path.text.toList.contains '\x00' then .error .nulInName
  else if path.text = "" then .error .noEntry
  else if maxPath < path.text.utf8ByteSize then .error .nameTooLong
  else
    let start := if path.isAbsolute then [] else files.here
    let pieces := path.pieces
    let steps := (pieces.reverse.dropWhile (· = "")).reverse
    match follow files.tree start steps with
    | .ok location => .ok (location, steps.length < pieces.length)
    | .error cause => .error cause

/-- What stands at a path. -/
def stat (files : Files) (path : Path) : Except IoCause Entry :=
  match files.locate path with
  | .error cause => .error cause
  | .ok (location, slashed) =>
    match files.tree.find? location with
    | none => .error .noEntry
    | some .directory => .ok .directory
    | some (.file content) => if slashed then .error .notDirectory else .ok (.file content)

/-- Whether anything stands at a path. -/
def pathExists (files : Files) (path : Path) : Bool := (files.stat path).toOption.isSome

/-- Whether a directory stands at a path. -/
def isDirectory (files : Files) (path : Path) : Bool :=
  match files.stat path with
  | .ok .directory => true
  | _ => false

/-- Whether a file stands at a path. -/
def isFile (files : Files) (path : Path) : Bool :=
  match files.stat path with
  | .ok (.file _) => true
  | _ => false

/-- The content of the file at a path. -/
def readFile (files : Files) (path : Path) : Except IoCause ByteArray :=
  match files.stat path with
  | .error cause => .error cause
  | .ok .directory => .error .isDirectory
  | .ok (.file content) => .ok content

/-- The text of the file at a path. -/
def readText (files : Files) (path : Path) : Except IoCause String :=
  match files.readFile path with
  | .error cause => .error cause
  | .ok content =>
    match String.fromUTF8? content with
    | some text => .ok text
    | none => .error .invalidText

/-- Set what stands at a location. -/
def insert (files : Files) (location : Location) (entry : Entry) : Files :=
  { files with tree := files.tree.insert location entry }

/-- Put directories where nothing stands on the way from one location to another. -/
def plantDirectories (files : Files) (base : Location) : List String → Files
  | [] => files
  | name :: names =>
    let place := base ++ [name]
    plantDirectories
      (if (files.tree.find? place).isSome then files else files.insert place .directory)
      place names

/-- Put a file, or an empty directory for a path that ends in a slash, below a location, with the
directories that lead to it. -/
def plant (files : Files) (base : Location) (path : String) (content : ByteArray) : Files :=
  let names := (Text.split '/' path).filter fun name => name ≠ ""
  if path.toList.getLast? = some '/' then files.plantDirectories base names
  else
    (files.plantDirectories base names.dropLast).insert (base ++ names) (.file content)

/-- Make a directory where nothing stands. -/
def makeDirectory (files : Files) (path : Path) : Except IoCause Files :=
  match files.locate path with
  | .error cause => .error cause
  | .ok (location, _) =>
    match files.tree.find? location with
    | some _ => .error .alreadyExists
    | none => .ok (files.insert location .directory)

/-- Write a file, new or in place of its content. -/
def writeFile (files : Files) (path : Path) (content : ByteArray) : Except IoCause Files :=
  match files.locate path with
  | .error cause => .error cause
  | .ok (location, slashed) =>
    match files.tree.find? location with
    | some .directory => .error .isDirectory
    | some (.file _) =>
      if slashed then .error .notDirectory else .ok (files.insert location (.file content))
    | none =>
      if slashed then .error .isDirectory else .ok (files.insert location (.file content))

/-- Append to the file at a location, if one stands there. -/
def append (files : Files) (location : Location) (content : ByteArray) : Files :=
  match files.tree.find? location with
  | some (.file old) => files.insert location (.file (old ++ content))
  | _ => files

/-- Copy a file. The target is emptied before the source is read, so a file copied onto itself is
lost. -/
def copyFile (files : Files) (source target : Path) : Except IoCause Files :=
  match files.stat source with
  | .error cause => .error cause
  | .ok .directory => .error .notRegular
  | .ok (.file _) =>
    match files.writeFile target .empty with
    | .error cause => .error cause
    | .ok emptied =>
      match emptied.readFile source with
      | .error cause => .error cause
      | .ok content => emptied.writeFile target content

/-- Remove a file. -/
def removeFile (files : Files) (path : Path) : Except IoCause Files :=
  match files.locate path with
  | .error cause => .error cause
  | .ok (location, slashed) =>
    match files.tree.find? location with
    | none => .error .noEntry
    | some .directory => .error .isDirectory
    | some (.file _) =>
      if slashed then .error .notDirectory
      else .ok { files with tree := files.tree.erase location }

/-- Remove a directory and all below it. -/
def removeTree (files : Files) (path : Path) : Except IoCause Files :=
  match files.locate path with
  | .error cause => .error cause
  | .ok (location, _) =>
    match files.tree.find? location with
    | none => .error .noEntry
    | some (.file _) => .error .notDirectory
    | some .directory => .ok { files with tree := files.tree.eraseBelow location }

/-- The names in the directory at a path, in order. -/
def children (files : Files) (path : Path) : List String :=
  match files.locate path with
  | .error _ => []
  | .ok (location, _) => files.tree.children location

/-- A file or directory met on a walk, by its path and the names below where the walk began. -/
structure Walked where
  path : Path
  names : List String
  entry : Entry

/-- What stands at a path and below it, in the order of a depth-first walk with sorted names. -/
def walk (files : Files) (root : Path) : Except IoCause (List Walked) :=
  match files.locate root, files.stat root with
  | .ok (location, _), .ok entry =>
    .ok (⟨root, [], entry⟩ :: (files.tree.below location).map fun (names, entry) =>
      ⟨names.foldl (fun path name => path.join ⟨name⟩) root, names, entry⟩)
  | .error cause, _ => .error (.walking root.text cause)
  | _, .error cause => .error (.walking root.text cause)

/-- The files at a path and below it. -/
def listFiles (files : Files) (root : Path) : Except IoCause (List Walked) :=
  (files.walk root).map fun walked => walked.filter fun item =>
    match item.entry with
    | .file _ => true
    | .directory => false

end Files

namespace FileM

/-- A look at the files. -/
def look {α : Type} (view : Files → Except IoCause α) : FileM α := do
  match view (← get) with
  | .ok value => return value
  | .error cause => throw cause

/-- A change of the files. -/
def change (update : Files → Except IoCause Files) : FileM Unit := do
  match update (← get) with
  | .ok files => set files
  | .error cause => throw cause

/-- Make a directory and, before it, the directories on the way that are missing. What is a
directory already is left as it is. -/
def makeDirectories : Nat → Path → FileM Unit
  | 0, _ => throw (.other "failed to create whole tree")
  | depth + 1, path => do
    if path.text = "" then return ()
    match (← get).makeDirectory path with
    | .ok files => set files
    | .error .noEntry =>
      match path.parent? with
      | none => throw (.other "failed to create whole tree")
      | some parent =>
        makeDirectories depth parent
        match (← get).makeDirectory path with
        | .ok files => set files
        | .error cause => if !(← get).isDirectory path then throw cause
    | .error cause => if !(← get).isDirectory path then throw cause

/-- Make the directories of a path. -/
def ensureDirectory (path : Path) : FileM Unit := makeDirectories (path.text.length + 1) path

/-- Make the directories that a path lies in. -/
def ensureParent (path : Path) : FileM Unit := do
  match path.parent? with
  | some parent => ensureDirectory parent
  | none => return ()

/-- Copy what stands at a path and below it, and count the files. Each directory is read after
its copy was made. The names in it are taken in order, where a file system lists them in one of its own.
The two orders differ in what they leave when the copying fails part of the way, or when what is copied
lands on what is still to be copied. -/
def copyNode : Nat → Path → Path → FileM Nat
  | 0, _, _ => throw .nameTooLong
  | depth + 1, source, target => do
    match ← look (·.stat source) with
    | .directory =>
      ensureDirectory target
      let names := (← get).children source
      names.foldlM
        (fun copied name => do
          return copied + (← copyNode depth (source.join ⟨name⟩) (target.join ⟨name⟩)))
        0
    | .file _ =>
      ensureParent target
      change (·.copyFile source target)
      return 1

/-- Copy a directory, or a file, to a path below which it is to stand, and count the files. -/
def copyTree (source target : Path) : FileM Nat := do
  match (← get).stat source with
  | .error cause => throw (.walking source.text cause)
  | .ok _ => copyNode (maxPath + 1) source (target.join ⟨""⟩)

end FileM

end PageBuild
