import PageBuild.Build.Host

/-!
# Stores

A store keeps objects under keys with slashes; slashes at the start of a key do not count. The
local store keeps each object as a file below its root, and the cache header of each object as a
file at the same key below a directory of its own, which listings leave out.

Pages and manifests keep their name from one version to the next, so they are never cached; every
other file is cached for a year.
-/
namespace PageBuild

/-! ## Cache headers -/

/-- The header of files that must be checked each time. -/
def noCache : String := "no-cache"

/-- The header of files that never change. -/
def longCache : String := "max-age=31536000, public"

/-- The header of a file, by its extension. -/
def Path.cacheControl (path : Path) : String :=
  if path.extension? = some "html" ∨ path.extension? = some "json" then noCache else longCache

/-! ## Objects -/

/-- An object of a store. -/
structure StoredObject where
  key : String
  /-- The bytes of the object. -/
  size : Nat
  deriving DecidableEq, Repr

/-- Where artifacts are published. -/
structure Store (σ : Type) where
  /-- Upload a file under a key, with the cache header it is to be served with. -/
  put : String → Path → String → HostM σ Unit
  /-- The objects whose keys start with a text, up to a number of them. -/
  list : String → Nat → HostM σ (List StoredObject)
  /-- Where objects are served from, when the store knows. -/
  baseUrl : Option String

/-- A key without the slashes at its start. -/
def plainKey (key : String) : String := String.ofList (key.toList.dropWhile (· == '/'))

/-- A store in a directory. -/
structure LocalStore where
  root : Path
  deriving DecidableEq, Repr

namespace LocalStore

variable {σ : Type}

/-- The directory of the cache headers, in the root. -/
def headerDirectory : String := ".loom-meta"

/-- Where an object is kept. -/
def objectPath (store : LocalStore) (key : String) : Path := store.root.join ⟨plainKey key⟩

/-- Where the cache header of an object is kept. -/
def headerPath (store : LocalStore) (key : String) : Path :=
  (store.root.join ⟨headerDirectory⟩).join ⟨plainKey key⟩

/-- The cache header of an object, if one is kept. -/
def cacheControl (store : LocalStore) (files : Files) (key : String) : Option String :=
  (files.readText (store.headerPath key)).toOption

/-- Whether a key names a place that is not above the root. -/
def accepts (key : String) : Bool :=
  plainKey key ≠ "" && !(Text.split '/' (plainKey key)).contains ".."

/-- Keep a file as an object. -/
def put (store : LocalStore) (key : String) (file : Path) (cache : String) : HostM σ Unit := do
  if !accepts key then throw (.publish ("invalid object key '" ++ plainKey key ++ "'"))
  HostM.onFiles (FileM.ensureParent (store.objectPath key))
  HostM.onFiles (FileM.ensureParent (store.headerPath key))
  HostM.onFiles (FileM.change (·.copyFile file (store.objectPath key)))
  HostM.onFiles (FileM.change (·.writeFile (store.headerPath key) cache.toUTF8))

/-- Whether something met on a walk stands outside the directory of the cache headers. -/
def isListed (store : LocalStore) (item : Files.Walked) : Bool :=
  store.root.fileName? ≠ some headerDirectory && !item.names.contains headerDirectory

/-- The object that a file is, when its key starts with a text. -/
def objectOf? (store : LocalStore) (start : String) (item : Files.Walked) : Option StoredObject :=
  match item.entry with
  | .directory => none
  | .file content =>
    let key := Path.relativeKey store.root item.path
    if start.toList.isPrefixOf key.toList then some ⟨key, content.size⟩ else none

/-- The objects whose keys start with a text, in the order of a depth-first walk; at least the
first one, even when none is asked for. -/
def list (store : LocalStore) (start : String) (limit : Nat) : HostM σ (List StoredObject) := do
  if !(← get).files.pathExists store.root then return []
  let walked ← HostM.onFiles (FileM.look (·.walk store.root))
  return ((walked.filter store.isListed).filterMap (store.objectOf? (plainKey start))).take
    (max limit 1)

/-- The local store as a store. -/
def toStore (store : LocalStore) : Store σ where
  put := store.put
  list := store.list
  baseUrl := some ("file://" ++ store.root.text)

end LocalStore

end PageBuild
