import Recordsmith.Path

/-! A store of files in directories, seen from one of the directories. -/

namespace Recordsmith

/-- Where a file or a directory lies, in steps from the root. -/
abbrev Place := List String

/-- Why a file cannot be read or written. -/
inductive StoreError
  | missing
  | isDirectory
  | notDirectory
  | exists
  deriving DecidableEq, Repr

/-- Files with their bytes, directories, and the directory that relative paths start from. The root is always a
    directory. -/
structure Store where
  files : List (Place × List UInt8) := []
  directories : List Place := []
  home : Place := []
  deriving DecidableEq, Repr, Inhabited

/-- Why a file was not saved, and the store that is left: directories that were made for it stay. -/
structure SaveError where
  cause : StoreError
  store : Store
  deriving DecidableEq, Repr

namespace Store

def file? (s : Store) (place : Place) : Option (List UInt8) := (s.files.find? (·.1 == place)).map (·.2)

def isFile (s : Store) (place : Place) : Bool := s.files.any (·.1 == place)

def isDirectory (s : Store) (place : Place) : Bool := place == [] || s.directories.contains place

def isThere (s : Store) (place : Place) : Bool := s.isFile place || s.isDirectory place

/-- Walks along steps from a directory. Every place on the way must be a directory, the last one need not exist. -/
def walk (s : Store) (place : Place) : List String → Except StoreError Place
  | [] => .ok place
  | step :: rest =>
    if s.isDirectory place then
      if step = ".." then s.walk place.dropLast rest else s.walk (place ++ [step]) rest
    else .error (if s.isFile place then .notDirectory else .missing)

/-- The place that a path leads to. -/
def resolve (s : Store) (path : Path) : Except StoreError Place :=
  s.walk (if path.anchor = .here then s.home else []) path.steps

def exists? (s : Store) (path : Path) : Bool :=
  match s.resolve path with
  | .ok place => s.isThere place
  | .error _ => false

/-- The bytes of the file at a path. -/
def read (s : Store) (path : Path) : Except StoreError (List UInt8) := do
  let place ← s.resolve path
  match s.file? place with
  | some bytes => .ok bytes
  | none => .error (if s.isDirectory place then .isDirectory else .missing)

def addDirectory (s : Store) (place : Place) : Store :=
  if s.isDirectory place then s else { s with directories := s.directories ++ [place] }

/-- Makes a place and all places on the way to it directories. A file among them stops it; behind a directory that was
    `made` before, it is found by making a directory in its place. -/
def makeDirectories (s : Store) (place : Place) (made : Bool) : List String → Except SaveError Store
  | [] => .ok s
  | step :: rest =>
    let next := if step = ".." then place.dropLast else place ++ [step]
    if s.isFile next then .error ⟨if rest.isEmpty || made then .exists else .notDirectory, s⟩
    else (s.addDirectory next).makeDirectories next (made || !s.isDirectory next) rest

/-- Makes the directory at a path, unless it is there. -/
def ensureDirectory (s : Store) (path : Path) : Except SaveError Store :=
  s.makeDirectories (if path.anchor = .here then s.home else []) false path.steps

/-- Replaces the bytes at a place, or adds a file there. -/
def put (place : Place) (bytes : List UInt8) : List (Place × List UInt8) → List (Place × List UInt8)
  | [] => [(place, bytes)]
  | entry :: rest => if entry.1 = place then (place, bytes) :: rest else entry :: put place bytes rest

/-- Writes a file in a directory that exists. -/
def write (s : Store) (path : Path) (bytes : List UInt8) : Except StoreError Store := do
  let place ← s.resolve path
  if s.isDirectory place then .error .isDirectory
  else if s.isDirectory place.dropLast then .ok { s with files := put place bytes s.files }
  else .error .missing

/-- Writes a file, making the directories on the way to it. -/
def save (s : Store) (path : Path) (bytes : List UInt8) : Except SaveError Store := do
  let s ← s.ensureDirectory path.parent
  (s.write path bytes).mapError fun cause => ⟨cause, s⟩

/-- A store with some files below its home, which is a directory as are those on the way to the files. -/
def ofFiles (home : Place) (files : List (Path × List UInt8)) : Store :=
  let start : Store := { home, directories := (List.range home.length).map fun n => home.take (n + 1) }
  files.foldl (fun s (path, bytes) => (s.save path bytes).toOption.getD s) start

/-- The files below the store's home, by their paths from there. -/
def localFiles (s : Store) : List (Path × List UInt8) :=
  s.files.filterMap fun (place, bytes) =>
    if s.home.isPrefixOf place then some (⟨.here, place.drop s.home.length⟩, bytes) else none

end Store

end Recordsmith
