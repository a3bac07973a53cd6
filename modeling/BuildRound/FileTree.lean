import BuildRound.Error

/-!
# File trees

Directories and files, without links. A path is looked up segment by segment from the root or from the
current directory: `..` leads to the directory above, so the directories before it have to exist, and
every segment that something follows has to be a directory, even if what follows is empty.
-/

namespace BuildRound

/-- A file with its bytes, or a directory with its entries. -/
inductive FileTree where
  | file (content : ByteArray)
  | directory (entries : List (String × FileTree))

namespace FileTree

def empty : FileTree :=
  directory []

def isDirectory : FileTree → Bool
  | directory _ => true
  | file _ => false

/-- Replace an entry of a directory, or add it at the end. -/
def setEntry (name : String) (t : FileTree) : List (String × FileTree) → List (String × FileTree)
  | [] => [(name, t)]
  | (n, old) :: rest => if n = name then (n, t) :: rest else (n, old) :: setEntry name t rest

/-- Put something into a tree, making the directories on the way. Nothing changes if a file is in the
way, or if a directory is put where there is one. -/
def put (what : FileTree) : List String → FileTree → FileTree
  | _, file content => file content
  | [], directory entries => directory entries
  | [name], directory entries =>
      match what, entries.lookup name with
      | directory [], some (directory _) => directory entries
      | _, _ => directory (setEntry name what entries)
  | name :: rest, directory entries =>
      directory (setEntry name (put what rest ((entries.lookup name).getD empty)) entries)

/-! ## Places -/

/-- A place in a tree, with the directories around it and the names taken in them, the nearest first. -/
structure Place where
  here : FileTree
  above : List (FileTree × String) := []

/-- The names from the root to a place. -/
def Place.names (p : Place) : List String :=
  (p.above.map (·.2)).reverse

/-- The longest name of a file, in bytes. -/
def maxName : Nat := 255

/-- The longest path, in bytes. -/
def maxPath : Nat := 4095

/-- Go on by one segment. -/
def Place.step (p : Place) (segment : List Char) : Except ReadError Place :=
  match p.here with
  | file _ => .error .notDirectory
  | directory entries =>
      match Component.ofSegment? segment with
      | none => .ok p
      | some .parent =>
          match p.above with
          | [] => .ok p
          | (t, _) :: rest => .ok ⟨t, rest⟩
      | some _ =>
          let name := String.ofList segment
          if name.utf8ByteSize > maxName then .error .nameTooLong
          else
            match entries.lookup name with
            | none => .error .notFound
            | some t => .ok ⟨t, (p.here, name) :: p.above⟩

def Place.walk (p : Place) : List (List Char) → Except ReadError Place
  | [] => .ok p
  | segment :: rest =>
      match p.step segment with
      | .error e => .error e
      | .ok q => q.walk rest

end FileTree

structure FileSystem where
  root : FileTree
  current : List String := []

namespace FileSystem

def top (fs : FileSystem) : FileTree.Place :=
  ⟨fs.root, []⟩

/-- Where looking up a path begins. Some texts are no path to anything. -/
def start (fs : FileSystem) (p : Path) : Except ReadError FileTree.Place :=
  if p.text.toList.contains (Char.ofNat 0) then .error .invalidInput
  else if p.text.isEmpty then .error .notFound
  else if p.text.utf8ByteSize > FileTree.maxPath then .error .nameTooLong
  else if p.isAbsolute then .ok fs.top
  else fs.top.walk (fs.current.map String.toList)

def find (fs : FileSystem) (p : Path) : Except ReadError FileTree.Place :=
  match fs.start p with
  | .error e => .error e
  | .ok place => place.walk (Path.segments p.text.toList)

def pathExists (fs : FileSystem) (p : Path) : Bool :=
  (fs.find p).toBool

def isDirectory (fs : FileSystem) (p : Path) : Bool :=
  match fs.find p with
  | .ok place => place.here.isDirectory
  | .error _ => false

/-! ## Making directories -/

/-- What comes of making one directory. -/
inductive Making where
  | made (fs : FileSystem)
  /-- The directory it would be in does not exist. -/
  | noParent
  | refused

/-- Make one directory. Slashes at the end of its path do not count, but a `.` there does: it is a name that
is always taken, in a directory that has to exist. -/
def makeDirectory (fs : FileSystem) (p : Path) : Making :=
  let parent (segments : List (List Char)) : Except ReadError FileTree.Place :=
    match fs.start p with
    | .error e => .error e
    | .ok place => place.walk segments
  let backwards := (Path.segments p.text.toList).reverse.dropWhile List.isEmpty
  match parent backwards.tail.reverse with
  | .error .notFound => .noParent
  | .error _ => .refused
  | .ok place =>
      match place.here, (backwards.head?.bind Component.ofSegment?) with
      | .directory entries, some (.name name) =>
          if name.utf8ByteSize > FileTree.maxName || (entries.lookup name).isSome then .refused
          else .made { fs with root := FileTree.put .empty (place.names ++ [name]) fs.root }
      | _, _ => .refused

/-- Make the directory at the first of some paths. If the directory it would be in does not exist, make the
directory at the next path and try once more. The answer says whether the directory is there in the end;
what was made on the way stays. -/
def makeFirst : List Path → FileSystem → Bool × FileSystem
  | [], fs => (false, fs)
  | p :: above, fs =>
      if p.text.isEmpty then (true, fs)
      else
        match fs.makeDirectory p with
        | .made fs => (true, fs)
        | .refused => (fs.isDirectory p, fs)
        | .noParent =>
            match makeFirst above fs with
            | (false, fs) => (false, fs)
            | (true, fs) =>
                match fs.makeDirectory p with
                | .made fs => (true, fs)
                | _ => (fs.isDirectory p, fs)

/-- Make a directory and those that popping its path gives, as far as they do not exist. -/
def makeDirectories (fs : FileSystem) (p : Path) : Bool × FileSystem :=
  makeFirst p.ancestors fs

/-! ## Reading and writing -/

def createFile (fs : FileSystem) (directory : Path) (name : String) : FileSystem :=
  match if directory.text.isEmpty then fs.top.walk (fs.current.map String.toList) else fs.find directory with
  | .error _ => fs
  | .ok place => { fs with root := FileTree.put (.file .empty) (place.names ++ [name]) fs.root }

def readText (fs : FileSystem) (p : Path) : Except ReadError String :=
  match fs.find p with
  | .error e => .error e
  | .ok place =>
      match place.here with
      | .directory _ => .error .isDirectory
      | .file content =>
          match String.fromUTF8? content with
          | none => .error .invalidData
          | some text => .ok text

end FileSystem

end BuildRound
