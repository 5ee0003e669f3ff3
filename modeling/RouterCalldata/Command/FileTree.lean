import RouterCalldata.Bytes.Hex

/-!
# Files as the program sees them

The program reads files through a look-up from path texts to trees, so that
everything it does is a function of its arguments and of the tree of its
working directory.

## Main definitions

* `FileTree`: a file with its bytes, or a directory with its entries;
* `FileError`: why a file cannot be read, with the system's wording;
* `Lookup`: what is found at a path; `FileTree.lookup`: in a given directory;
* `FileTree.ofFiles`: the directory that holds some files;
* `Lookup.readText`: the text of a file;
* `FileTree.walk`: everything below a path, in the order of path components.
-/

namespace RouterCalldata

/-- A file or a directory. -/
inductive FileTree
  | file (content : Bytes)
  | directory (entries : List (String × FileTree))

/-- Why a file cannot be read. -/
inductive FileError
  | missing
  | notDirectory
  | isDirectory
  | notText
  deriving DecidableEq, Repr

/-- The system's wording. -/
def FileError.message : FileError → String
  | missing => "No such file or directory (os error 2)"
  | notDirectory => "Not a directory (os error 20)"
  | isDirectory => "Is a directory (os error 21)"
  | notText => "stream did not contain valid UTF-8"

/-- What is found at a path. -/
abbrev Lookup := String → Except FileError FileTree

/-- The text that bytes encode in UTF-8. -/
def textOfUtf8? (bs : Bytes) : Option String :=
  String.fromUTF8? ⟨bs.toArray⟩

namespace Lookup

/-- The bytes of a file. -/
def readBytes (files : Lookup) (path : String) : Except FileError Bytes := do
  match ← files path with
  | .file content => return content
  | .directory _ => throw .isDirectory

/-- The text of a file. -/
def readText (files : Lookup) (path : String) : Except FileError String := do
  match textOfUtf8? (← files.readBytes path) with
  | some s => return s
  | none => throw .notText

end Lookup

/-! ## Paths -/

namespace Path

/-- The components of a path as they are written. -/
def components (path : String) : List String := (path.toList.splitOn '/').map String.ofList

/-- The name at the end of a path, slashes and single dots behind it
disregarded. -/
def fileName? (path : String) : Option String :=
  match ((components path).filter fun c => c != "" && c != ".").getLast? with
  | some ".." => none
  | name => name

/-- The part of a name behind its last dot, which must not be its first
character. -/
def extension? (name : String) : Option String :=
  match (name.toList.reverse.takeWhile (· != '.'), name.toList.reverse.dropWhile (· != '.')) with
  | (_, []) => none
  | (_, [_]) => none
  | (ext, _) => some (String.ofList ext.reverse)

/-- The path of an entry of a directory. -/
def join (path name : String) : String :=
  if path.endsWith "/" then path ++ name else path ++ "/" ++ name

end Path

namespace FileTree

/-! ## Looking up -/

/-- Follows path components from the innermost of some nested directories. -/
def follow (t : FileTree) (outer : List FileTree) : List String → Except FileError FileTree
  | [] => .ok t
  | c :: rest =>
      match t with
      | .file _ => .error .notDirectory
      | .directory entries =>
          if c = "" ∨ c = "." then follow t outer rest
          else if c = ".." then
            match outer with
            | [] => .error .missing
            | parent :: outer => follow parent outer rest
          else
            match entries.lookup c with
            | some child => follow child (t :: outer) rest
            | none => .error .missing

/-- What a path leads to from a directory.  Nothing is known of what lies
outside it. -/
def lookup (t : FileTree) : Lookup := fun path =>
  if path = "" ∨ path.startsWith "/" then .error .missing
  else t.follow [] (Path.components path)

/-! ## Building -/

/-- The tree of a single file at the given components. -/
def single (content : Bytes) : List String → FileTree
  | [] => file content
  | c :: rest => directory [(c, single content rest)]

/-- Replaces the tree of a name, or adds one. -/
def putEntry (name : String) (f : Option FileTree → FileTree) :
    List (String × FileTree) → List (String × FileTree)
  | [] => [(name, f none)]
  | e :: rest => if e.1 = name then (name, f (some e.2)) :: rest else e :: putEntry name f rest

/-- Puts a file into a tree, making directories as needed. -/
def put (content : Bytes) : List String → Option FileTree → FileTree
  | [], _ => file content
  | c :: rest, some (directory entries) => directory (putEntry c (put content rest) entries)
  | cs, _ => single content cs

/-- The directory that holds some files, given by path and content. -/
def ofFiles (files : List (String × Bytes)) : FileTree :=
  files.foldl
    (fun t f =>
      let cs := (Path.components f.1).filter fun c => c != "" && c != "."
      if cs.isEmpty then t else put f.2 cs (some t))
    (directory [])

/-! ## Walking -/

mutual

/-- A path with everything below it.  A directory comes before its entries,
and these come in the order of their names. -/
def walk (path : String) : FileTree → List (String × FileTree)
  | file content => [(path, file content)]
  | directory entries =>
      (path, directory entries) ::
        ((walkEntries path entries).mergeSort fun a b => decide (a.1 ≤ b.1)).flatMap (·.2)

/-- For each entry of a directory its name and what is at and below it. -/
def walkEntries (path : String) :
    List (String × FileTree) → List (String × List (String × FileTree))
  | [] => []
  | (name, t) :: rest => (name, walk (Path.join path name) t) :: walkEntries path rest

end

end FileTree

end RouterCalldata
