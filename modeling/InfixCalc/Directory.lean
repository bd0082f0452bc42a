import InfixCalc.Error
/-!
# Directories and paths

A tree of directories and files, the resolution of a path in it, and what keeps a file from being read
as text.
-/

namespace InfixCalc

/-- Why a file cannot be read as text. -/
inductive ReadError where
  | notFound
  | notDirectory
  | isDirectory
  | notText
deriving DecidableEq, Repr

namespace ReadError

def reason : ReadError → String
  | notFound => "No such file or directory (os error 2)"
  | notDirectory => "Not a directory (os error 20)"
  | isDirectory => "Is a directory (os error 21)"
  | notText => "stream did not contain valid UTF-8"

/-- The failure to read from a path. -/
def toFailure (path : String) (error : ReadError) : Failure :=
  .input ("Failed to read " ++ path ++ ": " ++ error.reason)

end ReadError

/-- The text of a byte stream. -/
def decodeText (bytes : ByteArray) : Except ReadError String :=
  match String.fromUTF8? bytes with
  | some text => .ok text
  | none => .error .notText

mutual

inductive Entry where
  | file (content : ByteArray)
  | directory (entries : Directory)

/-- The named entries of a directory. -/
inductive Directory where
  | empty
  | cons (name : String) (entry : Entry) (rest : Directory)

end

namespace Directory

def find? (name : String) : Directory → Option Entry
  | empty => none
  | cons key entry rest => if key = name then some entry else rest.find? name

/-- The names of a path. Those that stay in a directory, empty ones and single points, are kept: they
ask for a directory. -/
def pathNames (path : String) : List String :=
  (path.toList.splitOn '/').map String.ofList

/-- Follows the names of a path from a directory, whose parents are given from the innermost out. The
outermost directory is its own parent. -/
def follow (parents : List Directory) (here : Directory) : List String → Except ReadError Entry
  | [] => .ok (.directory here)
  | name :: names =>
    if name = "" ∨ name = "." then follow parents here names
    else if name = ".." then
      match parents with
      | [] => follow [] here names
      | parent :: rest => follow rest parent names
    else match here.find? name with
      | none => .error .notFound
      | some (.directory inner) => follow (here :: parents) inner names
      | some (.file content) => if names = [] then .ok (.file content) else .error .notDirectory

/-- The last of a list of directories from the innermost out. -/
def outermost (parents : List Directory) (here : Directory) : Directory :=
  parents.getLastD here

/-- The entry of a path. The empty path has none, and a path that begins with a slash starts from the
outermost directory. -/
def resolve (parents : List Directory) (here : Directory) (path : String) : Except ReadError Entry :=
  match pathNames path with
  | [""] => .error .notFound
  | "" :: names => follow [] (outermost parents here) names
  | names => follow parents here names

/-- The bytes of the file at a path. -/
def read (parents : List Directory) (here : Directory) (path : String) :
    Except ReadError ByteArray :=
  match resolve parents here path with
  | .ok (.file content) => .ok content
  | .ok (.directory _) => .error .isDirectory
  | .error e => .error e

end Directory

end InfixCalc
