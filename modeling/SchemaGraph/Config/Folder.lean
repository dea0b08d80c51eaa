import SchemaGraph.Text.Basic
import SchemaGraph.Text.Utf8

namespace SchemaGraph

inductive Entry
  | missing
  | directory
  -- A part of the path before the last is a file.
  | belowFile
  -- The path or a part of it has more bytes than a path may have.
  | tooLong
  | file (bytes : List UInt8)
  deriving DecidableEq, Repr

abbrev Folder := String → Entry

namespace Path

def maxBytes : Nat := 4095

def maxPartBytes : Nat := 255

def root (cs : List Char) : String :=
  match (cs.takeWhile (· == '/')).length with
  | 0 => ""
  | 2 => "//"
  | _ => "/"

def parts (path : String) : List String :=
  ((Text.cut (· == '/') path.toList).map String.ofList).filter fun part => part != "" && part != "."

def normalize (path : String) : String :=
  let normal := root path.toList ++ "/".intercalate (parts path)
  if normal.isEmpty then "." else normal

def isAbsolute (path : String) : Bool :=
  path.toList.head? == some '/'

end Path

namespace Folder

abbrev File := List String × List UInt8

-- What the parts lead to from outside the folder, where only directories on the way up are known.
def outside (parts : List String) : Entry :=
  match parts.dropWhile (· == "..") with
  | []        => .directory
  | part :: _ => if Path.maxPartBytes < part.utf8ByteSize then .tooLong else .missing

def walk (files : List File) : (place parts : List String) → Entry
  | _,     []            => .directory
  | place, part :: parts =>
    if Path.maxPartBytes < part.utf8ByteSize then .tooLong
    else if part = ".." then
      match place with
      | []         => outside parts
      | _ :: place => walk files place parts
    else
      let place := part :: place
      match files.lookup place.reverse with
      | some bytes => if parts.isEmpty then .file bytes else .belowFile
      | none       =>
        if files.any fun (name, _) => place.reverse.isPrefixOf name then walk files place parts
        else .missing

-- The folder that holds these files; of several of one name the last one counts.
def ofFiles (files : List (String × List UInt8)) : Folder := fun path =>
  let files := files.reverse.map fun (name, bytes) => (Path.parts name, bytes)
  if Path.maxBytes < path.utf8ByteSize then .tooLong
  else if Path.isAbsolute path then outside (Path.parts path)
  else walk files [] (Path.parts path)

end Folder
end SchemaGraph
