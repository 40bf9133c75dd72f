import TypedMessage.Bytes

/- Files and folders, and where a path leads among them. A path is a row of names
   with slashes between them; it starts at the root if a slash comes first, and in
   the working folder otherwise. -/
namespace TypedMessage.CommandLine

/-- Why the system does not hand out a file: its number for the fault, and its
    words for it. -/
structure SystemFault where
  code : Nat
  text : String
  deriving DecidableEq, Repr

namespace SystemFault

def missing : SystemFault := ⟨2, "No such file or directory"⟩

def notFolder : SystemFault := ⟨20, "Not a directory"⟩

def isFolder : SystemFault := ⟨21, "Is a directory"⟩

def nameTooLong : SystemFault := ⟨36, "File name too long"⟩

def message (f : SystemFault) : String :=
  f.text ++ " (os error " ++ toString f.code ++ ")"

end SystemFault

/-- What a name in a folder stands for. -/
inductive FileTree
  | file (content : Bytes)
  | folder (entries : List (String × FileTree))

namespace FileTree

/-- The bytes that a name may have. -/
def maxName : Nat := 255

/-- The bytes that a path may have. -/
def maxPath : Nat := 4095

/-- The names in a path. Between two slashes, and outside a slash at an end, stands
    the empty name. -/
def names (path : String) : List String :=
  (path.toList.foldr
    (fun c ns => if c = '/' then [] :: ns else (c :: ns.headD []) :: ns.tail) [[]]).map
    String.ofList

/-- Where names lead from `here`; `above` are the folders around it, the nearest
    first. The empty name and the dot stay, two dots go up, and nothing is above the
    root. -/
def follow : (above : List FileTree) → (here : FileTree) → (names : List String) →
    Except SystemFault FileTree
  | _, here, [] => .ok here
  | _, file _, _ :: _ => .error .notFolder
  | above, folder entries, name :: names =>
    if name = "" ∨ name = "." then follow above (folder entries) names
    else if name = ".." then
      follow above.tail (above.headD (folder entries)) names
    else if maxName < name.utf8ByteSize then .error .nameTooLong
    else match entries.find? (·.1 = name) with
      | none => .error .missing
      | some (_, next) => follow (folder entries :: above) next names

/-- The content of the file that a path leads to, where `working` are the names from
    the root to the working folder. -/
def read (root : FileTree) (working : List String) (path : String) :
    Except SystemFault Bytes :=
  if path.isEmpty then .error .missing
  else if maxPath < path.utf8ByteSize then .error .nameTooLong
  else
    let start := if path.toList.head? = some '/' then [] else working
    match follow [] root (start ++ names path) with
    | .ok (file content) => .ok content
    | .ok (folder _) => .error .isFolder
    | .error fault => .error fault

end FileTree
end TypedMessage.CommandLine
