import LiveLint.CommandLine.Path

/-!
# Files

What the command line reads from. A file tree holds files with their bytes and directories without
any; the directories above a file are there with it. A path is walked from the top, part by part,
and only a directory can be walked through. Reading tells the same four failures as an operating
system does.
-/

namespace LiveLint.CommandLine

/-- Why a file could not be read. -/
inductive ReadError
  | notFound
  | notDirectory
  | isDirectory
  | notText
  /-- Another failure, in the words of the system. -/
  | other (words : String)
deriving DecidableEq, Repr

/-- The failure in words. -/
def ReadError.message : ReadError → String
  | notFound => "No such file or directory (os error 2)"
  | notDirectory => "Not a directory (os error 20)"
  | isDirectory => "Is a directory (os error 21)"
  | notText => "stream did not contain valid UTF-8"
  | other words => words

/-- A reader gives the text of a path. -/
abbrev Reader := String → Except ReadError String

/-- The text of bytes, if they are UTF-8. -/
def textOfBytes (bytes : ByteArray) : Except ReadError String :=
  match String.fromUTF8? bytes with
  | some text => .ok text
  | none => .error .notText

/-- Files and directories under one top. -/
structure FileTree where
  /-- The files, by the steps that lead to them. -/
  files : List (List (List Char) × ByteArray)
  /-- Directories that may be empty. -/
  directories : List (List (List Char))

namespace FileTree

/-- Nothing but the top. -/
def empty : FileTree := ⟨[], []⟩

/-- The tree with one more file. -/
def addFile (tree : FileTree) (path : String) (bytes : ByteArray) : FileTree :=
  { tree with files := tree.files ++ [((pathParts path.toList).filter isStep, bytes)] }

/-- The tree with one more directory. -/
def addDirectory (tree : FileTree) (path : String) : FileTree :=
  { tree with directories := tree.directories ++ [(pathParts path.toList).filter isStep] }

/-- Whether steps lead to a directory. -/
def isDirectory (tree : FileTree) (steps : List (List Char)) : Bool :=
  steps.isEmpty ||
  tree.files.any (fun (file, _) => steps.isPrefixOf file && steps.length < file.length) ||
  tree.directories.any fun directory => steps.isPrefixOf directory

/-- The bytes of the file that steps lead to. -/
def file? (tree : FileTree) (steps : List (List Char)) : Option ByteArray :=
  tree.files.lookup steps

/-- Walk a path on from the steps already made. Above the top there is nothing. -/
def walk (tree : FileTree) (steps : List (List Char)) :
    List (List Char) → Except ReadError (List (List Char))
  | [] => .ok steps
  | part :: parts =>
    if !tree.isDirectory steps then
      .error (if (tree.file? steps).isSome then .notDirectory else .notFound)
    else if !isStep part then tree.walk steps parts
    else if part = ['.', '.'] then
      if steps.isEmpty then .error .notFound else tree.walk steps.dropLast parts
    else tree.walk (steps ++ [part]) parts

/-- Read the file at a path. -/
def read (tree : FileTree) : Reader := fun path => do
  let cs := path.toList
  if cs.isEmpty || cs.head? == some '/' then throw .notFound
  let steps ← tree.walk [] (pathParts cs)
  match tree.file? steps with
  | some bytes => textOfBytes bytes
  | none => throw (if tree.isDirectory steps then .isDirectory else .notFound)

end FileTree

end LiveLint.CommandLine
