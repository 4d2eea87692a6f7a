import ClassHierarchy.Text.Split

namespace ClassHierarchy

namespace Path

def isAbsolute (path : List Char) : Bool := path.head? == some '/'

def splitHead : List Char → List Char × List Char
  | '/' :: rest => (['/'], rest)
  | ['.'] => (['.'], [])
  | '.' :: '/' :: rest => (['.'], '/' :: rest)
  | path => ([], path)

def stripEnd : List Char → List Char
  | '/' :: rest => stripEnd rest
  | ['.'] => []
  | '.' :: '/' :: rest => stripEnd rest
  | body => body

def parent? (path : List Char) : Option (List Char) :=
  let (head, body) := splitHead path
  match stripEnd body.reverse with
  | [] => if head = ['.'] then some [] else none
  | body => some (head ++ (stripEnd (body.dropWhile (· ≠ '/'))).reverse)

def join (base path : List Char) : List Char :=
  if isAbsolute path then path
  else if base = [] ∨ base.getLast? = some '/' then base ++ path
  else base ++ '/' :: path

example : parent? "logs/".toList = some [] := by decide
example : parent? "a//b".toList = some "a".toList := by decide
example : parent? "logs/..".toList = some "logs".toList := by decide
example : parent? ".".toList = some [] := by decide
example : parent? "./b".toList = some ".".toList := by decide
example : parent? "/".toList = none := by decide

end Path

inductive FileError where
  | notFound
  | notDirectory
  | isDirectory
  | notText
  | nameTooLong
  | nulInName
  deriving DecidableEq

def FileError.message : FileError → String
  | .notFound => "No such file or directory (os error 2)"
  | .notDirectory => "Not a directory (os error 20)"
  | .isDirectory => "Is a directory (os error 21)"
  | .notText => "stream did not contain valid UTF-8"
  | .nameTooLong => "File name too long (os error 36)"
  | .nulInName => "file name contained an unexpected NUL byte"

structure FileTree where
  directories : List (List String) := []
  files : List (List String × ByteArray) := []
  workingDirectory : List String := []

namespace FileTree

def isDirectory (t : FileTree) (place : List String) : Bool :=
  place.isEmpty || t.directories.contains place

def file? (t : FileTree) (place : List String) : Option ByteArray := t.files.lookup place

def pieces (path : String) : List String := (Text.pieces '/' path.toList).map String.ofList

def start (t : FileTree) (path : String) : List String :=
  if path.toList.head? = some '/' then [] else t.workingDirectory

def nameLimit : Nat := 255

def pathLimit : Nat := 4095

def components (path : String) : Except FileError (List String) :=
  if path.toList.contains '\x00' then .error .nulInName
  else if path = "" then .error .notFound
  else if pathLimit < path.utf8ByteSize then .error .nameTooLong
  else .ok (pieces path)

def follow (t : FileTree) (place : List String) : List String → Except FileError (List String)
  | [] => .ok place
  | p :: ps =>
    if !t.isDirectory place then
      .error (if (t.file? place).isSome then .notDirectory else .notFound)
    else if p = "" ∨ p = "." then t.follow place ps
    else if p = ".." then t.follow place.dropLast ps
    else if nameLimit < p.utf8ByteSize then .error .nameTooLong
    else t.follow (place ++ [p]) ps

def locate (t : FileTree) (path : String) : Except FileError (List String) := do
  t.follow (t.start path) (← components path)

def directoryExists (t : FileTree) (path : String) : Bool :=
  match t.locate path with
  | .ok place => t.isDirectory place
  | .error _ => false

def readText (t : FileTree) (path : String) : Except FileError String := do
  let place ← t.locate path
  if t.isDirectory place then throw .isDirectory
  match t.file? place with
  | none => throw .notFound
  | some bytes =>
    match String.fromUTF8? bytes with
    | some text => return text
    | none => throw .notText

def openForAppend (t : FileTree) (path : String) : Except FileError FileTree := do
  let all ← components path
  let named := (all.reverse.dropWhile (· = "")).reverse
  if named.length < all.length then
    let _ ← t.follow (t.start path) (named.dropLast ++ [""])
    throw .isDirectory
  let place ← t.follow (t.start path) named
  if t.isDirectory place then throw .isDirectory
  if (t.file? place).isSome then return t
  return { t with files := t.files ++ [(place, .empty)] }

def addDirectory (t : FileTree) (place : List String) : FileTree :=
  { t with directories := t.directories ++ (List.range place.length).map fun n => place.take (n + 1) }

def addFile (t : FileTree) (place : List String) (bytes : ByteArray) : FileTree :=
  { t.addDirectory place.dropLast with files := t.files ++ [(place, bytes)] }

end FileTree

end ClassHierarchy
