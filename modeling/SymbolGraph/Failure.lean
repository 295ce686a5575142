/-
# What can go wrong

Converting declarations never fails: what cannot be found becomes an unknown
type. Only asking for what the table cannot tell, writing files, reading
options and the work of a processor itself can fail.

Key definitions: `StorageFault`, `Failure`, `Failure.message`.
-/

namespace SymbolGraph

/-- Why a file could not be made. -/
inductive StorageFault
  | notFound | alreadyThere | notDirectory | isDirectory | nameTooLong | nulInName
  /-- Something else, by its description. -/
  | other (description : String)
  deriving DecidableEq, Repr

/-- The description of a storage fault. -/
def StorageFault.message : StorageFault → String
  | .notFound => "No such file or directory (os error 2)"
  | .alreadyThere => "File exists (os error 17)"
  | .notDirectory => "Not a directory (os error 20)"
  | .isDirectory => "Is a directory (os error 21)"
  | .nameTooLong => "File name too long (os error 36)"
  | .nulInName => "file name contained an unexpected NUL byte"
  | .other description => description

/-- Why a request of a processor, or its work, failed. -/
inductive Failure
  /-- The table has nothing that could answer. -/
  | unsupported (operation : String)
  /-- A generated file could not be stored. -/
  | storage (fault : StorageFault)
  /-- The file was already made in this round. -/
  | fileAlreadyExists (path : String)
  /-- The package has no folder. -/
  | invalidPackage (package : String)
  /-- The name is empty or holds a separator. -/
  | invalidFileName (name : String)
  /-- The option is no pair of key and value. -/
  | invalidOption (argument : String)
  /-- The processor says so. -/
  | processing (reason : String)
  deriving DecidableEq, Repr

/-- The word for what kind of failure it is. -/
def Failure.label : Failure → String
  | .unsupported _ => "Unsupported"
  | .storage _ => "Io"
  | .fileAlreadyExists _ => "FileAlreadyExists"
  | .invalidPackage _ => "InvalidPackage"
  | .invalidFileName _ => "InvalidFileName"
  | .invalidOption _ => "InvalidOption"
  | .processing _ => "Processing"

/-- The wording of a failure. -/
def Failure.message : Failure → String
  | .unsupported operation => "Unsupported operation: " ++ operation
  | .storage fault => "IO error: " ++ fault.message
  | .fileAlreadyExists path => "Generated file already exists: " ++ path
  | .invalidPackage package => "Invalid package name: " ++ package
  | .invalidFileName name => "Invalid file name: " ++ name
  | .invalidOption argument => "Invalid processor option: " ++ argument
  | .processing reason => "Processing failed: " ++ reason

end SymbolGraph
