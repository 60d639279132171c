/-!
# File errors

* `FileError`: why the system refuses to read or write a file, with the system's texts.
-/

namespace Multimeter

inductive FileError where
  | notFound
  | alreadyExists
  | notDirectory
  | isDirectory
  | nameTooLong
  /-- The path holds a character that ends texts in the system. -/
  | zeroInName
  /-- The file was to be read as text and is none. -/
  | notText
  | other (text : String)
deriving DecidableEq, Repr

/-- The text of the error, with the system's number where there is one. -/
def FileError.message : FileError → String
  | notFound => "No such file or directory (os error 2)"
  | alreadyExists => "File exists (os error 17)"
  | notDirectory => "Not a directory (os error 20)"
  | isDirectory => "Is a directory (os error 21)"
  | nameTooLong => "File name too long (os error 36)"
  | zeroInName => "file name contained an unexpected NUL byte"
  | notText => "stream did not contain valid UTF-8"
  | other text => text

end Multimeter
