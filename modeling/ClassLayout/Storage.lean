/-!
# Storage

Where texts are read from and written to, and why that may fail.
-/

namespace ClassLayout

inductive StorageError
  | notFound
  | isDirectory
  | notDirectory
  | occupied
  | nameTooLong
  | notText
  | other (message : String)
deriving DecidableEq, Repr

def StorageError.message : StorageError → String
  | notFound => "No such file or directory (os error 2)"
  | isDirectory => "Is a directory (os error 21)"
  | notDirectory => "Not a directory (os error 20)"
  | occupied => "File exists (os error 17)"
  | nameTooLong => "File name too long (os error 36)"
  | notText => "stream did not contain valid UTF-8"
  | other message => message

/-- Reading a text, and writing one below directories that are created as needed. -/
structure Storage (m : Type → Type) where
  read : String → m (Except StorageError String)
  write : String → String → m (Except StorageError Unit)

end ClassLayout
