/-!
# Faults of the file system
-/

namespace Scaffold

/-- Why a file or folder cannot be used. -/
inductive FileFault where
  | notFound
  | busy
  | exists
  | notDirectory
  | isDirectory
  | notText
deriving DecidableEq, Inhabited

/-- The wording of a fault of the file system. -/
def FileFault.message : FileFault → String
  | .notFound => "No such file or directory (os error 2)"
  | .busy => "Device or resource busy (os error 16)"
  | .exists => "File exists (os error 17)"
  | .notDirectory => "Not a directory (os error 20)"
  | .isDirectory => "Is a directory (os error 21)"
  | .notText => "stream did not contain valid UTF-8"

end Scaffold
