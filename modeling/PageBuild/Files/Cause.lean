/-!
# Causes of file errors

Why an operation on files or streams fails. The words are those of the operating system with its
error number, or those of the operation that refused its input.
-/
namespace PageBuild

/-- Why an operation on files or streams fails. -/
inductive IoCause where
  | noEntry
  | brokenPipe
  | alreadyExists
  | notDirectory
  | isDirectory
  | nameTooLong
  | notEmpty
  | permissionDenied
  /-- A text file that is not UTF-8. -/
  | invalidText
  /-- A path that holds a NUL character. -/
  | nulInName
  /-- A stream that ends before what was asked for. -/
  | shortRead
  /-- The copy of something that is no regular file. -/
  | notRegular
  /-- An error met at a path while walking a directory. -/
  | walking (path : String) (cause : IoCause)
  /-- A template directory that does not exist. -/
  | noTemplate (path : String)
  /-- Any other cause, by its words. -/
  | other (message : String)
  deriving DecidableEq, Repr

/-- The words for a cause. -/
def IoCause.message : IoCause → String
  | noEntry => "No such file or directory (os error 2)"
  | brokenPipe => "Broken pipe (os error 32)"
  | alreadyExists => "File exists (os error 17)"
  | notDirectory => "Not a directory (os error 20)"
  | isDirectory => "Is a directory (os error 21)"
  | nameTooLong => "File name too long (os error 36)"
  | notEmpty => "Directory not empty (os error 39)"
  | permissionDenied => "Permission denied (os error 13)"
  | invalidText => "stream did not contain valid UTF-8"
  | nulInName => "file name contained an unexpected NUL byte"
  | shortRead => "failed to fill whole buffer"
  | notRegular => "the source path is neither a regular file nor a symlink to a regular file"
  | walking path cause => "IO error for operation on " ++ path ++ ": " ++ cause.message
  | noTemplate path => "template directory " ++ path ++ " does not exist"
  | other message => message

end PageBuild
