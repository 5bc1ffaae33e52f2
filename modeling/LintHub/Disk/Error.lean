/-!
# Errors of the file system

* `OsError` is why a file operation fails, `OsError.reason` says it, and `OsError.message` adds its number.
-/

namespace LintHub

inductive OsError where
  | notFound
  | permission
  | alreadyExists
  | notDirectory
  | isDirectory
  | notEmpty
  | tooManyLinks
  | nameTooLong
  | badFormat
  /-- A name holds a null character. -/
  | nullInName
  /-- The bytes of a text file are not UTF-8. -/
  | notUtf8
deriving DecidableEq, Inhabited

namespace OsError

def reason : OsError → String
  | notFound => "No such file or directory"
  | permission => "Permission denied"
  | alreadyExists => "File exists"
  | notDirectory => "Not a directory"
  | isDirectory => "Is a directory"
  | notEmpty => "Directory not empty"
  | tooManyLinks => "Too many levels of symbolic links"
  | nameTooLong => "File name too long"
  | badFormat => "Exec format error"
  | nullInName => "file name contained an unexpected NUL byte"
  | notUtf8 => "stream did not contain valid UTF-8"

def number? : OsError → Option Nat
  | notFound => some 2
  | badFormat => some 8
  | permission => some 13
  | alreadyExists => some 17
  | notDirectory => some 20
  | isDirectory => some 21
  | nameTooLong => some 36
  | notEmpty => some 39
  | tooManyLinks => some 40
  | nullInName => none
  | notUtf8 => none

def message (e : OsError) : String :=
  match e.number? with
  | some n => e.reason ++ " (os error " ++ toString n ++ ")"
  | none => e.reason

end OsError

end LintHub
