import FileGateway.Failure

/-!
# System errors

What a file system answers when it refuses, in the words and with the numbers of the system.
-/

namespace FileGateway

/-- Why a file system refused a call. A path with a null character in it is not even asked for. Any
other error has its number and the system's words for it. -/
inductive SystemError where
  | noEntry
  | fileExists
  | notDirectory
  | isDirectory
  | noSpace
  | nameTooLong
  | tooManyLinks
  | nullInPath
  | other (code : Nat) (words : String)
deriving DecidableEq, Repr

namespace SystemError

/-- The errors that are told apart, with number and words. -/
def known : List (SystemError × Nat × String) :=
  [(noEntry, 2, "No such file or directory"), (fileExists, 17, "File exists"),
   (notDirectory, 20, "Not a directory"), (isDirectory, 21, "Is a directory"),
   (noSpace, 28, "No space left on device"), (nameTooLong, 36, "File name too long"),
   (tooManyLinks, 40, "Too many levels of symbolic links")]

/-- The error of a number. -/
def ofCode (code : Nat) (words : String) : SystemError :=
  match known.find? fun entry => entry.2.1 == code with
  | some entry => entry.1
  | none => other code words

/-- The form in which a system error is shown. -/
def numbered (code : Nat) (words : String) : String :=
  words ++ " (os error " ++ toString code ++ ")"

/-- The error in words. -/
def text : SystemError → String
  | nullInPath => "file name contained an unexpected NUL byte"
  | other code words => SystemError.numbered code words
  | e =>
    match known.lookup e with
    | some (code, words) => SystemError.numbered code words
    | none => ""

/-- The error as a failure without context. -/
def failure (e : SystemError) : Failure :=
  .plain e.text

end SystemError

/-- The answer of a file system. -/
abbrev SystemResult (α : Type) := Except SystemError α

end FileGateway
