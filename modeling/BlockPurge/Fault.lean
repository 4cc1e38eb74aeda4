import BlockPurge.Text.Shown

/-!
# Faults of the file system and of launching

What can go wrong outside the library: a cause that the system reports with its number, or a check
made before the system is asked. Each fault has one wording.
-/
namespace BlockPurge

inductive Cause where
  | notFound
  | interrupted
  | wordTooLong
  | badFormat
  | noChild
  | permissionDenied
  | busy
  | alreadyExists
  | notADirectory
  | isADirectory
  | notATerminal
  | nameTooLong
  | linkLoop
  deriving DecidableEq, Repr

namespace Cause

def number : Cause → Nat
  | .notFound => 2
  | .interrupted => 4
  | .wordTooLong => 7
  | .badFormat => 8
  | .noChild => 10
  | .permissionDenied => 13
  | .busy => 16
  | .alreadyExists => 17
  | .notADirectory => 20
  | .isADirectory => 21
  | .notATerminal => 25
  | .nameTooLong => 36
  | .linkLoop => 40

def text : Cause → String
  | .notFound => "No such file or directory"
  | .interrupted => "Interrupted system call"
  | .wordTooLong => "Argument list too long"
  | .badFormat => "Exec format error"
  | .noChild => "No child processes"
  | .permissionDenied => "Permission denied"
  | .busy => "Device or resource busy"
  | .alreadyExists => "File exists"
  | .notADirectory => "Not a directory"
  | .isADirectory => "Is a directory"
  | .notATerminal => "Inappropriate ioctl for device"
  | .nameTooLong => "File name too long"
  | .linkLoop => "Too many levels of symbolic links"

def brief : Cause → String
  | .notFound => "entity not found"
  | .interrupted => "operation interrupted"
  | .wordTooLong => "argument list too long"
  | .badFormat => "uncategorized error"
  | .noChild => "uncategorized error"
  | .permissionDenied => "permission denied"
  | .busy => "resource busy"
  | .alreadyExists => "entity already exists"
  | .notADirectory => "not a directory"
  | .isADirectory => "is a directory"
  | .notATerminal => "uncategorized error"
  | .nameTooLong => "invalid filename"
  | .linkLoop => "filesystem loop or indirection limit (e.g. symlink loop)"

end Cause

inductive Fault where
  | system (cause : Cause)
  /-- A runner named a cause without a system call behind it. -/
  | reported (cause : Cause)
  /-- A runner gave a reason in its own words. -/
  | other (text : String)
  | zeroInPath
  /-- A program name or an argument holds a zero byte. -/
  | zeroInArgument
  | notUtf8
  | emptyPath
  /-- Every name that was tried for a temporary file is taken. -/
  | crowded
  /-- A fault that tells the path of the temporary file. -/
  | located (fault : Fault) (path : Bytes)
  deriving DecidableEq, Repr

def Fault.message : Fault → String
  | .system cause => cause.text ++ " (os error " ++ toString cause.number ++ ")"
  | .reported cause => cause.brief
  | .other text => text
  | .zeroInPath => "file name contained an unexpected NUL byte"
  | .zeroInArgument => "nul byte found in provided data"
  | .notUtf8 => "stream did not contain valid UTF-8"
  | .emptyPath => "cannot make an empty path absolute"
  | .crowded => "too many temporary files exist"
  | .located fault path => fault.message ++ " at path " ++ Text.shown path

end BlockPurge
