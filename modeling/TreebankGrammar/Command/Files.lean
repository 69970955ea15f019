/-
TreebankGrammar/Command/Files.lean

Access to files.

The command does four things with files: it opens one to read, creates one,
and then reads or writes the content.  Opening and creating come first and
can fail by themselves, so they are operations of their own; creating empties
a file that exists.  Each may fail with a fault of the system.

Design.  Access is a structure over any monad.  The command works with real
files through one such structure and with an in-memory directory through
another.
-/
import TreebankGrammar.Text.Basic

namespace TreebankGrammar.Command

/-- A fault that the system reports, with its wording and number. -/
structure SystemFault where
  text : String
  code : Nat
  deriving DecidableEq

namespace SystemFault

/-- A path leads nowhere. -/
def notFound : SystemFault := ⟨"No such file or directory", 2⟩

/-- A device has nothing behind it. -/
def noDevice : SystemFault := ⟨"No such device or address", 6⟩

/-- A folder lets nobody create a file. -/
def notPermitted : SystemFault := ⟨"Permission denied", 13⟩

/-- A path leads through something that is not a directory. -/
def notADirectory : SystemFault := ⟨"Not a directory", 20⟩

/-- A path leads to a directory where a file is needed. -/
def isADirectory : SystemFault := ⟨"Is a directory", 21⟩

/-- A file cannot grow. -/
def noSpace : SystemFault := ⟨"No space left on device", 28⟩

/-- A path, or a name in it, has too many bytes. -/
def nameTooLong : SystemFault := ⟨"File name too long", 36⟩

/-- The wording of a fault. -/
def message (fault : SystemFault) : String :=
  s!"{fault.text} (os error {fault.code})"

end SystemFault

/-- Access to files by path. -/
structure FileAccess (m : Type → Type) where
  /-- Opens a file to read it. -/
  openInput : Text → m (Except SystemFault Unit)
  /-- Creates a file, or empties it if it exists. -/
  create : Text → m (Except SystemFault Unit)
  /-- The content of an open file. -/
  content : Text → m (Except SystemFault Bytes)
  /-- Writes the content of a created file. -/
  write : Text → Bytes → m (Except SystemFault Unit)

end TreebankGrammar.Command
