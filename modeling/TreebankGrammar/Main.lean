/-
TreebankGrammar/Main.lean

The command on real files.

Everything the command decides is in `Command.run`; here are the access to
the file system and the printing.
-/
import TreebankGrammar.Command.Run

namespace TreebankGrammar.Command

/-- The system's fault behind an error of an input or output action. -/
def SystemFault.ofError : IO.Error → SystemFault
  | .noFileOrDirectory _ code text => ⟨text, code.toNat⟩
  | .inappropriateType _ code text => ⟨text, code.toNat⟩
  | .permissionDenied _ code text => ⟨text, code.toNat⟩
  | .resourceExhausted _ code text => ⟨text, code.toNat⟩
  | .invalidArgument _ code text => ⟨text, code.toNat⟩
  | .noSuchThing _ code text => ⟨text, code.toNat⟩
  | .alreadyExists _ code text => ⟨text, code.toNat⟩
  | .resourceBusy code text => ⟨text, code.toNat⟩
  | .hardwareFault code text => ⟨text, code.toNat⟩
  | .otherError code text => ⟨text, code.toNat⟩
  | error => ⟨error.toString, 0⟩

/-- Does an action on the file system, with its fault as a value. -/
def attempt {α : Type} (action : IO α) : IO (Except SystemFault α) := do
  try
    return .ok (← action)
  catch error =>
    return .error (.ofError error)

/-- The access to the files of the system. -/
def systemFiles : FileAccess IO where
  openInput path := attempt do
    discard <| IO.FS.Handle.mk path.string .read
  create path := attempt do
    discard <| IO.FS.Handle.mk path.string .write
  content path := attempt do
    return (← IO.FS.readBinFile path.string).data.toList
  write path content := attempt do
    let file ← IO.FS.Handle.mk path.string .write
    file.write ⟨content.toArray⟩
    file.flush

end TreebankGrammar.Command

open TreebankGrammar.Command in
/-- Runs the command. -/
def main (arguments : List String) : IO UInt32 := do
  let transcript ← run systemFiles (arguments.map String.toList)
  IO.print transcript.stdout
  for report in transcript.reports do
    IO.eprintln report.line
  IO.eprint transcript.stderr
  return transcript.code.toUInt32
