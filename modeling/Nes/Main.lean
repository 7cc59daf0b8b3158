import Nes.CommandLine.Basic

/-!
# The program

The command line with the files of the operating system.
-/

namespace Nes.CommandLine

/-- The reason of a failed read. -/
def fileErrorOf : IO.Error → FileError
  | .noFileOrDirectory _ code details => ⟨details, some code.toNat⟩
  | .inappropriateType _ code details => ⟨details, some code.toNat⟩
  | .invalidArgument _ code details => ⟨details, some code.toNat⟩
  | .permissionDenied _ code details => ⟨details, some code.toNat⟩
  | .otherError code details => ⟨details, some code.toNat⟩
  | e => ⟨toString e, none⟩

/-- Reads a file. -/
def readFile (path : String) : IO (Except FileError (Array UInt8)) := do
  try
    let bytes ← IO.FS.readBinFile path
    return .ok bytes.data
  catch e =>
    return .error (fileErrorOf e)

end Nes.CommandLine

/-- Runs the command line. -/
def main (args : List String) : IO UInt32 := do
  let output ← Nes.CommandLine.run Nes.CommandLine.readFile args
  IO.print output.stdout
  IO.eprint output.stderr
  return UInt32.ofNat output.exitCode
