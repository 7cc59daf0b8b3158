import Nes.CommandLine.Demo
import Nes.CommandLine.Directory
import Nes.Console.Run
import Nes.Text.Count
import Nes.Text.Quoted
import Nes.Text.Report

/-!
# The command line

The command line takes the path of a cartridge image and a number of frames.  It runs the image for
so many frames after a reset and prints the registers.  Without a number it runs one frame, and
without a path the built-in program, of which it also prints the product.  Further arguments are
ignored.

A run fails at the first of its stages that fails: reading the number of frames, loading the image,
and executing.  Then it prints nothing but a report of what failed and why.

A run also keeps a log of what happens in it, which goes to standard error together with the report.
The lines of the log bear the time and are left out here.

## Main definitions

* `RomError`, `RunError`: the failures.
* `CommandLine.run`: a run, given a way to read files.
-/

namespace Nes

/-- Why a path does not give a cartridge. -/
inductive RomError
  /-- The file cannot be read. -/
  | unreadable (path : String) (why : FileError)
  /-- The file holds no cartridge. -/
  | unusable (why : LoadError)
  deriving DecidableEq, Repr

namespace RomError

/-- The wording of an error. -/
def message : RomError → String
  | unreadable path _ => "failed to read ROM file " ++ path
  | unusable why => why.message

/-- The wording of what lies behind an error. -/
def causes : RomError → List String
  | unreadable _ why => [why.message]
  | unusable why => why.causes

end RomError

/-- The cartridge of what was read at a path. -/
def Cartridge.ofFile (path : String) (read : Except FileError (Array UInt8)) :
    Except RomError Cartridge :=
  match read with
  | .error why => .error (.unreadable path why)
  | .ok bytes =>
    match Cartridge.load bytes with
    | .error why => .error (.unusable why)
    | .ok cartridge => .ok cartridge

/-- Why a run fails. -/
inductive RunError
  /-- The second argument is no number of frames. -/
  | badCount (text : String) (why : Count.Fault)
  /-- The first argument gives no cartridge. -/
  | badRom (path : String) (why : RomError)
  /-- The processor halted. -/
  | halted (why : CpuFault)
  deriving DecidableEq, Repr

namespace RunError

/-- The wording of what failed. -/
def message : RunError → String
  | badCount text _ => "invalid frame count " ++ Quoted.quote text
  | badRom path _ => "failed to load " ++ path
  | halted _ => "CPU halted"

/-- The wording of what lies behind it. -/
def causes : RunError → List String
  | badCount _ why => [why.message]
  | badRom _ why => why.message :: why.causes
  | halted why => [why.message]

/-- The report of a failed run. -/
def report (e : RunError) : String := Report.render e.message e.causes

end RunError

namespace CommandLine

/-- What a run leaves to the caller, apart from the lines of its log. -/
structure Output where
  /-- The exit code. -/
  exitCode : Nat
  /-- What goes to standard output. -/
  stdout : String
  /-- What goes to standard error besides the log: the report, if the run failed. -/
  stderr : String
  deriving DecidableEq, Repr

/-- The registers and the count of cycles, a line each. -/
def registerLines (cpu : Cpu) : List String :=
  let r := cpu.registers
  ["A: 0x" ++ Numeral.hexByte r.a,
   "X: 0x" ++ Numeral.hexByte r.x,
   "Y: 0x" ++ Numeral.hexByte r.y,
   "SP: 0x" ++ Numeral.hexByte r.sp,
   "PC: 0x" ++ Numeral.hexWord r.pc,
   "P (flags): 0b" ++ Numeral.binary 8 r.status.toNat,
   "CPU cycles: " ++ toString cpu.totalCycles]

/-- The product of the built-in program. -/
def productLine (c : Console) : String :=
  "mem[0x0002]: " ++ toString (c.peek Demo.productAddress).toNat

/-- Lines as text. -/
def unlines (lines : List String) : String := String.join (lines.map (· ++ "\n"))

/-- The number of frames that the arguments ask for. -/
def frameCount : List String → Except RunError Nat
  | _ :: text :: _ =>
    match Count.parse text with
    | .ok n => .ok n
    | .error why => .error (.badCount text why)
  | _ => .ok 1

/-- Runs a console for a number of frames after a reset. -/
def runFrames (frames : Nat) (c : Console) : Except RunError Console :=
  match Console.stepFrames frames c.reset.1 with
  | .ok c => .ok c
  | .error why => .error (.halted why)

/-- What a console with the built-in program prints after some frames. -/
def runDemo (frames : Nat) : Except RunError (List String) := do
  let c ← runFrames frames Demo.console
  return registerLines c.cpu ++ [productLine c]

/-- What a console with the image that was read at a path prints after some frames. -/
def runImage (path : String) (read : Except FileError (Array UInt8)) (frames : Nat) :
    Except RunError (List String) :=
  match Cartridge.ofFile path read with
  | .error why => .error (.badRom path why)
  | .ok cartridge => do
    let c ← runFrames frames (.powerOn cartridge)
    return registerLines c.cpu

/-- The output of a run that printed lines or failed. -/
def Output.ofResult : Except RunError (List String) → Output
  | .ok lines => ⟨0, unlines lines, ""⟩
  | .error why => ⟨1, "", why.report⟩

/-- A run with the given arguments.  The image is read only if the number of frames is right. -/
def run {m : Type → Type} [Monad m] (readFile : String → m (Except FileError (Array UInt8)))
    (args : List String) : m Output :=
  match frameCount args, args with
  | .error why, _ => pure (.ofResult (.error why))
  | .ok frames, [] => pure (.ofResult (runDemo frames))
  | .ok frames, path :: _ => do
    let read ← readFile path
    pure (.ofResult (runImage path read frames))

end CommandLine

end Nes
