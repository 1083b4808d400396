import DocumentProof.Command.Arguments
import Std.Time

/-!
# The program

Runs on the files, the environment, the clock and the random numbers of the machine.
-/

namespace DocumentProof

namespace Machine

/-- The fault that an error of the machine amounts to. -/
def faultOf : IO.Error → FileFault
  | .noFileOrDirectory .. | .noSuchThing .. => .missing
  | .alreadyExists .. => .exists
  | .inappropriateType .. => .isDirectory
  | e => .other (toString e)

def attempt {α : Type} (step : IO α) : IO (Except FileFault α) := do
  try
    return .ok (← step)
  catch e => return .error (faultOf e)

def readText (path : String) : IO (Except FileFault String) := do
  match ← attempt (IO.FS.readBinFile path) with
  | .ok bytes =>
    return match Bytes.toString? bytes.toList with
    | some text => .ok text
    | none => .error .notUtf8
  | .error fault => return .error fault

/-- What there is at a path. -/
def typeOf (path : String) : IO (Option IO.FS.FileType) := do
  try
    return some (← ((← IO.currentDir) / path).metadata).type
  catch _ => return none

def files : Files IO where
  contains path := do return path != "" && (← typeOf path).isSome
  isDirectory path := do return (← typeOf path) == some .dir
  readText := readText
  makeDirectory path := attempt (IO.FS.createDir path)
  write path text := attempt (IO.FS.writeFile path text)

/-- A key from random numbers. Numbers that are no key are drawn again. -/
def newWallet : Nat → IO Wallet
  | 0 => throw (IO.userError "no key found")
  | n + 1 => do
    match Wallet.ofBytes (← IO.getRandomBytes 32).toList with
    | .ok wallet => return wallet
    | .error _ => newWallet n

def now : IO Timestamp := do
  let t ← Std.Time.Timestamp.now
  match Timestamp.ofSeconds t.toSecondsSinceUnixEpoch.val with
  | .ok t => return t
  | .error e => throw (IO.userError e.message)

/-- The variables that commands look at. -/
def environment : IO (List (String × Option String)) :=
  [Config.chainIdVariable, Files.keyVariable].mapM fun name => do
    return (name, ← IO.getEnv name)

end Machine

end DocumentProof

open DocumentProof in
def main (args : List String) : IO UInt32 := do
  match Arguments.read args with
  | .error .version =>
    IO.println programVersion
    return 0
  | .error .help =>
    IO.println programUsage
    return 0
  | .error .usage =>
    IO.eprintln programUsage
    return 2
  | .ok call =>
    let values ← Machine.environment
    let world : Surroundings IO := {
      files := Machine.files
      lookup := fun name => (values.lookup name).join
      now := Machine.now
      newWallet := Machine.newWallet 100 }
    let report ← call.run world (← IO.currentDir).toString
    for out in report.outputs do
      IO.println out.text
    return report.code.toUInt32
