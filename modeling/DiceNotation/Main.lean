import DiceNotation.Command

/-! `roll [settings-file [notation ...]]` rolls notations, `sample [notation [count]]` samples
one.  This layer reads and writes files and streams and decides nothing else. -/

namespace DiceNotation

def ChaCha.Key.ofBytes (bytes : ByteArray) : ChaCha.Key :=
  Vector.ofFn fun i =>
    let byte (offset : Nat) : UInt32 := ((bytes[4 * i.val + offset]?).getD 0).toUInt32
    byte 0 ||| byte 1 <<< 8 ||| byte 2 <<< 16 ||| byte 3 <<< 24

def freshKey : IO ChaCha.Key := do
  return .ofBytes (← IO.getRandomBytes 32)

def Printed.emit (printed : Printed) : IO UInt32 := do
  IO.print printed.outputText
  IO.eprint printed.errorText
  return printed.exitCode

def readFile? (path : String) : IO (Option ByteArray) := do
  try
    return some (← IO.FS.readBinFile path)
  catch _ => return none

def writeFile (path : String) (bytes : ByteArray) : IO Unit := do
  try IO.FS.writeBinFile path bytes catch _ => return

def rollMain (arguments : List String) : IO UInt32 := do
  let file? ← match arguments with
    | [] => pure none
    | path :: _ => do pure (some { contents? := ← readFile? path : SettingsFile })
  let notations := arguments.drop 1
  let input ← if notations.isEmpty then (← IO.getStdin).readBinToEnd else pure ByteArray.empty
  let outcome := RollCommand.run file? notations input (← freshKey)
  match arguments, outcome.file?.bind (·.contents?) with
  | path :: _, some bytes => writeFile path bytes
  | _, _ => pure ()
  outcome.printed.emit

def sampleMain (arguments : List String) : IO UInt32 := do
  let outcome := SampleCommand.run arguments (← freshKey)
  match outcome.file? with
  | some bytes => writeFile "rolls.npy" bytes
  | none => pure ()
  let _ ← outcome.printed.emit
  return outcome.exitCode

end DiceNotation

def main : List String → IO UInt32
  | "roll" :: arguments => DiceNotation.rollMain arguments
  | "sample" :: arguments => DiceNotation.sampleMain arguments
  | _ => do
      IO.eprintln "usage: roll [settings-file [notation ...]] | sample [notation [count]]"
      return 1
