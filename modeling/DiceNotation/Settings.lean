import DiceNotation.Toml
import DiceNotation.Toml.Document

namespace DiceNotation

structure Settings where
  rngWorkers : UInt32 := 4
  rngReseedSeconds : UInt32 := 300
  seed? : Option UInt64 := none
  deriving DecidableEq, Repr

inductive SettingsNotice where
  | fileUnreadable
  | fileInvalid
  | overwritten (key : String) (value : UInt32)
  | seedUnusable
  | tableUnwritable
  | fileUnwritable
  deriving DecidableEq, Repr

namespace SettingsNotice

def isError : SettingsNotice → Bool
  | .tableUnwritable | .fileUnwritable => true
  | _ => false

def message : SettingsNotice → String
  | .fileUnreadable => "Unable to read config file"
  | .fileInvalid => "Unable to parse config"
  | .overwritten key value =>
      "unable to read " ++ key ++ ", overwriting with " ++ toString value
  | .seedUnusable => "unable to read seed, rolling with entropy instead"
  | .tableUnwritable => "Error serializing config"
  | .fileUnwritable => "Error writing config"

def text (notice : SettingsNotice) : String :=
  (if notice.isError then "ERROR " else "WARN ") ++ notice.message

end SettingsNotice

namespace Settings

def workersKey : String := "rng_workers"

def reseedKey : String := "rng_reseed_s"

def seedKey : String := "seed"

def defaults : Settings := {}

def positive? : Toml → Option UInt32
  | .integer n =>
      if 0 < n.toInt ∧ n.toInt ≤ 4294967295 then some (UInt32.ofNat n.toInt.toNat) else none
  | _ => none

def seedValue? : Toml → Option UInt64
  | .integer n => if 0 ≤ n.toInt then some (UInt64.ofNat n.toInt.toNat) else none
  | _ => none

structure Repair (α : Type) where
  value : α
  table : TomlTable
  notices : List SettingsNotice

def repairEntry (key : String) (default : UInt32) (table : TomlTable) : Repair UInt32 :=
  match (table.find? key).bind positive? with
  | some value => { value, table, notices := [] }
  | none => {
      value := default
      table := table.insert key (.integer (Int64.ofNat default.toNat))
      notices := [.overwritten key default] }

/-- Reads the seed, which may be missing and is never overwritten. -/
def readSeed (table : TomlTable) : Option UInt64 × List SettingsNotice :=
  match table.find? seedKey with
  | none => (none, [])
  | some value =>
      match seedValue? value with
      | some seed => (some seed, [])
      | none => (none, [.seedUnusable])

def repair (table : TomlTable) : Repair Settings :=
  let workers := repairEntry workersKey defaults.rngWorkers table
  let reseed := repairEntry reseedKey defaults.rngReseedSeconds workers.table
  let (seed?, seedNotices) := readSeed reseed.table
  { value := { rngWorkers := workers.value, rngReseedSeconds := reseed.value, seed? }
    table := reseed.table
    notices := workers.notices ++ reseed.notices ++ seedNotices }

end Settings

structure TableFormat where
  read? : ByteArray → Option TomlTable
  write? : TomlTable → Option ByteArray

def TableFormat.toml : TableFormat where
  read? bytes := (String.fromUTF8? bytes).bind TomlTable.ofText?
  write? table := table.text?.map String.toUTF8

/-- A place for a file, which need not exist and may refuse to be written. -/
structure SettingsFile where
  contents? : Option ByteArray
  writable : Bool := true

namespace Settings

structure Loaded where
  settings : Settings
  file : SettingsFile
  notices : List SettingsNotice

/-- The table of a file.  A file that is missing counts as empty, one that is no document
as an empty table. -/
def readTable (format : TableFormat) (file : SettingsFile) :
    TomlTable × List SettingsNotice :=
  let missing : List SettingsNotice :=
    if file.contents?.isNone then [.fileUnreadable] else []
  match format.read? (file.contents?.getD ByteArray.empty) with
  | some table => (table, missing)
  | none => ([], missing ++ [.fileInvalid])

def writeTable (format : TableFormat) (table : TomlTable) (file : SettingsFile) :
    SettingsFile × List SettingsNotice :=
  match format.write? table with
  | none => (file, [.tableUnwritable])
  | some bytes =>
      if file.writable then ({ file with contents? := some bytes }, [])
      else (file, [.fileUnwritable])

def load (format : TableFormat) (file : SettingsFile) : Loaded :=
  let (table, readNotices) := readTable format file
  let repaired := repair table
  let (file, writeNotices) := writeTable format repaired.table file
  { settings := repaired.value
    file
    notices := readNotices ++ repaired.notices ++ writeNotices }

end Settings

end DiceNotation
