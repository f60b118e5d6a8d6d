import DiceNotation.Proofs.Settings.Kept
import DiceNotation.Settings

namespace DiceNotation

def Toml.isHeaded (value : Toml) : Bool := value.isTable || value.isTableArray

def TomlTable.PlainFirst (table : TomlTable) : Prop :=
  table.Pairwise fun entry later => entry.2.isHeaded = true → later.2.isHeaded = true

namespace TableFormat

variable {format : TableFormat} {table : TomlTable}

def Rereads (format : TableFormat) (table : TomlTable) : Prop :=
  ∀ bytes, format.write? table = some bytes → format.read? bytes = some table

/-- The table is written in the order of its keys.  That fails exactly if a plain value comes
after a table; else what is written is read back. -/
structure KeepsOrder (format : TableFormat) (table : TomlTable) : Prop where
  refuses : ¬ table.PlainFirst → format.write? table = none
  rereads : table.PlainFirst →
    ∃ bytes, format.write? table = some bytes ∧ format.read? bytes = some table

theorem KeepsOrder.rereads_written (law : format.KeepsOrder table) : format.Rereads table := by
  intro bytes written
  by_cases ordered : table.PlainFirst
  · obtain ⟨other, same, reread⟩ := law.rereads ordered
    cases written.symm.trans same
    exact reread
  · cases written.symm.trans (law.refuses ordered)

theorem toml_read? (text : String) : toml.read? text.toUTF8 = TomlTable.ofText? text := by
  have valid : String.fromUTF8? text.toUTF8 = some text := dif_pos text.isValidUTF8
  exact congrArg (Option.bind · TomlTable.ofText?) valid

theorem toml_keepsOrder_of_text {text : String} (ordered : table.PlainFirst)
    (written : table.text? = some text) (reread : TomlTable.ofText? text = some table) :
    toml.KeepsOrder table where
  refuses unordered := absurd ordered unordered
  rereads _ := ⟨text.toUTF8, congrArg (Option.map String.toUTF8) written,
    (toml_read? text).trans reread⟩

theorem toml_keepsOrder_of_refused (unordered : ¬ table.PlainFirst)
    (refused : table.text? = none) : toml.KeepsOrder table where
  refuses _ := congrArg (Option.map String.toUTF8) refused
  rereads ordered := absurd ordered unordered

end TableFormat

namespace Settings

variable {format : TableFormat} {file : SettingsFile} {table : TomlTable} {bytes : ByteArray}

def tableOf (format : TableFormat) (file : SettingsFile) : TomlTable := (readTable format file).1

def completed (format : TableFormat) (file : SettingsFile) : TomlTable :=
  (repair (tableOf format file)).table

theorem tableOf_of_read? (found : format.read? (file.contents?.getD ByteArray.empty) = some table) :
    tableOf format file = table := by
  rw [tableOf, readTable, found]

theorem tableOf_of_not_read? (invalid : format.read? (file.contents?.getD ByteArray.empty) = none) :
    tableOf format file = [] := by
  rw [tableOf, readTable, invalid]

theorem load_settings (format : TableFormat) (file : SettingsFile) :
    (load format file).settings = (repair (tableOf format file)).value := rfl

theorem file_of_not_write? (refused : format.write? (completed format file) = none) :
    (load format file).file = file := by
  change (writeTable format (completed format file) file).1 = file
  rw [writeTable, refused]

theorem file_of_not_writable (locked : file.writable = false) :
    (load format file).file = file := by
  change (writeTable format (completed format file) file).1 = file
  rw [writeTable, locked]
  split <;> rfl

theorem file_of_write? (written : format.write? (completed format file) = some bytes)
    (writable : file.writable = true) :
    (load format file).file = { file with contents? := some bytes } := by
  change (writeTable format (completed format file) file).1 = _
  rw [writeTable, written]
  simp only [writable, if_true]

/-- The file behind a load has all entries: the required ones with the values of the settings,
the other ones as in the table before. -/
def Loaded.Complete (format : TableFormat) (original : TomlTable) (loaded : Loaded) : Prop :=
  ∃ table, loaded.file.contents?.bind format.read? = some table ∧
    usable? workersKey table = some loaded.settings.rngWorkers ∧
    usable? reseedKey table = some loaded.settings.rngReseedSeconds ∧
    ∀ key, key ≠ workersKey → key ≠ reseedKey → table.find? key = original.find? key

theorem complete_of_reread
    (h : (load format file).file.contents?.bind format.read? = some (completed format file)) :
    (load format file).Complete format (tableOf format file) :=
  ⟨_, h, usable?_workersKey_repair _, usable?_reseedKey_repair _,
    fun _ workers reseed => find?_repair_of_ne _ workers reseed⟩

theorem complete_of_plainFirst (law : format.KeepsOrder (completed format file))
    (writable : file.writable = true) (ordered : (completed format file).PlainFirst) :
    (load format file).Complete format (tableOf format file) := by
  obtain ⟨bytes, written, reread⟩ := law.rereads ordered
  apply complete_of_reread
  rw [file_of_write? written writable]
  exact reread

theorem read?_of_usable {key : String} {value : UInt32} (contents : file.contents? = some bytes)
    (found : usable? key (tableOf format file) = some value) :
    format.read? bytes = some (tableOf format file) := by
  have given : file.contents?.getD ByteArray.empty = bytes := by rw [contents, Option.getD_some]
  cases read : format.read? bytes with
  | some table => rw [tableOf_of_read? (given.symm ▸ read)]
  | none =>
      rw [tableOf_of_not_read? (given.symm ▸ read)] at found
      cases found

theorem completed_of_usable {workers reseed : UInt32}
    (foundWorkers : usable? workersKey (tableOf format file) = some workers)
    (foundReseed : usable? reseedKey (tableOf format file) = some reseed) :
    completed format file = tableOf format file := by
  rw [completed, repair_of_usable foundWorkers foundReseed]

theorem usable_of_complete {original : TomlTable} {writable : Bool}
    (kept : (load format ⟨some bytes, writable⟩).file = ⟨some bytes, writable⟩)
    (complete : (load format ⟨some bytes, writable⟩).Complete format original) :
    (usable? workersKey (tableOf format ⟨some bytes, writable⟩)).isSome = true ∧
      (usable? reseedKey (tableOf format ⟨some bytes, writable⟩)).isSome = true := by
  obtain ⟨table, reread, workers, reseed, _⟩ := complete
  rw [kept] at reread
  rw [tableOf_of_read? reread, workers, reseed]
  exact ⟨rfl, rfl⟩

/-- On an existing file that may be written, the load leaves a complete file behind exactly if
no plain value comes after a table in the repaired table, or nothing was to be repaired.  In the
first case the repaired table is written, else the file stays as it was. -/
theorem complete_iff (format : TableFormat) (bytes : ByteArray)
    (law : format.KeepsOrder (completed format ⟨some bytes, true⟩)) :
    let file : SettingsFile := ⟨some bytes, true⟩
    ((load format file).Complete format (tableOf format file) ↔
      (completed format file).PlainFirst ∨
        (usable? workersKey (tableOf format file)).isSome = true ∧
          (usable? reseedKey (tableOf format file)).isSome = true) ∧
    (¬ (completed format file).PlainFirst → (load format file).file = file) := by
  intro file
  have kept (unordered : ¬ (completed format file).PlainFirst) : (load format file).file = file :=
    file_of_not_write? (law.refuses unordered)
  refine ⟨⟨?_, ?_⟩, kept⟩
  · intro complete
    by_cases ordered : (completed format file).PlainFirst
    · exact .inl ordered
    · exact .inr (usable_of_complete (kept ordered) complete)
  · rintro (ordered | ⟨workers, reseed⟩)
    · exact complete_of_plainFirst law rfl ordered
    · by_cases ordered : (completed format file).PlainFirst
      · exact complete_of_plainFirst law rfl ordered
      · -- Nothing is written, but what was read had nothing to be repaired.
        obtain ⟨_, foundWorkers⟩ := Option.isSome_iff_exists.mp workers
        obtain ⟨_, foundReseed⟩ := Option.isSome_iff_exists.mp reseed
        apply complete_of_reread
        rw [kept ordered, completed_of_usable foundWorkers foundReseed]
        exact read?_of_usable rfl foundWorkers

theorem tableOf_toml {text : String} {table : TomlTable} (writable : Bool)
    (read : TomlTable.ofText? text = some table) :
    tableOf .toml ⟨some text.toUTF8, writable⟩ = table :=
  tableOf_of_read? ((TableFormat.toml_read? text).trans read)

theorem complete_iff_table_last :
    let file : SettingsFile := ⟨some "rng_workers = 0\nseed = 7\n[zoo]\nx = 1\n".toUTF8, true⟩
    TableFormat.toml.KeepsOrder (completed .toml file) ∧ (completed .toml file).PlainFirst ∧
      tableOf .toml file = [("rng_workers", .integer 0), ("seed", .integer 7),
        ("zoo", .table [("x", .integer 1)])] ∧
      (load .toml file).Complete .toml (tableOf .toml file) := by
  intro file
  have read : TomlTable.ofText? "rng_workers = 0\nseed = 7\n[zoo]\nx = 1\n" =
      some [("rng_workers", .integer 0), ("seed", .integer 7),
        ("zoo", .table [("x", .integer 1)])] := by
    decide +kernel
  have reread : TomlTable.ofText?
        "rng_reseed_s = 300\nrng_workers = 4\nseed = 7\n\n[zoo]\nx = 1\n" =
      some [("rng_reseed_s", .integer 300), ("rng_workers", .integer 4), ("seed", .integer 7),
        ("zoo", .table [("x", .integer 1)])] := by
    decide +kernel
  have found := tableOf_toml true read
  have whole : completed .toml file = [("rng_reseed_s", .integer 300),
      ("rng_workers", .integer 4), ("seed", .integer 7), ("zoo", .table [("x", .integer 1)])] := by
    rw [completed, found]
    rfl
  have ordered : (completed .toml file).PlainFirst := by
    rw [whole, TomlTable.PlainFirst]
    decide
  have law : TableFormat.toml.KeepsOrder (completed .toml file) := by
    rw [whole] at ordered ⊢
    exact TableFormat.toml_keepsOrder_of_text ordered rfl reread
  exact ⟨law, ordered, found, (complete_iff .toml _ law).1.mpr (.inl ordered)⟩

/-- A table in front of the entries that are missing keeps them from being written. -/
theorem not_complete_table_first :
    let file : SettingsFile := ⟨some "[aaa]\nx = 1\n".toUTF8, true⟩
    TableFormat.toml.KeepsOrder (completed .toml file) ∧
      tableOf .toml file = [("aaa", .table [("x", .integer 1)])] ∧
      (load .toml file).settings = defaults ∧ (load .toml file).file = file ∧
      ¬ (load .toml file).Complete .toml (tableOf .toml file) := by
  intro file
  have read : TomlTable.ofText? "[aaa]\nx = 1\n" = some [("aaa", .table [("x", .integer 1)])] := by
    decide +kernel
  have found : tableOf .toml file = [("aaa", .table [("x", .integer 1)])] := tableOf_toml true read
  have whole : completed .toml file = [("aaa", .table [("x", .integer 1)]),
      ("rng_reseed_s", .integer 300), ("rng_workers", .integer 4)] := by
    rw [completed, found]
    rfl
  have unordered : ¬ (completed .toml file).PlainFirst := by
    rw [whole, TomlTable.PlainFirst]
    decide
  have law : TableFormat.toml.KeepsOrder (completed .toml file) :=
    TableFormat.toml_keepsOrder_of_refused unordered (by rw [whole]; rfl)
  have kept := file_of_not_write? (law.refuses unordered)
  refine ⟨law, found, ?_, kept, ?_⟩
  · rw [load_settings, found]
    rfl
  · intro complete
    have usable := (usable_of_complete kept complete).1
    rw [found] at usable
    cases usable

theorem repair_of_written (rereads : format.Rereads (completed format file))
    (written : format.write? (completed format file) = some bytes)
    (kept : (load format file).file.contents? = some bytes) :
    (load format (load format file).file).settings = (load format file).settings ∧
      completed format (load format file).file = completed format file := by
  have given : (load format file).file.contents?.getD ByteArray.empty = bytes := by
    rw [kept, Option.getD_some]
  have found : tableOf format (load format file).file = completed format file :=
    tableOf_of_read? (given.symm ▸ rereads bytes written)
  have again := repair_repair (tableOf format file)
  constructor
  · rw [load_settings, found, completed, again]
    rfl
  · rw [completed, found, completed, again]

/-- A second load gives the same settings and leaves the file as the first one left it.  If the
table cannot be written, both leave it as it was. -/
theorem load_load (format : TableFormat) (file : SettingsFile)
    (rereads : format.Rereads (completed format file)) :
    let first := load format file
    let second := load format first.file
    second.settings = first.settings ∧ second.file = first.file ∧
      (format.write? (completed format file) = none → first.file = file ∧ second.file = file) := by
  intro first second
  by_cases stays : first.file = file
  · -- The second load is the first one again, whatever it is that went wrong.
    have same : second = first := congrArg (load format) stays
    rw [same]
    exact ⟨rfl, rfl, fun _ => ⟨stays, stays⟩⟩
  · cases written : format.write? (completed format file) with
    | none => exact absurd (file_of_not_write? written) stays
    | some bytes =>
        have writable : file.writable = true :=
          Bool.of_not_eq_false fun locked => stays (file_of_not_writable locked)
        have kept : first.file = { file with contents? := some bytes } :=
          file_of_write? written writable
        have contents : first.file.contents? = some bytes := by rw [kept]
        obtain ⟨settings, again⟩ := repair_of_written rereads written contents
        refine ⟨settings, ?_, fun refused => nomatch refused⟩
        calc second.file
            = { first.file with contents? := some bytes } :=
              file_of_write? (again.symm ▸ written) (by rw [kept]; exact writable)
          _ = first.file := by rw [kept]

theorem load_load_text_entry :
    let file : SettingsFile := ⟨some "extra = true\nrng_reseed_s = 'soon'\n".toUTF8, true⟩
    let first := load .toml file
    let second := load .toml first.file
    TableFormat.toml.Rereads (completed .toml file) ∧
      first.file.contents? =
        some "extra = true\nrng_reseed_s = 300\nrng_workers = 4\n".toUTF8 ∧
      second.settings = first.settings ∧ second.file = first.file := by
  intro file first second
  have read : TomlTable.ofText? "extra = true\nrng_reseed_s = 'soon'\n" =
      some [("extra", .bool true), ("rng_reseed_s", .string "soon")] := by
    decide +kernel
  have reread : TomlTable.ofText? "extra = true\nrng_reseed_s = 300\nrng_workers = 4\n" =
      some [("extra", .bool true), ("rng_reseed_s", .integer 300),
        ("rng_workers", .integer 4)] := by
    decide +kernel
  have whole : completed .toml file = [("extra", .bool true), ("rng_reseed_s", .integer 300),
      ("rng_workers", .integer 4)] := by
    rw [completed, tableOf_toml true read]
    rfl
  have ordered : (completed .toml file).PlainFirst := by
    rw [whole, TomlTable.PlainFirst]
    decide
  have law : TableFormat.toml.KeepsOrder (completed .toml file) := by
    rw [whole] at ordered ⊢
    exact TableFormat.toml_keepsOrder_of_text ordered rfl reread
  have written : TableFormat.toml.write? (completed .toml file) =
      some "extra = true\nrng_reseed_s = 300\nrng_workers = 4\n".toUTF8 := by
    rw [whole]
    rfl
  obtain ⟨settings, same, _⟩ := load_load .toml file law.rereads_written
  exact ⟨law.rereads_written, congrArg SettingsFile.contents? (file_of_write? written rfl),
    settings, same⟩

end Settings

end DiceNotation
