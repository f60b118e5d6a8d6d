import DiceNotation.Settings

namespace DiceNotation

namespace Settings

variable {key other : String} {value : UInt32} {table : TomlTable}

def usable? (key : String) (table : TomlTable) : Option UInt32 :=
  (table.find? key).bind positive?

theorem positive?_integer {default : UInt32} (positive : 0 < default) :
    positive? (.integer (Int64.ofNat default.toNat)) = some default := by
  have small : default.toNat < 4294967296 := default.toNat_lt
  have exact : (Int64.ofNat default.toNat).toInt = default.toNat :=
    Int64.toInt_ofNat_of_lt (by omega)
  have nonzero : 0 < default.toNat := UInt32.lt_iff_toNat_lt.mp positive
  rw [positive?, exact, if_pos ⟨by omega, by omega⟩]
  simp

theorem repairEntry_of_usable? (default : UInt32) (found : usable? key table = some value) :
    repairEntry key default table = { value, table, notices := [] } := by
  rw [usable?] at found
  rw [repairEntry, found]

theorem repairEntry_of_not_usable (default : UInt32) (missing : usable? key table = none) :
    repairEntry key default table = {
      value := default
      table := table.insert key (.integer (Int64.ofNat default.toNat))
      notices := [.overwritten key default] } := by
  rw [usable?] at missing
  rw [repairEntry, missing]

theorem usable?_repairEntry (key : String) {default : UInt32} (table : TomlTable)
    (positive : 0 < default) :
    usable? key (repairEntry key default table).table =
      some (repairEntry key default table).value := by
  cases found : usable? key table with
  | some value => rw [repairEntry_of_usable? default found, found]
  | none =>
      rw [repairEntry_of_not_usable default found]
      simp only [usable?, Entries.find?_insert_self, Option.bind_some, positive?_integer positive]

theorem find?_repairEntry_of_ne {key other : String} (apart : other ≠ key) (default : UInt32)
    (table : TomlTable) :
    (repairEntry key default table).table.find? other = table.find? other := by
  cases found : usable? key table with
  | some value => rw [repairEntry_of_usable? default found]
  | none =>
      rw [repairEntry_of_not_usable default found]
      exact Entries.find?_insert_of_ne table _ apart

theorem repair_of_usable {workers reseed : UInt32}
    (foundWorkers : usable? workersKey table = some workers)
    (foundReseed : usable? reseedKey table = some reseed) :
    repair table = {
      value := { rngWorkers := workers, rngReseedSeconds := reseed, seed? := (readSeed table).1 }
      table
      notices := (readSeed table).2 } := by
  simp only [repair, repairEntry_of_usable? _ foundWorkers, repairEntry_of_usable? _ foundReseed,
    List.nil_append]

theorem usable?_reseedKey_repair (table : TomlTable) :
    usable? reseedKey (repair table).table = some (repair table).value.rngReseedSeconds :=
  usable?_repairEntry reseedKey _ (by decide)

theorem usable?_workersKey_repair (table : TomlTable) :
    usable? workersKey (repair table).table = some (repair table).value.rngWorkers := by
  have apart : workersKey ≠ reseedKey := by decide
  have positive : 0 < defaults.rngWorkers := by decide
  have found := usable?_repairEntry workersKey table positive
  rw [usable?, ← find?_repairEntry_of_ne apart defaults.rngReseedSeconds] at found
  exact found

theorem find?_repair_of_ne (table : TomlTable) (workers : other ≠ workersKey)
    (reseed : other ≠ reseedKey) : (repair table).table.find? other = table.find? other :=
  (find?_repairEntry_of_ne reseed _ _).trans (find?_repairEntry_of_ne workers _ table)

theorem repair_repair (table : TomlTable) :
    repair (repair table).table =
      { repair table with notices := (readSeed (repair table).table).2 } := by
  rw [repair_of_usable (usable?_workersKey_repair table) (usable?_reseedKey_repair table)]
  rfl

end Settings

namespace Entries

variable {α : Type} {entries : Entries α} {key : String} {value : α}

def Ordered (entries : Entries α) : Prop :=
  entries.Pairwise fun entry later => entry.1 < later.1

theorem key_of_mem_insert {entry : String × α} (member : entry ∈ insert key value entries) :
    entry.1 = key ∨ entry ∈ entries := by
  induction entries with
  | nil => simp_all [insert]
  | cons first rest ih =>
      obtain ⟨name, other⟩ := first
      rw [insert] at member
      split at member
      · simp only [List.mem_cons] at member ⊢
        exact member.imp (congrArg Prod.fst) .inr
      · split at member
        · exact (List.mem_cons.mp member).imp_left (congrArg Prod.fst)
        · cases List.mem_cons.mp member with
          | inl same => exact .inr (same ▸ List.mem_cons_self)
          | inr member => exact (ih member).imp_right (List.mem_cons_of_mem _)

theorem ordered_insert (ordered : entries.Ordered) : (insert key value entries).Ordered := by
  induction entries with
  | nil => exact List.pairwise_singleton _ _
  | cons first rest ih =>
      obtain ⟨name, other⟩ := first
      have ⟨lower, orderedRest⟩ := List.pairwise_cons.mp ordered
      rw [insert]
      split
      · next same =>
          subst same
          exact List.pairwise_cons.mpr ⟨lower, orderedRest⟩
      · next differs =>
          split
          · next before =>
              apply List.pairwise_cons.mpr ⟨?_, ordered⟩
              intro entry member
              cases List.mem_cons.mp member with
              | inl same => exact same ▸ before
              | inr member => exact String.lt_trans before (lower entry member)
          · next behind =>
              apply List.pairwise_cons.mpr ⟨?_, ih orderedRest⟩
              intro entry member
              cases key_of_mem_insert member with
              | inl same =>
                  rw [same]
                  apply String.not_le.mp
                  intro above
                  exact differs (String.le_antisymm (String.not_lt.mp behind) above)
              | inr member => exact lower entry member

end Entries

namespace Settings

variable {key : String} {value default : UInt32} {table other repaired : TomlTable}

def Held (key : String) (table : TomlTable) (n : Int64) : Prop :=
  table.find? key = some (.integer n) ∧ 1 ≤ n.toInt ∧ n.toInt ≤ 4294967295

def Lacks (key : String) (table : TomlTable) : Prop := ∀ n, ¬ Held key table n

theorem toNat_ofNat_toInt {n : Int64} (lower : 0 ≤ n.toInt) (upper : n.toInt ≤ 4294967295) :
    ((UInt32.ofNat n.toInt.toNat).toNat : Int) = n.toInt := by
  have small : n.toInt.toNat < 4294967296 := by omega
  rw [UInt32.toNat_ofNat_of_lt' small]
  omega

theorem positive?_eq_some_iff {entry : Toml} :
    positive? entry = some value ↔ ∃ n, entry = .integer n ∧
      (1 ≤ n.toInt ∧ n.toInt ≤ 4294967295) ∧ (value.toNat : Int) = n.toInt := by
  constructor
  · intro h
    unfold positive? at h
    split at h
    · next n =>
        split at h
        · next bounds =>
            cases h
            exact ⟨n, rfl, bounds, toNat_ofNat_toInt (Int.le_of_lt bounds.1) bounds.2⟩
        · cases h
    · cases h
  · rintro ⟨n, rfl, bounds, same⟩
    have usable : 0 < n.toInt ∧ n.toInt ≤ 4294967295 := bounds
    rw [positive?, if_pos usable, ← same, Int.toNat_natCast, UInt32.ofNat_toNat]

theorem usable?_eq_some_iff :
    usable? key table = some value ↔ ∃ n, Held key table n ∧ (value.toNat : Int) = n.toInt := by
  rw [usable?, Option.bind_eq_some_iff]
  constructor
  · rintro ⟨entry, found, usable⟩
    obtain ⟨n, rfl, bounds, same⟩ := positive?_eq_some_iff.mp usable
    exact ⟨n, ⟨found, bounds⟩, same⟩
  · rintro ⟨n, ⟨found, bounds⟩, same⟩
    exact ⟨.integer n, found, positive?_eq_some_iff.mpr ⟨n, rfl, bounds, same⟩⟩

theorem Held.usable? {n : Int64} (held : Held key table n) :
    ∃ value, Settings.usable? key table = some value ∧ (value.toNat : Int) = n.toInt := by
  have ⟨lower, upper⟩ := held.2
  have same := toNat_ofNat_toInt (Int.le_trans (by decide) lower) upper
  exact ⟨_, usable?_eq_some_iff.mpr ⟨n, held, same⟩, same⟩

theorem usable?_eq_none_iff : usable? key table = none ↔ Lacks key table := by
  constructor
  · intro missing n held
    obtain ⟨value, found, _⟩ := held.usable?
    cases missing.symm.trans found
  · intro lacks
    cases found : usable? key table with
    | none => rfl
    | some value =>
        obtain ⟨n, held, _⟩ := usable?_eq_some_iff.mp found
        exact absurd held (lacks n)

instance : Decidable (Lacks key table) := decidable_of_iff _ usable?_eq_none_iff

theorem lacks_congr (same : other.find? key = table.find? key) :
    Lacks key other ↔ Lacks key table := by
  rw [Lacks, Lacks]
  simp only [Held, same]

/-- The value of a required entry, and what is found under its key behind the repair. -/
structure Mended (key : String) (default : UInt32) (table repaired : TomlTable)
    (value : UInt32) : Prop where
  held : ∀ n, Held key table n →
    (value.toNat : Int) = n.toInt ∧ repaired.find? key = some (.integer n)
  lacking : Lacks key table →
    value = default ∧ repaired.find? key = some (.integer (Int64.ofNat default.toNat))

theorem mended_repairEntry (key : String) (default : UInt32) (table : TomlTable) :
    Mended key default table (repairEntry key default table).table
      (repairEntry key default table).value := by
  constructor
  · intro n held
    obtain ⟨value, found, same⟩ := held.usable?
    rw [repairEntry_of_usable? default found]
    exact ⟨same, held.1⟩
  · intro lacks
    rw [repairEntry_of_not_usable default (usable?_eq_none_iff.mpr lacks)]
    exact ⟨rfl, Entries.find?_insert_self table key _⟩

theorem Mended.of_table (mended : Mended key default other repaired value)
    (same : other.find? key = table.find? key) : Mended key default table repaired value where
  held n held := mended.held n ⟨same.trans held.1, held.2⟩
  lacking lacks := mended.lacking ((lacks_congr same).mpr lacks)

theorem Mended.of_repaired (mended : Mended key default table other value)
    (same : repaired.find? key = other.find? key) : Mended key default table repaired value where
  held n held := ⟨(mended.held n held).1, same.trans (mended.held n held).2⟩
  lacking lacks := ⟨(mended.lacking lacks).1, same.trans (mended.lacking lacks).2⟩

theorem notices_repairEntry (key : String) (default : UInt32) (table : TomlTable) :
    (repairEntry key default table).notices =
      if Lacks key table then [.overwritten key default] else [] := by
  cases found : usable? key table with
  | none =>
      rw [repairEntry_of_not_usable default found, if_pos (usable?_eq_none_iff.mp found)]
  | some value =>
      have usable : ¬ Lacks key table := by
        intro lacks
        cases found.symm.trans (usable?_eq_none_iff.mpr lacks)
      rw [repairEntry_of_usable? default found, if_neg usable]

theorem ordered_repairEntry (ordered : table.Ordered) :
    (repairEntry key default table).table.Ordered := by
  cases found : usable? key table with
  | none =>
      rw [repairEntry_of_not_usable default found]
      exact Entries.ordered_insert ordered
  | some value =>
      rw [repairEntry_of_usable? default found]
      exact ordered

def SeedUnusable (table : TomlTable) : Prop :=
  ∃ entry, table.find? seedKey = some entry ∧ ∀ n, entry = .integer n → n.toInt < 0

theorem seedValue?_eq_some_iff {entry : Toml} {seed : UInt64} :
    seedValue? entry = some seed ↔ ∃ n, entry = .integer n ∧ (seed.toNat : Int) = n.toInt := by
  constructor
  · intro h
    unfold seedValue? at h
    split at h
    · next n =>
        split at h
        · next positive =>
            cases h
            have bound := n.toInt_lt
            have small : n.toInt.toNat < 18446744073709551616 := by omega
            refine ⟨n, rfl, ?_⟩
            rw [UInt64.toNat_ofNat_of_lt' small]
            omega
        · cases h
    · cases h
  · rintro ⟨n, rfl, same⟩
    rw [seedValue?, if_pos (by omega), ← same, Int.toNat_natCast, UInt64.ofNat_toNat]

theorem seedValue?_eq_none_iff {entry : Toml} :
    seedValue? entry = none ↔ ∀ n, entry = .integer n → n.toInt < 0 := by
  cases entry with
  | integer n =>
      rw [seedValue?]
      split
      · next positive => simpa using positive
      · next negative => simpa using negative
  | _ => simp [seedValue?]

theorem readSeed_fst (table : TomlTable) :
    (readSeed table).1 = (table.find? seedKey).bind seedValue? := by
  unfold readSeed
  cases table.find? seedKey with
  | none => rfl
  | some entry => cases read : seedValue? entry <;> simp [read]

theorem readSeed_fst_eq_some_iff {seed : UInt64} :
    (readSeed table).1 = some seed ↔
      ∃ n, table.find? seedKey = some (.integer n) ∧ (seed.toNat : Int) = n.toInt := by
  rw [readSeed_fst, Option.bind_eq_some_iff]
  constructor
  · rintro ⟨entry, found, read⟩
    obtain ⟨n, rfl, same⟩ := seedValue?_eq_some_iff.mp read
    exact ⟨n, found, same⟩
  · rintro ⟨n, found, same⟩
    exact ⟨.integer n, found, seedValue?_eq_some_iff.mpr ⟨n, rfl, same⟩⟩

theorem readSeed_snd_of_unusable (unusable : SeedUnusable table) :
    (readSeed table).2 = [.seedUnusable] := by
  obtain ⟨entry, found, negative⟩ := unusable
  simp [readSeed, found, seedValue?_eq_none_iff.mpr negative]

theorem readSeed_snd_of_usable (usable : ¬ SeedUnusable table) : (readSeed table).2 = [] := by
  unfold readSeed
  cases found : table.find? seedKey with
  | none => rfl
  | some entry =>
      cases read : seedValue? entry with
      | some seed => simp [read]
      | none => exact absurd ⟨entry, found, seedValue?_eq_none_iff.mp read⟩ usable

theorem seedUnusable_iff : (readSeed table).2 = [.seedUnusable] ↔ SeedUnusable table := by
  constructor
  · intro reported
    apply Classical.byContradiction
    intro usable
    cases reported.symm.trans (readSeed_snd_of_usable usable)
  · exact readSeed_snd_of_unusable

instance : Decidable (SeedUnusable table) := decidable_of_iff _ seedUnusable_iff

theorem readSeed_snd (table : TomlTable) :
    (readSeed table).2 = if SeedUnusable table then [.seedUnusable] else [] := by
  split
  · next unusable => exact readSeed_snd_of_unusable unusable
  · next usable => exact readSeed_snd_of_usable usable

section

variable (table : TomlTable)

theorem mended_workers :
    Mended workersKey 4 table (repair table).table (repair table).value.rngWorkers := by
  have apart : workersKey ≠ reseedKey := by decide
  apply (mended_repairEntry workersKey 4 table).of_repaired
  exact find?_repairEntry_of_ne apart _ _

theorem mended_reseed :
    Mended reseedKey 300 table (repair table).table (repair table).value.rngReseedSeconds := by
  have apart : reseedKey ≠ workersKey := by decide
  apply (mended_repairEntry reseedKey 300 _).of_table
  exact find?_repairEntry_of_ne apart _ _

theorem readSeed_repair : readSeed (repair table).table = readSeed table := by
  have workers : seedKey ≠ workersKey := by decide
  have reseed : seedKey ≠ reseedKey := by decide
  rw [readSeed, readSeed, find?_repair_of_ne table workers reseed]

theorem notices_repair :
    (repair table).notices =
      (if Lacks workersKey table then [.overwritten workersKey 4] else []) ++
        (if Lacks reseedKey table then [.overwritten reseedKey 300] else []) ++
          (if SeedUnusable table then [.seedUnusable] else []) := by
  -- The second entry is read from a table in which the first one may have been overwritten.
  have apart : reseedKey ≠ workersKey := by decide
  have lacks := lacks_congr (find?_repairEntry_of_ne apart 4 table)
  have parts : (repair table).notices =
      (repairEntry workersKey 4 table).notices ++
        (repairEntry reseedKey 300 (repairEntry workersKey 4 table).table).notices ++
          (readSeed (repair table).table).2 := rfl
  rw [parts, notices_repairEntry, notices_repairEntry, readSeed_repair, readSeed_snd]
  simp only [lacks]

theorem isError_of_mem_notices_repair :
    ∀ notice ∈ (repair table).notices, notice.isError = false := by
  intro notice member
  rw [notices_repair] at member
  simp only [List.mem_append, List.mem_ite_nil_right, List.mem_singleton] at member
  obtain (⟨_, rfl⟩ | ⟨_, rfl⟩) | ⟨_, rfl⟩ := member <;> rfl

end

/-- A repair takes the settings from the table where its entries are usable.  It puts defaults in
the place of the required entries that are not, changes no other entry, and reports what it could
not use.  A second repair gives the same settings and the same table, and can only report the
seed. -/
theorem repair_exact (table : TomlTable) :
    let repaired := repair table
    let again := repair repaired.table
    Mended workersKey 4 table repaired.table repaired.value.rngWorkers ∧
    Mended reseedKey 300 table repaired.table repaired.value.rngReseedSeconds ∧
    (∀ seed, repaired.value.seed? = some seed ↔
      ∃ n, table.find? seedKey = some (.integer n) ∧ (seed.toNat : Int) = n.toInt) ∧
    (∀ key, key ≠ workersKey → key ≠ reseedKey →
      repaired.table.find? key = table.find? key) ∧
    (table.Ordered → repaired.table.Ordered) ∧
    repaired.notices =
      (if Lacks workersKey table then [.overwritten workersKey 4] else []) ++
        (if Lacks reseedKey table then [.overwritten reseedKey 300] else []) ++
          (if SeedUnusable table then [.seedUnusable] else []) ∧
    (∀ notice ∈ repaired.notices, notice.isError = false) ∧
    again.value = repaired.value ∧ again.table = repaired.table ∧
    again.notices = if SeedUnusable table then [.seedUnusable] else [] := by
  intro repaired again
  have second : again = { repaired with notices := (readSeed repaired.table).2 } :=
    repair_repair table
  refine ⟨mended_workers table, mended_reseed table, ?_, ?_, ?_, notices_repair table,
    isError_of_mem_notices_repair table, ?_, ?_, ?_⟩
  · intro seed
    have read : repaired.value.seed? = (readSeed table).1 :=
      congrArg Prod.fst (readSeed_repair table)
    rw [read]
    exact readSeed_fst_eq_some_iff
  · exact fun _ workers reseed => find?_repair_of_ne table workers reseed
  · exact fun ordered => ordered_repairEntry (ordered_repairEntry ordered)
  · rw [second]
  · rw [second]
  · rw [second, readSeed_repair, readSeed_snd]

end Settings

end DiceNotation
