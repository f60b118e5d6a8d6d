import DiceNotation.Json
import DiceNotation.Json.Reader
import DiceNotation.Proofs.Outcome

/-! A document without numbers is read back from its text, whatever follows the text.
Numbers are left out since what follows a number may lengthen it. -/

namespace DiceNotation

mutual
/-- The document has no fault, and no numbers. -/
def Json.Plain : Json → Prop
  | .null => True
  | .bool _ => True
  | .number _ => False
  | .string _ => True
  | .array items => items.Plain
  | .object members => members.Plain
  | .broken _ _ => False

def JsonItems.Plain : JsonItems → Prop
  | .done => True
  | .cut _ => False
  | .more item rest => item.Plain ∧ rest.Plain

def JsonMembers.Plain : JsonMembers → Prop
  | .done => True
  | .cut _ _ => False
  | .more name? value rest => name?.isSome = true ∧ value.Plain ∧ rest.Plain
end

namespace Json

def before (c : Char) : List Char × List Char → List Char × List Char
  | (text, rest) => (c :: text, rest)

theorem hexUnit?_of_control : ∀ n < 0x20,
    hexUnit? '0' '0' (Nat.digitChar (n / 16)) (Nat.digitChar (n % 16)) = some n := by
  decide

theorem readString_unitEscape {c : Char} (control : c.toNat < 0x20) (rest : List Char) :
    readString (unitEscape c ++ rest) = (readString rest).map (before c) := by
  have trail : isTrail c.toNat = false := by simp [isTrail]; omega
  have lead : isLead c.toNat = false := by simp [isLead]; omega
  simp only [unitEscape, List.cons_append, List.nil_append, readString,
    hexUnit?_of_control c.toNat control, trail, lead, Char.ofNat_toNat]
  rfl

theorem readString_simpleEscape {mark c : Char} (known : simpleEscape? mark = some c)
    (rest : List Char) :
    readString ('\\' :: mark :: rest) = (readString rest).map (before c) := by
  have short : mark ≠ 'u' := by
    rintro rfl
    cases known
  rw [readString]
  · rw [known]
    rfl
  · simp [short]
  · simp [short]

theorem readString_visible {c : Char} (quote : c ≠ '"') (backslash : c ≠ '\\')
    (visible : ¬ c.toNat < 0x20) (rest : List Char) :
    readString (c :: rest) = (readString rest).map (before c) := by
  rw [readString, if_neg visible]
  · rfl
  all_goals simp [quote, backslash]

theorem escapeChar_cases (c : Char) :
    (∃ mark, simpleEscape? mark = some c ∧ escapeChar c = ['\\', mark]) ∨
      (c.toNat < 0x20 ∧ escapeChar c = unitEscape c) ∨
      (c ≠ '"' ∧ c ≠ '\\' ∧ ¬ c.toNat < 0x20 ∧ escapeChar c = [c]) := by
  unfold escapeChar
  split
  · next same => exact .inl ⟨'"', by rw [same]; rfl, rfl⟩
  split
  · next same => exact .inl ⟨'\\', by rw [same]; rfl, rfl⟩
  split
  · next same => exact .inl ⟨'b', by rw [same]; rfl, rfl⟩
  split
  · next same => exact .inl ⟨'f', by rw [same]; rfl, rfl⟩
  split
  · next same => exact .inl ⟨'n', by rw [same]; rfl, rfl⟩
  split
  · next same => exact .inl ⟨'r', by rw [same]; rfl, rfl⟩
  split
  · next same => exact .inl ⟨'t', by rw [same]; rfl, rfl⟩
  split
  · next control => exact .inr (.inl ⟨control, rfl⟩)
  · next quote backslash _ _ _ _ _ visible => exact .inr (.inr ⟨quote, backslash, visible, rfl⟩)

theorem readString_escapeChar (c : Char) (rest : List Char) :
    readString (escapeChar c ++ rest) = (readString rest).map (before c) := by
  rcases escapeChar_cases c with ⟨mark, known, same⟩ | ⟨control, same⟩ |
    ⟨quote, backslash, visible, same⟩
  · rw [same]
    exact readString_simpleEscape known rest
  · rw [same]
    exact readString_unitEscape control rest
  · rw [same]
    exact readString_visible quote backslash visible rest

theorem readString_escaped (cs rest : List Char) :
    readString (cs.flatMap escapeChar ++ '"' :: rest) = .ok (cs, rest) := by
  induction cs with
  | nil => rfl
  | cons c cs ih =>
      rw [List.flatMap_cons, List.append_assoc, readString_escapeChar, ih]
      rfl

theorem readText_quote (s : String) (rest : List Char) :
    readText (s.toList.flatMap escapeChar ++ '"' :: rest) = (.string s, rest) := by
  rw [readText, readString_escaped]
  exact congrArg (fun t => (Json.string t, rest)) String.ofList_toList

theorem skipSpace_cons {c : Char} (visible : isSpace c = false) (cs : List Char) :
    skipSpace (c :: cs) = c :: cs := by
  simp [skipSpace, List.dropWhile, visible]

def starts : List Char := ['n', 't', 'f', '"', '[', '\x7b']

theorem isSpace_of_starts : ∀ c ∈ starts, isSpace c = false := by
  simp [starts, isSpace]

theorem chars_head {doc : Json} (plain : doc.Plain) :
    ∃ c ∈ starts, ∃ cs, doc.chars = c :: cs := by
  cases doc with
  | null => exact ⟨'n', by decide, _, by rw [chars]⟩
  | bool b =>
      cases b with
      | false => exact ⟨'f', by decide, _, by rw [chars]⟩
      | true => exact ⟨'t', by decide, _, by rw [chars]⟩
  | string s => exact ⟨'"', by decide, _, by rw [chars, quote]⟩
  | array items => exact ⟨'[', by decide, _, by rw [chars]⟩
  | object members => exact ⟨'\x7b', by decide, _, by rw [chars]⟩
  | number n => exact plain.elim
  | broken read skip? => exact plain.elim

theorem itemChars_head {item : Json} (rest : JsonItems) (plain : item.Plain) :
    ∃ c ∈ starts, ∃ cs, itemChars (.more item rest) = c :: cs := by
  obtain ⟨c, starting, cs, same⟩ := chars_head plain
  refine ⟨c, starting, ?_⟩
  cases rest <;> simp [itemChars, same]

theorem memberChars_head (name : String) (value : Json) (rest : JsonMembers) :
    ∃ cs, memberChars (.more (some name) value rest) = '"' :: cs := by
  cases rest <;> simp [memberChars, quote]

theorem readWord_append (value : Json) (word rest : List Char) :
    readWord value word (word ++ rest) = (value, rest) := by
  induction word with
  | nil => rw [List.nil_append, readWord]
  | cons w word ih => rw [List.cons_append, readWord, if_pos rfl, ih]

theorem readItems_last {fuel : Nat} {cs rest : List Char} {item : Json}
    (read : readValue fuel cs = (item, ']' :: rest)) :
    readItems (fuel + 1) cs = (.more item .done, rest) := by
  simp (disch := decide) only [readItems, read, skipSpace_cons]

theorem readItems_next {fuel : Nat} {cs behind rest : List Char} {item : Json}
    {items : JsonItems} (read : readValue fuel cs = (item, ',' :: behind))
    (others : readItems fuel behind = (items, rest)) :
    readItems (fuel + 1) cs = (.more item items, rest) := by
  simp (disch := decide) only [readItems, read, skipSpace_cons, others]

theorem readMembers_last {fuel : Nat} {name : String} {cs rest : List Char} {value : Json}
    (read : readValue fuel cs = (value, '\x7d' :: rest)) :
    readMembers (fuel + 1) (quote name ++ ':' :: cs) = (.more (some name) value .done, rest) := by
  simp (disch := decide) only [quote, List.cons_append, List.append_assoc, List.nil_append,
    readMembers, skipSpace_cons, readText_quote, read]

theorem readMembers_next {fuel : Nat} {name : String} {cs behind rest : List Char} {value : Json}
    {members : JsonMembers} (read : readValue fuel cs = (value, ',' :: behind))
    (others : readMembers fuel behind = (members, rest)) :
    readMembers (fuel + 1) (quote name ++ ':' :: cs) =
      (.more (some name) value members, rest) := by
  simp (disch := decide) only [quote, List.cons_append, List.append_assoc, List.nil_append,
    readMembers, skipSpace_cons, readText_quote, read, others]

theorem readValue_string (fuel : Nat) (s : String) (rest : List Char) :
    readValue (fuel + 1) (quote s ++ rest) = (.string s, rest) := by
  simp (disch := decide) [quote, readValue, skipSpace_cons, readText_quote]

theorem readValue_array {fuel : Nat} {c : Char} {cs rest : List Char} {items : JsonItems}
    (starting : c ∈ starts) (read : readItems fuel (c :: cs) = (items, rest)) :
    readValue (fuel + 1) ('[' :: c :: cs) = (.array items, rest) := by
  have first : skipSpace (c :: cs) = c :: cs := skipSpace_cons (isSpace_of_starts c starting) _
  have item : c ≠ ']' := by
    rintro rfl
    simp [starts] at starting
  rw [readValue, skipSpace_cons (c := '[') (by decide)]
  simp [first, item, read]

theorem readValue_object {fuel : Nat} {cs rest : List Char} {members : JsonMembers}
    (read : readMembers fuel ('"' :: cs) = (members, rest)) :
    readValue (fuel + 1) ('\x7b' :: '"' :: cs) = (.object members, rest) := by
  have first : skipSpace ('"' :: cs) = '"' :: cs := skipSpace_cons (by decide) cs
  rw [readValue, skipSpace_cons (c := '\x7b') (by decide)]
  simp [first, read]

-- By recursion over the document.  Each call uses up one unit of fuel and at least one
-- character, so the length of the text bounds the fuel that is needed; an entry of a list
-- needs one unit more than its text, which the comma or the bracket behind it pays for.
mutual
theorem readValue_chars (doc : Json) (plain : doc.Plain) (fuel : Nat)
    (enough : doc.chars.length ≤ fuel) (rest : List Char) :
    readValue fuel (doc.chars ++ rest) = (doc, rest) := by
  cases fuel with
  | zero =>
      obtain ⟨c, _, cs, same⟩ := chars_head plain
      simp [same] at enough
  | succ fuel =>
      cases doc with
      | number n => exact plain.elim
      | broken read skip? => exact plain.elim
      | null =>
          rw [chars]
          exact readWord_append .null ['u', 'l', 'l'] rest
      | bool b =>
          cases b with
          | false =>
              rw [chars]
              exact readWord_append (.bool false) ['a', 'l', 's', 'e'] rest
          | true =>
              rw [chars]
              exact readWord_append (.bool true) ['r', 'u', 'e'] rest
      | string s =>
          rw [chars]
          exact readValue_string fuel s rest
      | array items =>
          rw [chars, List.length_cons, List.length_append, List.length_singleton] at enough
          rw [chars, List.cons_append, List.append_assoc]
          cases items with
          | done => rfl
          | cut fault => exact plain.elim
          | more item others =>
              obtain ⟨c, starting, cs, same⟩ := itemChars_head others plain.1
              have read := readItems_chars (.more item others) plain (by simp) fuel
                (by omega) rest
              rw [same] at read ⊢
              exact readValue_array starting read
      | object members =>
          rw [chars, List.length_cons, List.length_append, List.length_singleton] at enough
          rw [chars, List.cons_append, List.append_assoc]
          cases members with
          | done => rfl
          | cut fault skip => exact plain.elim
          | more name? value others =>
              cases name? with
              | none => cases plain.1
              | some name =>
                  obtain ⟨cs, same⟩ := memberChars_head name value others
                  have read := readMembers_chars (.more (some name) value others) plain
                    (by simp) fuel (by omega) rest
                  rw [same] at read ⊢
                  exact readValue_object read

theorem readItems_chars (items : JsonItems) (plain : items.Plain) (filled : items ≠ .done)
    (fuel : Nat) (enough : (itemChars items).length < fuel) (rest : List Char) :
    readItems fuel (itemChars items ++ ']' :: rest) = (items, rest) := by
  cases fuel with
  | zero => cases enough
  | succ fuel =>
      cases items with
      | done => exact absurd rfl filled
      | cut fault => exact plain.elim
      | more item others =>
          cases others with
          | cut fault => exact plain.2.elim
          | done =>
              rw [itemChars] at enough ⊢
              exact readItems_last (readValue_chars item plain.1 fuel (by omega) _)
          | more next behind =>
              simp only [itemChars, List.length_append, List.length_cons, List.append_assoc,
                List.cons_append] at enough ⊢
              exact readItems_next (readValue_chars item plain.1 fuel (by omega) _)
                (readItems_chars (.more next behind) plain.2 (by simp) fuel (by omega) rest)

theorem readMembers_chars (members : JsonMembers) (plain : members.Plain)
    (filled : members ≠ .done) (fuel : Nat) (enough : (memberChars members).length < fuel)
    (rest : List Char) :
    readMembers fuel (memberChars members ++ '\x7d' :: rest) = (members, rest) := by
  cases fuel with
  | zero => cases enough
  | succ fuel =>
      cases members with
      | done => exact absurd rfl filled
      | cut fault skip => exact plain.elim
      | more name? value others =>
          cases name? with
          | none => cases plain.1
          | some name =>
              cases others with
              | cut fault skip => exact plain.2.2.elim
              | done =>
                  simp only [memberChars, Option.getD_some, List.length_append,
                    List.length_cons, List.append_assoc, List.cons_append] at enough ⊢
                  exact readMembers_last (readValue_chars value plain.2.1 fuel (by omega) _)
              | more next? second behind =>
                  simp only [memberChars, Option.getD_some, List.length_append,
                    List.length_cons, List.append_assoc, List.cons_append] at enough ⊢
                  exact readMembers_next (readValue_chars value plain.2.1 fuel (by omega) _)
                    (readMembers_chars (.more next? second behind) plain.2.2 (by simp) fuel
                      (by omega) rest)
end

/-- A document without numbers is read back from its text. -/
theorem read_text {doc : Json} (plain : doc.Plain) : Json.read doc.text = (doc, true) := by
  have read := readValue_chars doc plain (2 * doc.chars.length + 2) (by omega) []
  rw [List.append_nil] at read
  simp only [Json.read, text, String.toList_ofList, read]
  rfl

end Json

end DiceNotation
