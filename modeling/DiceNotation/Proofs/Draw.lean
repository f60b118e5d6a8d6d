import DiceNotation.Roll

namespace DiceNotation

variable {σ : Type}

namespace Rolling

variable {α β : Type}

theorem pure_apply (a : α) (supply : Supply σ) :
    (pure a : Rolling σ α) supply = (.ok a, supply) := rfl

theorem bind_apply (first : Rolling σ α) (next : α → Rolling σ β) (supply : Supply σ) :
    (first >>= next) supply =
      match first supply with
      | (.ok a, rest) => next a rest
      | (.error error, rest) => (.error error, rest) := by
  simp only [bind, ExceptT.bind, ExceptT.mk, StateT.bind, ExceptT.bindCont]
  rcases first supply with ⟨error | a, rest⟩
  · rfl
  · rfl

theorem bind_of_ok {first : Rolling σ α} {a : α} {supply rest : Supply σ}
    (h : first supply = (.ok a, rest)) (next : α → Rolling σ β) :
    (first >>= next) supply = next a rest := by
  rw [bind_apply, h]

theorem bind_of_error {first : Rolling σ α} {error : EvalError} {supply rest : Supply σ}
    (h : first supply = (.error error, rest)) (next : α → Rolling σ β) :
    (first >>= next) supply = (.error error, rest) := by
  rw [bind_apply, h]

end Rolling

theorem Die.face?_bounds {die : Die} {word : UInt64} {face : Nat}
    (h : die.face? word = some face) : 1 ≤ face ∧ face ≤ die.sides := by
  have bound : word.toNat * die.sides < wordCount * die.sides :=
    Nat.mul_lt_mul_of_pos_right word.toNat_lt die.sides_pos
  have high : word.toNat * die.sides / wordCount < die.sides :=
    Nat.div_lt_of_lt_mul bound
  simp only [face?] at h
  split at h
  · cases h
    exact ⟨Nat.le_add_left 1 _, high⟩
  · cases h

/-- One face for each die, and all of them on the die. -/
structure Pool.Drawn (pool : Pool) (draws : List Nat) : Prop where
  length : draws.length = pool.count
  faces : ∀ face ∈ draws, 1 ≤ face ∧ face ≤ pool.die.sides

variable [WordSource σ]

theorem Die.drawWithin_bounds {die : Die} {left face : Nat} {source : σ} {rest : Supply σ}
    (h : die.drawWithin left source = (.ok face, rest)) : 1 ≤ face ∧ face ≤ die.sides := by
  induction left generalizing source with
  | zero => cases h
  | succ left ih =>
      unfold drawWithin at h
      cases accepted : die.face? (WordSource.next source).1 with
      | none => exact ih (by simpa [accepted] using h)
      | some other =>
          have same : other = face := by simp_all
          exact same ▸ face?_bounds accepted

theorem Die.drawWithin_error {die : Die} {left : Nat} {source : σ} {error : EvalError}
    {rest : Supply σ} (h : die.drawWithin left source = (.error error, rest)) :
    error = .exhausted ∧ rest.left = 0 := by
  induction left generalizing source with
  | zero =>
      cases h
      exact ⟨rfl, rfl⟩
  | succ left ih =>
      unfold drawWithin at h
      cases accepted : die.face? (WordSource.next source).1 with
      | none => exact ih (by simpa [accepted] using h)
      | some other => simp [accepted] at h

theorem Die.drawMany_ok {die : Die} {count : Nat} {supply rest : Supply σ} {draws : List Nat}
    (h : die.drawMany count supply = (.ok draws, rest)) :
    draws.length = count ∧ ∀ face ∈ draws, 1 ≤ face ∧ face ≤ die.sides := by
  induction count generalizing supply draws with
  | zero =>
      cases h
      exact ⟨rfl, fun _ member => by cases member⟩
  | succ count ih =>
      unfold drawMany at h
      rcases drawn : die.draw supply with ⟨error | face, middle⟩
      · rw [Rolling.bind_of_error drawn] at h
        cases h
      · rw [Rolling.bind_of_ok drawn] at h
        rcases others : die.drawMany count middle with ⟨error | faces, last⟩
        · rw [Rolling.bind_of_error others] at h
          cases h
        · rw [Rolling.bind_of_ok others, Rolling.pure_apply] at h
          cases h
          obtain ⟨length, bounds⟩ := ih others
          refine ⟨by simp [length], ?_⟩
          intro other member
          rcases List.mem_cons.mp member with rfl | member
          · exact drawWithin_bounds drawn
          · exact bounds other member

theorem Die.drawMany_error {die : Die} {count : Nat} {supply rest : Supply σ}
    {error : EvalError} (h : die.drawMany count supply = (.error error, rest)) :
    error = .exhausted ∧ rest.left = 0 := by
  induction count generalizing supply with
  | zero => cases h
  | succ count ih =>
      unfold drawMany at h
      rcases drawn : die.draw supply with ⟨other | face, middle⟩
      · rw [Rolling.bind_of_error drawn] at h
        cases h
        exact drawWithin_error drawn
      · rw [Rolling.bind_of_ok drawn] at h
        rcases others : die.drawMany count middle with ⟨other | faces, last⟩
        · rw [Rolling.bind_of_error others] at h
          cases h
          exact ih others
        · rw [Rolling.bind_of_ok others, Rolling.pure_apply] at h
          cases h

theorem Pool.drawn_of_draw {pool : Pool} {supply rest : Supply σ} {draws : List Nat}
    (h : pool.draw supply = (.ok draws, rest)) : pool.Drawn draws :=
  ⟨(Die.drawMany_ok h).1, (Die.drawMany_ok h).2⟩

theorem Pool.draw_error {pool : Pool} {supply rest : Supply σ} {error : EvalError}
    (h : pool.draw supply = (.error error, rest)) : error = .exhausted ∧ rest.left = 0 :=
  Die.drawMany_error h

end DiceNotation
