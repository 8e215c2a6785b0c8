import Treeline.Document.Reader.Basic

namespace Treeline

-- Results up to which error they are.

variable {ε ε' α β : Type}

theorem toOption_bind (x : Except ε α) (f : α → Except ε β) :
    (x >>= f).toOption = x.toOption.bind fun a => (f a).toOption := by
  cases x <;> rfl

theorem toOption_map (f : α → β) (x : Except ε α) : (f <$> x).toOption = x.toOption.map f := by
  cases x <;> rfl

theorem toOption_mapError (f : ε → ε') (x : Except ε α) : (x.mapError f).toOption = x.toOption := by
  cases x <;> rfl

theorem toOption_mapM {items : List α} (f : α → Except ε β) :
    (items.mapM f).toOption = items.mapM fun item => (f item).toOption := by
  induction items with
  | nil => rfl
  | cons item items ih =>
    rw [List.mapM_cons, List.mapM_cons, toOption_bind, ← ih]
    cases (f item).toOption with
    | none => rfl
    | some value => exact toOption_bind _ _

theorem eq_ok_of_toOption {x : Except ε α} {a : α} (found : x.toOption = some a) : x = .ok a := by
  cases x with
  | error => cases found
  | ok value => exact congrArg Except.ok (Option.some.inj found)

theorem eq_ok_iff_toOption {x : Except ε α} {a : α} : x = .ok a ↔ x.toOption = some a :=
  ⟨fun same => same ▸ rfl, eq_ok_of_toOption⟩

theorem eq_error_of_toOption {x : Except ε α} (missed : x.toOption = none) : ∃ error, x = .error error := by
  cases x with
  | error error => exact ⟨error, rfl⟩
  | ok => cases missed

-- What has come out of two steps in a row has come out of each.
theorem eq_ok_of_bind {x : Except ε α} {f : α → Except ε β} {b : β} (done : x >>= f = .ok b) :
    ∃ a, x = .ok a ∧ f a = .ok b := by
  cases x with
  | error => cases done
  | ok a => exact ⟨a, rfl, done⟩

theorem eq_ok_of_mapError {f : ε → ε'} {x : Except ε α} {a : α} (done : x.mapError f = .ok a) : x = .ok a := by
  rwa [eq_ok_iff_toOption, toOption_mapError, ← eq_ok_iff_toOption] at done

namespace Document

@[simp] theorem toOption_flawHere (flaw : Flaw) (rest : List Char) :
    (flawHere flaw rest : Except Stop α).toOption = none := rfl

@[simp] theorem toOption_flawNext (flaw : Flaw) (rest : List Char) :
    (flawNext flaw rest : Except Stop α).toOption = none := rfl

end Document

end Treeline
