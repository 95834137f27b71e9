import ApiOutline.Failure
import ApiOutline.Record.Scalar

/-!
# Readings that succeed

A record is read part by part, and each part has to be accepted. The lemmas
here take an accepted reading apart, and put it together again.
-/

namespace ApiOutline

theorem bind_eq_ok {ε α β : Type} {x : Except ε α} {f : α → Except ε β} {b : β} :
    (x >>= f) = .ok b ↔ ∃ a, x = .ok a ∧ f a = .ok b := by
  cases x with
  | error e => simp [bind, Except.bind]
  | ok a => simp [bind, Except.bind]

/-- What two steps after each other give is changed as the results of the second are. -/
theorem bind_eq_map {α β γ δ : Type} {x : Except Failure α} {x' : Except Failure β}
    {f : α → Except Failure γ} {f' : β → Except Failure δ} {g : α → β} {h : γ → δ}
    (hx : x' = x.map g) (hf : ∀ a, f' (g a) = (f a).map h) : x' >>= f' = (x >>= f).map h := by
  rw [hx]
  cases x with
  | error e => rfl
  | ok a => exact hf a

namespace Record

namespace Checked

variable {α β : Type}

theorem map_eq_accepted {f : α → β} {a : Checked α} {b : β} (h : f <$> a = .accepted b) :
    ∃ x, a = .accepted x ∧ f x = b := by
  cases a with
  | accepted x => exact ⟨x, rfl, by simpa using h⟩
  | refused fs => simp at h

theorem map_accepted_of (f : α → β) {a : Checked α} {x : α} (h : a = .accepted x) :
    f <$> a = .accepted (f x) := by
  rw [h]
  rfl

/-- Side by side, two readings that succeed succeed. -/
theorem both_accepted {f : Checked (α → β)} {a : Checked α} {g : α → β} {x : α}
    (hf : f = .accepted g) (ha : a = .accepted x) : f <*> a = .accepted (g x) := by
  rw [hf, ha]
  rfl

theorem under_eq_accepted {a : Checked α} {step : Step} {x : α}
    (h : a.under step = .accepted x) : a = .accepted x := by
  cases a with
  | accepted y => exact h
  | refused fs => cases h

/-- Whether a reading succeeds. -/
def IsAccepted (a : Checked α) : Prop :=
  ∃ x, a = .accepted x

theorem IsAccepted.map {a : Checked α} (f : α → β) (h : IsAccepted a) : IsAccepted (f <$> a) := by
  obtain ⟨x, rfl⟩ := h
  exact ⟨f x, rfl⟩

theorem IsAccepted.seq {f : Checked (α → β)} {a : Checked α} (hf : IsAccepted f)
    (ha : IsAccepted a) : IsAccepted (f <*> a) := by
  obtain ⟨g, rfl⟩ := hf
  obtain ⟨x, rfl⟩ := ha
  exact ⟨g x, rfl⟩

theorem IsAccepted.under {a : Checked α} (step : Step) (h : IsAccepted a) :
    IsAccepted (a.under step) := by
  obtain ⟨x, rfl⟩ := h
  exact ⟨x, rfl⟩

/-! ## Two readings -/

variable {γ δ : Type} {R : α → β → Prop} {S : γ → δ → Prop} {a : Checked α} {b : Checked β}

/-- Whether two readings end alike: both succeed, with related results, or both have the same
faults. -/
inductive Alike (R : α → β → Prop) : Checked α → Checked β → Prop
  | accepted {x : α} {y : β} (related : R x y) : Alike R (.accepted x) (.accepted y)
  | refused (faults : List Fault) : Alike R (.refused faults) (.refused faults)

theorem Alike.of_eq {b : Checked α} (h : b = a) : Alike (fun x y => y = x) a b := by
  rw [h]
  cases a with
  | accepted x => exact .accepted rfl
  | refused fs => exact .refused fs

theorem Alike.map {f : α → γ} {g : β → δ} (h : Alike R a b)
    (hfg : ∀ x y, R x y → S (f x) (g y)) : Alike S (f <$> a) (g <$> b) := by
  cases h with
  | accepted hr => exact .accepted (hfg _ _ hr)
  | refused fs => exact .refused fs

theorem Alike.seq {F : Checked (α → γ)} {G : Checked (β → δ)}
    (hFG : Alike (fun f g => ∀ x y, R x y → S (f x) (g y)) F G) (h : Alike R a b) :
    Alike S (F <*> a) (G <*> b) := by
  cases hFG with
  | accepted hfg =>
      cases h with
      | accepted hr => exact .accepted (hfg _ _ hr)
      | refused fs => exact .refused fs
  | refused gs =>
      cases h with
      | accepted _ => exact .refused gs
      | refused fs => exact .refused (gs ++ fs)

theorem Alike.under (h : Alike R a b) (step : Step) : Alike R (a.under step) (b.under step) := by
  cases h with
  | accepted hr => exact .accepted hr
  | refused fs => exact .refused _

end Checked

/-- A member that is there is read under its name. -/
theorem optional_of_find? {α : Type} {ms : Members} {name : String} {others : List String}
    {v : Value} (h : Members.find? ms name = some v) (absent : α) (read : Value → Checked α) :
    optional ms name others absent read = (read v).under (.member name) := by
  unfold optional spelled
  rw [h]

end Record

theorem checked_eq_ok {α : Type} {kind : Record.Kind} {a : Record.Checked α} {x : α}
    (h : checked kind a = .ok x) : a = .accepted x := by
  cases a with
  | accepted y => cases h; rfl
  | refused fs => cases h

/-- Readings that end alike are alike as steps. -/
theorem checked_of_alike {α β : Type} {g : α → β} {kind : Record.Kind} {a : Record.Checked α}
    {b : Record.Checked β} (h : a.Alike (fun x y => y = g x) b) :
    checked kind b = (checked kind a).map g := by
  cases h with
  | accepted hr => rw [hr]; rfl
  | refused fs => rfl

end ApiOutline
