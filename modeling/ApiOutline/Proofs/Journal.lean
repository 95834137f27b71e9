import ApiOutline.Journal

/-!
# Taking a journal apart

A computation of several steps that succeeds is a succession of successful
steps, and its warnings are theirs, in order. Proofs about the merge read its
runs through the lemmas here and never unfold the sequencing itself.
-/

namespace ApiOutline.Logged

variable {α β : Type}

theorem result_bind_eq_ok {x : Logged α} {f : α → Logged β} {b : β} :
    (x >>= f).result = .ok b ↔ ∃ a, x.result = .ok a ∧ (f a).result = .ok b := by
  rw [result_bind]
  cases x.result with
  | error e => simp [Bind.bind, Except.bind]
  | ok a => simp [Bind.bind, Except.bind]

theorem warnings_bind_of_ok {x : Logged α} {a : α} (f : α → Logged β) (h : x.result = .ok a) :
    (x >>= f).warnings = x.warnings ++ (f a).warnings := by
  unfold warnings
  rw [notes_bind_of_ok f h, List.filter_append]

@[simp] theorem warnings_ofExcept (x : Except Failure α) : (ofExcept x).warnings = [] := rfl

@[simp] theorem result_note (n : Note) : (note n).result = .ok () := rfl

theorem warnings_note_bind_of_warning {n : Note} (h : n.severity = .warning)
    (f : Unit → Logged β) : (note n >>= f).warnings = n :: (f ()).warnings := by
  rw [warnings_bind_of_ok f (result_note n)]
  simp [warnings, note, h]

theorem warnings_note_bind_of_detail {n : Note} (h : n.severity = .detail)
    (f : Unit → Logged β) : (note n >>= f).warnings = (f ()).warnings := by
  rw [warnings_bind_of_ok f (result_note n)]
  simp [warnings, note, h]

theorem warnings_map (g : α → β) (x : Logged α) : (g <$> x).warnings = x.warnings := by
  simp only [Functor.map, bind, warnings]
  cases x.result with
  | error e => rfl
  | ok a => exact congrArg _ (List.append_nil _)

end ApiOutline.Logged
