import ApiOutline.Action
import ApiOutline.Proofs.Files.Growth

/-!
# What becomes of actions

An action that is made of two does what the first does and, if that succeeds,
what the second does after it.

Most actions are calm: they show no data, and directories are all they make.
An action fails calmly if it is calm whenever it fails. A calm action before it
keeps it so (`IsCalm.bind_failsCalmly`), and so does an action after it that
cannot fail (`FailsCalmly.bind`). That is how a command is made whose failures
leave nothing behind: all it needs is computed first, and the one piece that is
not calm comes last.
-/

namespace ApiOutline.Action

variable {α β γ : Type} {x : Action α} {f : α → Action β} {h : Host} {a : α} {b : β}

theorem result_bind_eq_ok :
    ((x >>= f) h).result = .ok b ↔
      ∃ a, (x h).result = .ok a ∧ (f a (x h).host).result = .ok b := by
  cases hx : (x h).result with
  | error e => simp [bind_apply_of_error hx]
  | ok a => simp [bind_apply_of_ok hx]

/-- What follows an action that shows nothing and leaves the host alone is done in its place. -/
theorem bind_apply_of_eq (hx : x h = ⟨h, [], .ok a⟩) : (x >>= f) h = f a h := by
  rw [bind_apply_of_ok (v := a) (by rw [hx]), hx, List.nil_append]

theorem host_bind_apply {f : Host → Action β} : (host >>= f) h = f h h :=
  bind_apply_of_eq rfl

theorem change_of_ok {f : Host → Files.Outcome} (hf : (f h).error = none) :
    change f h = ⟨{ h with files := (f h).files }, [], .ok ()⟩ := by
  unfold change
  simp only [hf]

theorem result_change_eq_ok {f : Host → Files.Outcome} (hf : (change f h).result = .ok ()) :
    (f h).error = none := by
  unfold change at hf
  cases herror : (f h).error with
  | none => rfl
  | some e => simp [herror] at hf

instance : LawfulMonad Action :=
  LawfulMonad.mk' Action
    (fun x => by
      funext h
      show (x >>= fun a => pure a) h = x h
      cases hx : (x h).result with
      | error e =>
          rw [bind_apply_of_error hx, ← hx]
      | ok a =>
          rw [bind_apply_of_ok hx]
          show (⟨(x h).host, (x h).events ++ [], .ok a⟩ : Acted _) = x h
          rw [List.append_nil, ← hx])
    (fun a f => by
      funext h
      exact bind_apply_of_eq rfl)
    (fun x f g => by
      funext h
      cases hx : (x h).result with
      | error e =>
          have hfirst : ((x >>= f) h).result = .error e := by rw [bind_apply_of_error hx]
          rw [bind_apply_of_error hfirst, bind_apply_of_error hx, bind_apply_of_error hx]
      | ok a =>
          rw [bind_apply_of_ok (f := fun a => f a >>= g) hx]
          cases hf : (f a (x h).host).result with
          | error e =>
              have hfirst : ((x >>= f) h).result = .error e := by rw [bind_apply_of_ok hx, hf]
              rw [bind_apply_of_error hfirst, bind_apply_of_error hf, bind_apply_of_ok hx]
          | ok b =>
              have hfirst : ((x >>= f) h).result = .ok b := by rw [bind_apply_of_ok hx, hf]
              rw [bind_apply_of_ok hfirst, bind_apply_of_ok hf, bind_apply_of_ok hx,
                List.append_assoc])

/-- Results that do not depend on the host can be found without one. -/
theorem mapM_eq_some {f : α → Action β} {g : α → Option β} {xs : List α} {bs : List β}
    (hf : ∀ x h, (f x h).result.toOption = g x) (hbs : ((xs.mapM f) h).result = .ok bs) :
    xs.mapM g = some bs := by
  induction xs generalizing h bs with
  | nil =>
      cases hbs
      rfl
  | cons x rest ih =>
      rw [List.mapM_cons] at hbs ⊢
      obtain ⟨b, hb, hbs⟩ := result_bind_eq_ok.1 hbs
      obtain ⟨others, hothers, hbs⟩ := result_bind_eq_ok.1 hbs
      cases hbs
      have hx := hf x h
      rw [hb] at hx
      rw [← hx, ih hothers]
      rfl

/-! ## Calm actions -/

/-- Whether no data have been shown, and only directories been made. -/
structure Calm (h : Host) (a : Acted α) : Prop where
  silent : ∀ text, Event.data text ∉ a.events
  grows : Files.Grows h.files a.host.files
  host : a.host = { h with files := a.host.files }

def IsCalm (x : Action α) : Prop := ∀ h, Calm h (x h)

/-- Whether an action that fails is calm. -/
def FailsCalmly (x : Action α) : Prop := ∀ h e, (x h).result = .error e → Calm h (x h)

/-- Whether an action cannot fail. -/
def Succeeds (x : Action α) : Prop := ∀ h, ∃ a, (x h).result = .ok a

theorem Succeeds.failsCalmly (hx : Succeeds x) : FailsCalmly x := by
  intro h e he
  obtain ⟨a, ha⟩ := hx h
  rw [ha] at he
  cases he

theorem Calm.of_eq {events : List Event} {result : Except Failure α} (h : Host)
    (hevents : ∀ text, Event.data text ∉ events) : Calm h ⟨h, events, result⟩ :=
  ⟨hevents, Files.Grows.refl _, rfl⟩

/-- What is calm after something calm is calm from the start. -/
theorem Calm.trans {a : Acted α} {b : Acted β} {result : Except Failure γ} (ha : Calm h a)
    (hb : Calm a.host b) : Calm h ⟨b.host, a.events ++ b.events, result⟩ where
  silent text hmem := (List.mem_append.1 hmem).elim (ha.silent text) (hb.silent text)
  grows := ha.grows.trans hb.grows
  host := by
    have hfirst := ha.host
    have hsecond := hb.host
    rw [hfirst] at hsecond
    exact hsecond

theorem Calm.of_bind_error {e : Failure} (hx : (x h).result = .error e) (hcalm : Calm h (x h)) :
    Calm h ((x >>= f) h) := by
  rw [bind_apply_of_error hx]
  exact ⟨hcalm.silent, hcalm.grows, hcalm.host⟩

theorem IsCalm.bind (hx : IsCalm x) (hf : ∀ a, IsCalm (f a)) : IsCalm (x >>= f) := by
  intro h
  cases hresult : (x h).result with
  | error e => exact Calm.of_bind_error hresult (hx h)
  | ok a =>
      rw [bind_apply_of_ok hresult]
      exact (hx h).trans (hf a _)

theorem IsCalm.bind_failsCalmly (hx : IsCalm x) (hf : ∀ a, FailsCalmly (f a)) :
    FailsCalmly (x >>= f) := by
  intro h e he
  cases hresult : (x h).result with
  | error e' => exact Calm.of_bind_error hresult (hx h)
  | ok a =>
      rw [bind_apply_of_ok hresult] at he ⊢
      exact (hx h).trans (hf a _ e he)

theorem FailsCalmly.bind (hx : FailsCalmly x) (hf : ∀ a, Succeeds (f a)) :
    FailsCalmly (x >>= f) := by
  intro h e he
  cases hresult : (x h).result with
  | error e' => exact Calm.of_bind_error hresult (hx h e' hresult)
  | ok a =>
      rw [bind_apply_of_ok hresult] at he
      obtain ⟨b, hb⟩ := hf a (x h).host
      rw [hb] at he
      cases he

theorem IsCalm.mapM {f : α → Action β} (hf : ∀ x, IsCalm (f x)) (xs : List α) :
    IsCalm (xs.mapM f) := by
  induction xs with
  | nil => exact fun h => .of_eq h (by simp)
  | cons x rest ih =>
      rw [List.mapM_cons]
      exact (hf x).bind fun _ => ih.bind fun _ h => .of_eq h (by simp)

theorem isCalm_pure (a : α) : IsCalm (pure a) := fun h => .of_eq h (by simp)

theorem isCalm_host : IsCalm host := fun h => .of_eq h (by simp)

theorem isCalm_note (n : Note) : IsCalm (note n) := fun h => .of_eq h (by simp)

theorem isCalm_message (text : String) : IsCalm (message text) := fun h => .of_eq h (by simp)

theorem isCalm_ofExcept (x : Except Failure α) : IsCalm (ofExcept x) := fun h => .of_eq h (by simp)

theorem isCalm_ofLogged (x : Logged α) : IsCalm (ofLogged x) := fun h => .of_eq h (by simp)

theorem IsCalm.attempt (hx : IsCalm x) : IsCalm (attempt x) := fun h =>
  ⟨(hx h).silent, (hx h).grows, (hx h).host⟩

theorem isCalm_change {f : Host → Files.Outcome} (hf : ∀ h, Files.Grows h.files (f h).files) :
    IsCalm (change f) := fun h => ⟨by simp [change], hf h, rfl⟩

theorem failsCalmly_change {f : Host → Files.Outcome}
    (hf : ∀ h, (f h).error ≠ none → Files.Grows h.files (f h).files) :
    FailsCalmly (change f) := by
  intro h e he
  refine ⟨by simp [change], hf h fun hnone => ?_, rfl⟩
  rw [change_of_ok hnone] at he
  cases he

theorem succeeds_pure (a : α) : Succeeds (pure a) := fun _ => ⟨a, rfl⟩

theorem succeeds_emit (e : Event) : Succeeds (emit e) := fun _ => ⟨(), rfl⟩

end ApiOutline.Action
