import BlockWorld.Bytes.Basic

/-! # Readers and the forms they read

A reader reads a form as a value if it takes just that form from the front of any input, and refuses
it if it fails whatever follows. Both are put together as readers are: a form that is the row of the
forms of its parts is read if they are, and refused if one of them is and those before it are read.
-/

namespace BlockWorld

variable {ε α β : Type} {r : StateT Bytes (Except ε) α} {f : α → StateT Bytes (Except ε) β}
  {b c : Bytes} {a : α} {d : β} {e : ε}

theorem bind_eq_ok {x : Except ε α} {f : α → Except ε β} {d : β} (h : (x >>= f) = .ok d) :
    ∃ a, x = .ok a ∧ f a = .ok d := by
  cases x with
  | ok a => exact ⟨a, rfl, h⟩
  | error e => cases h

/-- From an input that starts with `b`, the reader takes `b` and answers `a`. -/
def Reads (r : StateT Bytes (Except ε) α) (b : Bytes) (a : α) : Prop :=
  ∀ rest, r (b ++ rest) = .ok (a, rest)

def Refuses (r : StateT Bytes (Except ε) α) (b : Bytes) (e : ε) : Prop :=
  ∀ rest, r (b ++ rest) = .error e

namespace Reads

theorem pure (a : α) : Reads (Pure.pure a : StateT Bytes (Except ε) α) [] a := fun _ => rfl

theorem bind (hr : Reads r b a) (hf : Reads (f a) c d) : Reads (r >>= f) (b ++ c) d := by
  intro rest
  show (r (b ++ c ++ rest) >>= fun x => f x.1 x.2) = _
  rw [List.append_assoc, hr]
  exact hf rest

theorem bind_nil (hr : Reads r b a) (hf : Reads (f a) [] d) : Reads (r >>= f) b d := by
  have h := hr.bind hf
  rwa [List.append_nil] at h

theorem bind_pure (hr : Reads r b a) (g : α → β) :
    Reads (r >>= fun x => Pure.pure (g x)) b (g a) := hr.bind_nil (pure (g a))

theorem map (hr : Reads r b a) (g : α → β) : Reads (g <$> r) b (g a) := by
  intro rest
  show (Prod.map g id <$> r (b ++ rest)) = _
  rw [hr]
  rfl

theorem bind_refuses (hr : Reads r b a) (hf : Refuses (f a) c e) :
    Refuses (r >>= f) (b ++ c) e := by
  intro rest
  show (r (b ++ c ++ rest) >>= fun x => f x.1 x.2) = _
  rw [List.append_assoc, hr]
  exact hf rest

end Reads

namespace Refuses

theorem throw (b : Bytes) (e : ε) :
    Refuses (throwThe ε e : StateT Bytes (Except ε) α) b e := fun _ => rfl

theorem bind (hr : Refuses r b e) (c : Bytes) : Refuses (r >>= f) (b ++ c) e := by
  intro rest
  show (r (b ++ c ++ rest) >>= fun x => f x.1 x.2) = _
  rw [List.append_assoc, hr]
  rfl

theorem map (hr : Refuses r b e) (g : α → β) : Refuses (g <$> r) b e := by
  intro rest
  show (Prod.map g id <$> r (b ++ rest)) = _
  rw [hr]
  rfl

end Refuses

end BlockWorld
