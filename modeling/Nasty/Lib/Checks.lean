import Mathlib.Data.List.Basic

/-!
# Sequences of fallible checks

Validators are written in `Except`: a check returns `ok ()` or the first error it meets. The
lemmas here say when a sequence of checks passes, so that a validator is reasoned about through
what it accepts.
-/

namespace Except

variable {ε α β : Type} {f : α → Except ε β} {xs : List α}

theorem bind_eq_ok {x : Except ε α} {b : β} : (x >>= f) = .ok b ↔ ∃ a, x = .ok a ∧ f a = .ok b := by
  cases x with
  | error e => simp [Bind.bind, Except.bind]
  | ok a => simp [Bind.bind, Except.bind]

theorem rest_ok {x : Except ε α} {b : β} (h : (x >>= f) = .ok b) : ∃ a, f a = .ok b := by
  obtain ⟨a, -, h⟩ := bind_eq_ok.1 h
  exact ⟨a, h⟩

theorem seq_eq_ok {x y : Except ε Unit} :
    (x >>= fun _ => y) = .ok () ↔ x = .ok () ∧ y = .ok () := by
  rw [bind_eq_ok]
  exact ⟨fun ⟨_, hx, hy⟩ => ⟨hx, hy⟩, fun ⟨hx, hy⟩ => ⟨(), hx, hy⟩⟩

/-- `if c { return Err(e) }` as a check. -/
def refuse (c : Prop) [Decidable c] (e : ε) : Except ε Unit := if c then .error e else .ok ()

@[simp] theorem refuse_eq_ok {c : Prop} [Decidable c] {e : ε} : refuse c e = .ok () ↔ ¬ c := by
  unfold refuse
  split_ifs with h <;> simp [h]

/-- A check made on every element of a list, in order. -/
def checkAll (f : α → Except ε Unit) : List α → Except ε Unit
  | [] => .ok ()
  | x :: xs => f x >>= fun _ => checkAll f xs

@[simp] theorem checkAll_eq_ok {f : α → Except ε Unit} :
    checkAll f xs = .ok () ↔ ∀ x ∈ xs, f x = .ok () := by
  induction xs with
  | nil => simp [checkAll]
  | cons x xs ih => rw [checkAll, seq_eq_ok, ih, List.forall_mem_cons]

/-- A list translated element by element, stopping at the first error. -/
theorem mapM_cons_eq_ok {x : α} {ys : List β} :
    (x :: xs).mapM f = .ok ys ↔ ∃ z zs, f x = .ok z ∧ xs.mapM f = .ok zs ∧ ys = z :: zs := by
  rw [List.mapM_cons, bind_eq_ok]
  simp only [bind_eq_ok]
  constructor
  · rintro ⟨z, hz, zs, hzs, h⟩
    exact ⟨z, zs, hz, hzs, (Except.ok.inj h).symm⟩
  · rintro ⟨z, zs, hz, hzs, rfl⟩
    exact ⟨z, hz, zs, hzs, rfl⟩

theorem mem_of_mapM_eq_ok {ys : List β} (h : xs.mapM f = .ok ys) :
    (∀ x ∈ xs, ∃ y, f x = .ok y) ∧ ∀ y, y ∈ ys ↔ ∃ x ∈ xs, f x = .ok y := by
  induction xs generalizing ys with
  | nil =>
    obtain rfl : [] = ys := Except.ok.inj h
    simp
  | cons x xs ih =>
  obtain ⟨z, zs, hz, hzs, rfl⟩ := mapM_cons_eq_ok.1 h
  obtain ⟨hall, hmem⟩ := ih hzs
  refine ⟨List.forall_mem_cons.2 ⟨⟨z, hz⟩, hall⟩, fun y => ?_⟩
  rw [List.mem_cons, hmem y]
  simp [hz, eq_comm]

theorem elim_eq_ok {o : Option α} {e : ε} {a : α} : o.elim (error e) ok = ok a ↔ o = some a := by
  cases o <;> simp

end Except
