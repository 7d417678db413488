import Mathlib.Data.List.Basic

/-!
# Programs that may stop between two actions

A program is a sequence of atomic actions on a state that ends with a value or an error; what it
does next may depend on the state it finds. The machine it runs on may stop before any action and
after the last one: `visits` lists the states in which it can stop.

`wp p Q C s` is the condition under which the program, started in `s`, ends in `Q` and can only
stop in states that satisfy `C`. Proofs about programs go through its rules and
`exec_of_wp`, `visits_of_wp`.
-/

inductive Prog (S ε α : Type) where
  | done (r : Except ε α)
  | act (f : S → S) (next : S → Prog S ε α)

namespace Prog

variable {S ε ε' α β : Type}

def bind (p : Prog S ε α) (g : α → Prog S ε β) : Prog S ε β :=
  match p with
  | done (.ok a) => g a
  | done (.error e) => done (.error e)
  | act f next => act f fun s => bind (next s) g

instance : Monad (Prog S ε) where
  pure a := done (.ok a)
  bind := bind

def attempt (p : Prog S ε α) : Prog S ε' (Except ε α) :=
  match p with
  | done r => done (.ok r)
  | act f next => act f fun s => attempt (next s)

def fail (e : ε) : Prog S ε α := done (.error e)

def modify (f : S → S) : Prog S ε Unit := act f fun _ => done (.ok ())

def read (g : S → α) : Prog S ε α := act id fun s => done (.ok (g s))

def ofExcept (r : Except ε α) : Prog S ε α := done r

/-! ## Runs -/

def exec : Prog S ε α → S → Except ε α × S
  | done r, s => (r, s)
  | act f next, s => exec (next s) (f s)

/-- The states before each action and after the last one. -/
def visits : Prog S ε α → S → List S
  | done _, s => [s]
  | act f next, s => s :: visits (next s) (f s)

theorem exec_bind (p : Prog S ε α) (g : α → Prog S ε β) (s : S) : (p >>= g).exec s =
    match p.exec s with
    | (.ok a, t) => (g a).exec t | (.error e, t) => (.error e, t) := by
  induction p generalizing s with
  | done r => cases r <;> rfl
  | act f next ih => exact ih s (f s)

theorem exec_attempt (p : Prog S ε α) (s : S) :
    (p.attempt : Prog S ε' (Except ε α)).exec s = (.ok (p.exec s).1, (p.exec s).2) := by
  induction p generalizing s with
  | done r => rfl
  | act f next ih => exact ih s (f s)

/-! ## Weakest preconditions -/

def wp : Prog S ε α → (Except ε α → S → Prop) → (S → Prop) → S → Prop
  | done r, Q, C, s => C s ∧ Q r s
  | act f next, Q, C, s => C s ∧ wp (next s) Q C (f s)

variable {p : Prog S ε α} {Q Q' : Except ε α → S → Prop} {C C' : S → Prop} {s : S}

theorem wp_iff : wp p Q C s ↔ (∀ t ∈ p.visits s, C t) ∧ Q (p.exec s).1 (p.exec s).2 := by
  induction p generalizing s with
  | done r => simp [wp, visits, exec]
  | act f next ih => simp [wp, visits, exec, ih, and_assoc]

theorem exec_of_wp (h : wp p Q C s) : Q (p.exec s).1 (p.exec s).2 := (wp_iff.1 h).2

theorem visits_of_wp (h : wp p Q C s) {t : S} (ht : t ∈ p.visits s) : C t := (wp_iff.1 h).1 t ht

theorem wp.imp (h : wp p Q C s) (hQ : ∀ r t, Q r t → Q' r t) (hC : ∀ t, C t → C' t) :
    wp p Q' C' s := by
  rw [wp_iff] at h ⊢
  exact ⟨fun t ht => hC t (h.1 t ht), hQ _ _ h.2⟩

theorem wp.post (h : wp p Q C s) (hQ : ∀ r t, Q r t → Q' r t) : wp p Q' C s :=
  h.imp hQ fun _ hC => hC

theorem wp.start (h : wp p Q C s) : C s := by
  cases p with
  | done => exact h.1
  | act => exact h.1

def after (g : α → Prog S ε β) (Q : Except ε β → S → Prop) (C : S → Prop) :
    Except ε α → S → Prop
  | .ok a, t => wp (g a) Q C t
  | .error e, t => Q (.error e) t

variable {g : α → Prog S ε β}

@[simp] theorem after_ok {Q : Except ε β → S → Prop} {a : α} :
    after g Q C (.ok a) s ↔ wp (g a) Q C s := Iff.rfl

@[simp] theorem after_error {Q : Except ε β → S → Prop} {e : ε} :
    after g Q C (.error e) s ↔ Q (.error e) s := Iff.rfl

@[simp] theorem wp_bind {Q : Except ε β → S → Prop} :
    wp (p >>= g) Q C s ↔ wp p (after g Q C) C s := by
  induction p generalizing s with
  | done r =>
    cases r with
    | ok a => exact ⟨fun h => ⟨h.start, h⟩, fun h => h.2⟩
    | error e => exact Iff.rfl
  | act f next ih => exact and_congr_right fun _ => ih s

@[simp] theorem wp_map {f : α → β} {Q : Except ε β → S → Prop} :
    wp (f <$> p) Q C s ↔ wp p (fun r t => Q (r.map f) t) C s := by
  induction p generalizing s with
  | done r => cases r <;> exact Iff.rfl
  | act f next ih => exact and_congr_right fun _ => ih s

@[simp] theorem wp_attempt {Q : Except ε' (Except ε α) → S → Prop} :
    wp (p.attempt : Prog S ε' (Except ε α)) Q C s ↔ wp p (fun r t => Q (.ok r) t) C s := by
  induction p generalizing s with
  | done r => exact Iff.rfl
  | act f next ih => exact and_congr_right fun _ => ih s

@[simp] theorem wp_modify {f : S → S} {Q : Except ε Unit → S → Prop} :
    wp (modify f) Q C s ↔ C s ∧ C (f s) ∧ Q (.ok ()) (f s) := Iff.rfl

@[simp] theorem wp_read {g : S → α} : wp (read g : Prog S ε α) Q C s ↔ C s ∧ Q (.ok (g s)) s :=
  ⟨fun h => ⟨h.1, h.2.2⟩, fun h => ⟨h.1, h.1, h.2⟩⟩

end Prog
