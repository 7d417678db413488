import Nasty.Lib.Checks
import Nasty.Lib.Lts

/-!
# Processes

A process calls the commands of an interface, one after the other; `C` are the commands and `R c`
the answers to `c`. What it does next depends on the answers alone, and it ends with a value or
an error.

1. `Contract`: what a command may be called in, and what it may answer and change.
2. `wp`: the condition under which a process calls no command outside its contract and ends in
   `Q`, alone on a state. The state may also be what the process itself has learnt.
3. `Exec`: a process alone; `Step`: many processes, whose commands interleave arbitrarily.
4. `run_learnt`: in every interleaving each process is where its own calls have led it.
-/

inductive Proc (C : Type) (R : C → Type) (ε α : Type) where
  | done (r : Except ε α)
  | call (c : C) (next : R c → Proc C R ε α)

namespace Proc

open Lts List Option Function

variable {C : Type} {R : C → Type} {ε ε' α β σ κ O : Type}

def bind (p : Proc C R ε α) (g : α → Proc C R ε β) : Proc C R ε β :=
  match p with
  | done (.ok a) => g a
  | done (.error e) => done (.error e)
  | call c next => call c fun r => bind (next r) g

instance : Monad (Proc C R ε) where
  pure a := done (.ok a)
  bind := bind

/-- Run a process and go on with its result, be it a value or an error. -/
def attempt (p : Proc C R ε α) : Proc C R ε' (Except ε α) :=
  match p with
  | done r => done (.ok r)
  | call c next => call c fun r => attempt (next r)

def fail (e : ε) : Proc C R ε α := done (.error e)

def perform (c : C) : Proc C R ε (R c) := call c fun r => done (.ok r)

/-- Go on with the value of a computation, or fail with its error. -/
def ofExcept (r : Except ε α) : Proc C R ε α := done r

def void (p : Proc C R ε α) : Proc C R ε Unit := (fun _ => ()) <$> p

def ignore (p : Proc C R ε α) : Proc C R ε' Unit := (fun _ => ()) <$> p.attempt

def each (xs : List β) (body : β → Proc C R ε Unit) : Proc C R ε Unit :=
  match xs with
  | [] => pure ()
  | x :: xs => body x >>= fun _ => each xs body

def collect (xs : List β) (body : β → Proc C R ε (List α)) : Proc C R ε (List α) :=
  match xs with
  | [] => pure []
  | x :: xs => body x >>= fun ys => (ys ++ ·) <$> collect xs body

def refuse (c : Prop) [Decidable c] (e : ε) : Proc C R ε Unit := ofExcept (.refuse c e)

/-- A part of a process that is done only in some cases. -/
def onlyIf (c : Prop) [Decidable c] (body : Proc C R ε Unit) : Proc C R ε Unit :=
  if c then body else pure ()

/-- The value of an answer; its error ends the process. -/
def orFail (error : ε' → ε) : Except ε' α → Proc C R ε α
  | .ok a => pure a
  | .error e => fail (error e)

/-- Hold a lock while `body` runs. -/
def holding (lock unlock : C) (body : Proc C R ε α) : Proc C R ε α := do
  let _ ← perform lock
  let result ← attempt body
  let _ ← perform unlock
  ofExcept result

/-! ## Contracts -/

/-- What is known of an interface: where a command may be called, and the answers and states that
may follow. -/
structure Contract (C : Type) (R : C → Type) (σ : Type) where
  pre : C → σ → Prop
  post : (c : C) → σ → R c → σ → Prop

def wp (I : Contract C R σ) (Q : Except ε α → σ → Prop) : Proc C R ε α → σ → Prop
  | done r, s => Q r s
  | call c next, s => I.pre c s ∧ ∀ r t, I.post c s r t → wp I Q (next r) t

variable {I : Contract C R σ} {p : Proc C R ε α} {Q Q' : Except ε α → σ → Prop} {s t : σ}

theorem wp.imp (h : p.wp I Q s) (hQ : ∀ r t, Q r t → Q' r t) : p.wp I Q' s := by
  induction p generalizing s with
  | done r => exact hQ r s h
  | call c next ih => exact ⟨h.1, fun r t ht => ih r (h.2 r t ht)⟩

theorem wp.mono {I' : Contract C R σ} (h : p.wp I Q s) (hpre : ∀ c s, I.pre c s → I'.pre c s)
    (hpost : ∀ c s r t, I'.post c s r t → I.post c s r t) : p.wp I' Q s := by
  induction p generalizing s with
  | done r => exact h
  | call c next ih => exact ⟨hpre c s h.1, fun r t ht => ih r (h.2 r t (hpost c s r t ht))⟩

def after (I : Contract C R σ) (g : α → Proc C R ε β) (Q : Except ε β → σ → Prop) :
    Except ε α → σ → Prop
  | .ok a, t => (g a).wp I Q t
  | .error e, t => Q (.error e) t

section Rules

variable {g : α → Proc C R ε β} {Q : Except ε β → σ → Prop} {a : α} {f : α → β}

@[simp] theorem after_ok : after I g Q (.ok a) s ↔ (g a).wp I Q s := Iff.rfl

@[simp] theorem after_error {e : ε} : after I g Q (.error e) s ↔ Q (.error e) s := Iff.rfl

@[simp] theorem wp_bind : (p >>= g).wp I Q s ↔ p.wp I (after I g Q) s := by
  induction p generalizing s with
  | done r => cases r <;> exact Iff.rfl
  | call c next ih => exact and_congr_right fun _ => forall₃_congr fun r t _ => ih r

@[simp] theorem wp_map : (f <$> p).wp I Q s ↔ p.wp I (fun r t => Q (r.map f) t) s := by
  induction p generalizing s with
  | done r => cases r <;> exact Iff.rfl
  | call c next ih => exact and_congr_right fun _ => forall₃_congr fun r t _ => ih r

theorem wp.bind {J : Except ε α → σ → Prop} (h : p.wp I J s)
    (he : ∀ e t, J (.error e) t → Q (.error e) t) (hg : ∀ a t, J (.ok a) t → (g a).wp I Q t) :
    (p >>= g).wp I Q s := by
  refine wp_bind.2 (h.imp fun r t ht => ?_)
  cases r with
  | ok a => exact hg a t ht
  | error e => exact he e t ht

theorem wp.seq {J : α → σ → Prop} (h : p.wp I (fun r t => ∀ a, r = .ok a → J a t) s)
    (he : ∀ e t, Q (.error e) t) (hg : ∀ a t, J a t → (g a).wp I Q t) : (p >>= g).wp I Q s :=
  h.bind (fun e t _ => he e t) fun a t ht => hg a t (ht a rfl)

/-- The same, where the first only looks. -/
theorem wp.look {P : Except ε α → Prop} (h : p.wp I (fun r t => t = s ∧ P r) s)
    (he : ∀ e, Q (.error e) s) (hg : ∀ a, P (.ok a) → (g a).wp I Q s) : (p >>= g).wp I Q s :=
  h.bind (fun e _ ht => ht.1 ▸ he e) fun a _ ht => ht.1 ▸ hg a ht.2

end Rules

@[simp] theorem wp_attempt {Q : Except ε' (Except ε α) → σ → Prop} :
    (p.attempt : Proc C R ε' (Except ε α)).wp I Q s ↔ p.wp I (fun r t => Q (.ok r) t) s := by
  induction p generalizing s with
  | done r => exact Iff.rfl
  | call c next ih => exact and_congr_right fun _ => forall₃_congr fun r t _ => ih r

@[simp] theorem wp_ignore {Q : Except ε' Unit → σ → Prop} :
    (p.ignore : Proc C R ε' Unit).wp I Q s ↔ p.wp I (fun _ t => Q (.ok ()) t) s :=
  wp_map.trans wp_attempt

@[simp] theorem wp_pure : (pure a : Proc C R ε α).wp I Q s ↔ Q (.ok a) s := Iff.rfl

@[simp] theorem wp_ofExcept {r : Except ε α} : (ofExcept r : Proc C R ε α).wp I Q s ↔ Q r s :=
  Iff.rfl

variable {c : C} {error : ε' → ε} {body : Proc C R ε Unit}

@[simp] theorem wp_perform {Q : Except ε (R c) → σ → Prop} :
    (perform c : Proc C R ε (R c)).wp I Q s ↔
      I.pre c s ∧ ∀ r t, I.post c s r t → Q (.ok r) t := Iff.rfl

theorem wp_perform_bind {g : R c → Proc C R ε α} :
    (perform c >>= g).wp I Q s ↔ I.pre c s ∧ ∀ r t, I.post c s r t → (g r).wp I Q t := Iff.rfl

@[simp] theorem wp_orFail_ok :
    (orFail error (.ok a) : Proc C R ε α).wp I Q s ↔ Q (.ok a) s := Iff.rfl

@[simp] theorem wp_refuse {c : Prop} [Decidable c] {e : ε} {Q : Except ε Unit → σ → Prop} :
    (refuse c e : Proc C R ε Unit).wp I Q s ↔ (c → Q (.error e) s) ∧ (¬ c → Q (.ok ()) s) := by
  by_cases hc : c <;> simp [refuse, Except.refuse, hc]

@[simp] theorem wp_onlyIf {c : Prop} [Decidable c] {Q : Except ε Unit → σ → Prop} :
    (onlyIf c body).wp I Q s ↔ (c → body.wp I Q s) ∧ (¬ c → Q (.ok ()) s) := by
  by_cases hc : c <;> simp [onlyIf, hc]

theorem wp_holding {lock unlock : C} : (holding lock unlock p).wp I Q s ↔
    (perform lock : Proc C R ε _).wp I (fun _ t => p.wp I (fun r u =>
      (perform unlock : Proc C R ε _).wp I (fun _ => Q r) u) t) s := by
  simp [holding]

variable {xs : List β} {J : σ → Prop}

/-- The loop rule: what every pass keeps, and every error satisfies, holds after the loop. -/
theorem wp_each {body : β → Proc C R ε Unit} {Q : Except ε Unit → σ → Prop}
    (hbody : ∀ x ∈ xs, ∀ s, Q (.ok ()) s → (body x).wp I Q s) (h : Q (.ok ()) s) :
    (each xs body).wp I Q s := by
  induction xs generalizing s with
  | nil => exact h
  | cons x xs ih =>
    exact (hbody x mem_cons_self s h).bind (fun _ _ ht => ht) fun _ _ ht =>
      ih (fun y hy => hbody y (mem_cons_of_mem _ hy)) ht

/-- Processes that leave the state as it is and answer with `f`, one for every element. -/
theorem wp_collect {body : β → Proc C R ε (List α)} {f : β → List α}
    (hbody : ∀ x ∈ xs, (body x).wp I (fun r t => t = s ∧ ∀ ys, r = .ok ys → ys = f x) s) :
    (collect xs body).wp I (fun r t => t = s ∧ ∀ ys, r = .ok ys → ys = xs.flatMap f) s := by
  induction xs with
  | nil =>
    refine ⟨rfl, ?_⟩
    rintro _ ⟨⟩
    rfl
  | cons x xs ih =>
  refine (hbody x mem_cons_self).look (fun _ => ⟨rfl, nofun⟩) fun ys hr => wp_map.2 ?_
  refine (ih fun y hy => hbody y (mem_cons_of_mem _ hy)).imp fun r t ⟨ht, hrest⟩ => ?_
  refine ⟨ht, fun zs hzs => ?_⟩
  cases r with
  | error e => nomatch hzs
  | ok ws =>
    obtain rfl : ys ++ ws = zs := Except.ok.inj hzs
    rw [hr ys rfl, hrest ws rfl, flatMap_cons]

/-- Processes that report what they could not do: if nothing is reported, every one has done its
part. -/
theorem wp_collect_parts {K : σ → σ → Prop} {P : β → σ → Prop} {l : List β}
    {f : β → Proc C R ε (List α)} (hrefl : ∀ s, K s s) (htrans : ∀ s t u, K s t → K t u → K s u)
    (hP : ∀ x s t, K s t → P x s → P x t)
    (hbody : ∀ x ∈ l, ∀ s, J s → (f x).wp I (fun r t => J t ∧ K s t ∧ (r = .ok [] → P x t)) s)
    (hs : J s) : (collect l f).wp I (fun r t => J t ∧ K s t ∧ (r = .ok [] → ∀ x ∈ l, P x t)) s := by
  induction l generalizing s with
  | nil => exact ⟨hs, hrefl s, nofun⟩
  | cons x l ih =>
  refine (hbody x mem_cons_self s hs).bind (fun _ _ ⟨ht, hst, _⟩ => ⟨ht, hst, nofun⟩)
    fun ys t ⟨ht, hst, hx⟩ => wp_map.2 ?_
  refine (ih (fun y hy => hbody y (mem_cons_of_mem _ hy)) ht).imp fun r u ⟨hu, htu, hxs⟩ =>
    ⟨hu, htrans s t u hst htu, fun hr => ?_⟩
  cases r with
  | error e => nomatch hr
  | ok zs =>
    obtain ⟨rfl, rfl⟩ := append_eq_nil_iff.1 (Except.ok.inj hr)
    rw [forall_mem_cons]
    exact ⟨hP x t u htu (hx rfl), hxs rfl⟩

/-! ## The commands of a process -/

/-- Whatever is answered, the process calls only commands in `P`. -/
def Only (P : C → Prop) : Proc C R ε α → Prop
  | done _ => True
  | call c next => P c ∧ ∀ r, (next r).Only P

section Only

variable {P P' : C → Prop} {g : α → Proc C R ε β}

theorem Only.imp (h : p.Only P) (hP : ∀ c, P c → P' c) : p.Only P' := by
  induction p with
  | done r => trivial
  | call c next ih => exact ⟨hP c h.1, fun r => ih r (h.2 r)⟩

theorem Only.bind (h : p.Only P) (hg : ∀ a, (g a).Only P) : (p >>= g).Only P := by
  induction p with
  | done r =>
    cases r with
    | ok a => exact hg a
    | error e => trivial
  | call c next ih => exact ⟨h.1, fun r => ih r (h.2 r)⟩

theorem Only.map (h : p.Only P) : (f <$> p).Only P := by
  induction p with
  | done r => cases r <;> trivial
  | call c next ih => exact ⟨h.1, fun r => ih r (h.2 r)⟩

theorem Only.void (h : p.Only P) : p.void.Only P := h.map

theorem Only.attempt (h : p.Only P) : (p.attempt : Proc C R ε' (Except ε α)).Only P := by
  induction p with
  | done r => trivial
  | call c next ih => exact ⟨h.1, fun r => ih r (h.2 r)⟩

theorem Only.ignore (h : p.Only P) : (p.ignore : Proc C R ε' Unit).Only P := .map h.attempt

theorem only_pure (a : α) : (pure a : Proc C R ε α).Only P := trivial

theorem only_fail (e : ε) : (fail e : Proc C R ε α).Only P := trivial

theorem only_ofExcept (r : Except ε α) : (ofExcept r : Proc C R ε α).Only P := trivial

theorem only_perform (h : P c) : (perform c : Proc C R ε (R c)).Only P :=
  ⟨h, fun _ => trivial⟩

theorem Only.call {g : R c → Proc C R ε β} (h : P c) (hg : ∀ r, (g r).Only P) :
    (perform c >>= g).Only P := (only_perform h).bind hg

theorem only_orFail (r : Except ε' α) : (orFail error r : Proc C R ε α).Only P := by
  cases r <;> trivial

theorem only_onlyIf {c : Prop} [Decidable c] (h : body.Only P) : (onlyIf c body).Only P := by
  unfold onlyIf
  split_ifs
  · exact h
  · trivial

theorem only_holding {lock unlock : C} (hlock : P lock) (hunlock : P unlock) (h : p.Only P) :
    (holding lock unlock p).Only P :=
  .call hlock fun _ => .bind h.attempt fun _ => .call hunlock fun _ => only_ofExcept _

theorem only_each {body : β → Proc C R ε Unit} (h : ∀ x ∈ xs, (body x).Only P) :
    (each xs body).Only P := by
  induction xs with
  | nil => trivial
  | cons x xs ih =>
    exact (h x mem_cons_self).bind fun _ => ih fun y hy => h y (mem_cons_of_mem _ hy)

theorem only_collect {body : β → Proc C R ε (List α)}
    (h : ∀ x, (body x).Only P) : (collect xs body).Only P := by
  induction xs with
  | nil => trivial
  | cons x xs ih => exact (h x).bind fun _ => ih.map

/-- What every command in `P` keeps, a process keeps that calls only those. -/
theorem Only.wp (h : p.Only P) (hP : ∀ c, P c → ∀ s, J s → I.pre c s ∧ ∀ r t, I.post c s r t → J t)
    (hs : J s) : p.wp I (fun _ t => J t) s := by
  induction p generalizing s with
  | done r => exact hs
  | call c next ih =>
    obtain ⟨hpre, hpost⟩ := hP c h.1 s hs
    exact ⟨hpre, fun r t ht => ih r (h.2 r) (hpost r t ht)⟩

end Only

/-! ## One process -/

/-- The process, alone from `s`, ends with `r` in `t`. -/
inductive Exec (post : (c : C) → σ → R c → σ → Prop) :
    Proc C R ε α → σ → Except ε α → σ → Prop
  | done {r s} : Exec post (.done r) s r s
  | call {c next r s t a u} : post c s r t → Exec post (next r) t a u →
      Exec post (.call c next) s a u

theorem Exec.of_wp {r : Except ε α} (h : Exec I.post p s r t) (hp : p.wp I Q s) : Q r t := by
  induction h with
  | done => exact hp
  | call hpost _ ih => exact ih (hp.2 _ _ hpost)

variable {post : (c : C) → σ → R c → σ → Prop}

theorem Exec.bind {r : Except ε β} {u : σ} (h : Exec post p s (.ok a) t)
    (hg : Exec post (g a) t r u) : Exec post (p >>= g) s r u := by
  generalize hok : (.ok a : Except ε α) = ra at h
  induction h with
  | done =>
    cases hok
    exact hg
  | call hpost _ ih => exact .call hpost (ih hg hok)

theorem Exec.map {r : Except ε α} (h : Exec post p s r t) : Exec post (f <$> p) s (r.map f) t := by
  induction h with
  | @done r s => cases r <;> exact .done
  | call hpost _ ih => exact .call hpost ih

theorem Exec.attempt {r : Except ε α} (h : Exec post p s r t) :
    Exec post (p.attempt : Proc C R ε' (Except ε α)) s (.ok r) t := by
  induction h with
  | done => exact .done
  | call hpost _ ih => exact .call hpost ih

/-! ## Machines -/

/-- The process on a machine, as far as the machine answers. -/
def play (m : (c : C) → σ → Option (R c × σ)) :
    Proc C R ε α → σ → Option (Except ε α × σ)
  | done r, s => some (r, s)
  | call c next, s => (m c s).bind fun a => play m (next a.1) a.2

/-- In the states `J` the machine answers as `post` says, and it stays there. -/
def Sound (post : (c : C) → σ → R c → σ → Prop) (J : σ → Prop)
    (m : (c : C) → σ → Option (R c × σ)) : Prop :=
  ∀ c s r t, J s → m c s = some (r, t) → post c s r t ∧ J t

section Machines

variable {post : (c : C) → σ → R c → σ → Prop} {J : σ → Prop}
  {m : (c : C) → σ → Option (R c × σ)}

theorem Sound.exec {r : Except ε α} (hm : Sound post J m) (hs : J s)
    (h : p.play m s = some (r, t)) : Exec post p s r t ∧ J t := by
  induction p generalizing s with
  | done r =>
    cases h
    exact ⟨.done, hs⟩
  | call c next ih =>
  obtain ⟨⟨r, u⟩, hru, hrest⟩ := bind_eq_some_iff.1 h
  obtain ⟨hpost, hu⟩ := hm c s r u hs hru
  obtain ⟨hexec, ht⟩ := ih r hu hrest
  exact ⟨.call hpost hexec, ht⟩

/-- What is seen of a run on the machine holds of some run. -/
theorem Sound.exists_exec (hm : Sound post J m) (hs : J s) {Q : Except ε α × σ → Bool}
    (h : (p.play m s).any Q) : ∃ r t, Exec post p s r t ∧ J t ∧ Q (r, t) := by
  obtain ⟨⟨r, t⟩, hrt, hQ⟩ := (any_eq_true _ _).1 h
  exact ⟨r, t, (hm.exec hs hrt).1, (hm.exec hs hrt).2, hQ⟩

end Machines

/-! ## Many processes -/

structure Pool (σ C : Type) (R : C → Type) (ε α : Type) where
  shared : σ
  procs : ℕ → Option (Proc C R ε α)

def Pool.init (s : σ) : Pool σ C R ε α := ⟨s, fun _ => none⟩

inductive Event (O C : Type) (R : C → Type) where
  /-- A process for the operation `o` starts. -/
  | spawn (i : ℕ) (o : O)
  | call (i : ℕ) (c : C) (r : R c)

def Pool.put (w : Pool σ C R ε α) (i : ℕ) (p : Proc C R ε α) : ℕ → Option (Proc C R ε α) :=
  update w.procs i (some p)

theorem Pool.put_self (w : Pool σ C R ε α) (i : ℕ) (p : Proc C R ε α) : w.put i p i = some p :=
  update_self ..

theorem Pool.put_of_ne (w : Pool σ C R ε α) {i j : ℕ} (p : Proc C R ε α) (hj : j ≠ i) :
    w.put i p j = w.procs j :=
  update_of_ne hj ..

def Step (I : Contract C R σ) (body : O → Proc C R ε α) (w : Pool σ C R ε α) :
    Event O C R → Pool σ C R ε α → Prop
  | .spawn i o, w' => w.procs i = none ∧ w'.shared = w.shared ∧ w'.procs = w.put i (body o)
  | .call i c r, w' => ∃ next, w.procs i = some (.call c next) ∧
      I.post c w.shared r w'.shared ∧ w'.procs = w.put i (next r)

def Event.process : Event O C R → ℕ
  | spawn i _ | call i _ _ => i

/-- On a machine, process `i` starts or makes its next call. -/
def Pool.turn (m : (c : C) → σ → Option (R c × σ)) (body : O → Proc C R ε α)
    (w : Pool σ C R ε α) : ℕ × Option O → Option (Pool σ C R ε α)
  | (i, some o) => if (w.procs i).isNone then some ⟨w.shared, w.put i (body o)⟩ else none
  | (i, none) =>
    match w.procs i with
    | some (.call c next) => (m c w.shared).map fun a => ⟨a.2, w.put i (next a.1)⟩
    | _ => none

section Runs

variable {body : O → Proc C R ε α} {w w' : Pool σ C R ε α} {J : σ → Prop}
  {m : (c : C) → σ → Option (R c × σ)}

theorem Sound.turn {turn : ℕ × Option O} (hm : Sound I.post J m) (hw : J w.shared)
    (h : w.turn m body turn = some w') :
    ∃ e : Event O C R, Step I body w e w' ∧ e.process = turn.1 ∧ J w'.shared := by
  obtain ⟨i, _ | o⟩ := turn
  · simp only [Pool.turn] at h
    split at h
    · next c next hi =>
      obtain ⟨⟨r, t⟩, ha, h⟩ := map_eq_some_iff.1 h
      cases h
      obtain ⟨hpost, ht⟩ := hm c w.shared r t hw ha
      exact ⟨.call i c r, ⟨next, hi, hpost, rfl⟩, rfl, ht⟩
    · cases h
  · obtain ⟨hnone, h⟩ := ite_none_right_eq_some.1 h
    cases h
    exact ⟨.spawn i o, ⟨isNone_iff_eq_none.1 hnone, rfl, rfl⟩, rfl, hw⟩

/-- What is seen of processes that take turns on the machine holds of some run. -/
theorem Sound.exists_run {turns : List (ℕ × Option O)} (hm : Sound I.post J m) (hw : J w.shared)
    {Q : Pool σ C R ε α → Bool} (h : (turns.foldlM (Pool.turn m body) w).any Q) :
    ∃ es w', Run (Step I body) w es w' ∧ Q w' ∧ ∀ e ∈ es, e.process ∈ turns.map (·.1) := by
  induction turns generalizing w with
  | nil => exact ⟨[], w, .nil, h, nofun⟩
  | cons turn turns ih =>
  obtain ⟨w'', hplay, hQ⟩ := (any_eq_true _ _).1 h
  obtain ⟨w', hturn, hplay⟩ := bind_eq_some_iff.1 hplay
  obtain ⟨e, hstep, he, hw'⟩ := hm.turn hw hturn
  obtain ⟨es, w'', hrun, hQ, hes⟩ := ih hw' ((any_eq_true _ _).2 ⟨w'', hplay, hQ⟩)
  refine ⟨_, w'', (Run.snoc .nil hstep).append hrun, hQ, fun e' he' => ?_⟩
  rcases mem_append.1 he' with he' | he'
  · rw [mem_singleton.1 he', he]
    exact mem_cons_self
  · exact mem_cons_of_mem _ (hes e' he')

end Runs

/-! ## Processes that work one at a time -/

def Pool.Idle (w : Pool σ C R ε α) : Prop := ∀ i p, w.procs i = some p → ∃ r, p = .done r

section Alone

variable {J : σ → Prop} {W : Proc C R ε α → Prop} {w w' : Pool σ C R ε α} {i : ℕ} {p : Proc C R ε α}

/-- The processes other than `i` have ended, or they wait. -/
def Pool.OthersRest (W : Proc C R ε α → Prop) (w : Pool σ C R ε α) (i : ℕ) : Prop :=
  ∀ j q, j ≠ i → w.procs j = some q → (∃ r, q = .done r) ∨ W q

/-- At most one process is at work, and it will end in `J`. -/
def Pool.Alone (I : Contract C R σ) (J : σ → Prop) (W : Proc C R ε α → Prop)
    (w : Pool σ C R ε α) : Prop :=
  ∃ i, w.OthersRest W i ∧ (w.procs i).elim (J w.shared) (·.wp I (fun _ => J) w.shared)

theorem Pool.OthersRest.put {j : ℕ} (h : w.OthersRest W i) (hprocs : w'.procs = w.put j p)
    (hp : j = i ∨ (∃ r, p = .done r) ∨ W p) : w'.OthersRest W i := by
  intro k q hk hq
  rw [hprocs] at hq
  by_cases hkj : k = j
  · rw [hkj, Pool.put_self] at hq
    cases hq
    exact hp.resolve_left (hkj ▸ hk)
  · rw [Pool.put_of_ne w p hkj] at hq
    exact h k q hk hq

theorem Pool.Alone.of_idle (h : w.Alone I J W) (hidle : w.Idle) : J w.shared := by
  obtain ⟨i, -, hwp⟩ := h
  cases hi : w.procs i with
  | none => rwa [hi] at hwp
  | some p =>
    obtain ⟨r, rfl⟩ := hidle i p hi
    rwa [hi] at hwp

variable (hstart : ∀ p s, W p → (J s ↔ p.wp I (fun _ => J) s))
include hstart

theorem Pool.Alone.spawn (h : w.Alone I J W) (hp : W p) (hnone : w.procs i = none)
    (hshared : w'.shared = w.shared) (hprocs : w'.procs = w.put i p) : w'.Alone I J W := by
  obtain ⟨k, hothers, hwp⟩ := h
  refine ⟨k, hothers.put hprocs (.inr (.inr hp)), ?_⟩
  rw [hprocs, hshared]
  by_cases hki : k = i
  · rw [hki, hnone] at hwp
    rw [hki, Pool.put_self]
    exact (hstart p _ hp).1 hwp
  · rwa [Pool.put_of_ne w p hki]

/-- A process that waits begins while the others rest, or ends at once. -/
theorem Pool.Alone.call (h : w.Alone I J W) {r : R c} {next : R c → Proc C R ε α}
    (hcall : w.procs i = some (.call c next)) (hpost : I.post c w.shared r w'.shared)
    (hprocs : w'.procs = w.put i (next r))
    (hbegin : W (.call c next) → w'.shared = w.shared ∧ (∃ a, next r = .done a) ∨ w.OthersRest W i) :
    w'.Alone I J W := by
  obtain ⟨k, hothers, hwp⟩ := h
  have hstep (hrest : w.OthersRest W i)
      (hwp : (Proc.call c next).wp I (fun _ => J) w.shared) : w'.Alone I J W := by
    refine ⟨i, hrest.put hprocs (.inl rfl), ?_⟩
    rw [hprocs, Pool.put_self]
    exact hwp.2 r _ hpost
  by_cases hik : i = k
  · rw [← hik, hcall] at hwp
    exact hstep (hik ▸ hothers) hwp
  have hwaits : W (.call c next) := (hothers i _ hik hcall).resolve_left nofun
  rcases hbegin hwaits with ⟨hshared, hdone⟩ | hrest
  · refine ⟨k, hothers.put hprocs (.inr (.inl hdone)), ?_⟩
    rwa [hprocs, hshared, Pool.put_of_ne w _ (Ne.symm hik)]
  refine hstep hrest ((hstart _ _ hwaits).1 ?_)
  cases hk : w.procs k with
  | none => rwa [hk] at hwp
  | some q =>
    rw [hk] at hwp
    rcases hrest k q (Ne.symm hik) hk with ⟨a, rfl⟩ | hq
    · exact hwp
    · exact (hstart q _ hq).2 hwp

end Alone

variable (learn : (c : C) → κ → R c → κ) (k₀ : κ)

/-- What process `i` has learnt from its own calls. -/
def learnt (i : ℕ) (es : List (Event O C R)) : κ :=
  es.foldl (fun k e => match e with
    | .call j c r => if j = i then learn c k r else k
    | .spawn _ _ => k) k₀

theorem learnt_concat (i : ℕ) (es : List (Event O C R)) (e : Event O C R) :
    learnt learn k₀ i (es ++ [e]) = match e with
      | .call j c r => if j = i then learn c (learnt learn k₀ i es) r else learnt learn k₀ i es
      | .spawn _ _ => learnt learn k₀ i es := by
  rw [learnt, foldl_append]
  rfl

/-- The contract of a process that may call only what it has learnt enough for. -/
def learning (allowed : C → κ → Prop) : Contract C R κ where
  pre := allowed
  post c k r k' := k' = learn c k r

variable {learn k₀} {allowed : C → κ → Prop} {body : O → Proc C R ε α} {w w' : Pool σ C R ε α}
  {es : List (Event O C R)}

/-- A process that learns from any answer calls nothing it can never have learnt enough for. -/
theorem wp.only_learning {Q : Except ε α → κ → Prop} {k : κ}
    (h : p.wp (learning learn allowed) Q k) : p.Only fun c => ∃ k, allowed c k := by
  induction p generalizing k with
  | done r => trivial
  | call c next ih => exact ⟨⟨k, h.1⟩, fun r => ih r (h.2 r _ rfl)⟩

/-- What a process calls is what some operation it was started for calls. -/
theorem run_only {P : O → C → Prop} (hbody : ∀ o, (body o).Only (P o))
    (h : Run (Step I body) (.init s) es w) (i : ℕ) (p : Proc C R ε α) (hp : w.procs i = some p) :
    ∃ o, .spawn i o ∈ es ∧ p.Only (P o) := by
  have hinit : ∀ i p, (Pool.init s : Pool σ C R ε α).procs i = some p →
      ∃ o, .spawn i o ∈ ([] : List (Event O C R)) ∧ p.Only (P o) := fun i p hp => by cases hp
  refine h.history_inv (I := fun es w => ∀ i p, w.procs i = some p →
    ∃ o, .spawn i o ∈ es ∧ p.Only (P o)) hinit ?_ i p hp
  intro es w e w' ih hstep i p hp
  cases e with
  | spawn j o =>
    obtain ⟨-, -, hprocs⟩ := hstep
    rw [hprocs, Pool.put, update_apply] at hp
    split_ifs at hp with hi
    · cases hp
      exact ⟨o, mem_append_right _ (by rw [hi]; exact mem_singleton_self _), hbody o⟩
    · obtain ⟨o', ho', honly⟩ := ih i p hp
      exact ⟨o', mem_append_left _ ho', honly⟩
  | call j c r =>
  obtain ⟨next, hcall, -, hprocs⟩ := hstep
  rw [hprocs, Pool.put, update_apply] at hp
  split_ifs at hp with hi
  · cases hp
    obtain ⟨o', ho', honly⟩ := ih j _ hcall
    exact ⟨o', mem_append_left _ (hi ▸ ho'), honly.2 r⟩
  · obtain ⟨o', ho', honly⟩ := ih i p hp
    exact ⟨o', mem_append_left _ ho', honly⟩

/-- Where the calls of process `i` have led it; one that has not started has learnt nothing. -/
def Follows (learn : (c : C) → κ → R c → κ) (k₀ : κ) (allowed : C → κ → Prop) (i : ℕ)
    (es : List (Event O C R)) : Option (Proc C R ε α) → Prop
  | none => learnt learn k₀ i es = k₀
  | some p => p.wp (learning learn allowed) (fun _ _ => True) (learnt learn k₀ i es)

/-- **Interleaving.** If every operation keeps to its contract alone, each process does so in every
run. -/
theorem run_learnt (hbody : ∀ o, (body o).wp (learning learn allowed) (fun _ _ => True) k₀)
    (h : Run (Step I body) (.init s) es w) (i : ℕ) : Follows learn k₀ allowed i es (w.procs i) := by
  have hinit : ∀ i, Follows learn k₀ allowed i ([] : List (Event O C R))
      ((Pool.init s : Pool σ C R ε α).procs i) := fun i => rfl
  refine h.history_inv (I := fun es w => ∀ i, Follows learn k₀ allowed i es (w.procs i)) hinit ?_ i
  intro es w e w' ih hstep i
  cases e with
  | spawn j o =>
    obtain ⟨hnone, -, hprocs⟩ := hstep
    have hj := ih j
    rw [hnone] at hj
    rw [hprocs, Pool.put, update_apply]
    split_ifs with hi
    · rw [Follows, learnt_concat, hi]
      simp only [show learnt learn k₀ j es = k₀ from hj]
      exact hbody o
    · have hk := ih i
      unfold Follows at hk ⊢
      rwa [learnt_concat]
  | call j c r =>
    obtain ⟨next, hcall, -, hprocs⟩ := hstep
    have hj := ih j
    rw [hcall] at hj
    rw [hprocs, Pool.put, update_apply]
    split_ifs with hi
    · rw [Follows, learnt_concat, hi]
      simp only [if_true]
      exact hj.2 r _ rfl
    have hk := ih i
    unfold Follows at hk ⊢
    rw [learnt_concat]
    simpa only [if_neg (Ne.symm hi)] using hk

/-- So whatever a process calls, it has learnt enough for. -/
theorem run_allowed (hbody : ∀ o, (body o).wp (learning learn allowed) (fun _ _ => True) k₀)
    (h : Run (Step I body) (.init s) es w) {i : ℕ} {r : R c}
    (hstep : Step I body w (.call i c r) w') : allowed c (learnt learn k₀ i es) := by
  obtain ⟨next, hcall, -⟩ := hstep
  have hi := run_learnt hbody h i
  rw [hcall] at hi
  exact hi.1

end Proc
