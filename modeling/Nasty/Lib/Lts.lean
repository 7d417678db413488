import Mathlib.Data.List.Induction
import Mathlib.Logic.Relation

/-!
# Labelled transition systems

A system is a step relation `step s e t`: from state `s` the event `e` leads to `t`. A run is
the list of events that lead from one state to another, oldest first. Properties of a whole run
are proved through `Run.history_inv`, an invariant that may speak about the events so far.
-/

namespace Lts

open List

variable {σ ε : Type*}

/-- `Run step s es t`: the events `es` lead from `s` to `t`. -/
inductive Run (step : σ → ε → σ → Prop) (s : σ) : List ε → σ → Prop
  | nil : Run step s [] s
  | snoc {es t e u} : Run step s es t → step t e u → Run step s (es ++ [e]) u

def Reachable (step : σ → ε → σ → Prop) (init : σ → Prop) (t : σ) : Prop :=
  ∃ s es, init s ∧ Run step s es t

variable {δ : σ → ε → σ → Prop} {s t u : σ} {es : List ε} {P : σ → ε → Prop}

/-- The invariant rule for a property of the history and the state. -/
theorem Run.history_inv {I : List ε → σ → Prop} (h0 : I [] s)
    (hstep : ∀ es t e u, I es t → δ t e u → I (es ++ [e]) u) (h : Run δ s es t) : I es t := by
  induction h with
  | nil => exact h0
  | snoc _ hs ih => exact hstep _ _ _ _ ih hs

theorem Run.inv {I : σ → Prop} (h0 : I s) (hstep : ∀ t e u, I t → δ t e u → I u)
    (h : Run δ s es t) : I t :=
  h.history_inv (I := fun _ => I) h0 fun _ => hstep

theorem Run.append {es' : List ε} (h : Run δ s es t) (h' : Run δ t es' u) :
    Run δ s (es ++ es') u := by
  induction h' with
  | nil => rwa [append_nil]
  | snoc _ hs ih =>
    rw [← append_assoc]
    exact .snoc ih hs

theorem Run.imp {δ' : σ → ε → σ → Prop} (h : Run δ s es t)
    (himp : ∀ s e t, δ s e t → δ' s e t) : Run δ' s es t := by
  induction h with
  | nil => exact .nil
  | snoc _ hs ih => exact .snoc ih (himp _ _ _ hs)

/-- Events that meet a condition in every state make a run of the restricted system. -/
theorem Run.restrict (h : Run δ s es t) (hP : ∀ e ∈ es, ∀ s, P s e) :
    Run (fun s e t => δ s e t ∧ P s e) s es t := by
  induction h with
  | nil => exact .nil
  | snoc _ hs ih =>
    exact .snoc (ih fun e he => hP e (mem_append_left _ he))
      ⟨hs, hP _ (mem_append_right _ (mem_singleton_self _)) _⟩

/-- One more event of a restricted system whose next state is computed. -/
theorem Run.next {next : σ → ε → Option σ} (h : Run (fun s e t => P s e ∧ next s e = some t) s es t)
    (e : ε) (hP : P t e) (hnext : next t e = some u) :
    Run (fun s e t => P s e ∧ next s e = some t) s (es ++ [e]) u := .snoc h ⟨hP, hnext⟩

/-- The runs of a system whose next state is computed. -/
theorem Run.of_foldlM {next : σ → ε → Option σ} (h : es.foldlM next s = some t) :
    Run (fun s e t => next s e = some t) s es t := by
  induction es using reverseRecOn generalizing t with
  | nil =>
    cases h
    exact .nil
  | append_singleton es e ih =>
  rw [foldlM_append] at h
  obtain ⟨u, hu, hnext⟩ := Option.bind_eq_some_iff.1 h
  rw [foldlM_cons] at hnext
  obtain ⟨t', ht', hpure⟩ := Option.bind_eq_some_iff.1 hnext
  cases hpure
  exact .snoc (ih hu) ht'

theorem Run.of_foldl {next : σ → ε → σ} (s : σ) (es : List ε) :
    Run (fun s e t => next s e = t) s es (es.foldl next s) := by
  induction es using reverseRecOn with
  | nil => exact .nil
  | append_singleton es e ih =>
    rw [foldl_append]
    exact .snoc ih rfl

theorem Reachable.init {init : σ → Prop} (h : init s) : Reachable δ init s :=
  ⟨s, [], h, .nil⟩

end Lts
