import Mathlib.Logic.Relation
/-!
# Runs — whole runs of a step

A step is a relation on states labelled by events, or a partial function of a state and an event.  What every step
preserves, every run preserves (`Run.invariant`, `Run.invariant_where`); a partial step that an abstract total step
simulates never fails in a run, and its state at the end represents the abstract one (`foldlM_simulates`).
-/
namespace Runs

/-- The runs of a labelled step. -/
inductive Run {σ ε : Type*} (step : σ → ε → σ → Prop) : σ → List ε → σ → Prop
  | nil (s : σ) : Run step s [] s
  | cons {s t u : σ} {e : ε} {es : List ε} : step s e t → Run step t es u → Run step s (e :: es) u

namespace Run

variable {σ ε : Type*} {step : σ → ε → σ → Prop} {s t u : σ}

theorem append {es fs : List ε} (h₁ : Run step s es t) (h₂ : Run step t fs u) : Run step s (es ++ fs) u := by
  induction h₁ with
  | nil => exact h₂
  | cons hs _ ih => exact .cons hs (ih h₂)

/-- **What every step preserves, a run preserves.** -/
theorem invariant {P : σ → Prop} (hstep : ∀ s e t, P s → step s e t → P t) {es : List ε}
    (h : Run step s es t) (hs : P s) : P t := by
  induction h with
  | nil => exact hs
  | cons h₁ _ ih => exact ih (hstep _ _ _ hs h₁)

/-- A run of a step is one of a step that it implies. -/
theorem mono {step' : σ → ε → σ → Prop} (himp : ∀ s e t, step s e t → step' s e t) {es : List ε}
    (h : Run step s es t) : Run step' s es t := by
  induction h with
  | nil s => exact .nil s
  | cons h₁ _ ih => exact .cons (himp _ _ _ h₁) ih

/-- **What every step preserves of the events so far and the state, a run establishes.** -/
theorem invariant_history {P : List ε → σ → Prop} (hstart : P [] s)
    (hstep : ∀ es t e u, P es t → step t e u → P (es ++ [e]) u) {es : List ε} (h : Run step s es t) : P es t := by
  have hfrom : ∀ {s t : σ} {es : List ε}, Run step s es t → ∀ before, P before s → P (before ++ es) t := by
    intro s t es h
    induction h with
    | nil s => exact fun before hs => by rwa [List.append_nil]
    | cons h₁ _ ih =>
      intro before hs
      rw [← List.singleton_append, ← List.append_assoc]
      exact ih _ (hstep _ _ _ _ hs h₁)
  exact hfrom h [] hstart

/-- A condition that each step of a run meets at the state before it. -/
def Where (step : σ → ε → σ → Prop) (G : σ → ε → Prop) (s : σ) (e : ε) (t : σ) : Prop := step s e t ∧ G s e

/-- **What every step that meets a condition preserves, a run whose steps all meet it preserves.** -/
theorem invariant_where {P : σ → Prop} {G : σ → ε → Prop} (hstep : ∀ s e t, P s → G s e → step s e t → P t)
    {es : List ε} (h : Run (Where step G) s es t) (hs : P s) : P t :=
  h.invariant (fun s e t hP hG => hstep s e t hP hG.2 hG.1) hs

end Run

/-- The runs of a partial step as a function. -/
theorem run_of_foldlM {σ ε : Type*} {f : σ → ε → Option σ} : ∀ {es : List ε} {s t : σ}, es.foldlM f s = some t →
    Run (fun s e t => f s e = some t) s es t
  | [], s, t, h => by
    rw [List.foldlM_nil, Option.pure_def] at h
    rw [← Option.some.inj h]
    exact .nil s
  | e :: es, s, t, h => by
    rw [List.foldlM_cons] at h
    obtain ⟨u, hu, hrest⟩ := Option.bind_eq_some_iff.1 h
    exact .cons hu (run_of_foldlM hrest)

/-- The runs of a partial step that is taken only where a check of a condition says so. -/
theorem run_where_of_foldlM {σ ε : Type*} {f : σ → ε → Option σ} {g : σ → ε → Bool} {G : σ → ε → Prop}
    (hg : ∀ s e, g s e = true → G s e) {es : List ε} {s t : σ}
    (h : es.foldlM (fun s e => if g s e then f s e else none) s = some t) :
    Run (Run.Where (fun s e t => f s e = some t) G) s es t := by
  refine (run_of_foldlM h).mono (fun s e t hstep => ?_)
  split at hstep
  · rename_i hcheck
    exact ⟨hstep, hg s e hcheck⟩
  · cases hstep

/-- **A partial step simulated by a total one never fails in a run**, and the states at its end are related. -/
theorem foldlM_simulates {σ τ ε δ : Type*} {f : σ → ε → Except δ σ} {g : τ → ε → τ} {R : σ → τ → Prop}
    {ok : ε → Prop} (hstep : ∀ s t e, R s t → ok e → ∃ s', f s e = .ok s' ∧ R s' (g t e)) :
    ∀ (es : List ε) (s : σ) (t : τ), R s t → (∀ e ∈ es, ok e) →
      ∃ s', es.foldlM f s = .ok s' ∧ R s' (es.foldl g t)
  | [], s, _, hR, _ => ⟨s, rfl, hR⟩
  | e :: es, s, t, hR, hok => by
    obtain ⟨s₁, h₁, hR₁⟩ := hstep s t e hR (hok e List.mem_cons_self)
    obtain ⟨s₂, h₂, hR₂⟩ := foldlM_simulates hstep es s₁ (g t e) hR₁ (fun x hx => hok x (List.mem_cons_of_mem _ hx))
    refine ⟨s₂, ?_, hR₂⟩
    rw [List.foldlM_cons, h₁]
    exact h₂

end Runs
