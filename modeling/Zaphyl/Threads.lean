import Zaphyl.Runs
/-!
# Threads — threads over one shared state

Calls begin threads at any time, each thread takes its steps one at a time in any order with those of the others, and a
restart ends them all.  An assertion of the shared state and one of each thread hold in every run when a thread's own
step establishes them and the steps of the others leave them (`Outline.of_run`).
-/
namespace Threads

/-- What a call does at once and where its thread begins, a thread's steps, and what a restart leaves. -/
structure Program (σ τ κ ε ρ : Type*) where
  call : σ → κ → σ × τ
  step : σ → τ → ε → Option (σ × τ)
  restart : σ → ρ → σ

structure System (σ τ : Type*) where
  shared : σ
  threads : List τ

inductive Event (κ ε ρ : Type*)
  | call (c : κ)
  | thread (i : Nat) (e : ε)
  | restart (r : ρ)

namespace Program

variable {σ τ κ ε ρ : Type*} (P : Program σ τ κ ε ρ)

def next (s : System σ τ) : Event κ ε ρ → Option (System σ τ)
  | .call c => some ⟨(P.call s.shared c).1, s.threads ++ [(P.call s.shared c).2]⟩
  | .thread i e =>
    s.threads[i]?.bind (fun t => (P.step s.shared t e).map (fun next => ⟨next.1, s.threads.set i next.2⟩))
  | .restart r => some ⟨P.restart s.shared r, []⟩

def Next (s : System σ τ) (e : Event κ ε ρ) (t : System σ τ) : Prop := P.next s e = some t

end Program

/-- A call meets `A`, and a step meets `G`. -/
def Meets {σ τ κ ε ρ : Type*} (A : σ → κ → Prop) (G : σ → τ → ε → Prop) (s : System σ τ) : Event κ ε ρ → Prop
  | .call c => A s.shared c
  | .thread i e => ∀ t, s.threads[i]? = some t → G s.shared t e
  | .restart _ => True

/-- **A proof outline**: `I` is what every step keeps of the shared state, `L` what it keeps of each thread, whether the
step is the thread's own or another's. -/
structure Outline {σ τ κ ε ρ : Type*} (P : Program σ τ κ ε ρ) (A : σ → κ → Prop) (G : σ → τ → ε → Prop) (I : σ → Prop)
    (L : σ → τ → Prop) : Prop where
  call : ∀ {s c}, I s → A s c → I (P.call s c).1 ∧ L (P.call s c).1 (P.call s c).2
  call_others : ∀ {s c u}, I s → A s c → L s u → L (P.call s c).1 u
  step : ∀ {s t e s' t'}, I s → L s t → G s t e → P.step s t e = some (s', t') → I s' ∧ L s' t'
  step_others : ∀ {s t e s' t' u}, I s → L s t → G s t e → P.step s t e = some (s', t') → L s u → L s' u
  restart : ∀ {s r}, I s → I (P.restart s r)

variable {σ τ κ ε ρ : Type*} {P : Program σ τ κ ε ρ} {A : σ → κ → Prop} {G : σ → τ → ε → Prop} {I : σ → Prop}
  {L : σ → τ → Prop}

/-- What an outline says of a system. -/
def Holds (I : σ → Prop) (L : σ → τ → Prop) (s : System σ τ) : Prop := I s.shared ∧ ∀ u ∈ s.threads, L s.shared u

namespace Outline

theorem next (h : Outline P A G I L) {s t : System σ τ} {e : Event κ ε ρ} (hs : Holds I L s) (hmeets : Meets A G s e)
    (hnext : P.Next s e t) : Holds I L t := by
  obtain ⟨hI, hL⟩ := hs
  unfold Program.Next at hnext
  cases e with
  | call c =>
    rw [← Option.some.inj hnext]
    obtain ⟨hI', hnew⟩ := h.call hI hmeets
    refine ⟨hI', fun u hu => ?_⟩
    rcases List.mem_append.1 hu with hu | hu
    · exact h.call_others hI hmeets (hL u hu)
    · rw [List.mem_singleton.1 hu]
      exact hnew
  | thread i e =>
    obtain ⟨thread, hthread, hrest⟩ := Option.bind_eq_some_iff.1 hnext
    obtain ⟨⟨shared, thread'⟩, hstep, rfl⟩ := Option.map_eq_some_iff.1 hrest
    have hown := hL thread (List.mem_of_getElem? hthread)
    obtain ⟨hI', hown'⟩ := h.step hI hown (hmeets thread hthread) hstep
    refine ⟨hI', fun u hu => ?_⟩
    rcases List.mem_or_eq_of_mem_set hu with hu | rfl
    · exact h.step_others hI hown (hmeets thread hthread) hstep (hL u hu)
    · exact hown'
  | restart r =>
    rw [← Option.some.inj hnext]
    exact ⟨h.restart hI, fun u hu => (by cases hu)⟩

/-- **What an outline says holds in every run** whose calls and steps meet its conditions. -/
theorem of_run (h : Outline P A G I L) {s t : System σ τ} {events : List (Event κ ε ρ)}
    (hrun : Runs.Run (Runs.Run.Where P.Next (Meets A G)) s events t) (hs : Holds I L s) : Holds I L t :=
  hrun.invariant_where (fun _ _ _ hs hmeets hnext => h.next hs hmeets hnext) hs

end Outline

end Threads
