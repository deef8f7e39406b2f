import Mathlib.Data.Nat.Basic

/-!
# Loops

A loop that takes a step until a step ends it or fails.  Where every step makes a size smaller, the
loop comes to an end (`Shrinks.wellFounded`) and so many rounds as the size says are enough
(`run_eq`), and what every step keeps holds at the step that ends the loop (`run_ends`).
-/

namespace Loop

variable {σ α ε : Type}

/-- What a step comes to, where the loop goes on with `k`. -/
def next (k : σ → Except ε α) : Except ε (σ ⊕ α) → Except ε α
  | .error e => .error e
  | .ok (.inr a) => .ok a
  | .ok (.inl s) => k s

/-- So many rounds of the loop; one that needs more is stuck. -/
def rounds (step : σ → Except ε (σ ⊕ α)) (stuck : ε) : Nat → σ → Except ε α
  | 0, _ => .error stuck
  | n + 1, s => next (rounds step stuck n) (step s)

/-- The loop, with as many rounds as its size allows. -/
def run (step : σ → Except ε (σ ⊕ α)) (stuck : ε) (size : σ → Nat) (s : σ) : Except ε α :=
  rounds step stuck (size s + 1) s

variable {step : σ → Except ε (σ ⊕ α)} {stuck : ε} {size : σ → Nat}

/-- Every step that goes on makes the size smaller. -/
def Shrinks (step : σ → Except ε (σ ⊕ α)) (size : σ → Nat) : Prop :=
  ∀ s s', step s = .ok (.inl s') → size s' < size s

/-- Such a loop does not go on for ever. -/
theorem Shrinks.wellFounded (h : Shrinks step size) :
    WellFounded fun s' s => step s = .ok (.inl s') :=
  Subrelation.wf (fun {s' s} hs => h s s' hs) (measure size).wf

theorem rounds_enough (h : Shrinks step size) :
    ∀ {n m : Nat} {s : σ}, size s < n → size s < m →
      rounds step stuck n s = rounds step stuck m s
  | 0, _, _, hn, _ => absurd hn (Nat.not_lt_zero _)
  | _ + 1, 0, _, _, hm => absurd hm (Nat.not_lt_zero _)
  | n + 1, m + 1, s, hn, hm => by
    unfold rounds
    rcases hs : step s with e | s' | a
    · rfl
    · have hlt := h s s' hs
      exact rounds_enough h (by omega) (by omega)
    · rfl

/-- The loop is a step and, where the step goes on, the loop again. -/
theorem run_eq (h : Shrinks step size) (s : σ) :
    run step stuck size s = next (run step stuck size) (step s) := by
  rw [run, rounds]
  rcases hs : step s with e | s' | a
  · rfl
  · have hlt := h s s' hs
    exact rounds_enough h hlt (Nat.lt_succ_self _)
  · rfl

theorem rounds_ends {I : σ → Prop} (hkeeps : ∀ s s', I s → step s = .ok (.inl s') → I s') :
    ∀ {n : Nat} {s : σ} {a : α}, I s → rounds step stuck n s = .ok a →
      ∃ s', I s' ∧ step s' = .ok (.inr a)
  | 0, _, _, _, h => by cases h
  | n + 1, s, a, hI, h => by
    unfold rounds at h
    rcases hs : step s with e | s' | b
    · rw [hs] at h
      cases h
    · rw [hs] at h
      exact rounds_ends hkeeps (hkeeps s s' hI hs) h
    · rw [hs] at h
      obtain rfl : b = a := Except.ok.inj h
      exact ⟨s, hI, hs⟩

/-- What every step keeps holds where the loop ends. -/
theorem run_ends {I : σ → Prop} (hkeeps : ∀ s s', I s → step s = .ok (.inl s') → I s') {s : σ}
    {a : α} (hI : I s) (h : run step stuck size s = .ok a) :
    ∃ s', I s' ∧ step s' = .ok (.inr a) := rounds_ends hkeeps hI h

end Loop
