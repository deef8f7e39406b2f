import Mathlib.Data.List.Basic
import EchoAndAura.Stepwise

/-!
# Requests at work

Requests that share a state and take turns, one statement at a time.  Between two statements a
request is a stage `τ`; what the statement of a stage does depends on the state it runs on and on
how the statement itself comes out.

`Tasks.Sound`: something holds of the state, and something of every stage against the state.  It
holds at the end of a run when every turn keeps it (`Tasks.Sound.run`).
-/

/-- What happens next: a request comes in, one in progress makes its next statement, or the state
changes from elsewhere. -/
inductive Turn (ρ ο ω : Type)
  | start (q : ρ)
  | go (i : Nat) (out : ο)
  | world (w : ω)

/-- A call may fail, or take effect and lose its answer. -/
inductive CallOutcome
  | ok
  | failed
  | lost
  deriving DecidableEq, Repr

/-- The requests in progress and the state they share. -/
structure Tasks (σ τ : Type) where
  state : σ
  tasks : List τ

/-- How requests begin, what the statement of a stage does, and what else changes the state. -/
structure Work (σ τ ρ ο ω : Type) where
  first : ρ → τ
  next : σ → τ → ο → σ × Option τ
  change : σ → ω → σ

namespace Tasks

variable {σ τ ρ ο ω : Type} (W : Work σ τ ρ ο ω)

def step (s : Tasks σ τ) : Turn ρ ο ω → Tasks σ τ
  | .start q => { s with tasks := s.tasks ++ [W.first q] }
  | .go i out =>
    match s.tasks[i]? with
    | none => s
    | some t =>
      let r := W.next s.state t out
      match r.2 with
      | some t' => ⟨r.1, s.tasks.set i t'⟩
      | none => ⟨r.1, s.tasks.eraseIdx i⟩
  | .world w => { s with state := W.change s.state w }

def run (s : Tasks σ τ) (turns : List (Turn ρ ο ω)) : Tasks σ τ := turns.foldl (step W) s

variable {W} {I : σ → Prop} {H : σ → τ → Prop} {s : Tasks σ τ}

/-- `I` of the state, and `H` of every stage against the state. -/
structure Sound (I : σ → Prop) (H : σ → τ → Prop) (s : Tasks σ τ) : Prop where
  state : I s.state
  stage : ∀ t ∈ s.tasks, H s.state t

theorem mem_set_of {l : List τ} {i : Nat} {t u : τ} (h : u ∈ l.set i t) :
    u = t ∨ u ∈ l.eraseIdx i := by
  obtain ⟨j, hj⟩ := List.mem_iff_getElem?.1 h
  rw [List.getElem?_set] at hj
  split_ifs at hj with hij
  · exact .inl (Option.some.inj hj).symm
  · exact .inr (List.mem_eraseIdx_iff_getElem?.2 ⟨j, Ne.symm hij, hj⟩)

/-- One turn of a request, and what is left of the others. -/
theorem Sound.go {i : Nat} {out : ο} (h : s.Sound I H)
    (hgo : ∀ t, s.tasks[i]? = some t → H s.state t →
      I (W.next s.state t out).1 ∧
      (∀ t', (W.next s.state t out).2 = some t' → H (W.next s.state t out).1 t') ∧
      ∀ u ∈ s.tasks.eraseIdx i, H s.state u → H (W.next s.state t out).1 u) :
    (s.step W (.go i out)).Sound I H := by
  simp only [step]
  rcases ht : s.tasks[i]? with _ | t
  · exact h
  obtain ⟨hI, hnew, hothers⟩ := hgo t ht (h.stage t (List.mem_of_getElem? ht))
  have others : ∀ u ∈ s.tasks.eraseIdx i, H (W.next s.state t out).1 u :=
    fun u hu => hothers u hu (h.stage u (List.mem_of_mem_eraseIdx hu))
  dsimp only
  split
  · rename_i t' ht'
    refine ⟨hI, fun u hu => ?_⟩
    rcases mem_set_of hu with rfl | hu
    · exact hnew u ht'
    · exact others u hu
  · exact ⟨hI, others⟩

theorem Sound.start {q : ρ} (h : s.Sound I H) (hq : H s.state (W.first q)) :
    (s.step W (.start q)).Sound I H := by
  refine ⟨h.state, fun t ht => ?_⟩
  rcases List.mem_append.1 ht with ht | ht
  · exact h.stage t ht
  · exact List.mem_singleton.1 ht ▸ hq

theorem Sound.world {w : ω} (h : s.Sound I H) (hI : I (W.change s.state w))
    (hH : ∀ t ∈ s.tasks, H s.state t → H (W.change s.state w) t) :
    (s.step W (.world w)).Sound I H :=
  ⟨hI, fun t ht => hH t ht (h.stage t ht)⟩

/-- What every turn that meets `P` keeps holds at the end of a run of such turns. -/
theorem Sound.run {P : Tasks σ τ → Turn ρ ο ω → Prop}
    (hstep : ∀ s e, s.Sound I H → P s e → (s.step W e).Sound I H) {turns : List (Turn ρ ο ω)}
    (h : s.Sound I H) (hP : EveryStep (step W) P s turns) : (s.run W turns).Sound I H :=
  EveryStep.keeps (I := fun s => s.Sound I H) hstep h hP

end Tasks
