import Mathlib.Data.List.Basic

/-!
# Trails

A record of moves, each written with where it started.  `Trail start edge l s` says that `l` is a
path: it begins from nothing at a state `start` allows, every later move starts where the last one
ended and is an edge, and it ends in `s`.
-/

namespace Trail

variable {α : Type} {start : α → Prop} {edge : α → α → Prop}

/-- Edges walked one after another from `s`. -/
inductive Steps (edge : α → α → Prop) : α → List (Option α × α) → α → Prop
  | nil {s} : Steps edge s [] s
  | cons {s s' s'' l} (h : edge s s') (rest : Steps edge s' l s'') :
      Steps edge s ((some s, s') :: l) s''

end Trail

inductive Trail {α : Type} (start : α → Prop) (edge : α → α → Prop) :
    List (Option α × α) → α → Prop
  | created {s} (h : start s) : Trail start edge [(none, s)] s
  | moved {l s s'} (h : Trail start edge l s) (step : edge s s') :
      Trail start edge (l ++ [(some s, s')]) s'

namespace Trail

variable {α : Type} {start : α → Prop} {edge : α → α → Prop} {l l' : List (Option α × α)}
  {s s' : α}

theorem Steps.one (h : edge s s') : Steps edge s [(some s, s')] s' := .cons h .nil

theorem append (h : Trail start edge l s) (h' : Steps edge s l' s') :
    Trail start edge (l ++ l') s' := by
  induction h' generalizing l with
  | nil =>
    rw [List.append_nil]
    exact h
  | cons hstep _ ih =>
    have := ih (h.moved hstep)
    rwa [List.append_assoc] at this

/-- The first move of a trail comes from nothing. -/
theorem head (h : Trail start edge l s) : ∃ s₀, start s₀ ∧ l.head? = some (none, s₀) := by
  induction h with
  | created h => exact ⟨_, h, rfl⟩
  | moved _ _ ih =>
    obtain ⟨s₀, hs, hl⟩ := ih
    exact ⟨s₀, hs, by rw [List.head?_append, hl, Option.some_or]⟩

end Trail
