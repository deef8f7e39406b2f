import Mathlib.Data.List.Basic

/-!
# Nesting

What stands between openings and their closings is a forest.  A reader that keeps a stack, one state
for each opening that is not closed yet, under rules that say what the state of an opening starts
from, what a leaf makes of the state it stands in, and what a closing does to the state outside,
reads a forest whenever it comes back to the state it started at the bottom of its stack
(`forest_of_steps`), under the same rules told about the forest (`Rules.Reads`).
-/

namespace Nested

variable {α β γ σ : Type}

inductive Forest (α β γ : Type)
  | nil
  | leaf (l : γ) (rest : Forest α β γ)
  | node (opening : α) (inner : Forest α β γ) (closing : β) (rest : Forest α β γ)

inductive Event (α β γ : Type)
  | opening (a : α)
  | closing (b : β)
  | leaf (l : γ)

/-- The forest from left to right. -/
def Forest.events : Forest α β γ → List (Event α β γ)
  | .nil => []
  | .leaf l rest => .leaf l :: rest.events
  | .node a inner b rest => .opening a :: (inner.events ++ .closing b :: rest.events)

structure Rules (α β γ σ : Type) where
  enter : σ → α → σ → Prop
  leave : σ → σ → β → σ → Prop
  pass : σ → γ → σ → Prop

/-- One event, the innermost state first. -/
inductive Rules.Step (R : Rules α β γ σ) : List σ → Event α β γ → List σ → Prop
  | enter {s a t rest} : R.enter s a t → R.Step (s :: rest) (.opening a) (t :: s :: rest)
  | leave {s t b s' rest} : R.leave s t b s' → R.Step (t :: s :: rest) (.closing b) (s' :: rest)
  | pass {s l s' rest} : R.pass s l s' → R.Step (s :: rest) (.leaf l) (s' :: rest)

inductive Rules.Steps (R : Rules α β γ σ) : List σ → List (Event α β γ) → List σ → Prop
  | nil {stack} : R.Steps stack [] stack
  | cons {stack e stack₁ es stack'} :
      R.Step stack e stack₁ → R.Steps stack₁ es stack' → R.Steps stack (e :: es) stack'

/-- The rules along a forest, from the state it stands in to the state behind it. -/
inductive Rules.Reads (R : Rules α β γ σ) : σ → Forest α β γ → σ → Prop
  | nil {s} : R.Reads s .nil s
  | leaf {s l s₁ rest s'} : R.pass s l s₁ → R.Reads s₁ rest s' → R.Reads s (.leaf l rest) s'
  | node {s a t inner t' b s₁ rest s'} : R.enter s a t → R.Reads t inner t' → R.leave s t' b s₁ →
      R.Reads s₁ rest s' → R.Reads s (.node a inner b rest) s'

variable {R : Rules α β γ σ} {stack stack₁ stack' : List σ} {es es' : List (Event α β γ)}

theorem Rules.Steps.append (h : R.Steps stack es stack₁) (h' : R.Steps stack₁ es' stack') :
    R.Steps stack (es ++ es') stack' := by
  induction h with
  | nil => exact h'
  | cons step _ ih => exact .cons step (ih h')

theorem Rules.Step.steps {e : Event α β γ} (h : R.Step stack e stack') : R.Steps stack [e] stack' :=
  .cons h .nil

/-- Up to the closing of the state on top, or to the end where it is the last. -/
theorem forest_of_steps_top :
    ∀ {n : Nat} {t : σ} {stack : List σ} {es : List (Event α β γ)} {s : σ},
      es.length ≤ n → R.Steps (t :: stack) es [s] → ∃ f t', R.Reads t f t' ∧
        ((stack = [] ∧ es = f.events ∧ t' = s) ∨ ∃ outer rest b outer' es',
          stack = outer :: rest ∧ es = f.events ++ .closing b :: es' ∧
            R.leave outer t' b outer' ∧ R.Steps (outer' :: rest) es' [s])
  | n, t, stack, [], s, _, h => by
    cases h
    exact ⟨.nil, _, .nil, .inl ⟨rfl, rfl, rfl⟩⟩
  | 0, _, _, _ :: _, _, hn, _ => absurd hn (by simp)
  | n + 1, t, stack, e :: es, s, hn, h => by
    have hlen : es.length ≤ n := by simpa using hn
    obtain ⟨step, rest⟩ : ∃ stack₁, R.Step (t :: stack) e stack₁ ∧ R.Steps stack₁ es [s] := by
      cases h with
      | cons step rest => exact ⟨_, step, rest⟩
    obtain ⟨hstep, hrest⟩ := rest
    cases hstep with
    | enter henter =>
      rename_i a u
      obtain ⟨inner, u', hinner, h⟩ := forest_of_steps_top hlen hrest
      obtain ⟨hnil, -⟩ | ⟨outer, below, b, outer', es', hstack, hes, hleave, hsteps⟩ := h
      · cases hnil
      · obtain ⟨rfl, rfl⟩ := List.cons.inj hstack
        have hlen' : es'.length ≤ n := by
          rw [hes, List.length_append, List.length_cons] at hlen
          omega
        obtain ⟨f, t', hf, h⟩ := forest_of_steps_top hlen' hsteps
        refine ⟨.node a inner b f, t', .node henter hinner hleave hf, ?_⟩
        obtain ⟨hnil, hes', rfl⟩ | ⟨outer, below, c, outer₁, es₁, hstack, hes', h⟩ := h
        · exact .inl ⟨hnil, by rw [hes, hes']; rfl, rfl⟩
        · refine .inr ⟨outer, below, c, outer₁, es₁, hstack, ?_, h⟩
          rw [hes, hes']
          simp [Forest.events]
    | leave hleave =>
      exact ⟨.nil, t, .nil, .inr ⟨_, _, _, _, es, rfl, rfl, hleave, hrest⟩⟩
    | pass hpass =>
      rename_i l t₁
      obtain ⟨f, t', hf, h⟩ := forest_of_steps_top hlen hrest
      refine ⟨.leaf l f, t', .leaf hpass hf, ?_⟩
      obtain ⟨hnil, rfl, rfl⟩ | ⟨outer, below, b, outer', es', hstack, rfl, hleave⟩ := h
      · exact .inl ⟨hnil, rfl, rfl⟩
      · exact .inr ⟨outer, below, b, outer', es', hstack, rfl, hleave⟩

/-- A reader that comes back to the bottom of its stack has read a forest. -/
theorem forest_of_steps {s s' : σ} (h : R.Steps [s] es [s']) :
    ∃ f, f.events = es ∧ R.Reads s f s' := by
  obtain ⟨f, t, hf, ⟨-, rfl, rfl⟩ | ⟨_, _, _, _, _, hnil, -⟩⟩ :=
    forest_of_steps_top (Nat.le_refl _) h
  · exact ⟨f, rfl, hf⟩
  · cases hnil

end Nested
