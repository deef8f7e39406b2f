import Mathlib.Data.List.Induction

/-!
# Runs step by step

A run is a list of events folded over a state.  A condition may be asked of every step, in the state
the step starts from, and an invariant that each such step keeps holds at the end of the run
(`EveryStep.keeps`).  A run that has left where it began was there for a last time
(`EveryStep.exists_since`).
-/

variable {σ ε : Type}

/-- Every step of the run meets `P` in the state it starts from. -/
def EveryStep (step : σ → ε → σ) (P : σ → ε → Prop) : σ → List ε → Prop
  | _, [] => True
  | s, e :: es => P s e ∧ EveryStep step P (step s e) es

namespace EveryStep

variable {step : σ → ε → σ} {P Q : σ → ε → Prop}

instance decidable [∀ s e, Decidable (P s e)] :
    ∀ (s : σ) (es : List ε), Decidable (EveryStep step P s es)
  | _, [] => .isTrue trivial
  | s, e :: es => @instDecidableAnd _ _ inferInstance (decidable (step s e) es)

theorem keeps {I : σ → Prop} (hstep : ∀ s e, I s → P s e → I (step s e)) :
    ∀ {es : List ε} {s : σ}, I s → EveryStep step P s es → I (es.foldl step s)
  | [], _, hI, _ => hI
  | e :: es, s, hI, h => by
    show I (es.foldl step (step s e))
    exact keeps hstep (hstep s e hI h.1) h.2

/-- What holds of a step from any state of the invariant holds of every step. -/
theorem of_invariant {I : σ → Prop} (hstep : ∀ s e, I s → I (step s e))
    (hP : ∀ s e, I s → P s e) : ∀ {es : List ε} {s : σ}, I s → EveryStep step P s es
  | [], _, _ => trivial
  | e :: _, s, hI => ⟨hP s e hI, of_invariant hstep hP (hstep s e hI)⟩

theorem and : ∀ {es : List ε} {s : σ}, EveryStep step P s es → EveryStep step Q s es →
    EveryStep step (fun s e => P s e ∧ Q s e) s es
  | [], _, _, _ => trivial
  | _ :: _, _, h, h' => ⟨⟨h.1, h'.1⟩, and h.2 h'.2⟩

theorem of_forall_mem {R : ε → Prop} :
    ∀ {es : List ε} {s : σ}, (∀ e ∈ es, R e) → EveryStep step (fun _ e => R e) s es
  | [], _, _ => trivial
  | e :: _, _, h =>
    ⟨h e List.mem_cons_self, of_forall_mem fun e' he' => h e' (List.mem_cons_of_mem e he')⟩

theorem concat : ∀ {es : List ε} {s : σ} {e : ε}, EveryStep step P s es → P (es.foldl step s) e →
    EveryStep step P s (es ++ [e])
  | [], _, _, _, h => ⟨h, trivial⟩
  | _ :: _, _, _, h, h' => ⟨h.1, concat h.2 h'⟩

/-- A run that begins in `Z` and ends out of it was in `Z` for a last time. -/
theorem exists_since {Z : σ → Prop} {s : σ} (hs : Z s) (es : List ε) :
    Z (es.foldl step s) ∨ ∃ before e after, es = before ++ e :: after ∧ Z (before.foldl step s) ∧
      EveryStep step (fun s _ => ¬ Z s) (step (before.foldl step s) e) after := by
  induction es using List.reverseRecOn with
  | nil => exact .inl hs
  | append_singleton es e ih =>
    by_cases hlast : Z (es.foldl step s)
    · exact .inr ⟨es, e, [], rfl, hlast, trivial⟩
    · obtain ⟨before, e', after, rfl, hbefore, hafter⟩ := ih.resolve_left hlast
      rw [List.foldl_append, List.foldl_cons] at hlast
      refine .inr ⟨before, e', after ++ [e], ?_, hbefore, hafter.concat hlast⟩
      rw [List.append_assoc, List.cons_append]

end EveryStep
