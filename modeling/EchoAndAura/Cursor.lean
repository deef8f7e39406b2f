import Mathlib.Order.Lattice

/-!
# Asking for what is new

A reader asks again and again for the items after a cut, and moves its cut between the answers.  The
items come and go.  As long as every item that comes later comes after the cut, what is there is
after it or was given (`Covers`), and an answer gives the reader everything there was
(`Covers.answer`).
-/

namespace Cursor

variable {α τ : Type} [LinearOrder τ] (key : α → τ)

/-- Everything that is there comes after the cut, or was given. -/
def Covers (there given : List α) (cut : τ) : Prop := ∀ c ∈ there, cut < key c ∨ c ∈ given

/-- What came comes after the cut. -/
def ComesAfter (before after : List α) (cut : τ) : Prop :=
  ∀ c ∈ after, c ∉ before → cut < key c

/-- The answer to an ask. -/
def answer (there : List α) (cut : τ) : List α := there.filter (cut < key ·)

variable {key} {there there' given given' : List α} {cut cut' : τ}

theorem Covers.mono (h : Covers key there given cut) (hgiven : given ⊆ given') :
    Covers key there given' cut :=
  fun c hc => (h c hc).imp_right fun hin => hgiven hin

theorem Covers.change (h : Covers key there given cut) (hnew : ComesAfter key there there' cut) :
    Covers key there' given cut := by
  intro c hc
  by_cases hbefore : c ∈ there
  · exact h c hbefore
  · exact .inl (hnew c hc hbefore)

theorem mem_answer {c : α} : c ∈ answer key there cut ↔ c ∈ there ∧ cut < key c := by
  unfold answer
  rw [List.mem_filter, decide_eq_true_eq]

/-- An answer completes what was given. -/
theorem Covers.answer (h : Covers key there given cut) :
    ∀ c ∈ there, c ∈ given ∨ c ∈ answer key there cut := by
  intro c hc
  rcases h c hc with hlt | hin
  · exact .inr (mem_answer.2 ⟨hc, hlt⟩)
  · exact .inl hin

/-- After an answer the reader may move to any cut that all that came since comes after. -/
theorem Covers.next (hanswer : ∀ c ∈ there, c ∈ given)
    (hnew : ComesAfter key there there' cut') : Covers key there' given cut' := by
  intro c hc
  by_cases hbefore : c ∈ there
  · exact .inr (hanswer c hbefore)
  · exact .inl (hnew c hc hbefore)

end Cursor
