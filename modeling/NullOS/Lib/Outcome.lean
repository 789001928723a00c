import NullOS.Lib.Ends

/-!
# Programs that may fault

The counterpart of `Ends` for programs that need not end well.  `Outcome m s Q E` says what holds
of the state that the program leaves in either case: `Q` with its result, or `E` with its fault.
-/

namespace NullOS.Lib

variable {σ ε α β : Type}

/-- Started in `s`, the program either returns a result for which `Q` holds, or it faults and `E`
holds. -/
def Outcome (m : EStateM ε σ α) (s : σ) (Q : α → σ → Prop) (E : ε → σ → Prop) : Prop :=
  match m s with
  | .ok a t => Q a t
  | .error e t => E e t

namespace Outcome

variable {m : EStateM ε σ α} {f : α → EStateM ε σ β} {s : σ} {P Q : α → σ → Prop}
  {R : β → σ → Prop} {E E' : ε → σ → Prop}

lemma of_ok {a : α} {t : σ} (h : m s = .ok a t) (hq : Q a t) : Outcome m s Q E := by
  rw [Outcome, h]
  exact hq

lemma of_error {e : ε} {t : σ} (h : m s = .error e t) (he : E e t) : Outcome m s Q E := by
  rw [Outcome, h]
  exact he

lemma bind (h : Outcome m s (fun a t => Outcome (f a) t R E) E) : Outcome (m >>= f) s R E := by
  rw [Outcome] at h
  split at h
  case h_1 a t hm =>
    rw [Outcome, bind_of_ok hm]
    exact h
  case h_2 e t hm =>
    refine of_error (t := t) (e := e) ?_ h
    show EStateM.bind m f s = _
    rw [EStateM.bind, hm]

lemma mono (h : Outcome m s P E) (hq : ∀ a t, P a t → Q a t) (he : ∀ e t, E e t → E' e t) :
    Outcome m s Q E' := by
  rw [Outcome] at h ⊢
  split at h
  case h_1 a t hm => exact hq a t h
  case h_2 e t hm => exact he e t h

lemma ends (h : Outcome m s Q E) (he : ∀ e t, ¬ E e t) : Ends m s Q := by
  rw [Outcome] at h
  split at h
  case h_1 a t hm => exact ⟨a, t, hm, h⟩
  case h_2 e t hm => exact absurd h (he e t)

lemma faults (h : Outcome m s Q E) (hq : ∀ a t, ¬ Q a t) : ∃ e t, m s = .error e t ∧ E e t := by
  rw [Outcome] at h
  split at h
  case h_1 a t hm => exact absurd h (hq a t)
  case h_2 e t hm => exact ⟨e, t, hm, h⟩

lemma after_any (h : ∀ a t, Outcome (f a) t R fun _ _ => True) :
    Outcome (m >>= f) s R fun _ _ => True := by
  refine bind ?_
  rw [Outcome]
  split
  case h_1 a t _ => exact h a t
  case h_2 => trivial

lemma run (h : Outcome m s Q E) : Outcome m s (fun a t => m s = .ok a t ∧ Q a t) E := by
  rw [Outcome] at h ⊢
  split at h
  case h_1 a t hm => exact ⟨hm, h⟩
  case h_2 => exact h

lemma result {a : α} {t : σ} (h : Outcome m s Q E) (hm : m s = .ok a t) : Q a t := by
  rw [Outcome, hm] at h
  exact h

end Outcome

end NullOS.Lib
