import Mathlib.Tactic.Lemma

/-!
# Programs that end

Programs over a state that can fault, where running out of turns is a fault like any other.
`Ends m s Q` is total correctness: from `s` the program `m` ends without a fault, and `Q` holds of
its result and of the state it leaves.
-/

namespace NullOS.Lib

variable {σ ε α β : Type}

lemma bind_of_ok {m : EStateM ε σ α} {f : α → EStateM ε σ β} {s t : σ} {a : α}
    (h : m s = .ok a t) : (m >>= f) s = f a t := by
  show EStateM.bind m f s = _
  rw [EStateM.bind, h]

/-- Started in `s`, the program ends without a fault, and `Q` holds of its result and of the
state it leaves. -/
def Ends (m : EStateM ε σ α) (s : σ) (Q : α → σ → Prop) : Prop :=
  ∃ a t, m s = .ok a t ∧ Q a t

namespace Ends

variable {m : EStateM ε σ α} {f : α → EStateM ε σ β} {s : σ}
  {P Q : α → σ → Prop} {R : β → σ → Prop}

lemma of_eq {a : α} {t : σ} (h : m s = .ok a t) (hq : Q a t) : Ends m s Q := ⟨a, t, h, hq⟩

protected lemma pure {a : α} (h : Q a s) : Ends (pure a : EStateM ε σ α) s Q :=
  ⟨a, s, rfl, h⟩

protected lemma bind (h : Ends m s fun a t => Ends (f a) t R) : Ends (m >>= f) s R := by
  obtain ⟨a, t, hm, b, u, hf, hr⟩ := h
  exact ⟨b, u, (bind_of_ok hm).trans hf, hr⟩

lemma mono (h : Ends m s P) (hpq : ∀ a t, P a t → Q a t) : Ends m s Q := by
  obtain ⟨a, t, hm, hp⟩ := h
  exact ⟨a, t, hm, hpq a t hp⟩

/-- The specification of the first part, and then the second part from whatever it ends in. -/
lemma seq (h : Ends m s P) (hf : ∀ a t, P a t → Ends (f a) t R) : Ends (m >>= f) s R :=
  (h.mono hf).bind

lemma result {a : α} {t : σ} (h : Ends m s Q) (hm : m s = .ok a t) : Q a t := by
  obtain ⟨b, u, hb, hq⟩ := h
  obtain ⟨rfl, rfl⟩ := EStateM.Result.ok.inj (hm.symm.trans hb)
  exact hq

lemma not_of_error {e : ε} {t : σ} (h : m s = .error e t) : ¬ Ends m s Q := by
  rintro ⟨a, u, hok, -⟩
  cases h.symm.trans hok

-- a specification is tested by running the program
instance [∀ a t, Decidable (Q a t)] : Decidable (Ends m s Q) :=
  match hm : m s with
  | .ok a t => decidable_of_iff (Q a t) ⟨of_eq hm, fun h => h.result hm⟩
  | .error _ _ => isFalse (not_of_error hm)

lemma and (hp : Ends m s P) (hq : Ends m s Q) : Ends m s fun a t => P a t ∧ Q a t := by
  obtain ⟨a, t, hm, hpa⟩ := hp
  exact ⟨a, t, hm, hpa, hq.result hm⟩

end Ends

end NullOS.Lib
