import Mathlib.Data.List.Induction

/-!
# Sinks

A function that hands characters to a sink through a `put` function cannot look into the sink.  What
it hands over is therefore one list of characters, whatever the sink is.
-/

namespace NullOS.Lib

variable {α : Type} {f g : ∀ σ : Type, (σ → α → σ) → σ → σ}

/-- On every sink, `f` puts the same characters. -/
def Emits (f : ∀ σ : Type, (σ → α → σ) → σ → σ) : Prop :=
  ∃ l : List α, ∀ (σ : Type) (put : σ → α → σ) (s : σ), f σ put s = l.foldl put s

namespace Emits

lemma none : Emits fun _ (_ : _ → α → _) s => s := ⟨[], fun _ _ _ => rfl⟩

lemma list (l : List α) : Emits fun _ put s => l.foldl put s := ⟨l, fun _ _ _ => rfl⟩

lemma one (c : α) : Emits fun _ put s => put s c := list [c]

lemma seq (hf : Emits f) (hg : Emits g) : Emits fun σ put s => g σ put (f σ put s) := by
  obtain ⟨l, hl⟩ := hf
  obtain ⟨m, hm⟩ := hg
  refine ⟨l ++ m, fun σ put s => ?_⟩
  show g σ put (f σ put s) = _
  rw [hm, hl, List.foldl_append]

lemma ite {p : Prop} [Decidable p] (hf : Emits f) (hg : Emits g) :
    Emits fun σ put s => if p then f σ put s else g σ put s := by
  by_cases h : p
  · simpa only [h, if_true] using hf
  · simpa only [h, if_false] using hg

end Emits

lemma foldl_text {σ : Type} {put : σ → α → σ} {s : σ} {I : List α → σ → Prop} (h0 : I [] s)
    (hput : ∀ l s c, I l s → I (l ++ [c]) (put s c)) (l : List α) : I l (l.foldl put s) := by
  induction l using List.reverseRecOn with
  | nil => exact h0
  | append_singleton l c ih =>
    rw [List.foldl_append]
    exact hput l _ c ih

lemma foldl_keep (l acc : List α) : l.foldl (fun s c => s ++ [c]) acc = acc ++ l := by
  induction l generalizing acc with
  | nil => rw [List.foldl_nil, List.append_nil]
  | cons c l ih => rw [List.foldl_cons, ih, List.append_assoc, List.singleton_append]

lemma Emits.eq {f : ∀ σ : Type, (σ → α → σ) → σ → σ} (h : Emits f) {σ : Type} (put : σ → α → σ)
    (s : σ) : f σ put s = (f (List α) (fun l c => l ++ [c]) []).foldl put s := by
  obtain ⟨l, hl⟩ := h
  rw [hl, hl, foldl_keep, List.nil_append]

end NullOS.Lib
