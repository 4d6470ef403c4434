import Mathlib.Data.List.Nodup
import Mathlib.Tactic.Common
/-!
# Ids and their holders

A registry of ids handed out one after the other, and who holds which. The registry
mirrors the holders when it lists what is held, each id once, and each has one holder.
Handing out the next id and taking back all that one holder has keep it so.
-/

namespace FeedHandler.Lib

variable {ω : Type}

structure Mirrors (ids : List Nat) (next : Nat) (holds : ω → Nat → Prop) : Prop where
  nodup : ids.Nodup
  listed : ∀ q, q ∈ ids ↔ ∃ h, holds h q
  sole : ∀ h h' q, holds h q → holds h' q → h = h'
  fresh : ∀ q ∈ ids, q < next

namespace Mirrors

variable {ids : List Nat} {next : Nat} {holds holds' : ω → Nat → Prop}

theorem empty (hnone : ∀ h q, ¬ holds h q) : Mirrors [] next holds where
  nodup := List.nodup_nil
  listed q := by simp [hnone]
  sole h _ q hh := absurd hh (hnone h q)
  fresh q hq := absurd hq List.not_mem_nil

theorem lt (hm : Mirrors ids next holds) {h : ω} {q : Nat} (hh : holds h q) : q < next :=
  hm.fresh q ((hm.listed q).mpr ⟨h, hh⟩)

theorem congr (hm : Mirrors ids next holds) (heq : ∀ h q, holds' h q ↔ holds h q) :
    Mirrors ids next holds' := by
  have hholds : holds' = holds := by
    ext h q
    exact heq h q
  rw [hholds]
  exact hm

theorem grant (hm : Mirrors ids next holds) (new : ω)
    (heq : ∀ h q, holds' h q ↔ holds h q ∨ h = new ∧ q = next) :
    Mirrors (ids ++ [next]) (next + 1) holds' := by
  have hold : ∀ h q, holds h q → q < next := fun _ _ => hm.lt
  constructor
  · apply List.Nodup.append hm.nodup (List.nodup_singleton next)
    intro q hq hnext
    have hlt := hm.fresh q hq
    have heq := List.mem_singleton.mp hnext
    omega
  · intro q
    rw [List.mem_append, List.mem_singleton, hm.listed]
    constructor
    · intro hq
      rcases hq with ⟨h, hh⟩ | hq
      · exact ⟨h, (heq h q).mpr (Or.inl hh)⟩
      · exact ⟨new, (heq new q).mpr (Or.inr ⟨rfl, hq⟩)⟩
    · intro hq
      obtain ⟨h, hh⟩ := hq
      rcases (heq h q).mp hh with hh | hnew
      · exact Or.inl ⟨h, hh⟩
      · exact Or.inr hnew.2
  · intro h h' q hh hh'
    rcases (heq h q).mp hh with hh | ⟨hnew, hq⟩ <;> rcases (heq h' q).mp hh' with hh' | ⟨hnew', hq'⟩
    · exact hm.sole h h' q hh hh'
    · have := hold h q hh
      omega
    · have := hold h' q hh'
      omega
    · exact hnew.trans hnew'.symm
  · intro q hq
    rcases List.mem_append.mp hq with hq | hq
    · have := hm.fresh q hq
      omega
    · have := List.mem_singleton.mp hq
      omega

theorem release (hm : Mirrors ids next holds) (who : ω) {p : Nat → Bool}
    (hp : ∀ q, p q = true ↔ ¬ holds who q)
    (heq : ∀ h q, holds' h q ↔ h ≠ who ∧ holds h q) : Mirrors (ids.filter p) next holds' := by
  constructor
  · exact hm.nodup.filter p
  · intro q
    rw [List.mem_filter, hp, hm.listed]
    constructor
    · intro hq
      obtain ⟨⟨h, hh⟩, hnot⟩ := hq
      have hne : h ≠ who := by
        intro hwho
        exact hnot (hwho ▸ hh)
      exact ⟨h, (heq h q).mpr ⟨hne, hh⟩⟩
    · intro hq
      obtain ⟨h, hh⟩ := hq
      obtain ⟨hne, hh⟩ := (heq h q).mp hh
      exact ⟨⟨h, hh⟩, fun hwho => hne (hm.sole h who q hh hwho)⟩
  · intro h h' q hh hh'
    exact hm.sole h h' q ((heq h q).mp hh).2 ((heq h' q).mp hh').2
  · intro q hq
    exact hm.fresh q (List.mem_filter.mp hq).1

end Mirrors

end FeedHandler.Lib
