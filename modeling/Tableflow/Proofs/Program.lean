import Mathlib

/-!
# What programs return

`SatisfiesM` says something of whatever one program returns. `Relates` says something of whatever
two programs return that are run apart from each other, from any states and with any answers of the
world. `bind_congr_of_satisfiesM` lets a program be rewritten with what is known of the results that
it goes on with.
-/

namespace Tableflow

variable {m : Type → Type} [Monad m] [LawfulMonad m] {α β γ : Type}

/-- Whatever two programs return, the first result stands in a relation to the second. -/
def Relates (R : α → β → Prop) (x : m α) (y : m β) : Prop :=
  SatisfiesM (fun a => SatisfiesM (R a) y) x

theorem Relates.of_satisfiesM {P : α → Prop} {Q : β → Prop} {R : α → β → Prop} {x : m α} {y : m β}
    (hx : SatisfiesM P x) (hy : SatisfiesM Q y) (h : ∀ a b, P a → Q b → R a b) :
    Relates R x y :=
  hx.imp fun {a} ha => hy.imp fun {b} hb => h a b ha hb

theorem relates_id {R : α → β → Prop} {x : Id α} {y : Id β} :
    Relates R x y ↔ R x.run y.run := by
  rw [Relates, SatisfiesM_Id_eq, SatisfiesM_Id_eq]
  rfl

/-- Programs that go on alike from all results that the first part may return are equal. -/
theorem bind_congr_of_satisfiesM {P : α → Prop} {x : m α} {f g : α → m β} (hx : SatisfiesM P x)
    (h : ∀ a, P a → f a = g a) : x >>= f = x >>= g := by
  obtain ⟨x', rfl⟩ := hx
  rw [bind_map_left, bind_map_left]
  exact bind_congr fun a => h a.1 a.2

end Tableflow
