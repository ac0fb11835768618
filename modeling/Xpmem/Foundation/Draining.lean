import Mathlib.Data.List.Perm.Subperm
import Xpmem.Foundation.Partial

/-!
# Loops that empty a list

A loop that handles the first element of a list until there is none need not
end: a round may leave its element where it is.  It ends when every round
leaves a shorter list, and then as many rounds as the list is long are enough.
-/

namespace Xpmem.Foundation

universe u v

variable {α : Type u} {β : Type v} {list : α → List β}
    {round : α → β → Option α}

/-- Handle the first element of a list until there is none. -/
def drain (list : α → List β) (round : α → β → Option α) :
    Nat → α → Option α
  | 0, value => if (list value).isEmpty then some value else none
  | rounds + 1, value =>
      match list value with
      | [] => some value
      | head :: _ => (round value head).bind (drain list round rounds)

theorem Returns.drain {post : α → Prop}
    (each : ∀ pre head rest, post pre → list pre = head :: rest →
      Surely (round pre head) fun next =>
        post next ∧ (list next).length ≤ rest.length)
    (rounds : Nat) {value : α} (holds : post value)
    (enough : (list value).length ≤ rounds) :
    Returns (drain list round rounds value) := by
  induction rounds generalizing value with
  | zero =>
      have empty := List.eq_nil_of_length_eq_zero (Nat.le_zero.mp enough)
      rw [Foundation.drain, empty]
      exact .some
  | succ rounds induction =>
      cases shown : list value with
      | nil =>
          rw [Foundation.drain, shown]
          exact .some
      | cons head rest =>
          obtain ⟨next, returned, after, shorter⟩ :=
            each value head rest holds shown
          rw [shown, List.length_cons] at enough
          simp only [Foundation.drain, shown, returned, Option.bind_some]
          exact induction after (by omega)

end Xpmem.Foundation
