/-!
# Tables without an order

A table that keeps no order of its own is walked in whichever order it happens to have. A lot stands
for what decides it: each item is put among the later ones at the place that the lot names.

Results:

* `draw_perm`: a lot decides the order and nothing else.
* `exists_draw`: each order is that of some lot.
-/

namespace JobSwarm

variable {α : Type}

/-- The items in the order that a lot decides. -/
def draw (lot : Nat) : List α → List α
  | [] => []
  | item :: rest =>
    (draw (lot / (rest.length + 1)) rest).insertIdx (lot % (rest.length + 1)) item

theorem draw_perm (lot : Nat) (items : List α) : (draw lot items).Perm items := by
  induction items generalizing lot with
  | nil => exact .nil
  | cons item rest ih =>
    have drawn := ih (lot / (rest.length + 1))
    have place : lot % (rest.length + 1) ≤ (draw (lot / (rest.length + 1)) rest).length := by
      rw [drawn.length_eq]
      exact Nat.le_of_lt_succ (Nat.mod_lt _ (Nat.succ_pos _))
    exact (List.perm_insertIdx item _ place).trans (drawn.cons item)

theorem insertIdx_length (item : α) (before after : List α) :
    (before ++ after).insertIdx before.length item = before ++ item :: after := by
  induction before with
  | nil => exact List.insertIdx_zero
  | cons first before ih =>
    rw [List.cons_append, List.length_cons, List.insertIdx_succ_cons, ih, List.cons_append]

theorem exists_draw {items order : List α} (h : order.Perm items) :
    ∃ lot, draw lot items = order := by
  induction items generalizing order with
  | nil => exact ⟨0, h.eq_nil.symm⟩
  | cons item rest ih =>
    obtain ⟨before, after, rfl⟩ := List.append_of_mem (h.mem_iff.2 List.mem_cons_self)
    have others : (before ++ after).Perm rest :=
      List.Perm.cons_inv (List.perm_middle.symm.trans h)
    obtain ⟨lot, drawn⟩ := ih others
    have place : before.length < rest.length + 1 := by
      rw [← others.length_eq, List.length_append]
      omega
    -- The lot of the rest, with the place of the first item below it.
    refine ⟨lot * (rest.length + 1) + before.length, ?_⟩
    rw [draw, Nat.mul_comm, Nat.mul_add_mod, Nat.mod_eq_of_lt place,
      Nat.mul_add_div (Nat.succ_pos _), Nat.div_eq_of_lt place, Nat.add_zero, drawn]
    exact insertIdx_length item before after

end JobSwarm
