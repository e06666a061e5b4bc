/-!
# Searching by halving

A list that ascends by a key is searched from its middle: what is found there is the element, or it
tells in which half to go on.

* `bisect`: the search.
* `key_of_bisect`: what is found has the key, whatever the order of the list.
-/

namespace SchemaPage
namespace Order

variable {α κ : Type} [Ord κ]

/-- Look for an element with the key `k` in a list that ascends by `key`. -/
def bisect (key : α → κ) (k : κ) (l : List α) : Option α :=
  match _h : l.drop (l.length / 2) with
  | [] => none
  | a :: after =>
    match compare (key a) k with
    | .lt => bisect key k after
    | .eq => some a
    | .gt => bisect key k (l.take (l.length / 2))
termination_by l.length
decreasing_by
  all_goals
    have hlength := congrArg List.length _h
    simp only [List.length_drop, List.length_take, List.length_cons] at hlength ⊢
    omega

/-- What is found has the key. -/
theorem key_of_bisect [Std.LawfulEqOrd κ] {key : α → κ} {k : κ} {l : List α} {a : α}
    (h : bisect key k l = some a) : key a = k := by
  fun_induction bisect key k l with
  | case1 => exact absurd h nofun
  | case2 _ _ _ _ _ ih => exact ih h
  | case3 l b after _ hk =>
    obtain rfl := Option.some.inj h
    exact Std.LawfulEqOrd.compare_eq_iff_eq.1 hk
  | case4 _ _ _ _ _ ih => exact ih h

end Order
end SchemaPage
