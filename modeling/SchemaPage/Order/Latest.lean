/-!
# The last element of each key, in ascending order of keys

`latest key l` lists, in strictly ascending order of their keys, the last element of `l` for each
key that occurs in it.  It is what filling an ordered table from `l` leaves behind, since a later
entry takes the place of an earlier one with the same key.

* `put`: one entry into an ascending list; `mem_put` says where the members come from.
* `latest_append_singleton`: the last element of a list is put last.
* `mem_of_mem_latest`: nothing is invented.
-/

namespace SchemaPage
namespace Order

variable {α κ : Type} [Ord κ]

/-- Put `a` into a list that ascends by `key`, in the place of an element with the same key. -/
def put (key : α → κ) (a : α) : List α → List α
  | [] => [a]
  | b :: l =>
    match compare (key a) (key b) with
    | .lt => a :: b :: l
    | .eq => a :: l
    | .gt => b :: put key a l

/-- The last element of each key, ascending by key. -/
def latest (key : α → κ) (l : List α) : List α := l.foldl (fun acc a => put key a acc) []

@[simp] theorem put_nil (key : α → κ) (a : α) : put key a [] = [a] := rfl

@[simp] theorem latest_nil (key : α → κ) : latest key [] = [] := rfl

/-- The last element of a list is put last. -/
theorem latest_append_singleton (key : α → κ) (l : List α) (a : α) :
    latest key (l ++ [a]) = put key a (latest key l) := by
  simp [latest]

/-- A member is the new element or was there before. -/
theorem mem_put {key : α → κ} {a b : α} {l : List α} (h : b ∈ put key a l) : b = a ∨ b ∈ l := by
  induction l with
  | nil => simpa using h
  | cons c l ih =>
    unfold put at h
    split at h
    · simpa using h
    · rcases List.mem_cons.1 h with rfl | h
      · exact Or.inl rfl
      · exact Or.inr (List.mem_cons_of_mem c h)
    · rcases List.mem_cons.1 h with rfl | h
      · exact Or.inr List.mem_cons_self
      · exact (ih h).imp_right (List.mem_cons_of_mem c)

/-- Nothing is invented. -/
theorem mem_of_mem_latest {key : α → κ} {a : α} {l : List α} (h : a ∈ latest key l) : a ∈ l := by
  suffices ∀ (l acc : List α), a ∈ l.foldl (fun acc a => put key a acc) acc → a ∈ acc ∨ a ∈ l by
    simpa using this l [] h
  intro l
  induction l with
  | nil => intro acc h; exact Or.inl h
  | cons b l ih =>
    intro acc h
    rcases ih _ h with h | h
    · rcases mem_put h with rfl | h
      · exact Or.inr List.mem_cons_self
      · exact Or.inl h
    · exact Or.inr (List.mem_cons_of_mem b h)

end Order
end SchemaPage
