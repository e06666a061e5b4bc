import Mathlib.Data.List.Forall2
import Mathlib.Data.List.Induction
import Mathlib.Data.List.Nodup
import SchemaPage.Order.Bisect
import SchemaPage.Order.Latest

/-!
# What the latest elements are

`Order.latest key l` is described in `SchemaPage.Order.Latest` as what filling an ordered table
leaves behind.  Here it is described by what it contains: it ascends strictly, and under each key it
holds the last element of `l` with that key.  The two together fix it.

* `ascending_latest`: the keys ascend strictly.
* `find?_latest`: a search by key finds the last element with the key.
* `mem_latest_iff`: the members are the elements after which their key does not occur again.
* `Ascending.eq_of_mem_iff`: an ascending list is fixed by its members.
* `latest_of_perm`: where no key occurs twice, the order of a list does not matter.
* `Ascending.bisect_eq_find?`: in an ascending list halving finds what a search from the front
  finds.
* `perm_latest`, `perm_latest_iff`: where no key occurs twice, and nowhere else, a list is only put
  in another order.
* `latest_of_ascending`: an ascending list is left as it is.
* `HoldsLast`, `SortsBy`: the last element of each key, and ways of sorting that leave it.
* `latest_eq_iff_holdsLast`, `sortsBy_latest`: the table holds just that, so filling it is such a
  way.
* `forall₂_latest`: the latest elements of lists that correspond element by element.
* `forall₂_of_ascending`: ascending lists with the same keys correspond element by element.
-/

namespace SchemaPage
namespace Order

variable {α β κ : Type} [Ord κ]

/-- The keys ascend strictly. -/
def Ascending (key : α → κ) (l : List α) : Prop :=
  l.Pairwise fun a b => compare (key a) (key b) = .lt

variable {key : α → κ}

/-! ## Order -/

/-- In an ascending list all that stands before an element is smaller, and all after it is
greater. -/
theorem Ascending.append_cons {l r : List α} {a : α} (h : Ascending key (l ++ a :: r)) :
    (Ascending key l ∧ ∀ b ∈ l, compare (key b) (key a) = .lt) ∧
      Ascending key r ∧ ∀ b ∈ r, compare (key a) (key b) = .lt := by
  obtain ⟨hl, hr, hlr⟩ := List.pairwise_append.1 h
  obtain ⟨har, hr⟩ := List.pairwise_cons.1 hr
  exact ⟨⟨hl, fun b hb => hlr b hb a List.mem_cons_self⟩, hr, har⟩

/-- What is smaller than the new element and than a list is smaller than the list with it. -/
theorem lt_of_mem_put {a b c : α} {l : List α} (ha : compare (key b) (key a) = .lt)
    (hl : ∀ d ∈ l, compare (key b) (key d) = .lt) (hc : c ∈ put key a l) :
    compare (key b) (key c) = .lt := by
  rcases mem_put hc with rfl | hc
  · exact ha
  · exact hl c hc

section Trans

variable [Std.TransOrd κ] [Std.LawfulEqOrd κ]

theorem ascending_put (a : α) {l : List α} (h : Ascending key l) : Ascending key (put key a l) := by
  induction l with
  | nil => exact List.pairwise_singleton _ _
  | cons b l ih =>
    obtain ⟨hb, hl⟩ := List.pairwise_cons.1 h
    unfold put
    split
    · rename_i hab
      refine List.pairwise_cons.2 ⟨fun c hc => ?_, h⟩
      rcases List.mem_cons.1 hc with rfl | hc
      · exact hab
      · exact Std.TransCmp.lt_trans hab (hb c hc)
    · rename_i hab
      rw [Std.LawfulEqOrd.compare_eq_iff_eq] at hab
      exact List.pairwise_cons.2 ⟨fun c hc => hab ▸ hb c hc, hl⟩
    · rename_i hab
      have hba : compare (key b) (key a) = .lt := Std.OrientedCmp.gt_iff_lt.1 hab
      exact List.pairwise_cons.2 ⟨fun c hc => lt_of_mem_put hba hb hc, ih hl⟩

/-- The keys of the latest elements ascend strictly. -/
theorem ascending_latest (key : α → κ) (l : List α) : Ascending key (latest key l) := by
  induction l using List.reverseRecOn with
  | nil => exact List.Pairwise.nil
  | append_singleton l a ih =>
    rw [latest_append_singleton]
    exact ascending_put a ih

end Trans

section Lawful

variable [Std.LawfulEqOrd κ]

theorem ne_of_compare_eq_lt {j k : κ} (h : compare j k = .lt) : j ≠ k := by
  rintro rfl
  rw [Std.ReflOrd.compare_self] at h
  exact absurd h (by decide)

/-- No key occurs twice in an ascending list. -/
theorem Ascending.eq_of_key_eq {l : List α} (h : Ascending key l) {a b : α} (ha : a ∈ l)
    (hb : b ∈ l) (hab : key a = key b) : a = b := by
  induction l with
  | nil => exact absurd ha List.not_mem_nil
  | cons c l ih =>
    obtain ⟨hc, hl⟩ := List.pairwise_cons.1 h
    have hne : ∀ d ∈ l, key c ≠ key d := fun d hd => ne_of_compare_eq_lt (hc d hd)
    rcases List.mem_cons.1 ha with ha | ha <;> rcases List.mem_cons.1 hb with hb | hb
    · rw [ha, hb]
    · exact absurd (ha ▸ hab) (hne b hb)
    · exact absurd (hb ▸ hab.symm) (hne a ha)
    · exact ih hl ha hb

theorem Ascending.nodup {l : List α} (h : Ascending key l) : l.Nodup :=
  h.imp fun {_ _} hab he => ne_of_compare_eq_lt hab (congrArg key he)

end Lawful

section Trans

variable [Std.TransOrd κ] [Std.LawfulEqOrd κ]

/-- An ascending list is fixed by its members. -/
theorem Ascending.eq_of_mem_iff {l r : List α} (hl : Ascending key l) (hr : Ascending key r)
    (h : ∀ a, a ∈ l ↔ a ∈ r) : l = r := by
  have hperm : l.Perm r := (List.perm_ext_iff_of_nodup hl.nodup hr.nodup).2 h
  refine List.Perm.eq_of_pairwise (fun a b _ _ hab hba => ?_) hl hr hperm
  have hgt := Std.OrientedCmp.gt_iff_lt.2 hab
  rw [hba] at hgt
  exact absurd hgt (by decide)

end Trans

/-! ## Search -/

section Halving

variable [Std.TransOrd κ] [Std.LawfulEqOrd κ]

/-- In an ascending list halving finds what a search from the front finds. -/
theorem Ascending.bisect_eq_find? [BEq κ] [LawfulBEq κ] {k : κ} {l : List α}
    (h : Ascending key l) : bisect key k l = l.find? (key · == k) := by
  have hnone : ∀ {l : List α}, (∀ b ∈ l, key b ≠ k) → l.find? (key · == k) = none :=
    fun hne => List.find?_eq_none.2 fun b hb hk => hne b hb (eq_of_beq hk)
  fun_induction bisect key k l with
  | case1 l hl =>
    -- only the empty list has nothing in its second half
    have hlength := congrArg List.length hl
    rw [List.length_drop, List.length_nil] at hlength
    rw [List.eq_nil_of_length_eq_zero (by omega : l.length = 0)]
    rfl
  | case2 l a after hl hk ih =>
    have hsplit : l.take (l.length / 2) ++ a :: after = l := by rw [← hl, List.take_append_drop]
    obtain ⟨⟨-, hbefore⟩, hafter, -⟩ := Ascending.append_cons (hsplit ▸ h)
    -- the first half is below the middle, and the middle is below `k`
    have hne : ∀ b ∈ l.take (l.length / 2), key b ≠ k := fun b hb =>
      ne_of_compare_eq_lt (Std.TransCmp.lt_trans (hbefore b hb) hk)
    conv_rhs => rw [← hsplit]
    rw [List.find?_append, hnone hne, Option.none_or,
      List.find?_cons_of_neg (by simpa using ne_of_compare_eq_lt hk)]
    exact ih hafter
  | case3 l a after hl hk =>
    have hsplit : l.take (l.length / 2) ++ a :: after = l := by rw [← hl, List.take_append_drop]
    obtain ⟨⟨-, hbefore⟩, -⟩ := Ascending.append_cons (hsplit ▸ h)
    obtain rfl := Std.LawfulEqOrd.compare_eq_iff_eq.1 hk
    conv_rhs => rw [← hsplit]
    rw [List.find?_append, hnone fun b hb => ne_of_compare_eq_lt (hbefore b hb),
      Option.none_or, List.find?_cons_of_pos (by simp)]
  | case4 l a after hl hk ih =>
    have hsplit : l.take (l.length / 2) ++ a :: after = l := by rw [← hl, List.take_append_drop]
    obtain ⟨⟨hbefore, -⟩, -, hafter⟩ := Ascending.append_cons (hsplit ▸ h)
    have hka : compare k (key a) = .lt := Std.OrientedCmp.gt_iff_lt.1 hk
    have hne : ∀ b ∈ a :: after, key b ≠ k := by
      intro b hb
      rcases List.mem_cons.1 hb with rfl | hb
      · exact (ne_of_compare_eq_lt hka).symm
      · exact (ne_of_compare_eq_lt (Std.TransCmp.lt_trans hka (hafter b hb))).symm
    conv_rhs => rw [← hsplit]
    rw [ih hbefore, List.find?_append, hnone hne, Option.or_none]

end Halving

section Search

variable [Std.LawfulEqOrd κ]

/-- A search by key in a list with one more element. -/
theorem find?_put [BEq κ] [LawfulBEq κ] (key : α → κ) (k : κ) (a : α) (l : List α) :
    (put key a l).find? (key · == k) = if key a == k then some a else l.find? (key · == k) := by
  induction l with
  | nil => cases ha : key a == k <;> simp [ha]
  | cons b l ih =>
    unfold put
    split
    · cases ha : key a == k <;> simp [ha]
    · rename_i hab
      rw [Std.LawfulEqOrd.compare_eq_iff_eq] at hab
      cases hb : key b == k <;> simp [hab, hb]
    · rename_i hab
      have hne : key a ≠ key b := fun he => by
        rw [he, Std.ReflOrd.compare_self] at hab
        exact absurd hab (by decide)
      rw [List.find?_cons, ih, List.find?_cons]
      cases hb : key b == k with
      | false => rfl
      | true =>
        have hak : (key a == k) = false :=
          beq_eq_false_iff_ne.2 fun he => hne (he.trans (eq_of_beq hb).symm)
        rw [hak]
        rfl

/-- A search by key finds the last element with the key. -/
theorem find?_latest [BEq κ] [LawfulBEq κ] (key : α → κ) (k : κ) (l : List α) :
    (latest key l).find? (key · == k) = l.reverse.find? (key · == k) := by
  induction l using List.reverseRecOn with
  | nil => rfl
  | append_singleton l a ih =>
    rw [latest_append_singleton, find?_put, List.reverse_append, List.reverse_singleton,
      List.singleton_append, List.find?_cons, ih]
    cases key a == k <;> rfl

/-- Every key has a latest element. -/
theorem exists_mem_latest (key : α → κ) {l : List α} {a : α} (h : a ∈ l) :
    ∃ b ∈ latest key l, key b = key a := by
  classical
  have hsome : (l.reverse.find? (key · == key a)).isSome :=
    List.find?_isSome.2 ⟨a, List.mem_reverse.2 h, by simp⟩
  rw [← find?_latest] at hsome
  obtain ⟨b, hb⟩ := Option.isSome_iff_exists.1 hsome
  exact ⟨b, List.mem_of_find?_eq_some hb, by simpa using List.find?_some hb⟩

/-- Where no key occurs twice nothing is left out. -/
theorem mem_latest_of_injective {l : List α} {a : α}
    (h : ∀ b ∈ l, key b = key a → b = a) (ha : a ∈ l) : a ∈ latest key l := by
  obtain ⟨b, hb, hkey⟩ := exists_mem_latest key ha
  rwa [← h b (mem_of_mem_latest hb) hkey]

/-- Where no key occurs twice the elements are only put in another order. -/
theorem perm_latest [Std.TransOrd κ] {l : List α} (h : (l.map key).Nodup) :
    (latest key l).Perm l := by
  refine (List.perm_ext_iff_of_nodup (ascending_latest key l).nodup (h.of_map key)).2 fun a => ?_
  refine ⟨mem_of_mem_latest, fun ha => mem_latest_of_injective (fun b hb hkey => ?_) ha⟩
  exact List.inj_on_of_nodup_map h hb ha hkey

/-- The elements are only put in another order just when no key occurs twice. -/
theorem perm_latest_iff [Std.TransOrd κ] {l : List α} :
    (latest key l).Perm l ↔ (l.map key).Nodup := by
  refine ⟨fun hperm => ?_, perm_latest⟩
  have hkeys : ((latest key l).map key).Nodup :=
    List.pairwise_map.2 ((ascending_latest key l).imp ne_of_compare_eq_lt)
  exact (hperm.map key).nodup_iff.1 hkeys

/-- An ascending list is left as it is. -/
theorem latest_of_ascending [Std.TransOrd κ] {l : List α} (h : Ascending key l) :
    latest key l = l := by
  have hkeys : (l.map key).Nodup := List.pairwise_map.2 (h.imp ne_of_compare_eq_lt)
  exact (ascending_latest key l).eq_of_mem_iff h fun a => (perm_latest hkeys).mem_iff

end Search

/-- Where no key occurs twice the order of the elements does not matter. -/
theorem latest_of_perm [Std.TransOrd κ] [Std.LawfulEqOrd κ] {l r : List α}
    (h : (l.map key).Nodup) (hperm : l.Perm r) : latest key l = latest key r := by
  have hr : (r.map key).Nodup := (hperm.map key).nodup_iff.1 h
  refine (ascending_latest key l).eq_of_mem_iff (ascending_latest key r) fun a => ?_
  rw [(perm_latest h).mem_iff, (perm_latest hr).mem_iff, hperm.mem_iff]

/-- The members are the elements after which their key does not occur again. -/
theorem mem_latest_iff [Std.TransOrd κ] [Std.LawfulEqOrd κ] {l : List α} {a : α} :
    a ∈ latest key l ↔ ∃ before after, l = before ++ a :: after ∧ ∀ b ∈ after, key b ≠ key a := by
  classical
  have hfind : a ∈ latest key l ↔ (latest key l).find? (key · == key a) = some a := by
    constructor
    · intro h
      obtain ⟨b, hb⟩ := Option.isSome_iff_exists.1
        (List.find?_isSome.2 ⟨a, h, by simp⟩ : ((latest key l).find? (key · == key a)).isSome)
      have hkey : key b = key a := by simpa using List.find?_some hb
      rw [hb, (ascending_latest key l).eq_of_key_eq (List.mem_of_find?_eq_some hb) h hkey]
    · exact List.mem_of_find?_eq_some
  rw [hfind, find?_latest, List.find?_eq_some_iff_append]
  constructor
  · rintro ⟨-, after, before, hl, hafter⟩
    refine ⟨before.reverse, after.reverse, ?_, fun b hb => ?_⟩
    · rw [← List.reverse_reverse l, hl]
      simp
    · simpa using hafter b (List.mem_reverse.1 hb)
  · rintro ⟨before, after, rfl, hafter⟩
    refine ⟨by simp, after.reverse, before.reverse, by simp, fun b hb => ?_⟩
    simpa using hafter b (List.mem_reverse.1 hb)

/-! ## Ways of sorting -/

/-- A list holds the last element of each key that occurs in `l`, in ascending order of the keys,
and nothing else. -/
structure HoldsLast (key : α → κ) (lt : κ → κ → Prop) (l held : List α) : Prop where
  ascending : held.Pairwise fun a b => lt (key a) (key b)
  mem_iff : ∀ a, a ∈ held ↔ ∃ before after, l = before ++ a :: after ∧ ∀ b ∈ after, key b ≠ key a
  one : ∀ a ∈ l, ∃! b, b ∈ held ∧ key b = key a

/-- A way of sorting that keeps the last element of each key.  It loses nothing just when no key
occurs twice, and it has nothing to do a second time. -/
structure SortsBy (key : α → κ) (lt : κ → κ → Prop) (sort : List α → List α) : Prop where
  eq_iff : ∀ l held, sort l = held ↔ HoldsLast key lt l held
  perm_iff : ∀ l, (sort l).Perm l ↔ (l.map key).Nodup
  sort_sort : ∀ l, sort (sort l) = sort l

section Sorting

variable [Std.TransOrd κ] [Std.LawfulEqOrd κ] {lt : κ → κ → Prop}

/-- The table holds the last element of each key, and no other list does. -/
theorem latest_eq_iff_holdsLast (hlt : ∀ j k, compare j k = .lt ↔ lt j k) {l held : List α} :
    latest key l = held ↔ HoldsLast key lt l held := by
  have hpairwise : ∀ {l : List α}, Ascending key l ↔ l.Pairwise fun a b => lt (key a) (key b) :=
    List.Pairwise.iff fun a b => hlt (key a) (key b)
  have hascending := ascending_latest key l
  constructor
  · rintro rfl
    refine ⟨hpairwise.1 hascending, fun a => mem_latest_iff, fun a ha => ?_⟩
    obtain ⟨b, hb, hkey⟩ := exists_mem_latest key ha
    exact ⟨b, ⟨hb, hkey⟩, fun c hc => hascending.eq_of_key_eq hc.1 hb (hc.2.trans hkey.symm)⟩
  · intro h
    refine hascending.eq_of_mem_iff (hpairwise.2 h.ascending) fun a => ?_
    rw [mem_latest_iff, h.mem_iff]

/-- Filling an ordered table sorts by the keys. -/
theorem sortsBy_latest (hlt : ∀ j k, compare j k = .lt ↔ lt j k) : SortsBy key lt (latest key) where
  eq_iff _ _ := latest_eq_iff_holdsLast hlt
  perm_iff _ := perm_latest_iff
  sort_sort l := latest_of_ascending (ascending_latest key l)

end Sorting

/-! ## Lists that correspond -/

variable {R : α → β → Prop} {key : α → κ} {key' : β → κ}

theorem forall₂_put (hkey : ∀ a b, R a b → key a = key' b) {a : α} {b : β} (hab : R a b)
    {l : List α} {r : List β} (h : List.Forall₂ R l r) :
    List.Forall₂ R (put key a l) (put key' b r) := by
  induction h with
  | nil => exact .cons hab .nil
  | @cons c d l r hcd hlr ih =>
    unfold put
    rw [hkey a b hab, hkey c d hcd]
    split
    · exact .cons hab (.cons hcd hlr)
    · exact .cons hab hlr
    · exact .cons hcd ih

/-- The latest elements of two lists correspond when the lists do, by a correspondence that keeps
the keys. -/
theorem forall₂_latest (hkey : ∀ a b, R a b → key a = key' b) {l : List α} {r : List β}
    (h : List.Forall₂ R l r) : List.Forall₂ R (latest key l) (latest key' r) := by
  suffices ∀ (l : List α) (r : List β) (acc : List α) (acc' : List β), List.Forall₂ R l r →
      List.Forall₂ R acc acc' →
      List.Forall₂ R (l.foldl (fun acc a => put key a acc) acc)
        (r.foldl (fun acc a => put key' a acc) acc') from this l r [] [] h .nil
  intro l r acc acc' h
  induction h generalizing acc acc' with
  | nil => exact id
  | cons hab _ ih => exact fun hacc => ih _ _ (forall₂_put hkey hab hacc)

/-- What comes after an element has no counterpart of the key of that element, so it has one further
on. -/
theorem exists_mem_of_mem_cons [Std.LawfulEqOrd κ] (hkey : ∀ a b, R a b → key a = key' b) {a : α}
    {b : β} {l : List α} {r : List β} (hab : key a = key' b)
    (ha : ∀ x ∈ l, compare (key a) (key x) = .lt) {x : α} (hx : x ∈ l) (h : ∃ y ∈ b :: r, R x y) :
    ∃ y ∈ r, R x y := by
  obtain ⟨y, hy, hxy⟩ := h
  rcases List.mem_cons.1 hy with rfl | hy
  · exact absurd (hab.trans (hkey x y hxy).symm) (ne_of_compare_eq_lt (ha x hx))
  · exact ⟨y, hy, hxy⟩

/-- Ascending lists correspond element by element when every element has a counterpart of its
key. -/
theorem forall₂_of_ascending [Std.TransOrd κ] [Std.LawfulEqOrd κ]
    (hkey : ∀ a b, R a b → key a = key' b) {l : List α} {r : List β} (hl : Ascending key l)
    (hr : Ascending key' r) (hleft : ∀ a ∈ l, ∃ b ∈ r, R a b) (hright : ∀ b ∈ r, ∃ a ∈ l, R a b) :
    List.Forall₂ R l r := by
  induction l generalizing r with
  | nil =>
    cases r with
    | nil => exact .nil
    | cons b r =>
      obtain ⟨a, ha, -⟩ := hright b List.mem_cons_self
      exact absurd ha List.not_mem_nil
  | cons a l ih =>
    cases r with
    | nil =>
      obtain ⟨b, hb, -⟩ := hleft a List.mem_cons_self
      exact absurd hb List.not_mem_nil
    | cons b r =>
      obtain ⟨ha, hl⟩ := List.pairwise_cons.1 hl
      obtain ⟨hb, hr⟩ := List.pairwise_cons.1 hr
      have hab : R a b := by
        obtain ⟨b', hb', hab'⟩ := hleft a List.mem_cons_self
        rcases List.mem_cons.1 hb' with rfl | hb'
        · exact hab'
        · -- then both first elements would come after each other
          obtain ⟨a', ha', ha'b⟩ := hright b List.mem_cons_self
          rcases List.mem_cons.1 ha' with rfl | ha'
          · exact ha'b
          · have hlt : compare (key a) (key' b) = .lt := hkey a' b ha'b ▸ ha a' ha'
            have hgt : compare (key' b) (key a) = .lt := hkey a b' hab' ▸ hb b' hb'
            exact absurd rfl (ne_of_compare_eq_lt (Std.TransCmp.lt_trans hlt hgt))
      refine .cons hab (ih hl hr (fun x hx => ?_) fun y hy => ?_)
      · exact exists_mem_of_mem_cons hkey (hkey a b hab) ha hx (hleft x (List.mem_cons_of_mem a hx))
      · exact exists_mem_of_mem_cons (fun y x hxy => (hkey x y hxy).symm) (hkey a b hab).symm hb hy
          (hright y (List.mem_cons_of_mem b hy))

end Order
end SchemaPage
