import Mathlib.Data.List.Forall2

/-!
# Computations that may fail

A computation that succeeds has succeeded in every step.  These are the lemmas that take one apart,
step by step.

* `bind_eq_ok_iff`, `map_eq_ok_iff`: a step and what follows it.
* `exists_ok_of_any`: what succeeds with a property.
* `error?`, `error?_bind`: why a computation failed.
* `mapM_eq_some_iff`: the same step for each element of a list.
* `exists_left_of_forall₂`, `exists_right_of_forall₂`: what becomes of the elements of a list.
* `map_eq_map_of_forall₂`, `forall₂_zipIdx`, `forall₂_zipIdx_map`, `forall₂_flatMap`,
  `find?_cases_of_forall₂`: what is made of two lists, and what is found in them.
* `find?_of_findSome?`, `findSome?_flatMap`, `find?_eq_of_find?`: where something is found first.
-/

namespace SchemaPage
namespace Outcome

variable {ε α β : Type}

/-- What succeeds has succeeded in its first step and in the rest. -/
theorem bind_eq_ok_iff {x : Except ε α} {f : α → Except ε β} {b : β} :
    x >>= f = .ok b ↔ ∃ a, x = .ok a ∧ f a = .ok b := by
  cases x with
  | error e => exact ⟨nofun, fun ⟨_, h, _⟩ => nomatch h⟩
  | ok a => exact ⟨fun h => ⟨a, rfl, h⟩, fun ⟨_, h, hf⟩ => Except.ok.inj h ▸ hf⟩

theorem map_eq_ok_iff {x : Except ε α} {f : α → β} {b : β} :
    x.map f = .ok b ↔ ∃ a, x = .ok a ∧ f a = b := by
  cases x with
  | error e => exact ⟨nofun, fun ⟨_, h, _⟩ => nomatch h⟩
  | ok a => exact ⟨fun h => ⟨a, rfl, Except.ok.inj h⟩, fun ⟨_, h, hf⟩ => by
      rw [Except.ok.inj h, ← hf]
      rfl⟩

/-- What succeeds with a property succeeds. -/
theorem exists_ok_of_any {x : Except ε α} {p : α → Bool} (h : x.toOption.any p = true) :
    ∃ a, x = .ok a ∧ p a = true := by
  cases x with
  | error e => exact absurd h Bool.false_ne_true
  | ok a => exact ⟨a, rfl, h⟩

/-- Why a computation failed, if it did. -/
def error? : Except ε α → Option ε
  | .error e => some e
  | .ok _ => none

@[simp] theorem error?_ok (a : α) : error? (.ok a : Except ε α) = none := rfl

@[simp] theorem error?_error (e : ε) : error? (.error e : Except ε α) = some e := rfl

@[simp] theorem error?_map (x : Except ε α) (f : α → β) : error? (x.map f) = error? x := by
  cases x <;> rfl

theorem error?_eq_none_iff {x : Except ε α} : error? x = none ↔ ∃ a, x = .ok a := by
  cases x <;> simp

/-- A step that fails, or what follows it, whatever the step gave. -/
theorem error?_bind {x : Except ε α} {f : α → Except ε β} {o : Option ε}
    (h : ∀ a, error? (f a) = o) : error? (x >>= f) = (error? x).or o := by
  cases x with
  | error e => rfl
  | ok a => exact h a

/-- The same step for each element of a list succeeds when it does for every element. -/
theorem mapM_eq_some_iff {f : α → Option β} {l : List α} {r : List β} :
    l.mapM f = some r ↔ List.Forall₂ (fun a b => f a = some b) l r := by
  induction l generalizing r with
  | nil =>
    rw [List.mapM_nil, List.forall₂_nil_left_iff]
    exact ⟨fun h => (Option.some_inj.1 h).symm, fun h => h ▸ rfl⟩
  | cons a l ih =>
    rw [List.mapM_cons, List.forall₂_cons_left_iff]
    constructor
    · intro h
      obtain ⟨b, hb, h⟩ := Option.bind_eq_some_iff.1 h
      obtain ⟨bs, hbs, h⟩ := Option.bind_eq_some_iff.1 h
      exact ⟨b, bs, hb, ih.1 hbs, (Option.some_inj.1 h).symm⟩
    · rintro ⟨b, bs, hb, hbs, rfl⟩
      exact Option.bind_eq_some_iff.2 ⟨b, hb, Option.bind_eq_some_iff.2 ⟨bs, ih.2 hbs, rfl⟩⟩

/-! ## Lists element by element -/

/-- What is on the right comes from something on the left. -/
theorem exists_left_of_forall₂ {R : α → β → Prop} {l : List α} {r : List β}
    (h : List.Forall₂ R l r) {b : β} (hb : b ∈ r) : ∃ a ∈ l, R a b := by
  induction h with
  | nil => exact absurd hb List.not_mem_nil
  | @cons a b' l r hab _ ih =>
    rcases List.mem_cons.1 hb with rfl | hb
    · exact ⟨a, List.mem_cons_self, hab⟩
    · obtain ⟨a', ha', hr⟩ := ih hb
      exact ⟨a', List.mem_cons_of_mem a ha', hr⟩

/-- What is on the left becomes something on the right. -/
theorem exists_right_of_forall₂ {R : α → β → Prop} {l : List α} {r : List β}
    (h : List.Forall₂ R l r) {a : α} (ha : a ∈ l) : ∃ b ∈ r, R a b :=
  exists_left_of_forall₂ h.flip ha

/-- Elements that correspond are elements. -/
theorem forall₂_and_mem {R : α → β → Prop} {l : List α} {r : List β} (h : List.Forall₂ R l r) :
    List.Forall₂ (fun a b => a ∈ l ∧ b ∈ r ∧ R a b) l r := by
  have hright : List.Forall₂ (fun b a => b ∈ r ∧ R a b) r l :=
    (List.forall₂_and_left r l).2 ⟨fun _ hb => hb, h.flip⟩
  exact (List.forall₂_and_left l r).2 ⟨fun _ ha => ha, hright.flip⟩

/-- Where the same is made of elements that correspond, the same is made of the lists. -/
theorem map_eq_map_of_forall₂ {γ : Type} {R : α → β → Prop} {f : α → γ} {g : β → γ} {l : List α}
    {r : List β} (h : List.Forall₂ R l r) (hfg : ∀ a ∈ l, ∀ b ∈ r, R a b → f a = g b) :
    l.map f = r.map g := by
  have hmap : List.Forall₂ (fun a b => f a = g b) l r :=
    (forall₂_and_mem h).imp fun a b ⟨ha, hb, hab⟩ => hfg a ha b hb hab
  rwa [← List.forall₂_eq_eq_eq, List.forall₂_map_left_iff, List.forall₂_map_right_iff]

/-- Elements that correspond have one position. -/
theorem forall₂_zipIdx {R : α → β → Prop} {l : List α} {r : List β} (h : List.Forall₂ R l r)
    (start : Nat) : List.Forall₂ (fun a b => R a.1 b.1 ∧ a.2 = b.2) (l.zipIdx start)
      (r.zipIdx start) := by
  induction h generalizing start with
  | nil => exact .nil
  | cons hab _ ih => exact .cons ⟨hab, rfl⟩ (ih (start + 1))

/-- The positions in a list with positions ascend. -/
theorem pairwise_snd_zipIdx (l : List α) : l.zipIdx.Pairwise fun x y => x.2 < y.2 := by
  refine List.pairwise_map.1 (?_ : (l.zipIdx.map Prod.snd).Pairwise (· < ·))
  rw [List.zipIdx_map_snd]
  exact List.pairwise_lt_range'

/-- What is made of each element and its position corresponds to them. -/
theorem forall₂_zipIdx_map {R : α × Nat → β → Prop} {l : List α} {g : α × Nat → β}
    (h : ∀ x, R x (g x)) : List.Forall₂ R l.zipIdx (l.zipIdx.map g) :=
  List.forall₂_map_right_iff.2 (List.forall₂_same.2 fun x _ => h x)

/-- Lists correspond that are made of one list, when what is made of each element does. -/
theorem forall₂_flatMap {γ : Type} {R : α → β → Prop} {l : List γ} {f : γ → List α} {g : γ → List β}
    (h : ∀ c ∈ l, List.Forall₂ R (f c) (g c)) : List.Forall₂ R (l.flatMap f) (l.flatMap g) := by
  induction l with
  | nil => exact .nil
  | cons c l ih =>
    obtain ⟨hc, hl⟩ := List.forall_mem_cons.1 h
    rw [List.flatMap_cons, List.flatMap_cons]
    exact List.rel_append hc (ih hl)

/-- A search that cannot tell elements that correspond finds what corresponds, or nothing. -/
theorem find?_cases_of_forall₂ {R : α → β → Prop} {p : α → Bool} {q : β → Bool} {l : List α}
    {r : List β} (h : List.Forall₂ R l r) (hpq : ∀ a b, R a b → p a = q b) :
    (l.find? p = none ∧ r.find? q = none) ∨
      ∃ a b, l.find? p = some a ∧ r.find? q = some b ∧ R a b := by
  induction h with
  | nil => exact Or.inl ⟨rfl, rfl⟩
  | @cons a b l r hab _ ih =>
    rw [List.find?_cons, List.find?_cons, hpq a b hab]
    split
    · exact Or.inr ⟨a, b, rfl, rfl, hab⟩
    · exact ih

/-! ## The first element that will do -/

/-- What is found first is found at the first element for which there is anything. -/
theorem find?_of_findSome? {f : α → Option β} {l : List α} {b : β} (h : l.findSome? f = some b) :
    ∃ a, l.find? (fun a => (f a).isSome) = some a ∧ f a = some b := by
  induction l with
  | nil => exact absurd h nofun
  | cons a l ih =>
    rw [List.findSome?_cons] at h
    rw [List.find?_cons]
    cases hf : f a with
    | some c =>
      rw [hf] at h
      exact ⟨a, rfl, hf.trans h⟩
    | none =>
      rw [hf] at h
      exact ih h

/-- A search through lists one after the other is a search in each of them. -/
theorem findSome?_flatMap {γ : Type} (l : List α) (f : α → List β) (p : β → Option γ) :
    (l.flatMap f).findSome? p = l.findSome? fun a => (f a).findSome? p := by
  induction l with
  | nil => rfl
  | cons a l ih =>
    rw [List.flatMap_cons, List.findSome?_append, ih, List.findSome?_cons]
    cases (f a).findSome? p <;> rfl

/-- Two searches find the same when each accepts what the other finds. -/
theorem find?_eq_of_find? {p q : α → Bool} {l : List α} {a b : α} (ha : l.find? p = some a)
    (hb : l.find? q = some b) (hpb : p b = true) (hqa : q a = true) : a = b := by
  induction l with
  | nil => exact absurd ha nofun
  | cons c l ih =>
    rw [List.find?_cons] at ha hb
    cases hp : p c with
    | true =>
      rw [hp] at ha
      obtain rfl := Option.some_inj.1 ha
      rw [hqa] at hb
      exact Option.some_inj.1 hb
    | false =>
      cases hq : q c with
      | true =>
        rw [hq] at hb
        obtain rfl := Option.some_inj.1 hb
        rw [hpb] at hp
        exact absurd hp.symm Bool.false_ne_true
      | false =>
        rw [hp] at ha
        rw [hq] at hb
        exact ih ha hb

end Outcome
end SchemaPage
