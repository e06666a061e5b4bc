import SchemaPage.Files.Tree
import SchemaPage.Proofs.Order.Latest

/-!
# Changes at one place of a tree

Putting something at a place of a tree changes what is at this place and below it, and nothing else.
For a place above it there is one entry more or another one, but what stands there is a directory as
before.  So two views of a thing are of use that leave out what stands below it: its face, which is
all of it for a file and for a link, and its shape, which is all that matters for passing by.

* `FileTree.face`, `FileTree.shape`: the two views.
* `FileTree.descend_append`: a way in two parts.
* `FileTree.Fits`: the places where something is or may be put.
* `FileTree.descend_put_self`, `FileTree.face_descend_put`: what is where after a change.
* `FileTree.Grows`: nothing is taken away and nothing changes its shape.
-/

namespace SchemaPage
namespace FileTree

variable {t u : FileTree} {name : String} {names : List String}

/-! ## Views of a thing -/

/-- What a thing is, apart from what stands below it. -/
def face : FileTree → FileTree
  | file bytes => file bytes
  | link target => link target
  | dir _ => empty

/-- What a thing is for those who pass by: a file, a directory or a link to somewhere. -/
def shape : FileTree → FileTree
  | file _ => file .empty
  | link target => link target
  | dir _ => empty

theorem shape_eq_of_face_eq (h : t.face = u.face) : t.shape = u.shape := by
  have hface : ∀ v : FileTree, v.face.shape = v.shape := fun v => by cases v <;> rfl
  rw [← hface t, h, hface u]

theorem eq_link_of_face_eq {target : String} (h : u.face = (link target).face) :
    u = link target := by
  cases u with
  | file bytes => exact absurd h nofun
  | link target' => exact h
  | dir entries => exact absurd h nofun

theorem exists_dir_of_shape_eq {entries : List (String × FileTree)}
    (h : u.shape = (dir entries).shape) : ∃ entries', u = dir entries' := by
  cases u with
  | file bytes => exact absurd h nofun
  | link target => exact absurd h nofun
  | dir entries' => exact ⟨entries', rfl⟩

theorem eq_link_of_shape_eq {target : String} (h : u.shape = (link target).shape) :
    u = link target := by
  cases u with
  | file bytes => exact absurd h nofun
  | link target' => exact h
  | dir entries => exact absurd h nofun

/-- Only a directory has something below it. -/
theorem exists_dir_of_child? (h : t.child? name = some u) : ∃ entries, t = dir entries := by
  cases t with
  | file bytes => exact absurd h nofun
  | link target => exact absurd h nofun
  | dir entries => exact ⟨entries, rfl⟩

/-! ## Ways -/

theorem descend_append (t : FileTree) (l r : List String) :
    t.descend (l ++ r) = (t.descend l).bind (·.descend r) := by
  induction l generalizing t with
  | nil => rfl
  | cons name l ih =>
    rw [List.cons_append, descend_cons, descend_cons, Option.bind_assoc]
    simp only [ih]

/-- The last step of a way. -/
theorem descend_concat (t : FileTree) (names : List String) (name : String) :
    t.descend (names ++ [name]) = (t.descend names).bind (·.child? name) := by
  rw [descend_append]
  simp only [descend_cons, descend_nil, Option.bind_fun_some]

/-- Something stands in a directory. -/
theorem exists_dir_of_descend_concat (h : t.descend (names ++ [name]) = some u) :
    ∃ entries, t.descend names = some (dir entries) := by
  rw [descend_concat] at h
  obtain ⟨outer, houter, hchild⟩ := Option.bind_eq_some_iff.1 h
  obtain ⟨entries, rfl⟩ := exists_dir_of_child? hchild
  exact ⟨entries, houter⟩

theorem descend_concat_of_dir {entries : List (String × FileTree)}
    (h : t.descend names = some (dir entries)) (name : String) :
    t.descend (names ++ [name]) = (dir entries).child? name := by
  rw [descend_concat, h, Option.bind_some]

/-- There is no way on from a thing without entries. -/
theorem descend_of_entries_nil (h : t.entries = []) (hne : names ≠ []) :
    t.descend names = none := by
  cases names with
  | nil => exact absurd rfl hne
  | cons name names =>
    have hchild : t.child? name = none := by
      unfold child?
      rw [h]
      rfl
    rw [descend_cons, hchild, Option.bind_none]

/-! ## One change -/

/-- A thing can be put at the place: it is at the top or in a directory. -/
def Fits (t : FileTree) (names : List String) : Prop :=
  names = [] ∨ ∃ dirNames name entries, names = dirNames ++ [name] ∧
    t.descend dirNames = some (dir entries)

theorem fits_of_descend (h : t.descend names = some u) : t.Fits names := by
  rcases List.eq_nil_or_concat names with rfl | ⟨dirNames, name, rfl⟩
  · exact Or.inl rfl
  · rw [List.concat_eq_append] at h ⊢
    obtain ⟨entries, hdir⟩ := exists_dir_of_descend_concat h
    exact Or.inr ⟨dirNames, name, entries, rfl, hdir⟩

/-- The way to a place for something starts in a directory.  There it ends with a free name, or it
goes on inside an entry. -/
theorem Fits.step (h : t.Fits (name :: names)) : (∃ entries, t = dir entries) ∧
    (t.child? name = none → names = []) ∧
      ∀ inner, t.child? name = some inner → inner.Fits names := by
  obtain hnil | ⟨dirNames, last, entries, hnames, hdir⟩ := h
  · exact absurd hnil (List.cons_ne_nil name names)
  · cases dirNames with
    | nil =>
      obtain ⟨rfl, rfl⟩ := List.cons_eq_cons.1 hnames
      obtain rfl := Option.some_inj.1 hdir
      exact ⟨⟨entries, rfl⟩, fun _ => rfl, fun _ _ => Or.inl rfl⟩
    | cons first dirNames =>
      obtain ⟨rfl, rfl⟩ := List.cons_eq_cons.1 hnames
      rw [descend_cons] at hdir
      obtain ⟨inner, hinner, hbelow⟩ := Option.bind_eq_some_iff.1 hdir
      refine ⟨exists_dir_of_child? hinner, fun hnone => ?_, fun u hu => ?_⟩
      · exact absurd (hnone.symm.trans hinner) nofun
      · obtain rfl := Option.some_inj.1 (hinner.symm.trans hu)
        exact Or.inr ⟨dirNames, last, entries, rfl, hbelow⟩

theorem child?_put (entries : List (String × FileTree)) (name other : String) (u : FileTree) :
    (dir (Order.put Prod.fst (name, u) entries)).child? other =
      if name = other then some u else (dir entries).child? other := by
  unfold child? FileTree.entries
  simp only
  rw [Order.find?_put]
  by_cases h : name = other
  · rw [if_pos h, if_pos (beq_iff_eq.2 h)]
    rfl
  · rw [if_neg h, if_neg (by rwa [beq_iff_eq])]

/-- What has been put at a place is there. -/
theorem descend_put_self (u : FileTree) (names : List String) (t : FileTree) :
    (put u names t).descend names = some u := by
  induction names generalizing t with
  | nil => rfl
  | cons name names ih =>
    unfold put
    rw [descend_cons, child?_put, if_pos rfl, Option.bind_some, ih]

/-- Putting something without entries at a place, instead of nothing or of something without
entries, changes nothing elsewhere. -/
theorem face_descend_put (hfits : t.Fits names) (hnew : u.entries = [])
    (hold : ∀ old, t.descend names = some old → old.entries = []) {other : List String}
    (hne : other ≠ names) :
    ((put u names t).descend other).map face = (t.descend other).map face := by
  induction names generalizing t other with
  | nil =>
    rw [put_nil, descend_of_entries_nil hnew hne, descend_of_entries_nil (hold t rfl) hne]
  | cons name names ih =>
    obtain ⟨⟨entries, rfl⟩, hfree, hinside⟩ := hfits.step
    cases other with
    | nil => rfl
    | cons first rest =>
      unfold put
      rw [descend_cons, descend_cons, child?_put]
      by_cases hfirst : name = first
      · subst hfirst
        have hrest : rest ≠ names := fun h => hne (by rw [h])
        rw [if_pos rfl, Option.bind_some]
        cases hinner : (dir entries).child? name with
        | none =>
          -- a free name is the last one, and nothing was or is below it
          obtain rfl := hfree hinner
          rw [put_nil, descend_of_entries_nil hnew hrest, Option.bind_none]
        | some inner =>
          rw [Option.bind_some, Option.getD_some]
          refine ih (hinside inner hinner) (fun old h => hold old ?_) hrest
          rw [descend_cons, hinner, Option.bind_some, h]
      · rw [if_neg hfirst]
        rfl

/-! ## Growing -/

/-- What is somewhere in the one tree is there in the other, in its shape. -/
def Grows (t u : FileTree) : Prop :=
  ∀ names old, t.descend names = some old →
    ∃ new, u.descend names = some new ∧ new.shape = old.shape

theorem Grows.dir (h : t.Grows u) {entries : List (String × FileTree)}
    (hdir : t.descend names = some (dir entries)) :
    ∃ entries', u.descend names = some (dir entries') := by
  obtain ⟨new, hnew, hshape⟩ := h names _ hdir
  obtain ⟨entries', rfl⟩ := exists_dir_of_shape_eq hshape
  exact ⟨entries', hnew⟩

/-- A tree grows when nothing changes but at one place, where the shape stays or something is
new. -/
theorem grows_of_face
    (hface : ∀ other ≠ names, (u.descend other).map face = (t.descend other).map face)
    (hplace : ∀ old, t.descend names = some old →
      ∃ new, u.descend names = some new ∧ new.shape = old.shape) : t.Grows u := by
  intro other old hold
  by_cases h : other = names
  · subst h
    exact hplace old hold
  · have heq := hface other h
    rw [hold, Option.map_some] at heq
    obtain ⟨new, hnew, hnewface⟩ := Option.map_eq_some_iff.1 heq
    exact ⟨new, hnew, shape_eq_of_face_eq hnewface⟩

end FileTree
end SchemaPage
