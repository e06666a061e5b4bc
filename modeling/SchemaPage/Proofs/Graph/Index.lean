import Mathlib.Data.List.Nodup
import SchemaPage.Graph
import SchemaPage.Proofs.Order.Latest
import SchemaPage.Proofs.Outcome
import SchemaPage.Proofs.Text.Bytes

/-!
# The index of declarations

The index of a graph does not have the declarations themselves but their places: three numbers, of
which two count inside one file.  So it is not enough that every name has an entry.  A place could
be outside its file, or inside it and off by one, and then a search would find nothing or a wrong
declaration without a word.  What excludes this is that the places are taken from the very lists in
which they are looked up.

Of several declarations with one full name the index keeps the place that is entered last, and the
places are entered in ascending order: this makes "the last one" a matter of places and not of the
way in which the index is filled.

* `Locator.Before`: the order of places.
* `Graph.mem_places_iff`, `Graph.before_places`: the places that are entered, and in which order.
* `Graph.at?_of_mem_index`: every place in the index is taken.
* `Graph.lookup_eq_find?`: what a search by full name finds.
* `Graph.lookup_iff_last`: all of it together.
-/

namespace SchemaPage

/-! ## The order of places -/

/-- One kind comes before another in a file: services, enums, messages. -/
def Kind.Before (k k' : Kind) : Prop := Kind.all.idxOf k < Kind.all.idxOf k'

/-- One place comes before another: it is in an earlier file, or in the same file of an earlier
kind, or earlier among those of its kind. -/
def Locator.Before (l l' : Locator) : Prop :=
  l.file < l'.file ∨ l.file = l'.file ∧
    (l.kind.Before l'.kind ∨ l.kind = l'.kind ∧ l.item < l'.item)

theorem Locator.Before.asymm {l l' : Locator} (h : l.Before l') : ¬ l'.Before l := by
  unfold Before Kind.Before at h ⊢
  rcases h with h | ⟨hfile, h | ⟨hkind, h⟩⟩
  · omega
  · rintro (h' | ⟨-, h' | ⟨hkind', -⟩⟩)
    · omega
    · omega
    · rw [hkind'] at h
      omega
  · rw [hkind]
    omega

theorem Kind.before_all : Kind.all.Pairwise Kind.Before := by
  unfold Kind.Before
  decide

namespace Graph

variable {files : List SchemaFile} {d : Declaration} {l : Locator}

/-! ## Places -/

theorem mem_placesIn_iff {f : SchemaFile} {file : Nat} :
    (d, l) ∈ placesIn f file ↔ l.file = file ∧ (f.declarations l.kind)[l.item]? = some d := by
  unfold placesIn
  simp only [List.mem_flatMap, List.mem_map, Prod.exists, List.mk_mem_zipIdx_iff_getElem?,
    Prod.mk.injEq]
  constructor
  · rintro ⟨kind, -, e, item, hitem, rfl, rfl⟩
    exact ⟨rfl, hitem⟩
  · rintro ⟨rfl, hitem⟩
    exact ⟨l.kind, by cases l.kind <;> decide, d, l.item, hitem, rfl, rfl⟩

/-- What is entered is what stands at a place. -/
theorem mem_places_iff :
    (d, l) ∈ places files ↔
      (files[l.file]?.bind fun f => (f.declarations l.kind)[l.item]?) = some d := by
  unfold places
  rw [List.mem_flatMap, Option.bind_eq_some_iff]
  constructor
  · rintro ⟨⟨f, file⟩, hf, hplace⟩
    obtain ⟨rfl, hitem⟩ := mem_placesIn_iff.1 hplace
    exact ⟨f, List.mk_mem_zipIdx_iff_getElem?.1 hf, hitem⟩
  · rintro ⟨f, hf, hitem⟩
    exact ⟨(f, l.file), List.mk_mem_zipIdx_iff_getElem?.2 hf, mem_placesIn_iff.2 ⟨rfl, hitem⟩⟩

/-- In each file the places are entered in ascending order. -/
theorem before_placesIn (f : SchemaFile) (file : Nat) :
    (placesIn f file).Pairwise fun x y => x.2.Before y.2 := by
  unfold placesIn
  refine List.pairwise_flatMap.2 ⟨fun kind _ => ?_, Kind.before_all.imp fun {k k'} hk => ?_⟩
  · exact List.pairwise_map.2
      ((Outcome.pairwise_snd_zipIdx _).imp fun h => Or.inr ⟨rfl, Or.inr ⟨rfl, h⟩⟩)
  · intro x hx y hy
    obtain ⟨-, -, rfl⟩ := List.mem_map.1 hx
    obtain ⟨-, -, rfl⟩ := List.mem_map.1 hy
    exact Or.inr ⟨rfl, Or.inl hk⟩

/-- The places are entered in ascending order. -/
theorem before_places (files : List SchemaFile) :
    (places files).Pairwise fun x y => x.2.Before y.2 := by
  unfold places
  refine List.pairwise_flatMap.2 ⟨fun x _ => before_placesIn x.1 x.2,
    (Outcome.pairwise_snd_zipIdx files).imp fun {x y} hlt => ?_⟩
  intro p hp q hq
  have hpfile := (mem_placesIn_iff.1 (show (p.1, p.2) ∈ placesIn x.1 x.2 from hp)).1
  have hqfile := (mem_placesIn_iff.1 (show (q.1, q.2) ∈ placesIn y.1 y.2 from hq)).1
  exact Or.inl (by omega)

/-- What is entered are the declarations of the files, one after the other. -/
theorem fst_places (files : List SchemaFile) :
    (places files).map Prod.fst = files.flatMap SchemaFile.allDeclarations := by
  have hfile : ∀ (f : SchemaFile) (file : Nat),
      (placesIn f file).map Prod.fst = f.allDeclarations := by
    intro f file
    unfold placesIn SchemaFile.allDeclarations
    rw [List.map_flatMap]
    refine List.flatMap_congr fun kind _ => ?_
    rw [List.map_map]
    exact List.zipIdx_map_fst 0 _
  unfold places
  rw [List.map_flatMap]
  simp only [hfile]
  rw [← List.flatMap_map Prod.fst SchemaFile.allDeclarations, List.zipIdx_map_fst]

/-! ## Searches -/

/-- Every place in the index is taken by a declaration of the kind and of the name. -/
theorem at?_of_mem_index {entry : String × Locator} (h : entry ∈ (ofFiles files).index) :
    ∃ d, (ofFiles files).at? entry.2 = some d ∧ d.kind = entry.2.kind ∧ d.fullName = entry.1 := by
  obtain ⟨⟨d, l⟩, hplace, rfl⟩ := List.mem_map.1 (Order.mem_of_mem_latest h)
  have hat := mem_places_iff.1 hplace
  obtain ⟨f, -, hitem⟩ := Option.bind_eq_some_iff.1 hat
  exact ⟨d, hat, SchemaFile.kind_of_mem_declarations (List.mem_of_getElem? hitem), rfl⟩

/-- A search by full name finds what is entered last under the name. -/
theorem lookup_eq_find? (files : List SchemaFile) (name : String) :
    (ofFiles files).lookup name =
      ((places (ofFiles files).files).reverse.find? (·.1.fullName == name)).map Prod.fst := by
  have hindex : (ofFiles files).index.find? (·.1 == name) =
      ((places (ofFiles files).files).reverse.find? (·.1.fullName == name)).map
        fun x => (x.1.fullName, x.2) := by
    unfold ofFiles indexOf
    rw [Order.find?_latest, ← List.map_reverse, List.find?_map]
    rfl
  unfold lookup
  rw [hindex]
  cases hfind : (places (ofFiles files).files).reverse.find? (·.1.fullName == name) with
  | none => rfl
  | some x =>
    exact mem_places_iff.1 (List.mem_reverse.1 (List.mem_of_find?_eq_some hfind))

/-- What is found under a name has that name. -/
theorem fullName_of_lookup {name : String} (h : (ofFiles files).lookup name = some d) :
    d.fullName = name := by
  rw [lookup_eq_find?] at h
  obtain ⟨x, hfind, rfl⟩ := Option.map_eq_some_iff.1 h
  simpa using List.find?_some hfind

/-- Something is found under a name exactly when a place with the name is taken. -/
theorem lookup_isSome_iff_at? {name : String} :
    ((ofFiles files).lookup name).isSome ↔
      ∃ l d, (ofFiles files).at? l = some d ∧ d.fullName = name := by
  rw [lookup_eq_find?, Option.isSome_map, List.find?_isSome]
  constructor
  · rintro ⟨⟨d, l⟩, hmem, hname⟩
    exact ⟨l, d, mem_places_iff.1 (List.mem_reverse.1 hmem), by simpa using hname⟩
  · rintro ⟨l, d, hat, hname⟩
    exact ⟨(d, l), List.mem_reverse.2 (mem_places_iff.2 hat), by simpa using hname⟩

/-- No place with the name comes after the place. -/
def IsLastPlace (g : Graph) (name : String) (l : Locator) : Prop :=
  ∀ l' d, g.at? l' = some d → d.fullName = name → l' = l ∨ l'.Before l

/-- What is found under a name stands at the last place with the name. -/
theorem exists_isLastPlace_of_lookup {name : String} (h : (ofFiles files).lookup name = some d) :
    ∃ l, (ofFiles files).at? l = some d ∧ (ofFiles files).IsLastPlace name l := by
  rw [lookup_eq_find?] at h
  obtain ⟨⟨d, l⟩, hfind, rfl⟩ := Option.map_eq_some_iff.1 h
  obtain ⟨-, after, before, hsplit, hafter⟩ := List.find?_eq_some_iff_append.1 hfind
  refine ⟨l, mem_places_iff.1 (List.mem_reverse.1 (List.mem_of_find?_eq_some hfind)), ?_⟩
  intro l' d' hat hname
  have hmem := List.mem_reverse.2 (mem_places_iff.2 hat)
  have horder := List.pairwise_reverse.2 (before_places (ofFiles files).files)
  rw [hsplit] at hmem horder
  rcases List.mem_append.1 hmem with hmem | hmem
  · have hne := hafter _ hmem
    simp [hname] at hne
  · rcases List.mem_cons.1 hmem with heq | hmem
    · exact Or.inl (congrArg Prod.snd heq)
    · have hlater := (List.pairwise_cons.1 (List.pairwise_append.1 horder).2.1).1
      exact Or.inr (hlater _ hmem)

/-- The index is sound and complete, and the last declaration of a name wins.  Every place in the
index is taken by a declaration of the kind and of the name that are entered there.  A search by
full name finds something exactly when a declaration of the files that are kept has the name, and
then it finds the last one: in the last file by the order of the bytes of the paths, there of the
last kind, and of this kind the one that stands last in the source. -/
theorem lookup_iff_last (files : List SchemaFile) :
    let g := ofFiles files
    (∀ entry ∈ g.index,
      ∃ d, g.at? entry.2 = some d ∧ d.kind = entry.2.kind ∧ d.fullName = entry.1) ∧
    (∀ name, (g.lookup name).isSome ↔
      ∃ f ∈ g.files, ∃ kind, ∃ d ∈ f.declarations kind, d.fullName = name) ∧
    (∀ name d, g.lookup name = some d ↔
      ∃ l, g.at? l = some d ∧ d.fullName = name ∧ g.IsLastPlace name l) ∧
    g.files.Pairwise fun f f' => Text.bytes f.path < Text.bytes f'.path := by
  refine ⟨fun _ => at?_of_mem_index, fun name => ?_, fun name d => ⟨fun h => ?_, ?_⟩,
    (Order.ascending_latest SchemaFile.path files).imp Text.compare_eq_lt_iff.1⟩
  · rw [lookup_isSome_iff_at?]
    constructor
    · rintro ⟨l, d, hat, hname⟩
      obtain ⟨f, hf, hitem⟩ := Option.bind_eq_some_iff.1 hat
      exact ⟨f, List.mem_of_getElem? hf, l.kind, d, List.mem_of_getElem? hitem, hname⟩
    · rintro ⟨f, hf, kind, d, hd, hname⟩
      obtain ⟨file, hfile⟩ := List.mem_iff_getElem?.1 hf
      obtain ⟨item, hitem⟩ := List.mem_iff_getElem?.1 hd
      exact ⟨⟨file, kind, item⟩, d, Option.bind_eq_some_iff.2 ⟨f, hfile, hitem⟩, hname⟩
  · obtain ⟨l, hat, hlast⟩ := exists_isLastPlace_of_lookup h
    exact ⟨l, hat, fullName_of_lookup h, hlast⟩
  · rintro ⟨l, hat, hname, hlast⟩
    obtain ⟨e, he⟩ := Option.isSome_iff_exists.1 (lookup_isSome_iff_at?.2 ⟨l, d, hat, hname⟩)
    -- two last places come before each other, unless they are the same
    obtain ⟨l', hat', hlast'⟩ := exists_isLastPlace_of_lookup he
    have hsame : l' = l := by
      rcases hlast l' e hat' (fullName_of_lookup he) with heq | hbefore
      · exact heq
      · rcases hlast' l d hat hname with heq | hafter
        · exact heq.symm
        · exact absurd hafter hbefore.asymm
    rw [he, ← hat', hsame, hat]

/-- One full name made of two packages, and shared by three kinds in one file. -/
example :
    let files : List SchemaFile :=
      [⟨"b.proto", "a", .owned, [⟨"b.X", [], none⟩], [⟨"b.X", [], none⟩], [⟨"b.X", [], none⟩]⟩,
        ⟨"a.proto", "a.b", .owned, [], [], [⟨"X", [], none⟩]⟩]
    (ofFiles files).index = [("a.b.X", ⟨1, .message, 0⟩)] := by
  decide +kernel

end Graph
end SchemaPage
