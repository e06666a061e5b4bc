import SchemaPage.Proofs.Source.Load
import SchemaPage.Proofs.Text.Bytes

/-!
# The order of the import closure

A search along imports notes a name as seen when the name is put in line, and not when its turn
comes.  So the names that were seen are those that are done and then those in line.  They stand in
the order of their first mention, where the given names are mentioned first and then each name
mentions its imports when it has its turn.  At the end all of them are done, and the order says of
itself how it came about.

This is breadth first: where the names up to some distance stand at the start, the names that are
one step farther away follow next.

* `mentioned`: names in the order in which they are first mentioned.
* `Library.ReachesIn`: how far a name is away.
* `IsBreadthFirst`: the order of a closure.
* `Closure.Ordered`: what every step of the search keeps of it.
* `Closure.gather_breadthFirst`: the closure is complete, and in this order.
-/

namespace SchemaPage

open Proto

/-! ## Order of mention -/

namespace Library

/-- What is imported under a name, in the order of the source. -/
def importsOf (library : Library) (name : String) : List String :=
  (library name).dependencies.map (·.path)

/-- The file under a name. -/
def file? (library : Library) (name : String) : Option FileDescriptor :=
  match library name with
  | .found _ f => some f
  | .missing | .broken _ => none

theorem mem_importsOf_iff {library : Library} {a b : String} :
    b ∈ library.importsOf a ↔ library.Imports a b := by
  rw [imports_iff]
  exact List.mem_map

/-- The name `b` is met on a way from the name `a` along at most so many imports. -/
def ReachesIn (library : Library) : Nat → String → String → Prop
  | 0, a, b => a = b
  | k + 1, a, b => a = b ∨ ∃ c, library.ReachesIn k a c ∧ library.Imports c b

end Library

namespace Closure

variable {library : Library} {imports names seen pending done order : List String} {c : Closure}

/-- Which names are unseen depends only on which have been seen. -/
theorem unseen_congr {seen seen' : List String} (h : ∀ n, n ∈ seen ↔ n ∈ seen') (ns : List String) :
    unseen seen ns = unseen seen' ns := by
  induction ns generalizing seen seen' with
  | nil => rfl
  | cons m ns ih =>
    have hcontains : seen.contains m = seen'.contains m := by
      rw [Bool.eq_iff_iff, List.contains_iff_mem, List.contains_iff_mem, h m]
    have hcons : ∀ n, n ∈ m :: seen ↔ n ∈ m :: seen' := fun n => by
      rw [List.mem_cons, List.mem_cons, h n]
    unfold unseen
    rw [hcontains, ih h, ih hcons]

/-- Names that come later are unseen when they have not been seen before, nor among the earlier
ones. -/
theorem unseen_append (seen ns ms : List String) :
    unseen seen (ns ++ ms) = unseen seen ns ++ unseen (seen ++ unseen seen ns) ms := by
  induction ns generalizing seen with
  | nil => rw [List.nil_append, unseen, List.nil_append, List.append_nil]
  | cons m ns ih =>
    have hcons : ∀ ns, unseen seen (m :: ns) =
        if seen.contains m then unseen seen ns else m :: unseen (m :: seen) ns := fun _ => rfl
    rw [List.cons_append, hcons, hcons]
    by_cases hm : seen.contains m = true
    · rw [if_pos hm, if_pos hm, ih]
    · have hsame : ∀ n, n ∈ m :: seen ++ unseen (m :: seen) ns ↔
          n ∈ seen ++ m :: unseen (m :: seen) ns := fun n => List.perm_middle.symm.mem_iff
      rw [if_neg hm, if_neg hm, ih, unseen_congr hsame, List.cons_append]

theorem unseen_of_nodup {ns : List String} (hnodup : ns.Nodup) (h : ∀ n ∈ ns, n ∉ seen) :
    unseen seen ns = ns := by
  induction ns generalizing seen with
  | nil => rfl
  | cons m ns ih =>
    obtain ⟨hm, hns⟩ := List.nodup_cons.1 hnodup
    have hrest : ∀ n ∈ ns, n ∉ m :: seen := fun n hn hmem =>
      (List.mem_cons.1 hmem).elim (fun heq => hm (heq ▸ hn)) (h n (List.mem_cons_of_mem m hn))
    unfold unseen
    rw [if_neg fun hc => h m List.mem_cons_self (List.contains_iff_mem.1 hc), ih hns hrest]

/-- The given names, and then what the names of a list import, each name where it is first
mentioned. -/
def mentioned (library : Library) (names order : List String) : List String :=
  unseen [] (names ++ order.flatMap library.importsOf)

theorem mem_mentioned_iff {n : String} :
    n ∈ mentioned library names order ↔ n ∈ names ∨ ∃ m ∈ order, library.Imports m n := by
  unfold mentioned
  simp only [mem_unseen_iff, List.mem_append, List.mem_flatMap, Library.mem_importsOf_iff,
    List.not_mem_nil, not_false_eq_true, and_true]

theorem mentioned_nil (hnames : names.Nodup) : mentioned library names [] = names := by
  unfold mentioned
  rw [List.flatMap_nil, List.append_nil, unseen_of_nodup hnames fun _ _ => List.not_mem_nil]

/-- At its turn a name adds those of its imports that have not been seen. -/
theorem mentioned_append (library : Library) (names order rest : List String) :
    mentioned library names (order ++ rest) = mentioned library names order ++
      unseen (mentioned library names order) (rest.flatMap library.importsOf) := by
  unfold mentioned
  rw [List.flatMap_append, ← List.append_assoc, unseen_append, List.nil_append]

theorem mentioned_prefix {order order' : List String} (h : order <+: order') :
    mentioned library names order <+: mentioned library names order' := by
  obtain ⟨rest, rfl⟩ := h
  rw [mentioned_append]
  exact List.prefix_append _ _

/-! ## Breadth first -/

/-- The order is the breadth-first order of all that the names reach. -/
structure IsBreadthFirst (library : Library) (names order : List String) : Prop where
  /-- Every name that is reached occurs in the order, and no other. -/
  reached : ∀ n, n ∈ order ↔ ∃ m ∈ names, library.Reaches m n
  /-- Each name occurs once, where it is first mentioned: the given names come first, and then each
  name in this order mentions its imports. -/
  mentioned : order = mentioned library names order
  /-- At any distance, the names that are not farther away come before all others. -/
  near : ∀ k, ∃ near, near <+: order ∧ ∀ n, n ∈ near ↔ ∃ m ∈ names, library.ReachesIn k m n

/-- The names up to some distance are at the start of an order that says of itself how it came
about. -/
theorem exists_near (hnames : names.Nodup) (h : order = mentioned library names order) (k : Nat) :
    ∃ near, near <+: order ∧ ∀ n, n ∈ near ↔ ∃ m ∈ names, library.ReachesIn k m n := by
  induction k with
  | zero =>
    have hstart : mentioned library names [] <+: mentioned library names order :=
      mentioned_prefix List.nil_prefix
    rw [mentioned_nil hnames, ← h] at hstart
    exact ⟨names, hstart, fun n => ⟨fun hn => ⟨n, hn, rfl⟩, fun ⟨m, hm, heq⟩ => heq ▸ hm⟩⟩
  | succ k ih =>
    obtain ⟨near, hprefix, hnear⟩ := ih
    refine ⟨mentioned library names near, h ▸ mentioned_prefix hprefix, fun n => ?_⟩
    rw [mem_mentioned_iff]
    constructor
    · rintro (hn | ⟨a, ha, himport⟩)
      · exact ⟨n, hn, Or.inl rfl⟩
      · obtain ⟨m, hm, hreach⟩ := (hnear a).1 ha
        exact ⟨m, hm, Or.inr ⟨a, hreach, himport⟩⟩
    · rintro ⟨m, hm, rfl | ⟨a, hreach, himport⟩⟩
      · exact Or.inl hm
      · exact Or.inr ⟨a, (hnear a).2 ⟨m, hm, hreach⟩, himport⟩

/-! ## Steps -/

/-- The names that are done and then those in line are what was seen, in the order of first mention;
and the files that were found are those of the names that are done. -/
structure Ordered (library : Library) (names done seen pending : List String) (c : Closure) :
    Prop where
  seen_eq : seen = done ++ pending
  mentioned : seen = mentioned library names done
  files : c.files = done.filterMap library.file?

namespace Ordered

theorem start (hnames : names.Nodup) : Ordered library names [] names names empty :=
  ⟨rfl, (mentioned_nil hnames).symm, rfl⟩

/-- A name that is found nowhere is done and mentions nothing. -/
theorem missing {name : String} (h : Ordered library names done seen (name :: pending) c)
    (hname : library name = .missing) :
    Ordered library names (done ++ [name]) seen pending
      { c with missing := c.missing ++ [name] } where
  seen_eq := by rw [h.seen_eq, List.append_assoc, List.singleton_append]
  mentioned := by
    have hnone : library.importsOf name = [] := by
      unfold Library.importsOf
      rw [hname]
      rfl
    rw [mentioned_append, ← h.mentioned, List.flatMap_singleton, hnone, unseen, List.append_nil]
  files := by
    have hnone : library.file? name = none := by
      unfold Library.file?
      rw [hname]
    rw [List.filterMap_append, List.filterMap_cons_none hnone, List.filterMap_nil, List.append_nil]
    exact h.files

/-- A file that is found is done, and what it mentions for the first time comes last in line. -/
theorem add {name : String} {path : Option String} {f : FileDescriptor}
    (h : Ordered library names done seen (name :: pending) c)
    (hname : library name = .found path f) :
    let new := unseen seen (f.dependencies.map (·.path))
    Ordered library names (done ++ [name]) (seen ++ new) (pending ++ new)
      { c with files := c.files ++ [f] } where
  seen_eq := by
    rw [h.seen_eq, List.append_assoc, List.append_assoc, List.cons_append, List.singleton_append]
  mentioned := by
    have himports : library.importsOf name = f.dependencies.map (·.path) := by
      unfold Library.importsOf
      rw [hname]
      rfl
    rw [mentioned_append, ← h.mentioned, List.flatMap_singleton, himports]
  files := by
    have hfile : library.file? name = some f := by
      unfold Library.file?
      rw [hname]
    rw [List.filterMap_append, List.filterMap_cons_some hfile, List.filterMap_nil, ← h.files]

end Ordered

/-! ## The whole closure -/

/-- A search ends well in breadth-first order, or at something broken; both are about all that the
names reach. -/
theorem gather_ends (hnamed : library.Named)
    (himports : ∀ name path f, library name = .found path f →
      f.dependencies.map (·.path) ⊆ imports) (hnames : names.Nodup) :
    (∃ c order, gather library imports names = .ok c ∧ Searching library names order [] c ∧
      Ordered library names order order [] c) ∨
    ∃ b, gather library imports names = .error b ∧ library b.name = .broken b.fault ∧
      ∃ n ∈ names, library.Reaches n b.name := by
  have hsteps : StepsKeep library fun seen pending c =>
      Searching library names seen pending c ∧ ∃ done, Ordered library names done seen pending c :=
    ⟨fun ⟨h, _, hdone⟩ hname => ⟨h.missing hname, _, hdone.missing hname⟩,
      fun ⟨h, _, hdone⟩ hname => ⟨h.add hnamed hname, _, hdone.add hname⟩⟩
  rcases gather_keeps himports hsteps ⟨Searching.start hnames, [], Ordered.start hnames⟩ with
    ⟨c, seen, hc, hend, done, hdone⟩ | ⟨b, seen, pending, hb, hbroken, hstop, -⟩
  · have hseen : seen = done := hdone.seen_eq.trans (List.append_nil done)
    exact Or.inl ⟨c, seen, hc, hend, by rwa [← hseen] at hdone⟩
  · exact Or.inr ⟨b, hb, hbroken, hstop.reached _ (hstop.pending_subset List.mem_cons_self)⟩

/-- Once nothing is left to be looked for, the names that were seen are in breadth-first order. -/
theorem Searching.isBreadthFirst (hnames : names.Nodup) (h : Searching library names order [] c)
    (hordered : Ordered library names order order [] c) : IsBreadthFirst library names order where
  reached := fun n => ⟨h.reached n, fun ⟨_, hm, hreach⟩ => h.mem_seen hm hreach⟩
  mentioned := hordered.mentioned
  near := exists_near hnames hordered.mentioned

/-- The import closure of owned files.  The search always ends, whatever circles the imports make.
It fails exactly when the owned names reach something that is found but is broken.  Otherwise it
ends with one file for each name that is reached and found: breadth first, from the owned names in
ascending order.  A library has finitely many files, so all that they import is in one list, and a
file has the name under which it is found. -/
theorem gather_breadthFirst (hnamed : library.Named)
    (himports : ∀ name path f, library name = .found path f →
      f.dependencies.map (·.path) ⊆ imports) (owned : List OwnedFile) :
    let names := ownedNames owned
    names.Pairwise (fun m n => Text.bytes m < Text.bytes n) ∧
    (∀ n, n ∈ names ↔ ∃ f ∈ owned, f.name = n) ∧
    (∀ r, Runs library names names empty r ↔ gather library imports names = r) ∧
    ((∃ b, gather library imports names = .error b) ↔
      ∃ n ∈ names, ∃ m, library.Reaches n m ∧ ∃ fault, library m = .broken fault) ∧
    ∀ c, gather library imports names = .ok c →
      (c.files.map (·.name)).Nodup ∧
      (∀ f, f ∈ c.files ↔
        ∃ n ∈ names, ∃ m path, library.Reaches n m ∧ library m = .found path f) ∧
      ∃ order, IsBreadthFirst library names order ∧ c.files = order.filterMap library.file? := by
  intro names
  have hnames : names.Nodup := nodup_ownedNames owned
  refine ⟨(Order.ascending_latest id _).imp Text.compare_eq_lt_iff.1, fun _ => mem_ownedNames_iff,
    fun _ => runs_iff_gather himports, ?_, fun c hc => ?_⟩
  · -- a search that ends well has met all that is reached, so nothing of it is broken
    rcases gather_ends hnamed himports hnames with
      ⟨c, order, hc, hend, -⟩ | ⟨b, hb, hbroken, n, hn, hreach⟩
    · constructor
      · rintro ⟨b, hb⟩
        exact absurd (hc.symm.trans hb) nofun
      · rintro ⟨n, hn, m, hreach, fault, hbroken⟩
        rcases hend.met m (hend.mem_seen hn hreach) List.not_mem_nil with
          hmissing | ⟨path, f, hfound, -⟩
        · exact absurd (hbroken.symm.trans hmissing) nofun
        · exact absurd (hbroken.symm.trans hfound) nofun
    · exact ⟨fun _ => ⟨n, hn, b.name, hreach, b.fault, hbroken⟩, fun _ => ⟨b, hb⟩⟩
  · rcases gather_ends hnamed himports hnames with ⟨c', order, hc', hend, hordered⟩ | ⟨b, hb, -⟩
    · obtain rfl := Except.ok.inj (hc.symm.trans hc')
      have hgathers := hend.gathers
      refine ⟨hgathers.distinct, fun f => ⟨fun hf => ?_, ?_⟩, order,
        hend.isBreadthFirst hnames hordered, hordered.files⟩
      · obtain ⟨path, hfound⟩ := hgathers.found f hf
        obtain ⟨n, hn, hreach⟩ := hgathers.reached f hf
        exact ⟨n, hn, f.name, path, hreach, hfound⟩
      · rintro ⟨n, hn, m, path, hreach, hfound⟩
        exact hgathers.closed n hn m hreach path f hfound
    · exact absurd (hc.symm.trans hb) nofun

/-- A library with a circle of imports, a file that imports itself, one import written twice and one
that is found nowhere. -/
def circular : Library := fun name =>
  if name = "a" then
    .found none { name := "a", dependencies := [⟨"c", false⟩, ⟨"a", false⟩, ⟨"c", false⟩] }
  else if name = "b" then
    .found none { name := "b", dependencies := [⟨"gone", false⟩, ⟨"a", false⟩] }
  else if name = "c" then .found none { name := "c", dependencies := [⟨"b", false⟩, ⟨"d", false⟩] }
  else if name = "d" then .found none { name := "d" }
  else .missing

theorem named_circular : circular.Named := by
  intro name path f h
  unfold circular at h
  split_ifs at h with ha hb hc hd
  all_goals obtain ⟨-, rfl⟩ := Opening.found.inj h
  · exact ha.symm
  · exact hb.symm
  · exact hc.symm
  · exact hd.symm

theorem imports_circular : ∀ name path f, circular name = .found path f →
    f.dependencies.map (·.path) ⊆ ["a", "b", "c", "d", "gone"] := by
  intro name path f h
  unfold circular at h
  split_ifs at h
  all_goals
    obtain ⟨-, rfl⟩ := Opening.found.inj h
    decide

/-- The closure of two files in the circle: the import that is written twice is followed once, the
missing one is noted, and what is farther off comes last. -/
theorem gather_circular :
    let owned : List OwnedFile := [⟨"b", "b"⟩, ⟨"a", "a"⟩]
    let imports := ["a", "b", "c", "d", "gone"]
    circular.Named ∧
    (∀ name path f, circular name = .found path f → f.dependencies.map (·.path) ⊆ imports) ∧
    ∃ c, gather circular imports (ownedNames owned) = .ok c ∧
      c.files.map (·.name) = ["a", "b", "c", "d"] ∧ c.missing = ["gone"] ∧
      ∃ order, IsBreadthFirst circular (ownedNames owned) order ∧
        c.files = order.filterMap circular.file? := by
  intro owned imports
  have hfound : (gather circular imports (ownedNames owned)).toOption.any
      (fun c => c.files.map (·.name) == ["a", "b", "c", "d"] && c.missing == ["gone"]) = true := by
    decide +kernel
  obtain ⟨c, hc, hends⟩ := Outcome.exists_ok_of_any hfound
  rw [Bool.and_eq_true, beq_iff_eq, beq_iff_eq] at hends
  obtain ⟨-, -, -, -, hclosure⟩ := gather_breadthFirst named_circular imports_circular owned
  obtain ⟨-, -, hbreadth⟩ := hclosure c hc
  exact ⟨named_circular, imports_circular, c, hc, hends.1, hends.2, hbreadth⟩

end Closure
end SchemaPage
