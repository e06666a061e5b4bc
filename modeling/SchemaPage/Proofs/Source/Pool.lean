import Mathlib.Data.List.Nodup
import SchemaPage.Proofs.Proto.Linked
import SchemaPage.Proofs.Source.Library
import SchemaPage.Source.Compile

/-!
# The pool of compiled files

Compiling adds one file after the other to a pool.  A file is added under a name that is not there
yet, after all that it imports, and what is added is met on the way from the names that were asked
for.  So in the end the pool holds exactly what these names reach, once each.

* `Compiler.Built`: the pools that compiling can make.
* `Compiler.Grows`: what is added to a pool for some names.
* `Compiler.grows_of_require`, `Compiler.grows_of_compileFile`: what the steps of compiling add.
* `Compiler.Compiles`, `Compiler.compiles_of_compile`: what is compiled for some paths.
* `Compiler.Built.apart`: no two symbols of a pool clash.
-/

namespace SchemaPage

open Proto

/-- The logical name of the file that was compiled. -/
def Compiled.name (c : Compiled) : String := c.linked.file.name

namespace Compiler

variable {library : Library}

theorem done_iff {pool : List Compiled} {name : String} :
    done pool name = true ↔ ∃ c ∈ pool, c.name = name := by
  unfold done
  rw [List.any_eq_true]
  exact exists_congr fun c => and_congr_right fun _ => beq_iff_eq

theorem done_append {pool added : List Compiled} {name : String} (h : done pool name = true) :
    done (pool ++ added) name = true := by
  obtain ⟨c, hc, hname⟩ := done_iff.1 h
  exact done_iff.2 ⟨c, List.mem_append_left _ hc, hname⟩

/-! ## Building a pool -/

/-- The file that is found under a name is compiled on top of a pool. -/
structure Adds (library : Library) (pool : List Compiled) (c : Compiled) (f : FileDescriptor) :
    Prop where
  found : library c.name = .found c.path f
  fresh : done pool c.name = false
  imports : ∀ n ∈ f.dependencies.map (·.path), done pool n = true
  links : f.LinksTo (pool.map (·.linked)) c.linked

/-- Under the name of a file there is nothing else. -/
theorem Adds.eq_of_found {library : Library} {pool : List Compiled} {c : Compiled}
    {f g : FileDescriptor} {path : Option String} (h : Adds library pool c f)
    (hfound : library c.name = .found path g) : g = f :=
  (Opening.found.inj (hfound.symm.trans h.found)).2

/-- The pools that are made by adding one file after the other. -/
inductive Built (library : Library) : List Compiled → Prop
  | nil : Built library []
  | snoc {pool : List Compiled} {c : Compiled} {f : FileDescriptor} (built : Built library pool)
      (adds : Adds library pool c f) : Built library (pool ++ [c])

/-- A step that adds a file. -/
theorem adds_of_finish (hnamed : library.Named) {pool pool' : List Compiled} {name : String}
    {path : Option String} {f : FileDescriptor} (hfound : library name = .found path f)
    (hfresh : done pool name = false)
    (himports : ∀ n ∈ f.dependencies.map (·.path), done pool n = true)
    (h : finish pool name path f = .ok pool') :
    ∃ c, c.name = name ∧ c.path = path ∧ Adds library pool c f ∧ pool' = pool ++ [c] := by
  unfold finish at h
  split at h
  · rename_i linked hlink
    have hlinks := FileDescriptor.linksTo_of_link? hlink
    obtain ⟨reached, -, hresolves⟩ := hlinks.resolves
    have hname : Compiled.name ⟨linked, path⟩ = name := hresolves.name.trans (hnamed hfound)
    refine ⟨⟨linked, path⟩, hname, rfl, ⟨?_, ?_, himports, hlinks⟩, (Except.ok.inj h).symm⟩
    · rw [hname]
      exact hfound
    · rw [hname]
      exact hfresh
  · exact absurd h nofun

/-- What is added to a pool for some names, while the names `above` are waiting. -/
structure Grows (library : Library) (above names : List String) (pool pool' : List Compiled) :
    Prop where
  built : Built library pool'
  added : ∃ added, pool' = pool ++ added ∧
    ∀ c ∈ added, c.name ∉ above ∧ ∃ n ∈ names, library.Reaches n c.name
  done : ∀ n ∈ names, done pool' n = true

namespace Grows

variable {above names names' : List String} {pool pool' pool'' : List Compiled}

theorem refl (h : Built library pool) (hdone : ∀ n ∈ names, Compiler.done pool n = true) :
    Grows library above names pool pool :=
  ⟨h, ⟨[], (List.append_nil _).symm, fun _ hc => absurd hc List.not_mem_nil⟩, hdone⟩

theorem trans (h : Grows library above names pool pool')
    (h' : Grows library above names' pool' pool'') :
    Grows library above (names ++ names') pool pool'' := by
  obtain ⟨added, rfl, hadded⟩ := h.added
  obtain ⟨added', rfl, hadded'⟩ := h'.added
  refine ⟨h'.built, ⟨added ++ added', List.append_assoc _ _ _, fun c hc => ?_⟩, fun n hn => ?_⟩
  · rcases List.mem_append.1 hc with hc | hc
    · obtain ⟨habove, n, hn, hreach⟩ := hadded c hc
      exact ⟨habove, n, List.mem_append_left _ hn, hreach⟩
    · obtain ⟨habove, n, hn, hreach⟩ := hadded' c hc
      exact ⟨habove, n, List.mem_append_right _ hn, hreach⟩
  · rcases List.mem_append.1 hn with hn | hn
    · exact done_append (h.done n hn)
    · exact h'.done n hn

/-- A file is added after what it imports. -/
theorem snoc {name : String} {path : Option String} {f : FileDescriptor} {c : Compiled}
    (hfound : library name = .found path f) (habove : name ∉ above)
    (h : Grows library (name :: above) (f.dependencies.map (·.path)) pool pool')
    (hname : c.name = name) (hadds : Adds library pool' c f) :
    Grows library above [name] pool (pool' ++ [c]) := by
  obtain ⟨added, rfl, hadded⟩ := h.added
  refine ⟨.snoc h.built hadds, ⟨added ++ [c], List.append_assoc _ _ _, fun d hd => ?_⟩,
    fun n hn => ?_⟩
  · rcases List.mem_append.1 hd with hd | hd
    · obtain ⟨hnot, n, hn, hreach⟩ := hadded d hd
      exact ⟨fun hmem => hnot (List.mem_cons_of_mem _ hmem), name, List.mem_cons_self,
        Library.Imports.reaches ⟨path, f, hfound, hn⟩ hreach⟩
    · obtain rfl := List.mem_singleton.1 hd
      rw [hname]
      exact ⟨habove, name, List.mem_cons_self, .refl name⟩
  · obtain rfl := List.mem_singleton.1 hn
    exact done_iff.2 ⟨c, List.mem_append_right _ List.mem_cons_self, hname⟩

end Grows

/-- The names in `above` keep the name that is being linked from being added before it. -/
theorem not_done_of_grows {name : String} {above names : List String} {pool pool' : List Compiled}
    (h : Grows library (name :: above) names pool pool') (hdone : done pool name = false) :
    done pool' name = false := by
  obtain ⟨added, rfl, hadded⟩ := h.added
  rw [Bool.eq_false_iff, ne_eq, done_iff]
  rintro ⟨c, hc, rfl⟩
  rcases List.mem_append.1 hc with hc | hc
  · exact absurd (done_iff.2 ⟨c, hc, rfl⟩) (by rw [hdone]; exact Bool.false_ne_true)
  · exact (hadded c hc).1 List.mem_cons_self

/-- The same step for each name of a list adds what the names add. -/
theorem grows_foldlM {step : List Compiled → String → Except CompileError (List Compiled)}
    {above : List String}
    (hstep : ∀ pool pool' name, Built library pool → step pool name = .ok pool' →
      Grows library above [name] pool pool') {names : List String} :
    ∀ {pool pool' : List Compiled}, Built library pool → names.foldlM step pool = .ok pool' →
      Grows library above names pool pool' := by
  induction names with
  | nil =>
    intro pool pool' hbuilt h
    obtain rfl : pool = pool' := Except.ok.inj h
    exact .refl hbuilt fun n hn => absurd hn List.not_mem_nil
  | cons name names ih =>
    intro pool pool' hbuilt h
    rw [List.foldlM_cons] at h
    obtain ⟨mid, hmid, h⟩ := Outcome.bind_eq_ok_iff.1 h
    have hname := hstep pool mid name hbuilt hmid
    exact hname.trans (ih hname.built h)

/-- What is required is built on top of the pool. -/
theorem grows_of_require (hnamed : library.Named) {fuel : Nat} :
    ∀ {above names : List String} {pool pool' : List Compiled}, Built library pool →
      require library fuel above pool names = .ok pool' →
        Grows library above names pool pool' := by
  induction fuel with
  | zero =>
    intro above names pool pool' hbuilt h
    cases names with
    | nil =>
      obtain rfl : pool = pool' := Except.ok.inj h
      exact .refl hbuilt fun n hn => absurd hn List.not_mem_nil
    | cons name names => exact absurd h nofun
  | succ fuel ih =>
    intro above names pool pool' hbuilt h
    refine grows_foldlM (fun pool pool' name hbuilt h => ?_) hbuilt h
    split at h
    · exact absurd h nofun
    · rename_i habove
      have habove : name ∉ above := fun hmem => habove (List.contains_iff_mem.2 hmem)
      split at h
      · rename_i hdone
        obtain rfl : pool = pool' := Except.ok.inj h
        refine .refl hbuilt fun n hn => ?_
        obtain rfl := List.mem_singleton.1 hn
        exact hdone
      · rename_i hdone
        split at h
        · exact absurd h nofun
        · exact absurd h nofun
        · rename_i path f hfound
          -- first its imports with one more file above them, then the file itself
          obtain ⟨mid, hmid, hfinish⟩ := Outcome.bind_eq_ok_iff.1 h
          have hgrows := ih hbuilt hmid
          obtain ⟨c, hname, -, hadds, rfl⟩ := adds_of_finish hnamed hfound
            (not_done_of_grows hgrows (Bool.eq_false_iff.2 hdone)) hgrows.done hfinish
          exact .snoc hfound habove hgrows hname hadds

/-- The file at a path is built on top of the pool, with all that it imports, and the pool has it
from that very path. -/
theorem grows_of_compileFile (hnamed : library.Named) {roots : List OwnedRoot} {fuel : Nat}
    {pool pool' : List Compiled} {path : String} (hbuilt : Built library pool)
    (h : compileFile library roots fuel pool path = .ok pool') :
    ∃ name, roots.findSome? (·.logicalName path) = some name ∧
      Grows library [] [name] pool pool' ∧
      ∃ c ∈ pool', c.name = name ∧ isPath path c.path = true := by
  unfold compileFile at h
  split at h
  · exact absurd h nofun
  · rename_i name hname
    refine ⟨name, hname, ?_⟩
    split at h
    · rename_i c hfind
      -- some import has brought in a file of this name, which must be from the same path
      have hc : c.linked.file.name = name := by simpa using List.find?_some hfind
      have hmem := List.mem_of_find?_eq_some hfind
      split at h
      · rename_i hpath
        obtain rfl : pool = pool' := Except.ok.inj h
        refine ⟨.refl hbuilt fun n hn => ?_, c, hmem, hc, hpath⟩
        obtain rfl := List.mem_singleton.1 hn
        exact done_iff.2 ⟨c, hmem, hc⟩
      · exact absurd h nofun
    · rename_i hfind
      have hdone : done pool name = false := by
        rw [Bool.eq_false_iff, ne_eq, done_iff]
        rintro ⟨c, hc, hcname⟩
        exact List.find?_eq_none.1 hfind c hc (beq_iff_eq.2 hcname)
      split at h
      · exact absurd h nofun
      · exact absurd h nofun
      · rename_i opened f hfound
        split at h
        · rename_i hpath
          obtain ⟨mid, hmid, hfinish⟩ := Outcome.bind_eq_ok_iff.1 h
          have hgrows := grows_of_require hnamed hbuilt hmid
          obtain ⟨c, hname, hopened, hadds, rfl⟩ := adds_of_finish hnamed hfound
            (not_done_of_grows hgrows hdone) hgrows.done hfinish
          refine ⟨.snoc hfound List.not_mem_nil hgrows hname hadds, c,
            List.mem_append_right _ List.mem_cons_self, hname, ?_⟩
          rw [hopened]
          exact hpath
        · exact absurd h nofun

/-! ## What is compiled -/

/-- The pool that is compiled for some paths below roots. -/
structure Compiles (library : Library) (roots : List OwnedRoot) (paths : List String)
    (pool : List Compiled) : Prop where
  built : Built library pool
  opened : ∀ path ∈ paths, ∃ name, roots.findSome? (·.logicalName path) = some name ∧
    ∃ c ∈ pool, c.name = name ∧ isPath path c.path = true
  reached : ∀ c ∈ pool, ∃ path ∈ paths, ∃ name,
    roots.findSome? (·.logicalName path) = some name ∧ library.Reaches name c.name

section Compiles

variable (hnamed : library.Named) {roots : List OwnedRoot} {before : List String}
  {start pool : List Compiled}

include hnamed

/-- With one path more it is compiled for this one too. -/
theorem Compiles.of_compileFile {fuel : Nat} {path : String}
    (hstart : Compiles library roots before start)
    (h : compileFile library roots fuel start path = .ok pool) :
    Compiles library roots (before ++ [path]) pool := by
  obtain ⟨name, hname, hgrows, hopened⟩ := grows_of_compileFile hnamed hstart.built h
  obtain ⟨added, rfl, hadded⟩ := hgrows.added
  refine ⟨hgrows.built, fun p hp => ?_, fun c hc => ?_⟩
  · rcases List.mem_append.1 hp with hp | hp
    · obtain ⟨n, hn, c, hc, hcpath⟩ := hstart.opened p hp
      exact ⟨n, hn, c, List.mem_append_left _ hc, hcpath⟩
    · obtain rfl := List.mem_singleton.1 hp
      exact ⟨name, hname, hopened⟩
  · rcases List.mem_append.1 hc with hc | hc
    · obtain ⟨p, hp, n, hn, hreach⟩ := hstart.reached c hc
      exact ⟨p, List.mem_append_left _ hp, n, hn, hreach⟩
    · obtain ⟨-, n, hn, hreach⟩ := hadded c hc
      obtain rfl := List.mem_singleton.1 hn
      exact ⟨path, List.mem_append_right _ List.mem_cons_self, n, hname, hreach⟩

/-- The paths that are done so far are compiled, from the first path to the last. -/
theorem Compiles.of_foldlM {fuel : Nat} {rest : List String}
    (hstart : Compiles library roots before start)
    (h : rest.foldlM (compileFile library roots fuel) start = .ok pool) :
    Compiles library roots (before ++ rest) pool := by
  induction rest generalizing before start with
  | nil =>
    obtain rfl : start = pool := Except.ok.inj h
    rwa [List.append_nil]
  | cons path rest ih =>
    rw [List.foldlM_cons] at h
    obtain ⟨mid, hmid, h⟩ := Outcome.bind_eq_ok_iff.1 h
    rw [← List.singleton_append, ← List.append_assoc]
    exact ih (hstart.of_compileFile hnamed hmid) h

theorem compiles_of_compile {imports paths : List String} {files : List FileDescriptor}
    (h : compile library roots imports paths = .ok files) :
    ∃ pool, Compiles library roots paths pool ∧ files = pool.map (·.linked.file) := by
  obtain ⟨pool, hpool, rfl⟩ := Outcome.map_eq_ok_iff.1 h
  have hnone : Compiles library roots [] [] :=
    ⟨.nil, fun path hpath => absurd hpath List.not_mem_nil, fun c hc => absurd hc List.not_mem_nil⟩
  exact ⟨pool, hnone.of_foldlM hnamed hpool, rfl⟩

end Compiles

/-! ## What a pool holds -/

namespace Built

variable {pool : List Compiled}

/-- A file of a pool was added to the files before it. -/
theorem adds_of_mem (h : Built library pool) {c : Compiled} (hc : c ∈ pool) :
    ∃ before f, before <+: pool ∧ Adds library before c f := by
  induction h with
  | nil => exact absurd hc List.not_mem_nil
  | @snoc pool d f _ hadds ih =>
    rcases List.mem_append.1 hc with hc | hc
    · obtain ⟨before, f, hbefore, hadds⟩ := ih hc
      exact ⟨before, f, hbefore.trans (List.prefix_append _ _), hadds⟩
    · obtain rfl := List.mem_singleton.1 hc
      exact ⟨pool, f, List.prefix_append _ _, hadds⟩

/-- A pool has one file for each name. -/
theorem nodup_names (h : Built library pool) : (pool.map Compiled.name).Nodup := by
  induction h with
  | nil => exact List.nodup_nil
  | @snoc pool c f _ hadds ih =>
    rw [List.map_append, List.nodup_append]
    refine ⟨ih, List.nodup_singleton _, fun a ha b hb hab => ?_⟩
    obtain ⟨d, hd, rfl⟩ := List.mem_map.1 ha
    obtain rfl := List.mem_singleton.1 hb
    have hdone := done_iff.2 ⟨d, hd, hab⟩
    rw [hadds.fresh] at hdone
    exact Bool.false_ne_true hdone

theorem eq_of_name_eq (h : Built library pool) {c d : Compiled} (hc : c ∈ pool) (hd : d ∈ pool)
    (hname : c.name = d.name) : c = d :=
  List.inj_on_of_nodup_map h.nodup_names hc hd hname

/-- A pool has with a file all that it imports. -/
theorem done_of_reaches (h : Built library pool) {a b : String} (ha : done pool a = true)
    (hreach : library.Reaches a b) : done pool b = true := by
  refine hreach.closed (P := fun n => done pool n = true) (fun a b ha himports => ?_) ha
  obtain ⟨path, f, hfound, hb⟩ := himports
  obtain ⟨c, hc, rfl⟩ := done_iff.1 ha
  obtain ⟨before, g, ⟨after, rfl⟩, hadds⟩ := h.adds_of_mem hc
  obtain rfl := hadds.eq_of_found hfound
  exact done_append (hadds.imports b hb)

/-- No two symbols of a pool clash. -/
theorem apart (h : Built library pool) : Symbol.Apart (pool.flatMap (·.linked.symbols)) := by
  induction h with
  | nil => exact List.Pairwise.nil
  | @snoc pool c f _ hadds ih =>
    obtain ⟨reached, -, hresolves⟩ := hadds.links.resolves
    have halike : List.Forall₂ Symbol.Alike f.symbols c.linked.symbols := by
      rw [hadds.links.symbols]
      exact FileDescriptor.alike_of_resolves hresolves
    rw [List.flatMap_append, List.flatMap_singleton]
    refine List.pairwise_append.2 ⟨ih, hadds.links.apart.of_alike halike, fun t ht s' hs' => ?_⟩
    obtain ⟨s, hs, hss'⟩ := Outcome.exists_left_of_forall₂ halike hs'
    rw [Symbol.clashes_comm, ← hss'.clashes (Symbol.Alike.refl t)]
    refine hadds.links.fresh s hs t ?_
    rw [List.flatMap_map]
    exact ht

end Built

end Compiler

end SchemaPage
