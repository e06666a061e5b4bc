import Mathlib.Data.List.Nodup
import Mathlib.Data.List.Perm.Subperm
import SchemaPage.Proofs.Source.Library
import SchemaPage.Source.Closure

/-!
# What is gathered

A search along imports meets every name that some names reach, once each.  The fuel is enough: with
every step one name is done, and there are no more names than those that were given and those that
some file imports.

* `Closure.Searching`: what holds in every step of the search.
* `Closure.unmet`: how many names the search can still meet.
* `Closure.Runs`, `Closure.runs_iff_gather`: the search without fuel.
* `Closure.StepsKeep`, `Closure.gather_keeps`: what every step keeps holds at the end.
* `Closure.Gathers`: what is gathered from some names.
* `Closure.gathers_of_gather`, `Closure.gather_isOk`: what the search ends with, and when.
-/

namespace SchemaPage

open Proto

namespace Closure

variable {library : Library} {imports names seen pending : List String} {c : Closure}

/-! ## Unseen names -/

theorem mem_unseen_iff {ns : List String} {n : String} :
    n ∈ unseen seen ns ↔ n ∈ ns ∧ n ∉ seen := by
  induction ns generalizing seen with
  | nil => exact ⟨fun h => absurd h List.not_mem_nil, fun h => absurd h.1 List.not_mem_nil⟩
  | cons m ns ih =>
    unfold unseen
    by_cases hm : m ∈ seen
    · rw [if_pos (List.contains_iff_mem.2 hm), ih]
      refine ⟨fun h => ⟨List.mem_cons_of_mem m h.1, h.2⟩, fun h => ⟨?_, h.2⟩⟩
      rcases List.mem_cons.1 h.1 with rfl | hn
      · exact absurd hm h.2
      · exact hn
    · rw [if_neg fun h => hm (List.contains_iff_mem.1 h), List.mem_cons, List.mem_cons, ih,
        List.mem_cons]
      by_cases hn : n = m
      · rw [hn]
        exact ⟨fun _ => ⟨Or.inl rfl, hm⟩, fun _ => Or.inl rfl⟩
      · simp only [hn, false_or]

theorem nodup_unseen (seen ns : List String) : (unseen seen ns).Nodup := by
  induction ns generalizing seen with
  | nil => exact List.nodup_nil
  | cons m ns ih =>
    unfold unseen
    split
    · exact ih seen
    · refine List.nodup_cons.2 ⟨fun h => ?_, ih _⟩
      exact (mem_unseen_iff.1 h).2 List.mem_cons_self

theorem nodup_append_unseen {l : List String} (hl : l.Nodup) (hseen : l ⊆ seen) (ns : List String) :
    (l ++ unseen seen ns).Nodup :=
  List.nodup_append.2 ⟨hl, nodup_unseen seen ns, fun _ ha _ hb hab =>
    (mem_unseen_iff.1 hb).2 (hab ▸ hseen ha)⟩

/-- With the names that were not seen, all of them are. -/
theorem subset_append_unseen (seen ns : List String) : ns ⊆ seen ++ unseen seen ns := fun n hn => by
  by_cases hs : n ∈ seen
  · exact List.mem_append_left _ hs
  · exact List.mem_append_right _ (mem_unseen_iff.2 ⟨hn, hs⟩)

/-! ## One step -/

/-- What holds in every step of a search from some names. -/
structure Searching (library : Library) (names seen pending : List String) (c : Closure) :
    Prop where
  nodup : seen.Nodup
  nodup_pending : pending.Nodup
  pending_subset : pending ⊆ seen
  names_subset : names ⊆ seen
  reached : ∀ n ∈ seen, ∃ m ∈ names, library.Reaches m n
  met : ∀ n ∈ seen, n ∉ pending → library n = .missing ∨
    ∃ path f, library n = .found path f ∧ f ∈ c.files ∧ f.dependencies.map (·.path) ⊆ seen
  found : ∀ f ∈ c.files, f.name ∈ seen ∧ f.name ∉ pending ∧ ∃ path, library f.name = .found path f
  distinct : (c.files.map (·.name)).Nodup

namespace Searching

theorem start (hnames : names.Nodup) : Searching library names names names empty where
  nodup := hnames
  nodup_pending := hnames
  pending_subset := List.Subset.refl names
  names_subset := List.Subset.refl names
  reached := fun n hn => ⟨n, hn, .refl n⟩
  met := fun _ hn hpending => absurd hn hpending
  found := nofun
  distinct := List.nodup_nil

/-- A name that is found nowhere is done. -/
theorem missing {name : String} (h : Searching library names seen (name :: pending) c)
    (hname : library name = .missing) :
    Searching library names seen pending { c with missing := c.missing ++ [name] } where
  nodup := h.nodup
  nodup_pending := (List.nodup_cons.1 h.nodup_pending).2
  pending_subset := fun n hn => h.pending_subset (List.mem_cons_of_mem name hn)
  names_subset := h.names_subset
  reached := h.reached
  met := fun n hn hpending => by
    by_cases heq : n = name
    · exact Or.inl (heq ▸ hname)
    · exact h.met n hn fun hmem => hpending ((List.mem_cons.1 hmem).resolve_left heq)
  found := fun f hf =>
    have hfound := h.found f hf
    ⟨hfound.1, fun hmem => hfound.2.1 (List.mem_cons_of_mem name hmem), hfound.2.2⟩
  distinct := h.distinct

/-- A file that is found is done, and what it imports is to be looked for. -/
theorem add (hnamed : library.Named) {name : String} {path : Option String} {f : FileDescriptor}
    (h : Searching library names seen (name :: pending) c) (hname : library name = .found path f) :
    let new := unseen seen (f.dependencies.map (·.path))
    Searching library names (seen ++ new) (pending ++ new) { c with files := c.files ++ [f] } := by
  intro new
  have hnew : ∀ n ∈ new, n ∈ f.dependencies.map (·.path) ∧ n ∉ seen := fun n hn =>
    mem_unseen_iff.1 hn
  have hfname : f.name = name := hnamed hname
  have hseen : name ∈ seen := h.pending_subset List.mem_cons_self
  obtain ⟨hnot, hpending⟩ := List.nodup_cons.1 h.nodup_pending
  have hpendsub : pending ⊆ seen := fun n hn => h.pending_subset (List.mem_cons_of_mem name hn)
  have hdone : name ∉ pending ++ new := fun hmem =>
    (List.mem_append.1 hmem).elim hnot fun hn => (hnew name hn).2 hseen
  exact
    { nodup := nodup_append_unseen h.nodup (List.Subset.refl seen) _
      nodup_pending := nodup_append_unseen hpending hpendsub _
      pending_subset := List.append_subset.2 ⟨List.subset_append_of_subset_left new hpendsub,
        List.subset_append_right seen new⟩
      names_subset := fun n hn => List.mem_append_left _ (h.names_subset hn)
      reached := fun n hn => by
        rcases List.mem_append.1 hn with hn | hn
        · exact h.reached n hn
        · obtain ⟨m, hm, hreach⟩ := h.reached name hseen
          exact ⟨m, hm, hreach.tail ⟨path, f, hname, (hnew n hn).1⟩⟩
      met := fun n hn hpend => by
        by_cases heq : n = name
        · exact Or.inr ⟨path, f, heq ▸ hname, List.mem_append_right _ List.mem_cons_self,
            subset_append_unseen seen _⟩
        · -- any other name that is not to be looked for was met before
          have hold : n ∈ seen := (List.mem_append.1 hn).resolve_right fun hnew =>
            hpend (List.mem_append_right _ hnew)
          have hnpend : n ∉ name :: pending := fun hmem =>
            hpend (List.mem_append_left _ ((List.mem_cons.1 hmem).resolve_left heq))
          rcases h.met n hold hnpend with hmissing | ⟨p, g, hg, hmem, hsub⟩
          · exact Or.inl hmissing
          · exact Or.inr ⟨p, g, hg, List.mem_append_left _ hmem, fun x hx =>
              List.mem_append_left _ (hsub hx)⟩
      found := fun g hg => by
        rcases List.mem_append.1 hg with hg | hg
        · obtain ⟨hs, hp, hfound⟩ := h.found g hg
          refine ⟨List.mem_append_left _ hs, fun hmem => ?_, hfound⟩
          rcases List.mem_append.1 hmem with hmem | hmem
          · exact hp (List.mem_cons_of_mem name hmem)
          · exact (hnew _ hmem).2 hs
        · obtain rfl := List.mem_singleton.1 hg
          rw [hfname]
          exact ⟨List.mem_append_left _ hseen, hdone, path, hname⟩
      distinct := by
        -- the name was still to be looked for, so no file has it yet
        rw [List.map_append, List.nodup_append]
        refine ⟨h.distinct, List.nodup_singleton _, fun a ha b hb hab => ?_⟩
        obtain ⟨g, hg, rfl⟩ := List.mem_map.1 ha
        obtain rfl := List.mem_singleton.1 hb
        exact (h.found g hg).2.1 (hab ▸ hfname ▸ List.mem_cons_self) }

end Searching

/-! ## The fuel -/

/-- How many names a search can still meet: those to be looked for and those not seen. -/
def unmet (imports seen pending : List String) : Nat :=
  pending.length + (imports.filter fun n => !seen.contains n).length

/-- With a file one name less can be met. -/
theorem unmet_lt {deps : List String} (h : deps ⊆ imports) (name : String)
    (seen pending : List String) :
    unmet imports (seen ++ unseen seen deps) (pending ++ unseen seen deps) <
      unmet imports seen (name :: pending) := by
  -- the new names are among the names that were not seen, each of them once
  have hsplit := List.length_eq_length_filter_add (fun n => (unseen seen deps).contains n)
    (l := imports.filter fun n => !seen.contains n)
  have hnew : (unseen seen deps).length ≤ ((imports.filter fun n => !seen.contains n).filter
      fun n => (unseen seen deps).contains n).length := by
    refine (List.subperm_of_subset (nodup_unseen seen deps) fun n hn => ?_).length_le
    obtain ⟨hdep, hseen⟩ := mem_unseen_iff.1 hn
    simp [h hdep, hseen, hn]
  have hrest : (imports.filter fun n => !(seen ++ unseen seen deps).contains n) =
      (imports.filter fun n => !seen.contains n).filter
        fun n => !(unseen seen deps).contains n := by
    rw [List.filter_filter]
    refine List.filter_congr fun n _ => ?_
    rw [List.contains_append, Bool.not_or, Bool.and_comm]
  unfold unmet
  rw [hrest, List.length_append, List.length_cons]
  omega

/-! ## Runs -/

/-- How a search goes on from one name to the next, and what it ends with, whatever the fuel. -/
inductive Runs (library : Library) :
    (seen pending : List String) → Closure → Except Broken Closure → Prop where
  | done (seen : List String) (c : Closure) : Runs library seen [] c (.ok c)
  | broken {name : String} {fault : Fault} (hname : library name = .broken fault)
    (seen pending : List String) (c : Closure) :
    Runs library seen (name :: pending) c (.error ⟨name, fault, c⟩)
  | missing {name : String} {seen pending : List String} {c : Closure} {r : Except Broken Closure}
    (hname : library name = .missing)
    (rest : Runs library seen pending { c with missing := c.missing ++ [name] } r) :
    Runs library seen (name :: pending) c r
  | found {name : String} {path : Option String} {f : FileDescriptor} {seen pending : List String}
    {c : Closure} {r : Except Broken Closure} (hname : library name = .found path f)
    (rest : Runs library (seen ++ unseen seen (f.dependencies.map (·.path)))
      (pending ++ unseen seen (f.dependencies.map (·.path))) { c with files := c.files ++ [f] } r) :
    Runs library seen (name :: pending) c r

section Step

variable {name : String} {r : Except Broken Closure}

theorem runs_nil_iff : Runs library seen [] c r ↔ r = .ok c := by
  constructor
  · rintro ⟨⟩
    rfl
  · rintro rfl
    exact .done seen c

/-- What a name leads to says how the search goes on from it. -/
theorem runs_missing_iff (hname : library name = .missing) :
    Runs library seen (name :: pending) c r ↔
      Runs library seen pending { c with missing := c.missing ++ [name] } r := by
  refine ⟨fun h => ?_, .missing hname⟩
  cases h with
  | missing _ rest => exact rest
  | broken hother => exact absurd (hname.symm.trans hother) nofun
  | found hother => exact absurd (hname.symm.trans hother) nofun

theorem runs_broken_iff {fault : Fault} (hname : library name = .broken fault) :
    Runs library seen (name :: pending) c r ↔ r = .error ⟨name, fault, c⟩ := by
  constructor
  · intro h
    cases h with
    | missing hother => exact absurd (hname.symm.trans hother) nofun
    | broken hother =>
      obtain rfl := Opening.broken.inj (hname.symm.trans hother)
      rfl
    | found hother => exact absurd (hname.symm.trans hother) nofun
  · rintro rfl
    exact .broken hname seen pending c

theorem runs_found_iff {path : Option String} {f : FileDescriptor}
    (hname : library name = .found path f) :
    Runs library seen (name :: pending) c r ↔
      Runs library (seen ++ unseen seen (f.dependencies.map (·.path)))
        (pending ++ unseen seen (f.dependencies.map (·.path)))
          { c with files := c.files ++ [f] } r := by
  refine ⟨fun h => ?_, .found hname⟩
  cases h with
  | missing hother => exact absurd (hname.symm.trans hother) nofun
  | broken hother => exact absurd (hname.symm.trans hother) nofun
  | found hother rest =>
    obtain ⟨-, rfl⟩ := Opening.found.inj (hname.symm.trans hother)
    exact rest

end Step

/-- With enough fuel a search ends with what it runs to, and with nothing else. -/
theorem runs_iff_gatherFrom (himports : ∀ name path f, library name = .found path f →
      f.dependencies.map (·.path) ⊆ imports) {r : Except Broken Closure} {fuel : Nat}
    (hfuel : unmet imports seen pending ≤ fuel) :
    Runs library seen pending c r ↔ gatherFrom library fuel seen pending c = r := by
  induction fuel generalizing seen pending c with
  | zero =>
    cases pending with
    | nil => exact runs_nil_iff.trans eq_comm
    | cons name pending => exact absurd hfuel (by unfold unmet; simp)
  | succ fuel ih =>
    cases pending with
    | nil => exact runs_nil_iff.trans eq_comm
    | cons name pending =>
      unfold gatherFrom
      cases hname : library name with
      | missing =>
        have hless : unmet imports seen pending ≤ fuel := by
          unfold unmet at hfuel ⊢
          rw [List.length_cons] at hfuel
          omega
        rw [runs_missing_iff hname]
        exact ih hless
      | broken fault =>
        rw [runs_broken_iff hname]
        exact eq_comm
      | found path f =>
        have hless := unmet_lt (himports name path f hname) name seen pending
        rw [runs_found_iff hname]
        exact ih (by omega)

/-- The fuel of a search from some names is enough. -/
theorem runs_iff_gather (himports : ∀ name path f, library name = .found path f →
      f.dependencies.map (·.path) ⊆ imports) {r : Except Broken Closure} :
    Runs library names names empty r ↔ gather library imports names = r := by
  refine runs_iff_gatherFrom himports ?_
  have hfilter := List.length_filter_le (fun n => !names.contains n) imports
  unfold unmet
  omega

/-- Every step of a search keeps what holds of the names that were seen, those in line and what was
found. -/
structure StepsKeep (library : Library) (P : List String → List String → Closure → Prop) :
    Prop where
  missing : ∀ {seen pending c name}, P seen (name :: pending) c → library name = .missing →
    P seen pending { c with missing := c.missing ++ [name] }
  found : ∀ {seen pending c name path f}, P seen (name :: pending) c →
    library name = .found path f →
    P (seen ++ unseen seen (f.dependencies.map (·.path)))
      (pending ++ unseen seen (f.dependencies.map (·.path))) { c with files := c.files ++ [f] }

variable {P : List String → List String → Closure → Prop}

/-- What every step keeps holds at the end, where nothing is left to be looked for, or where the
next name leads to something broken. -/
theorem Runs.keeps {r : Except Broken Closure} (h : Runs library seen pending c r)
    (hsteps : StepsKeep library P) (hstart : P seen pending c) :
    (∃ c' seen', r = .ok c' ∧ P seen' [] c') ∨
      ∃ b seen' pending', r = .error b ∧ library b.name = .broken b.fault ∧
        P seen' (b.name :: pending') b.before := by
  induction h with
  | done seen c => exact Or.inl ⟨c, seen, rfl, hstart⟩
  | broken hname seen pending c => exact Or.inr ⟨_, seen, pending, rfl, hname, hstart⟩
  | missing hname _ ih => exact ih (hsteps.missing hstart hname)
  | found hname _ ih => exact ih (hsteps.found hstart hname)

theorem gather_keeps (himports : ∀ name path f, library name = .found path f →
      f.dependencies.map (·.path) ⊆ imports) (hsteps : StepsKeep library P)
    (hstart : P names names empty) :
    (∃ c seen, gather library imports names = .ok c ∧ P seen [] c) ∨
      ∃ b seen pending, gather library imports names = .error b ∧
        library b.name = .broken b.fault ∧ P seen (b.name :: pending) b.before :=
  ((runs_iff_gather himports).2 rfl).keeps hsteps hstart

/-! ## The whole search -/

/-- What is gathered from some names. -/
structure Gathers (library : Library) (names : List String) (files : List FileDescriptor) :
    Prop where
  found : ∀ f ∈ files, ∃ path, library f.name = .found path f
  distinct : (files.map (·.name)).Nodup
  reached : ∀ f ∈ files, ∃ n ∈ names, library.Reaches n f.name
  closed : ∀ n ∈ names, ∀ m, library.Reaches n m → ∀ path f, library m = .found path f → f ∈ files

/-- Once nothing is left to be looked for, all that the names reach has been seen. -/
theorem Searching.mem_seen (h : Searching library names seen [] c) {n m : String} (hn : n ∈ names)
    (hreach : library.Reaches n m) : m ∈ seen := by
  have hclosed : ∀ a b, a ∈ seen → library.Imports a b → b ∈ seen := by
    rintro a b ha ⟨p, g, hg, hb⟩
    rcases h.met a ha List.not_mem_nil with hmissing | ⟨p', g', hg', -, hsub⟩
    · exact absurd (hg.symm.trans hmissing) nofun
    · obtain ⟨-, rfl⟩ := Opening.found.inj (hg.symm.trans hg')
      exact hsub hb
  exact hreach.closed hclosed (h.names_subset hn)

/-- What a search has found once nothing is left to be looked for. -/
theorem Searching.gathers (h : Searching library names seen [] c) :
    Gathers library names c.files where
  found := fun f hf => (h.found f hf).2.2
  distinct := h.distinct
  reached := fun f hf => h.reached _ (h.found f hf).1
  closed := fun n hn m hreach path f hfound => by
    rcases h.met m (h.mem_seen hn hreach) List.not_mem_nil with hmissing | ⟨p, g, hg, hmem, -⟩
    · exact absurd (hfound.symm.trans hmissing) nofun
    · obtain ⟨-, rfl⟩ := Opening.found.inj (hfound.symm.trans hg)
      exact hmem

section Gather

variable (hnamed : library.Named)
  (himports : ∀ name path f, library name = .found path f →
    f.dependencies.map (·.path) ⊆ imports) (hnames : names.Nodup)

include hnamed himports hnames

/-- The search ends with what it gathers, or at something broken that the names reach. -/
theorem gather_cases :
    (∃ c, gather library imports names = .ok c ∧ Gathers library names c.files) ∨
      ∃ b, gather library imports names = .error b ∧
        library b.name = .broken b.fault ∧ ∃ n ∈ names, library.Reaches n b.name := by
  have hsteps : StepsKeep library (Searching library names) :=
    ⟨Searching.missing, Searching.add hnamed⟩
  rcases gather_keeps himports hsteps (Searching.start hnames) with
    ⟨c, seen, hc, hend⟩ | ⟨b, seen, pending, hb, hbroken, hstop⟩
  · exact Or.inl ⟨c, hc, hend.gathers⟩
  · exact Or.inr ⟨b, hb, hbroken, hstop.reached _ (hstop.pending_subset List.mem_cons_self)⟩

theorem gathers_of_gather {c : Closure} (h : gather library imports names = .ok c) :
    Gathers library names c.files := by
  rcases gather_cases hnamed himports hnames with ⟨c', hc', hgathers⟩ | ⟨b, hb, -⟩
  · obtain rfl := Except.ok.inj (h.symm.trans hc')
    exact hgathers
  · exact absurd (h.symm.trans hb) nofun

/-- Where the names reach nothing broken the search ends well. -/
theorem gather_isOk
    (h : ∀ n ∈ names, ∀ m, library.Reaches n m → ∀ fault, library m ≠ .broken fault) :
    ∃ c, gather library imports names = .ok c ∧ Gathers library names c.files := by
  rcases gather_cases hnamed himports hnames with hok | ⟨b, -, hbroken, n, hn, hreach⟩
  · exact hok
  · exact absurd hbroken (h n hn b.name hreach b.fault)

end Gather

end Closure

end SchemaPage
