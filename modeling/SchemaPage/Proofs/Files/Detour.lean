import SchemaPage.Proofs.Files.Locate

/-!
# Steps that stay

A path may have slashes and dots that are no parts of it.  On the way along the path they are steps
that stay where they are, and such a step only asks whether there is a directory.  In front of
another step this is asked anyway, so it may stand there or not; at the end of a path it matters.

* `FileSystem.Detours`: ways that differ in such steps.
* `FileSystem.Leads.of_detours`: they lead to the same place.
* `FileSystem.moves_eq_filterMap_parts`: the other steps are the parts of the path.
* `FileSystem.locate_of_parts_eq`: where paths with the same parts lead.
-/

namespace SchemaPage
namespace FileSystem

/-- The second way differs from the first in steps that stay: some are left out, and some are put in
front of another step. -/
inductive Detours : List Step → List Step → Prop where
  | nil : Detours [] []
  | keep {step way way'} : Detours way way' → Detours (step :: way) (step :: way')
  | skip {way way'} : Detours way way' → Detours (.stay :: way) way'
  | linger {step way way'} : Detours way (step :: way') → Detours way (.stay :: step :: way')

/-- The steps that do not stay. -/
def moves (way : List Step) : List Step := way.filter (· ≠ .stay)

variable {t : FileTree} {links : Nat} {names : List String} {way way' : List Step} {place : Place}

namespace Detours

theorem append_left (before : List Step) (h : Detours way way') :
    Detours (before ++ way) (before ++ way') := by
  induction before with
  | nil => exact h
  | cons step before ih => exact .keep ih

theorem eq_nil (h : Detours [] way) : way = [] := by
  generalize hnil : ([] : List Step) = start at h
  induction h with
  | nil => rfl
  | linger _ ih => exact absurd ((ih hnil).trans hnil.symm) (List.cons_ne_nil _ _)
  | _ => cases hnil

/-- All steps that stay may be left out. -/
theorem to_moves (way : List Step) : Detours way (moves way) := by
  induction way with
  | nil => exact .nil
  | cons step way ih =>
    unfold moves
    by_cases hstay : step = .stay
    · subst hstay
      exact .skip ih
    · rw [List.filter_cons_of_pos (by simpa using hstay)]
      exact .keep ih

/-- They may be put back where the way does not end with one of them. -/
theorem of_moves (hlast : way.getLast? ≠ some .stay) : Detours (moves way) way := by
  induction way with
  | nil => exact .nil
  | cons step way ih =>
    unfold moves
    cases way with
    | nil =>
      have hstay : step ≠ .stay := by simpa using hlast
      rw [List.filter_cons_of_pos (by simpa using hstay)]
      exact .keep .nil
    | cons next way =>
      rw [List.getLast?_cons_cons] at hlast
      by_cases hstay : step = .stay
      · subst hstay
        exact .linger (ih hlast)
      · rw [List.filter_cons_of_pos (by simpa using hstay)]
        exact .keep (ih hlast)

end Detours

namespace Leads

/-- There is no step but from a directory. -/
theorem exists_dir {last : Bool} {step : Step} (h : Leads t last links names (step :: way) place) :
    ∃ entries, t.descend names = some (.dir entries) :=
  exists_dir_of_locateFrom (locateFrom_of_leads h)

/-- A way with a detour leads to a place when it does so after its first step, and when it leads
there without this step if that stays. -/
theorem of_detours_cons {step : Step} (h : Detours (step :: way) way')
    (hkeep : ∀ rest, Detours way rest → Leads t true links names (step :: rest) place)
    (hskip : step = .stay → ∀ rest, Detours way rest → Leads t true links names rest place) :
    Leads t true links names way' place := by
  generalize hall : step :: way = all at h
  induction h with
  | nil => cases hall
  | keep hrest =>
    obtain ⟨rfl, rfl⟩ := List.cons.inj hall
    exact hkeep _ hrest
  | skip hrest =>
    obtain ⟨hstay, rfl⟩ := List.cons.inj hall
    exact hskip hstay _ hrest
  | linger _ ih =>
    obtain ⟨entries, hdir⟩ := (ih hall).exists_dir
    exact .move hdir rfl (ih hall)

/-- Ways that differ in steps that stay lead to the same place. -/
theorem of_detours (h : Leads t true links names way place) (hdetours : Detours way way') :
    Leads t true links names way' place := by
  induction h generalizing way' with
  | here =>
    rw [hdetours.eq_nil]
    exact .here
  | move hdir hmove _ ih =>
    refine of_detours_cons hdetours (fun rest hrest => .move hdir hmove (ih hrest)) ?_
    rintro rfl rest hrest
    obtain rfl := Option.some_inj.1 hmove
    exact ih hrest
  | free hdir hnone hsize =>
    refine of_detours_cons hdetours (fun rest hrest => ?_) nofun
    rw [hrest.eq_nil]
    exact .free hdir hnone hsize
  | link _ hlast => cases hlast
  | follow hlink _ htarget _ ih =>
    -- the steps of the target are the same in both ways
    exact of_detours_cons hdetours
      (fun rest hrest => .follow hlink (Or.inr rfl) htarget (ih (hrest.append_left _))) nofun
  | enter hinner hnot _ ih =>
    exact of_detours_cons hdetours (fun rest hrest => .enter hinner hnot (ih hrest)) nofun

/-- Where a way leads, another leads that has the same moves and does not end with a step that
stays. -/
theorem of_moves_eq (h : Leads t true links names way place) (hmoves : moves way = moves way')
    (hlast : way'.getLast? ≠ some .stay) : Leads t true links names way' place := by
  have hshort := h.of_detours (.to_moves way)
  rw [hmoves] at hshort
  exact hshort.of_detours (.of_moves hlast)

end Leads

/-! ## Paths with the same parts -/

/-- The step that a part of a path stands for, if it is one that moves. -/
def move? : PathPart → Option Step
  | .root => some .top
  | .current => none
  | .parent => some .up
  | .named name => some (.down name)

theorem moves_append (way way' : List Step) : moves (way ++ way') = moves way ++ moves way' :=
  List.filter_append way way'

/-- What is no part stays where it is. -/
theorem bind_move? (stretch : String) :
    (Path.part? stretch).bind move? = Option.guard (· ≠ .stay) (stepOf stretch) := by
  unfold Path.part? stepOf
  split_ifs <;> rfl

theorem moves_map_stepOf (stretches : List String) :
    moves (stretches.map stepOf) = (stretches.filterMap Path.part?).filterMap move? := by
  unfold moves
  rw [List.filterMap_filterMap, ← List.filterMap_eq_filter, List.filterMap_map]
  exact List.filterMap_congr fun stretch _ => (bind_move? stretch).symm

/-- The steps that do not stay are the parts of a path, but for a dot at its start. -/
theorem moves_eq_filterMap_parts (path : String) :
    moves (steps path) = (Path.parts path).filterMap move? := by
  have hbetween : stepsBetween path.toList = (Text.split '/' path).map stepOf := rfl
  have hstart : moves (if Path.isAbsolute path then [.top] else []) =
      (Path.start path).filterMap move? := by
    unfold Path.start
    split_ifs <;> rfl
  rw [steps_eq, hbetween, Path.parts_eq, moves_append, List.filterMap_append, hstart,
    moves_map_stepOf]

/-- Where a path leads, another leads that has the same parts and does not end with a slash or a
dot. -/
theorem locate_of_parts_eq {fs : FileSystem} {path path' : String}
    (h : fs.locate path true = .ok place)
    (hparts : Path.parts path = Path.parts path') (hlast : (steps path').getLast? ≠ some .stay)
    (hsize : path'.utf8ByteSize ≤ maxPathSize) : fs.locate path' true = .ok place := by
  obtain ⟨⟨-, hnul, -⟩, hleads⟩ := locate_eq_ok_iff.1 h
  refine locate_eq_ok_iff.2 ⟨⟨?_, ?_, hsize⟩, hleads.of_moves_eq ?_ hlast⟩
  · rintro rfl
    exact hlast rfl
  · rwa [Path.mem_iff_exists_named (by decide) (by decide), ← hparts,
      ← Path.mem_iff_exists_named (by decide) (by decide)]
  · rw [moves_eq_filterMap_parts, moves_eq_filterMap_parts, hparts]

/-- A path leads to a file when another does that has the same parts, and to the same bytes. -/
theorem isFile_of_parts_eq {fs : FileSystem} {path path' : String} (h : fs.isFile path = true)
    (hparts : Path.parts path = Path.parts path') (hlast : (steps path').getLast? ≠ some .stay)
    (hsize : path'.utf8ByteSize ≤ maxPathSize) :
    fs.isFile path' = true ∧ fs.read path' = fs.read path := by
  obtain ⟨names, bytes, hlocate, hfile⟩ := isFile_iff.1 h
  have hlocate' := locate_of_parts_eq hlocate hparts hlast hsize
  refine ⟨isFile_iff.2 ⟨names, bytes, hlocate', hfile⟩, ?_⟩
  rw [read_of_locate hlocate hfile, read_of_locate hlocate' hfile]

/-- The last of some names in a directory is a step that moves. -/
theorem getLast?_steps_join {names : List String} (hne : names ≠ [])
    (hnames : ∀ name ∈ names, Path.IsNormal name) (dir : String) :
    (steps (Path.join dir ("/".intercalate names))).getLast? ≠ some .stay := by
  obtain ⟨init, name, rfl⟩ := (List.eq_nil_or_concat names).resolve_left hne
  rw [List.concat_eq_append] at hne hnames ⊢
  have hname := hnames name List.mem_concat_self
  obtain ⟨way, hway⟩ := exists_steps_join (init.foldl Path.join dir)
  have hstep : stepOf name = .down name := by
    unfold stepOf
    rw [if_neg (not_or.2 ⟨hname.nonempty, hname.not_dot⟩), if_neg hname.not_dots]
  rw [← Path.foldl_join hne hnames, List.foldl_append, List.foldl_cons, List.foldl_nil,
    hway name hname.no_slash, List.getLast?_concat, hstep]
  nofun

end FileSystem
end SchemaPage
