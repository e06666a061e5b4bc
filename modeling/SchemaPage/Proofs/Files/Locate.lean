import SchemaPage.Files.System
import SchemaPage.Proofs.Files.Path
import SchemaPage.Proofs.Files.Tree

/-!
# Where paths lead

A path that leads somewhere is followed step by step, and each step is of one of a few kinds.  Put
down as a relation, they carry the proofs about paths: the induction goes over the steps that were
made, those along the targets of links among them.

A path that leads to something goes on to lead there while the tree grows.  One that leads to a free
name leads to what is put there.

* `FileSystem.Leads`: the ways from a place along some steps.
* `FileSystem.locate_eq_ok_iff`: where a path leads.
* `FileSystem.Leads.of_grows`, `FileSystem.Leads.of_put`: where the ways lead in a tree that has
  grown.
* `FileSystem.Leads.beside`: a way to something in a directory, and one to the directory.
* `FileSystem.exists_steps_join`, `FileSystem.exists_steps_withoutSlashes`: the steps of related
  paths.
-/

namespace SchemaPage
namespace FileSystem

/-! ## Ways -/

/-- Where a step leads that does not go down. -/
def Step.moved? (names : List String) : Step → Option (List String)
  | top => some []
  | stay => some names
  | up => some names.dropLast
  | down _ => none

/-- From a place some steps, over at most `links` links, lead to another place.  A link at the end
is followed if `last` is set. -/
inductive Leads (t : FileTree) (last : Bool) : Nat → List String → List Step → Place → Prop where
  | here {links names} : Leads t last links names [] (.present names)
  | move {links names step there rest place entries} : t.descend names = some (.dir entries) →
      step.moved? names = some there → Leads t last links there rest place →
      Leads t last links names (step :: rest) place
  | free {links names name entries} : t.descend names = some (.dir entries) →
      t.descend (names ++ [name]) = none → name.utf8ByteSize ≤ maxNameSize →
      Leads t last links names [.down name] (.absent names name)
  | link {links names name target} : t.descend (names ++ [name]) = some (.link target) →
      last = false → Leads t last links names [.down name] (.present (names ++ [name]))
  | follow {links names name target rest place} :
      t.descend (names ++ [name]) = some (.link target) → (rest ≠ [] ∨ last = true) → target ≠ "" →
      Leads t last links names (steps target ++ rest) place →
      Leads t last (links + 1) names (.down name :: rest) place
  | enter {links names name inner rest place} : t.descend (names ++ [name]) = some inner →
      (∀ target, inner ≠ .link target) → Leads t last links (names ++ [name]) rest place →
      Leads t last links names (.down name :: rest) place

variable {t u : FileTree} {last : Bool} {links : Nat} {names : List String} {way rest : List Step}
  {place : Place}

theorem locateFrom_of_moved {entries : List (String × FileTree)} {step : Step}
    {there : List String} (hdir : t.descend names = some (.dir entries))
    (hmove : step.moved? names = some there) :
    locateFrom t last links names (step :: rest) = locateFrom t last links there rest := by
  cases step with
  | down name => cases hmove
  | _ =>
    obtain rfl := Option.some_inj.1 hmove
    cases links <;> simp only [locateFrom, advance, hdir]

theorem locateFrom_down {entries : List (String × FileTree)}
    (hdir : t.descend names = some (.dir entries)) (name : String) (rest : List Step) :
    locateFrom t last links names (.down name :: rest) =
      match t.descend (names ++ [name]) with
      | none =>
        if maxNameSize < name.utf8ByteSize then .error .nameTooLong
        else if rest.isEmpty then .ok (.absent names name)
        else .error .notFound
      | some (.link target) =>
        if rest.isEmpty && !last then .ok (.present (names ++ [name]))
        else
          match links with
          | 0 => .error .tooManyLinks
          | links + 1 =>
            if target = "" then .error .notFound
            else locateFrom t last links names (steps target ++ rest)
      | some _ => locateFrom t last links (names ++ [name]) rest := by
  rw [FileTree.descend_concat_of_dir hdir]
  cases hchild : (FileTree.dir entries).child? name with
  | none => cases links <;> simp only [locateFrom, advance, hdir, hchild]
  | some inner => cases inner <;> cases links <;> simp only [locateFrom, advance, hdir, hchild]

/-- There is no step but from a directory. -/
theorem exists_dir_of_locateFrom {step : Step}
    (h : locateFrom t last links names (step :: rest) = .ok place) :
    ∃ entries, t.descend names = some (.dir entries) := by
  have hstep : ∀ follow, advance t last follow names (step :: rest) = .ok place →
      ∃ entries, t.descend names = some (.dir entries) := by
    intro follow h
    unfold advance at h
    split at h
    · exact ⟨_, ‹_›⟩
    · cases h
  cases links with
  | zero => exact hstep _ h
  | succ links => exact hstep _ h

theorem leads_of_locateFrom (h : locateFrom t last links names way = .ok place) :
    Leads t last links names way place := by
  -- a link leaves fewer links and puts more steps in front, and all else leaves fewer steps
  induction links using Nat.strongRecOn generalizing names way with
  | _ links ihlinks =>
    induction way generalizing names with
    | nil =>
      have hnil : locateFrom t last links names [] = .ok (.present names) := by cases links <;> rfl
      obtain rfl := Except.ok.inj (hnil.symm.trans h)
      exact .here
    | cons step rest ih =>
      obtain ⟨entries, hdir⟩ := exists_dir_of_locateFrom h
      cases hmove : step.moved? names with
      | some there =>
        rw [locateFrom_of_moved hdir hmove] at h
        exact .move hdir hmove (ih h)
      | none =>
        obtain ⟨name, rfl⟩ : ∃ name, step = .down name := by
          cases step with
          | down name => exact ⟨name, rfl⟩
          | _ => cases hmove
        rw [locateFrom_down hdir] at h
        split at h
        · rename_i hnone
          split at h
          · cases h
          · rename_i hsize
            split at h
            · rename_i hrest
              obtain rfl := List.isEmpty_iff.1 hrest
              obtain rfl := Except.ok.inj h
              exact .free hdir hnone (Nat.le_of_not_lt hsize)
            · cases h
        · rename_i target hlink
          split at h
          · rename_i hend
            obtain ⟨hrest, hlast⟩ := Bool.and_eq_true_iff.1 hend
            obtain rfl := List.isEmpty_iff.1 hrest
            obtain rfl := Except.ok.inj h
            exact .link hlink (by simpa using hlast)
          · rename_i hon
            rw [Bool.and_eq_true, List.isEmpty_iff, Bool.not_eq_true', not_and_or,
              Bool.not_eq_false] at hon
            split at h
            · cases h
            · split at h
              · cases h
              · rename_i links htarget
                exact .follow hlink hon htarget (ihlinks links (Nat.lt_succ_self links) h)
        · rename_i inner hnot hinner
          exact .enter hinner (fun target htarget => hnot target htarget) (ih h)

theorem locateFrom_of_leads (h : Leads t last links names way place) :
    locateFrom t last links names way = .ok place := by
  induction h with
  | here =>
    rename_i links names
    cases links <;> rfl
  | move hdir hmove _ ih =>
    rw [locateFrom_of_moved hdir hmove]
    exact ih
  | free hdir hnone hsize =>
    rw [locateFrom_down hdir]
    simp only [hnone]
    rw [if_neg (Nat.not_lt_of_le hsize)]
    rfl
  | link hlink hlast =>
    obtain ⟨entries, hdir⟩ := FileTree.exists_dir_of_descend_concat hlink
    rw [locateFrom_down hdir]
    simp only [hlink, hlast]
    rfl
  | follow hlink hon htarget _ ih =>
    obtain ⟨entries, hdir⟩ := FileTree.exists_dir_of_descend_concat hlink
    rw [locateFrom_down hdir]
    simp only [hlink]
    rw [if_neg, if_neg htarget]
    · exact ih
    · rcases hon with hrest | hlast
      · simp [hrest]
      · simp [hlast]
  | enter hinner hnot _ ih =>
    obtain ⟨entries, hdir⟩ := FileTree.exists_dir_of_descend_concat hinner
    rw [locateFrom_down hdir]
    simp only [hinner]
    exact ih

/-! ## Ways in a tree that has grown -/

namespace Leads

/-- What is no link is none in a tree that has grown. -/
theorem exists_inner_of_grows {inner : FileTree} (hgrows : t.Grows u)
    (hinner : t.descend names = some inner) (hnot : ∀ target, inner ≠ .link target) :
    ∃ new, u.descend names = some new ∧ ∀ target, new ≠ .link target := by
  obtain ⟨new, hnew, hshape⟩ := hgrows names inner hinner
  refine ⟨new, hnew, fun target htarget => hnot target ?_⟩
  rw [htarget] at hshape
  exact FileTree.eq_link_of_shape_eq hshape.symm

theorem link_of_grows {target : String} (hgrows : t.Grows u)
    (hlink : t.descend names = some (.link target)) : u.descend names = some (.link target) := by
  obtain ⟨new, hnew, hshape⟩ := hgrows names _ hlink
  rw [hnew, FileTree.eq_link_of_shape_eq hshape]

/-- A way to something stays one while the tree grows. -/
theorem of_grows {found : List String} (h : Leads t last links names way (.present found))
    (hgrows : t.Grows u) : Leads u last links names way (.present found) := by
  generalize hplace : Place.present found = place at h
  induction h with
  | here => exact .here
  | move hdir hmove _ ih =>
    obtain ⟨entries, hdir⟩ := hgrows.dir hdir
    exact .move hdir hmove (ih hplace)
  | free => cases hplace
  | link hlink hlast => exact .link (link_of_grows hgrows hlink) hlast
  | follow hlink hon htarget _ ih =>
    exact .follow (link_of_grows hgrows hlink) hon htarget (ih hplace)
  | enter hinner hnot _ ih =>
    obtain ⟨new, hnew, hnot⟩ := exists_inner_of_grows hgrows hinner hnot
    exact .enter hnew hnot (ih hplace)

/-- A free name is one in a directory. -/
theorem free_of_absent {dirNames : List String} {name : String}
    (h : Leads t last links names way (.absent dirNames name)) :
    (∃ entries, t.descend dirNames = some (.dir entries)) ∧
      t.descend (dirNames ++ [name]) = none := by
  generalize hplace : Place.absent dirNames name = place at h
  induction h with
  | here => cases hplace
  | move _ _ _ ih => exact ih hplace
  | free hdir hnone _ =>
    obtain ⟨rfl, rfl⟩ := Place.absent.inj hplace
    exact ⟨⟨_, hdir⟩, hnone⟩
  | link => cases hplace
  | follow _ _ _ _ ih => exact ih hplace
  | enter _ _ _ ih => exact ih hplace

/-- A way to a free name leads to what is put there, also with more steps that stay at this
place. -/
theorem of_put {dirNames : List String} {name : String} {new : FileTree} {more : List Step}
    (h : Leads t last links names way (.absent dirNames name)) (hgrows : t.Grows u)
    (hnew : u.descend (dirNames ++ [name]) = some new) (hnot : ∀ target, new ≠ .link target)
    (hmore : ∀ links,
      Leads u true links (dirNames ++ [name]) more (.present (dirNames ++ [name]))) :
    Leads u true links names (way ++ more) (.present (dirNames ++ [name])) := by
  generalize hplace : Place.absent dirNames name = place at h
  induction h with
  | here => cases hplace
  | move hdir hmove _ ih =>
    obtain ⟨entries, hdir⟩ := hgrows.dir hdir
    exact .move hdir hmove (ih hplace)
  | free =>
    obtain ⟨rfl, rfl⟩ := Place.absent.inj hplace
    exact .enter hnew hnot (hmore _)
  | link => cases hplace
  | follow hlink _ htarget _ ih =>
    rw [List.append_assoc] at ih
    exact .follow (link_of_grows hgrows hlink) (Or.inr rfl) htarget (ih hplace)
  | enter hinner hnot' _ ih =>
    obtain ⟨inner, hinner, hnot'⟩ := exists_inner_of_grows hgrows hinner hnot'
    exact .enter hinner hnot' (ih hplace)

/-- A way to a free name leads to nothing, with or without more steps. -/
theorem not_present_of_absent {dirNames found : List String} {name : String} {more : List Step}
    (h : Leads t last links names way (.absent dirNames name)) :
    locateFrom t true links names (way ++ more) ≠ .ok (.present found) := by
  generalize hplace : Place.absent dirNames name = place at h
  induction h with
  | here => cases hplace
  | move hdir hmove _ ih =>
    rw [List.cons_append, locateFrom_of_moved hdir hmove]
    exact ih hplace
  | free hdir hnone _ =>
    rw [List.cons_append, locateFrom_down hdir]
    simp only [hnone]
    split_ifs <;> simp
  | link => cases hplace
  | follow hlink _ htarget _ ih =>
    obtain ⟨entries, hdir⟩ := FileTree.exists_dir_of_descend_concat hlink
    rw [List.cons_append, locateFrom_down hdir]
    simp only [hlink, Bool.not_true, Bool.and_false, Bool.false_eq_true, if_false, if_neg htarget]
    rw [← List.append_assoc]
    exact ih hplace
  | enter hinner hnot _ ih =>
    obtain ⟨entries, hdir⟩ := FileTree.exists_dir_of_descend_concat hinner
    rw [List.cons_append, locateFrom_down hdir]
    simp only [hinner]
    exact ih hplace

/-- Steps that stay in a directory lead to it. -/
theorem replicate_stay {entries : List (String × FileTree)}
    (hdir : t.descend names = some (.dir entries)) (count : Nat) :
    Leads t last links names (List.replicate count .stay) (.present names) := by
  induction count with
  | zero => exact .here
  | succ count ih => exact .move hdir rfl ih

/-- A way that goes down to something at its end leads to a directory without this last step.
Unless there is a link under the name, this directory holds the thing. -/
theorem beside {found : List String} {name : String}
    (h : Leads t true links names (way ++ [.down name]) (.present found)) :
    ∃ dirNames, Leads t true links names (way ++ [.stay]) (.present dirNames) ∧
      ((∀ target, t.descend (dirNames ++ [name]) ≠ some (.link target)) →
        found = dirNames ++ [name]) := by
  generalize hplace : Place.present found = place at h
  generalize hall : way ++ [Step.down name] = all at h
  induction h generalizing way with
  | here => exact absurd hall (by simp)
  | move hdir hmove _ ih =>
    obtain ⟨rfl, hlast⟩ | ⟨before, rfl, rfl⟩ := List.append_eq_cons_iff.1 hall
    · obtain ⟨rfl, -⟩ := List.cons_eq_cons.1 hlast
      cases hmove
    · obtain ⟨dirNames, hway, hfound⟩ := ih hplace rfl
      exact ⟨dirNames, .move hdir hmove hway, hfound⟩
  | free => cases hplace
  | link _ hlast => cases hlast
  | follow hlink _ htarget _ ih =>
    obtain ⟨rfl, hlast⟩ | ⟨before, rfl, rfl⟩ := List.append_eq_cons_iff.1 hall
    · -- The last step goes to a link, so nothing is said about the place where this leads.
      obtain ⟨hname, rfl⟩ := List.cons_eq_cons.1 hlast
      obtain rfl := Step.down.inj hname
      obtain ⟨entries, hdir⟩ := FileTree.exists_dir_of_descend_concat hlink
      exact ⟨_, .move hdir rfl .here, fun hnot => absurd hlink (hnot _)⟩
    · rw [← List.append_assoc] at ih
      obtain ⟨dirNames, hway, hfound⟩ := ih hplace rfl
      rw [List.append_assoc] at hway
      exact ⟨dirNames, .follow hlink (Or.inr rfl) htarget hway, hfound⟩
  | enter hinner hnot hrest ih =>
    obtain ⟨rfl, hlast⟩ | ⟨before, rfl, rfl⟩ := List.append_eq_cons_iff.1 hall
    · obtain ⟨hname, rfl⟩ := List.cons_eq_cons.1 hlast
      obtain rfl := Step.down.inj hname
      obtain ⟨entries, hdir⟩ := FileTree.exists_dir_of_descend_concat hinner
      cases hrest
      exact ⟨_, .move hdir rfl .here, fun _ => Place.present.inj hplace⟩
    · obtain ⟨dirNames, hway, hfound⟩ := ih hplace rfl
      exact ⟨dirNames, .enter hinner hnot hway, hfound⟩

end Leads

/-! ## Steps of related paths -/

/-- The step that a stretch of a path stands for. -/
def stepOf (stretch : String) : Step :=
  if stretch = "" ∨ stretch = "." then .stay
  else if stretch = ".." then .up
  else .down stretch

/-- The steps between the slashes of a path. -/
def stepsBetween (path : List Char) : List Step :=
  ((Text.cut (· == '/') path).map String.ofList).map stepOf

theorem steps_eq (path : String) :
    steps path = (if Path.isAbsolute path then [.top] else []) ++ stepsBetween path.toList := rfl

theorem stepsBetween_append (l r : List Char) :
    stepsBetween (l ++ '/' :: r) = stepsBetween l ++ stepsBetween r := by
  have hcut : Text.cut (· == '/') (l ++ '/' :: r) =
      Text.cut (· == '/') l ++ Text.cut (· == '/') r :=
    Text.cut_append_cons (q := (· == '/')) (beq_self_eq_true '/') l r
  unfold stepsBetween
  rw [hcut, List.map_append, List.map_append]

theorem stepsBetween_of_forall {path : List Char} (h : '/' ∉ path) :
    stepsBetween path = [stepOf (String.ofList path)] := by
  have hcut : Text.cut (· == '/') path = [path] := Text.cut_of_forall fun c hc =>
    beq_eq_false_iff_ne.2 fun heq => h (by rwa [heq] at hc)
  unfold stepsBetween
  rw [hcut]
  rfl

theorem stepsBetween_slashes (count : Nat) :
    stepsBetween (List.replicate count '/') = List.replicate (count + 1) .stay := by
  induction count with
  | zero => rfl
  | succ count ih =>
    rw [List.replicate_succ, ← List.nil_append ('/' :: _), stepsBetween_append, ih]
    rfl

/-- A name in a directory comes after the same text as every other name there, which is empty or
ends with a slash. -/
theorem exists_join_eq (dir : String) : ∃ front : String,
    (front = "" ∨ ∃ l, front.toList = l ++ ['/']) ∧
      ∀ name : String, '/' ∉ name.toList → Path.join dir name = front ++ name := by
  refine ⟨Path.front dir, ?_, fun name hname =>
    Path.join_of_relative (Path.isAbsolute_of_forall hname) dir⟩
  rcases Path.front_cases dir with ⟨-, hfront⟩ | ⟨l, hfront, -⟩
  · exact Or.inl hfront
  · exact Or.inr ⟨l, hfront⟩

/-- A name in a directory is the last step of its path. -/
theorem exists_steps_join (dir : String) : ∃ way, ∀ name : String, '/' ∉ name.toList →
    steps (Path.join dir name) = way ++ [stepOf name] := by
  obtain ⟨front, rfl | ⟨l, hl⟩, hjoin⟩ := exists_join_eq dir
  · refine ⟨[], fun name hname => ?_⟩
    rw [hjoin name hname, String.empty_append, steps_eq, Path.isAbsolute_of_forall hname,
      stepsBetween_of_forall hname, String.ofList_toList]
    rfl
  · refine ⟨(if l.head?.or (some '/') == some '/' then [.top] else []) ++ stepsBetween l,
      fun name hname => ?_⟩
    have hlist : (Path.join dir name).toList = l ++ '/' :: name.toList := by
      rw [hjoin name hname, String.toList_append, hl, List.append_assoc, List.singleton_append]
    rw [steps_eq]
    unfold Path.isAbsolute
    rw [hlist, List.head?_append, List.head?_cons, stepsBetween_append,
      stepsBetween_of_forall hname, String.ofList_toList, List.append_assoc]

/-- Slashes at the end of a path are steps that stay. -/
theorem exists_steps_withoutSlashes {path : String} (h : withoutSlashes path ≠ "") :
    ∃ count, steps path = steps (withoutSlashes path) ++ List.replicate count .stay := by
  obtain ⟨count, hpath⟩ : ∃ count,
      path.toList = (withoutSlashes path).toList ++ List.replicate count '/' := by
    refine ⟨(path.toList.reverse.takeWhile (· == '/')).length, ?_⟩
    have hslashes : path.toList.reverse.takeWhile (· == '/') =
        List.replicate (path.toList.reverse.takeWhile (· == '/')).length '/' :=
      List.eq_replicate_of_mem fun c hc =>
        beq_iff_eq.1 (List.all_eq_true.1 (List.all_takeWhile) c hc)
    unfold withoutSlashes
    rw [String.toList_ofList, ← List.reverse_replicate, ← hslashes, ← List.reverse_append,
      List.takeWhile_append_dropWhile, List.reverse_reverse]
  have hne : (withoutSlashes path).toList ≠ [] := fun hnil => h (String.toList_eq_nil_iff.1 hnil)
  have habsolute : Path.isAbsolute path = Path.isAbsolute (withoutSlashes path) := by
    unfold Path.isAbsolute
    rw [hpath, List.head?_append_of_ne_nil _ hne]
  refine ⟨count, ?_⟩
  rw [steps_eq, steps_eq, habsolute, hpath, List.append_assoc]
  cases count with
  | zero => rw [List.replicate_zero, List.replicate_zero, List.append_nil, List.append_nil]
  | succ count =>
    rw [List.replicate_succ, stepsBetween_append, stepsBetween_slashes]

/-! ## Paths -/

/-- The path can be looked up at all. -/
structure Nameable (path : String) : Prop where
  nonempty : path ≠ ""
  nul : '\x00' ∉ path.toList
  size : path.utf8ByteSize ≤ maxPathSize

/-- Where a path leads. -/
theorem locate_eq_ok_iff {fs : FileSystem} {path : String} : fs.locate path last = .ok place ↔
    Nameable path ∧ Leads fs.tree last maxLinks fs.workingDir (steps path) place := by
  unfold locate
  constructor
  · intro h
    split at h
    · cases h
    · rename_i hne
      split at h
      · cases h
      · rename_i hnul
        split at h
        · cases h
        · rename_i hsize
          exact ⟨⟨hne, by simpa using hnul, Nat.le_of_not_lt hsize⟩, leads_of_locateFrom h⟩
  · rintro ⟨⟨hne, hnul, hsize⟩, hleads⟩
    rw [if_neg hne, if_neg (by simpa using hnul), if_neg (Nat.not_lt_of_le hsize)]
    exact locateFrom_of_leads hleads

/-- A path goes on to lead to a thing while the tree grows. -/
theorem locate_of_grows {fs fs' : FileSystem} {path : String} {found : List String}
    (h : fs.locate path last = .ok (.present found)) (hworking : fs'.workingDir = fs.workingDir)
    (hgrows : fs.tree.Grows fs'.tree) : fs'.locate path last = .ok (.present found) := by
  obtain ⟨hname, hleads⟩ := locate_eq_ok_iff.1 h
  refine locate_eq_ok_iff.2 ⟨hname, ?_⟩
  rw [hworking]
  exact hleads.of_grows hgrows

/-- What leads to something in a directory also leads to the directory, when the dot for the
directory itself takes the place of the name. -/
theorem exists_locate_join_dot {fs : FileSystem} {dir name : String} {found : List String}
    (h : fs.locate (Path.join dir name) true = .ok (.present found)) (hslash : '/' ∉ name.toList)
    (hstep : stepOf name = .down name) :
    ∃ dirNames, fs.locate (Path.join dir ".") true = .ok (.present dirNames) ∧
      ((∀ target, fs.tree.descend (dirNames ++ [name]) ≠ some (.link target)) →
        found = dirNames ++ [name]) := by
  have hdot : '/' ∉ ".".toList := by decide
  obtain ⟨hnameable, hleads⟩ := locate_eq_ok_iff.1 h
  obtain ⟨way, hway⟩ := exists_steps_join dir
  obtain ⟨front, -, hjoin⟩ := exists_join_eq dir
  rw [hway name hslash, hstep] at hleads
  obtain ⟨dirNames, hleads, hfound⟩ := hleads.beside
  refine ⟨dirNames, locate_eq_ok_iff.2 ⟨?_, ?_⟩, hfound⟩
  · rw [hjoin name hslash] at hnameable
    -- the dot is no longer than the name in its place
    have hsize : 1 ≤ name.utf8ByteSize := Nat.one_le_iff_ne_zero.2 fun hzero => by
      rw [String.utf8ByteSize_eq_zero_iff.1 hzero] at hstep
      exact absurd hstep (by decide)
    have hfits := hnameable.size
    have hnul := hnameable.nul
    rw [String.toList_append, List.mem_append, not_or] at hnul
    rw [String.utf8ByteSize_append] at hfits
    rw [hjoin "." hdot]
    refine ⟨fun hempty => ?_, ?_, ?_⟩
    · exact absurd (String.append_eq_empty_iff.1 hempty).2 (by decide)
    · rw [String.toList_append, List.mem_append, not_or]
      exact ⟨hnul.1, by decide⟩
    · rw [String.utf8ByteSize_append]
      have hone : ".".utf8ByteSize = 1 := by decide
      omega
  · rw [hway "." hdot]
    exact hleads

/-! ## What paths lead to -/

theorem node?_eq_ok_iff {fs : FileSystem} {path : String} : fs.node? path = .ok t ↔
    ∃ names, fs.locate path true = .ok (.present names) ∧ fs.tree.descend names = some t := by
  unfold node?
  constructor
  · intro h
    split at h
    · rename_i names hlocate
      split at h
      · rename_i found hfound
        obtain rfl := Except.ok.inj h
        exact ⟨names, hlocate, hfound⟩
      · cases h
    · cases h
    · cases h
  · rintro ⟨names, hlocate, hfound⟩
    simp only [hlocate, hfound]

theorem isDirectory_iff {fs : FileSystem} {path : String} : fs.isDirectory path = true ↔
    ∃ names entries, fs.locate path true = .ok (.present names) ∧
      fs.tree.descend names = some (.dir entries) := by
  unfold isDirectory
  constructor
  · intro h
    split at h
    · rename_i found hfound
      obtain ⟨names, hlocate, hdescend⟩ := node?_eq_ok_iff.1 hfound
      cases found with
      | dir entries => exact ⟨names, entries, hlocate, hdescend⟩
      | file bytes => cases h
      | link target => cases h
    · cases h
  · rintro ⟨names, entries, hlocate, hdescend⟩
    rw [node?_eq_ok_iff.2 ⟨names, hlocate, hdescend⟩]
    rfl

theorem isFile_iff {fs : FileSystem} {path : String} : fs.isFile path = true ↔
    ∃ names bytes, fs.locate path true = .ok (.present names) ∧
      fs.tree.descend names = some (.file bytes) := by
  unfold isFile
  constructor
  · intro h
    split at h
    · rename_i bytes hfound
      obtain ⟨names, hlocate, hdescend⟩ := node?_eq_ok_iff.1 hfound
      exact ⟨names, bytes, hlocate, hdescend⟩
    · cases h
  · rintro ⟨names, bytes, hlocate, hdescend⟩
    rw [node?_eq_ok_iff.2 ⟨names, hlocate, hdescend⟩]

/-- The bytes of a file that a path leads to. -/
theorem read_of_locate {fs : FileSystem} {path : String} {bytes : ByteArray}
    (h : fs.locate path true = .ok (.present names))
    (hfile : fs.tree.descend names = some (.file bytes)) : fs.read path = .ok bytes := by
  unfold read
  rw [node?_eq_ok_iff.2 ⟨names, h, hfile⟩]

end FileSystem
end SchemaPage
