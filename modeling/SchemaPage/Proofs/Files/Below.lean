import SchemaPage.Proofs.Files.Detour

/-!
# Paths inside a directory

Whether a path is inside a directory is asked of the two texts, after the dots in them have been
followed.  Then there are names in the path after all that is in the directory.

A path that is joined to a directory leads inside as long as it does not go up and is not absolute.
It can be written in several ways, of which one is made of names alone.  A text spells out its parts
when there is nothing in it that is no part.

* `Path.resolved`: the parts of a path after its dots have been followed.
* `Path.IsBelow`: a path is inside a directory.
* `Path.existsUnique_names`: there is one way without detours to a path that is inside a directory.
* `Path.SpellsOut`, `Path.exists_below_iff_spellsOut`: the texts that are made of the parts they
  add.
* `FileSystem.isBelow_of_isFile`: paths to files that lead inside.
-/

namespace SchemaPage
namespace Path

/-! ## Following the dots -/

/-- Where one part more leads.  Two dots lead out of what has a name, stay at the top of the tree,
and are kept where nothing is known of what is above. -/
def enter (place : List PathPart) : PathPart → List PathPart
  | .root => [.root]
  | .current => place
  | .parent =>
    match place.getLast? with
    | some (.named _) => place.dropLast
    | some .root => place
    | _ => place ++ [.parent]
  | .named name => place ++ [.named name]

/-- The parts of a path after its dots have been followed. -/
def resolved (path : String) : List PathPart := (parts path).foldl enter []

/-- The path leads inside the directory, by the look of both: there are names in it that come after
all that is in the directory. -/
def IsBelow (dir path : String) : Prop :=
  ∃ names : List String, names ≠ [] ∧ resolved path = resolved dir ++ names.map .named

variable {dir path : String} {place ps : List PathPart} {names : List String}

theorem foldl_enter_named (names : List String) (place : List PathPart) :
    (names.map .named).foldl enter place = place ++ names.map .named := by
  induction names generalizing place with
  | nil => exact (List.append_nil place).symm
  | cons name names ih =>
    show (names.map PathPart.named).foldl enter (place ++ [.named name]) = _
    rw [ih, List.append_assoc]
    rfl

theorem resolved_of_parts_eq (h : parts path = parts dir ++ names.map .named) :
    resolved path = resolved dir ++ names.map .named := by
  unfold resolved
  rw [h, List.foldl_append, foldl_enter_named]

/-- Following the dots gives no new names. -/
theorem mem_of_mem_foldl_enter {name : String} (h : .named name ∈ ps.foldl enter place) :
    .named name ∈ place ∨ .named name ∈ ps := by
  induction ps generalizing place with
  | nil => exact Or.inl h
  | cons part ps ih =>
    rcases ih h with henter | hps
    · unfold enter at henter
      split at henter
      · exact absurd henter (by simp)
      · exact Or.inl henter
      · split at henter
        · exact Or.inl (List.dropLast_subset place henter)
        · exact Or.inl henter
        · exact Or.inl (by simpa using henter)
      · rcases List.mem_append.1 henter with hplace | hname
        · exact Or.inl hplace
        · exact Or.inr (List.mem_cons.2 (Or.inl (List.mem_singleton.1 hname)))
    · exact Or.inr (List.mem_cons_of_mem part hps)

theorem named_mem_parts_of_mem_resolved {name : String} (h : .named name ∈ resolved path) :
    .named name ∈ parts path :=
  (mem_of_mem_foldl_enter h).resolve_left List.not_mem_nil

/-- From the top of the tree every way stays below it. -/
theorem head?_foldl_enter (h : place.head? = some .root) :
    (ps.foldl enter place).head? = some .root := by
  induction ps generalizing place with
  | nil => exact h
  | cons part ps ih =>
    refine ih ?_
    obtain ⟨rest, rfl⟩ := List.head?_eq_some_iff.1 h
    unfold enter
    split
    · rfl
    · exact h
    · split
      · rename_i name hlast
        cases rest with
        | nil => cases hlast
        | cons next rest => rfl
      · exact h
      · rfl
    · rfl

theorem head?_resolved_of_absolute (h : isAbsolute path = true) :
    (resolved path).head? = some .root := by
  have hstart : start path = [.root] := if_pos h
  unfold resolved
  rw [parts_eq, hstart]
  show (((Text.split '/' path).filterMap part?).foldl enter [.root]).head? = some .root
  exact head?_foldl_enter rfl

/-- The names after a directory are fixed by where they lead. -/
theorem names_eq_of_resolved_eq {path' : String} {names' : List String}
    (h : parts path = parts dir ++ names.map .named)
    (h' : parts path' = parts dir ++ names'.map .named)
    (heq : resolved path' = resolved path) : names' = names := by
  rw [resolved_of_parts_eq h, resolved_of_parts_eq h'] at heq
  exact List.map_injective_iff.2 (fun _ _ h => PathPart.named.inj h) (List.append_cancel_left heq)

/-- What is inside a directory is there under some names, and under these only when dots are not
used. -/
theorem existsUnique_names (h : IsBelow dir path) :
    ∃! names : List String, names ≠ [] ∧ (∀ name ∈ names, IsNormal name) ∧
      resolved (join dir ("/".intercalate names)) = resolved path := by
  obtain ⟨names, hne, hresolved⟩ := h
  have hnames : ∀ name ∈ names, IsNormal name := by
    intro name hname
    have hmem : .named name ∈ resolved path := by
      rw [hresolved]
      exact List.mem_append_right _ (List.mem_map_of_mem hname)
    exact isNormal_of_mem_parts (named_mem_parts_of_mem_resolved hmem)
  have hparts := parts_join hne hnames dir
  have hsame : resolved (join dir ("/".intercalate names)) = resolved path :=
    (resolved_of_parts_eq hparts).trans hresolved.symm
  refine ⟨names, ⟨hne, hnames, hsame⟩, ?_⟩
  rintro names' ⟨hne', hnames', heq⟩
  exact names_eq_of_resolved_eq hparts (parts_join hne' hnames' dir) (heq.trans hsame.symm)

/-! ## Texts that spell out their parts -/

/-- Between the slashes of the text there are parts only. -/
def IsSpelled (text : String) : Prop :=
  ∀ stretch ∈ Text.split '/' text, stretch ≠ "" ∧ stretch ≠ "."

/-- In a directory the text spells out the parts that it adds.  A dot at the start is such a part
when the directory is written as nothing. -/
inductive SpellsOut (dir : String) : String → Prop where
  | plain {text : String} (spelled : IsSpelled text) : SpellsOut dir text
  | dotted {text : String} (empty : dir = "") (spelled : IsSpelled text) :
    SpellsOut dir ("./" ++ text)

theorem part?_eq_none_iff {stretch : String} :
    part? stretch = none ↔ stretch = "" ∨ stretch = "." := by
  unfold part?
  split_ifs with hstay hup
  · exact iff_of_true rfl hstay
  · exact iff_of_false nofun hstay
  · exact iff_of_false nofun hstay

theorem text_of_part? {stretch : String} {part : PathPart} (h : part? stretch = some part) :
    part.text = stretch := by
  unfold part? at h
  split_ifs at h with hstay hup
  · obtain rfl := Option.some_inj.1 h
    exact hup.symm
  · obtain rfl := Option.some_inj.1 h
    rfl

theorem map_text_filterMap_part? {stretches : List String}
    (h : ∀ stretch ∈ stretches, stretch ≠ "" ∧ stretch ≠ ".") :
    (stretches.filterMap part?).map PathPart.text = stretches := by
  induction stretches with
  | nil => rfl
  | cons stretch stretches ih =>
    obtain ⟨hstretch, hstretches⟩ := List.forall_mem_cons.1 h
    cases hpart : part? stretch with
    | none => exact absurd (part?_eq_none_iff.1 hpart) (not_or.2 hstretch)
    | some part =>
      rw [List.filterMap_cons_some hpart, List.map_cons, text_of_part? hpart, ih hstretches]

theorem IsSpelled.ofParts_eq {text : String} (h : IsSpelled text) :
    ofParts ((Text.split '/' text).filterMap part?) = text := by
  rw [ofParts, map_text_filterMap_part? h, Text.intercalate_split rfl]

theorem IsSpelled.filterMap_ne_nil {text : String} (h : IsSpelled text) :
    (Text.split '/' text).filterMap part? ≠ [] := fun hnil => by
  have htexts := map_text_filterMap_part? h
  rw [hnil] at htexts
  exact Text.split_ne_nil '/' text htexts.symm

/-- There is nothing before the first slash of an absolute path. -/
theorem IsSpelled.isAbsolute_eq {text : String} (h : IsSpelled text) : isAbsolute text = false := by
  rw [Bool.eq_false_iff]
  intro habsolute
  obtain ⟨rest, htext⟩ := List.head?_eq_some_iff.1 (beq_iff_eq.1 habsolute)
  have hsplit := Text.split_ofList_append_cons '/' [] rest
  rw [List.nil_append, ← htext, String.ofList_toList] at hsplit
  have hmem : "" ∈ Text.split '/' text := by
    rw [hsplit]
    exact List.mem_append_left _ List.mem_cons_self
  exact (h "" hmem).1 rfl

/-- There is something before the first slash of any other path. -/
theorem exists_head?_split {text : String} (hne : text ≠ "") (h : isAbsolute text = false) :
    ∃ stretch, (Text.split '/' text).head? = some stretch ∧ stretch ≠ "" := by
  obtain ⟨c, cs, htext⟩ := List.exists_cons_of_ne_nil (mt String.toList_eq_nil_iff.1 hne)
  obtain ⟨part, parts, hcut⟩ := List.exists_cons_of_ne_nil (Text.cut_ne_nil (· == '/') cs)
  have hc : (c == '/') = false := by
    unfold isAbsolute at h
    rw [htext] at h
    exact h
  refine ⟨String.ofList (c :: part), ?_, ?_⟩
  · rw [Text.split, htext, Text.cut_cons_of_neg (q := (· == '/')) hc hcut]
    rfl
  · rw [ne_eq, ← String.toList_eq_nil_iff, String.toList_ofList]
    exact List.cons_ne_nil c part

theorem parts_ne_nil {text : String} (hne : text ≠ "") : parts text ≠ [] := by
  rw [parts_eq]
  unfold start
  split_ifs with habsolute hdot
  · exact List.cons_ne_nil _ _
  · exact List.cons_ne_nil _ _
  · obtain ⟨stretch, hhead, hstretch⟩ := exists_head?_split hne (Bool.eq_false_iff.2 habsolute)
    have hpart : part? stretch ≠ none := fun hnone =>
      (part?_eq_none_iff.1 hnone).elim hstretch fun heq => hdot (heq ▸ hhead)
    obtain ⟨part, hsome⟩ := Option.ne_none_iff_exists'.1 hpart
    exact List.ne_nil_of_mem (List.mem_filterMap.2 ⟨stretch, List.mem_of_mem_head? hhead, hsome⟩)

/-- A text made of parts that stand between slashes is split into them. -/
theorem split_ofParts {text : String} (hne : ps ≠ [])
    (h : ∀ part ∈ ps, part ∈ (Text.split '/' text).filterMap part?) :
    Text.split '/' (ofParts ps) = ps.map PathPart.text := by
  refine Text.split_intercalate rfl (mt List.map_eq_nil_iff.1 hne) fun stretch hstretch => ?_
  obtain ⟨part, hpart, rfl⟩ := List.mem_map.1 hstretch
  obtain ⟨stretch, hmem, hsome⟩ := List.mem_filterMap.1 (h part hpart)
  rw [text_of_part? hsome]
  exact fun hslash => (Text.mem_of_mem_split hmem hslash).2 rfl

theorem isSpelled_ofParts {text : String} (hne : ps ≠ [])
    (h : ∀ part ∈ ps, part ∈ (Text.split '/' text).filterMap part?) : IsSpelled (ofParts ps) := by
  unfold IsSpelled
  rw [split_ofParts hne h]
  intro stretch hstretch
  obtain ⟨part, hpart, rfl⟩ := List.mem_map.1 hstretch
  obtain ⟨stretch, -, hsome⟩ := List.mem_filterMap.1 (h part hpart)
  rw [text_of_part? hsome, ← not_or, ← part?_eq_none_iff, hsome]
  exact Option.some_ne_none part

/-- The parts between the slashes of a text make up the text when it spells them out. -/
theorem filterMap_iff_isSpelled {text : String} :
    (Text.split '/' text).filterMap part? ≠ [] ∧
      ofParts ((Text.split '/' text).filterMap part?) = text ↔
      IsSpelled text := by
  constructor
  · rintro ⟨hne, heq⟩
    have hspelled := isSpelled_ofParts hne fun _ => id
    rwa [heq] at hspelled
  · exact fun h => ⟨h.filterMap_ne_nil, h.ofParts_eq⟩

theorem split_dotted (text : String) :
    Text.split '/' ("./" ++ text) = "." :: Text.split '/' text := by
  have hlist : "./" ++ text = String.ofList (['.'] ++ '/' :: text.toList) := by
    rw [← String.toList_inj]
    simp
  rw [hlist, Text.split_ofList_append_cons, String.ofList_toList]
  rfl

theorem ofParts_current (hne : ps ≠ []) : ofParts (.current :: ps) = "./" ++ ofParts ps := by
  obtain ⟨part, ps, rfl⟩ := List.exists_cons_of_ne_nil hne
  show "/".intercalate ("." :: (part :: ps).map PathPart.text) = _
  rw [List.map_cons, String.intercalate_cons_cons]
  rfl

/-- What is added to a directory is fixed by the path. -/
theorem exists_below_iff {added : List PathPart} {text : String}
    (h : parts path = parts dir ++ added) :
    (∃ below, below ≠ [] ∧ parts path = parts dir ++ below ∧ text = ofParts below) ↔
      added ≠ [] ∧ ofParts added = text := by
  constructor
  · rintro ⟨below, hne, heq, htext⟩
    obtain rfl := List.append_cancel_left (h.symm.trans heq)
    exact ⟨hne, htext.symm⟩
  · rintro ⟨hne, htext⟩
    exact ⟨added, hne, h, htext.symm⟩

/-- Nothing absolute is inside the directory that is written as nothing. -/
theorem isAbsolute_eq_of_isBelow_empty {text : String} (h : IsBelow "" text) :
    isAbsolute text = false := by
  rw [Bool.eq_false_iff]
  intro habsolute
  obtain ⟨names, hne, hresolved⟩ := h
  obtain ⟨name, names, rfl⟩ := List.exists_cons_of_ne_nil hne
  have hroot := head?_resolved_of_absolute habsolute
  rw [hresolved] at hroot
  cases hroot

/-- In the directory that is written as nothing a text begins with its own dot. -/
theorem exists_below_empty_iff {text : String} (h : IsBelow "" text) :
    (∃ below, below ≠ [] ∧ parts text = parts "" ++ below ∧ text = ofParts below) ↔
      SpellsOut "" text := by
  have hparts : parts text = (if (Text.split '/' text).head? = some "." then [.current] else []) ++
      (Text.split '/' text).filterMap part? := by
    rw [parts_eq, start, isAbsolute_eq_of_isBelow_empty h]
    rfl
  rw [exists_below_iff (List.nil_append (parts text)).symm, hparts]
  split_ifs with hdot
  · have hadded : (Text.split '/' text).filterMap part? ≠ [] := fun hnil => by
      obtain ⟨names, hne, hresolved⟩ := h
      rw [resolved, hparts, if_pos hdot, hnil] at hresolved
      exact hne (List.map_eq_nil_iff.1 hresolved.symm)
    rw [List.singleton_append, ofParts_current hadded]
    constructor
    · rintro ⟨-, htext⟩
      rw [← htext]
      exact .dotted rfl (isSpelled_ofParts hadded fun _ => id)
    · rintro (hspelled | ⟨-, hspelled⟩)
      · exact absurd rfl (hspelled "." (List.mem_of_mem_head? hdot)).2
      · refine ⟨List.cons_ne_nil _ _, ?_⟩
        rw [split_dotted, List.filterMap_cons_none rfl, hspelled.ofParts_eq]
  · rw [List.nil_append, filterMap_iff_isSpelled]
    refine ⟨.plain, ?_⟩
    rintro (hspelled | ⟨-, hspelled⟩)
    · exact hspelled
    · rw [split_dotted] at hdot
      exact absurd rfl hdot

theorem spellsOut_iff_of_ne {text : String} (hdir : dir ≠ "") :
    SpellsOut dir text ↔ IsSpelled text := by
  refine ⟨?_, .plain⟩
  rintro (hspelled | ⟨hempty, -⟩)
  · exact hspelled
  · exact absurd hempty hdir

/-- An absolute path is not made of what it adds to a directory: its slash at the start is part of
the directory, and what is added stands between slashes. -/
theorem ne_ofParts_of_absolute {text : String} (hdir : dir ≠ "")
    (habsolute : isAbsolute text = true)
    (hne : ps ≠ []) (h : parts text = parts dir ++ ps) : text ≠ ofParts ps := by
  rintro rfl
  obtain ⟨first, rest, hfirst⟩ := List.exists_cons_of_ne_nil (parts_ne_nil hdir)
  have hstart : start (ofParts ps) = [.root] := if_pos habsolute
  rw [parts_eq, hstart, hfirst] at h
  have hadded : (Text.split '/' (ofParts ps)).filterMap part? = rest ++ ps := (List.cons.inj h).2
  have hspelled : IsSpelled (ofParts ps) := by
    have hmem : ∀ part ∈ ps, part ∈ (Text.split '/' (ofParts ps)).filterMap part? := by
      rw [hadded]
      exact fun part hpart => List.mem_append_right rest hpart
    exact isSpelled_ofParts hne hmem
  exact absurd habsolute (Bool.eq_false_iff.1 hspelled.isAbsolute_eq)

/-- A text that leads inside a directory is made of the parts that it adds when it spells them
out. -/
theorem exists_below_iff_spellsOut {text : String} (h : IsBelow dir (join dir text)) :
    (∃ below, below ≠ [] ∧ parts (join dir text) = parts dir ++ below ∧ text = ofParts below) ↔
      SpellsOut dir text := by
  by_cases hdir : dir = ""
  · subst hdir
    rw [join_empty] at h ⊢
    exact exists_below_empty_iff h
  · rw [spellsOut_iff_of_ne hdir]
    cases habsolute : isAbsolute text with
    | true =>
      rw [join_of_absolute habsolute]
      refine iff_of_false ?_ fun hspelled =>
        absurd habsolute (Bool.eq_false_iff.1 hspelled.isAbsolute_eq)
      rintro ⟨below, hne, heq, htext⟩
      exact ne_ofParts_of_absolute hdir habsolute hne heq htext
    | false =>
      rw [exists_below_iff (parts_join_of_relative hdir habsolute), filterMap_iff_isSpelled]

/-! ## Paths that lead inside -/

/-- Without two dots there are only names between the slashes. -/
theorem exists_names_of_not_mem {stretches : List String} (h : ".." ∉ stretches) :
    ∃ names : List String, stretches.filterMap part? = names.map .named := by
  induction stretches with
  | nil => exact ⟨[], rfl⟩
  | cons stretch stretches ih =>
    obtain ⟨names, hnames⟩ := ih fun hmem => h (List.mem_cons_of_mem stretch hmem)
    have hup : stretch ≠ ".." := fun heq => h (heq ▸ List.mem_cons_self)
    by_cases hstay : stretch = "" ∨ stretch = "."
    · exact ⟨names, by rw [List.filterMap_cons_none (part?_eq_none_iff.2 hstay), hnames]⟩
    · have hpart := part?_eq_some_named_iff.2 ⟨rfl, (not_or.1 hstay).1, (not_or.1 hstay).2, hup⟩
      exact ⟨stretch :: names, by rw [List.filterMap_cons_some hpart, hnames]; rfl⟩

/-- A path that adds names to a directory leads inside it. -/
theorem isBelow_join_of_names {text : String}
    (hrelative : isAbsolute text = false) (hne : names ≠ [])
    (h : (Text.split '/' text).filterMap part? = names.map .named) :
    IsBelow dir (join dir text) := by
  refine ⟨names, hne, ?_⟩
  by_cases hdir : dir = ""
  · subst hdir
    have hstart : (start text).foldl enter [] = [] := by
      unfold start
      rw [hrelative, if_neg Bool.false_ne_true]
      split <;> rfl
    rw [join_empty, resolved, parts_eq, List.foldl_append, hstart, h, foldl_enter_named]
    rfl
  · exact resolved_of_parts_eq (by rw [parts_join_of_relative hdir hrelative, h])

end Path

namespace FileSystem

/-- A way that ends with a step that stays leads to a directory. -/
theorem Leads.dir_of_stay {t : FileTree} {links : Nat} {names : List String} {way : List Step}
    {place : Place} (h : Leads t true links names way place) (hlast : way.getLast? = some .stay) :
    ∃ found entries, place = .present found ∧ t.descend found = some (.dir entries) := by
  induction h with
  | here => cases hlast
  | @move links names step there rest place entries hdir hmove hrest ih =>
    cases rest with
    | nil =>
      obtain rfl : step = .stay := Option.some_inj.1 hlast
      obtain rfl := Option.some_inj.1 hmove
      cases hrest with
      | here => exact ⟨names, entries, rfl, hdir⟩
    | cons next rest => exact ih hlast
  | free => cases hlast
  | link => cases hlast
  | @follow links names name target rest place hlink hon htarget hrest ih =>
    cases rest with
    | nil => cases hlast
    | cons next rest =>
      refine ih ?_
      rw [List.getLast?_append_of_ne_nil _ (List.cons_ne_nil next rest)]
      exact hlast
  | @enter links names name inner rest place hinner hnot hrest ih =>
    cases rest with
    | nil => cases hlast
    | cons next rest => exact ih hlast

/-- A path that ends with a slash or a dot leads to no file. -/
theorem getLast?_steps_of_isFile {fs : FileSystem} {path : String} (h : fs.isFile path = true) :
    (steps path).getLast? ≠ some .stay := fun hlast => by
  obtain ⟨names, bytes, hlocate, hfile⟩ := isFile_iff.1 h
  obtain ⟨found, entries, hplace, hdir⟩ := (locate_eq_ok_iff.1 hlocate).2.dir_of_stay hlast
  obtain rfl := Place.present.inj hplace
  rw [hfile] at hdir
  cases hdir

/-- A file is inside the directory if its path does not go up and is not absolute. -/
theorem isBelow_of_isFile {fs : FileSystem} {dir text : String}
    (hrelative : Path.isAbsolute text = false)
    (hup : ".." ∉ Text.split '/' text) (hfile : fs.isFile (Path.join dir text) = true) :
    Path.IsBelow dir (Path.join dir text) := by
  obtain ⟨names, hnames⟩ := Path.exists_names_of_not_mem hup
  refine Path.isBelow_join_of_names hrelative (fun hnil => ?_) hnames
  -- with no names in it the path ends with a step that stays
  obtain ⟨before, hsplit⟩ := Path.exists_split_join hrelative dir
  obtain ⟨init, stretch, hlast⟩ := (List.eq_nil_or_concat (Text.split '/' text)).resolve_left
    (Text.split_ne_nil '/' text)
  rw [List.concat_eq_append] at hlast
  have hnone : Path.part? stretch = none := by
    rw [hnil, List.map_nil, List.filterMap_eq_nil_iff] at hnames
    refine hnames stretch ?_
    rw [hlast]
    exact List.mem_concat_self
  have hstay : stepOf stretch = .stay := if_pos (Path.part?_eq_none_iff.1 hnone)
  refine getLast?_steps_of_isFile hfile ?_
  have hbetween : stepsBetween (Path.join dir text).toList =
    (Text.split '/' (Path.join dir text)).map stepOf := rfl
  rw [steps_eq, hbetween, hsplit, hlast, ← List.append_assoc, List.map_append, List.map_singleton,
    hstay, ← List.append_assoc, List.getLast?_concat]

end FileSystem
end SchemaPage
