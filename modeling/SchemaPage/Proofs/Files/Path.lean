import Mathlib.Data.List.Induction
import SchemaPage.Files.Path
import SchemaPage.Proofs.Text.Split

/-!
# The parts of joined paths

A path is a text, and two paths are compared by their parts.  Joining works on the texts: a slash is
put between them, or not, and there may be slashes and dots in them that are no parts.  Here it is
seen from the parts: whatever a directory ends with, the parts of a path in it follow its own.

* `Path.IsNormal`: a text that is a part of paths under its own name.
* `Path.named_mem_parts_iff`, `Path.mem_iff_exists_named`: the names among the parts of a path, and
  their characters.
* `Path.front`: what stands in front of a path in a directory.
* `Path.parts_join`: the parts of names in a directory.
* `Path.foldl_join`: names put into a directory one after the other, or together.
-/

namespace SchemaPage

namespace Path

/-! ## Parts -/

/-- What the parts of a path begin with, before those between its slashes. -/
def start (path : String) : List PathPart :=
  if isAbsolute path then [.root]
  else if (Text.split '/' path).head? = some "." then [.current]
  else []

theorem parts_eq (path : String) :
    parts path = start path ++ (Text.split '/' path).filterMap part? := rfl

/-- After a slash at the start there is the top of the tree. -/
theorem parts_slash (r : List Char) : parts (String.ofList ('/' :: r)) =
    .root :: (Text.split '/' (String.ofList r)).filterMap part? := by
  have hstart : start (String.ofList ('/' :: r)) = [.root] := by simp [start, isAbsolute]
  have hsplit := Text.split_ofList_append_cons '/' [] r
  rw [List.nil_append] at hsplit
  rw [parts_eq, hstart, hsplit]
  rfl

/-- What stands after a slash follows the parts before it. -/
theorem parts_append_slash {l : List Char} (h : l ≠ []) (r : List Char) :
    parts (String.ofList (l ++ '/' :: r)) =
      parts (String.ofList l) ++ (Text.split '/' (String.ofList r)).filterMap part? := by
  have hsplit := Text.split_ofList_append_cons '/' l r
  have hstart : start (String.ofList (l ++ '/' :: r)) = start (String.ofList l) := by
    unfold start isAbsolute
    rw [hsplit, List.head?_append_of_ne_nil _ (Text.split_ne_nil _ _), String.toList_ofList,
      String.toList_ofList, List.head?_append_of_ne_nil _ h]
  rw [parts_eq, parts_eq, hstart, hsplit, List.filterMap_append, List.append_assoc]

/-! ## Names -/

/-- The text is a part of paths under its own name: it is not empty, it has no slash, and it is
neither of the two texts that stand for a directory and for the one above it. -/
structure IsNormal (name : String) : Prop where
  nonempty : name ≠ ""
  not_dot : name ≠ "."
  not_dots : name ≠ ".."
  no_slash : '/' ∉ name.toList

theorem part?_eq_some_named_iff {stretch name : String} : part? stretch = some (.named name) ↔
    stretch = name ∧ name ≠ "" ∧ name ≠ "." ∧ name ≠ ".." := by
  unfold part?
  split_ifs with hstay hup
  · refine iff_of_false nofun ?_
    rintro ⟨rfl, hempty, hdot, -⟩
    exact hstay.elim hempty hdot
  · refine iff_of_false nofun ?_
    rintro ⟨rfl, -, -, hdots⟩
    exact hdots hup
  · obtain ⟨hempty, hdot⟩ := not_or.1 hstay
    rw [Option.some_inj, PathPart.named.injEq]
    constructor
    · rintro rfl
      exact ⟨rfl, hempty, hdot, hup⟩
    · exact And.left

theorem IsNormal.part?_eq {name : String} (h : IsNormal name) : part? name = some (.named name) :=
  part?_eq_some_named_iff.2 ⟨rfl, h.nonempty, h.not_dot, h.not_dots⟩

theorem filterMap_part? {names : List String} (h : ∀ name ∈ names, IsNormal name) :
    names.filterMap part? = names.map .named := by
  rw [List.filterMap_congr fun name hname => (h name hname).part?_eq]
  exact congrFun List.filterMap_eq_map names

theorem ofParts_map_named (names : List String) :
    ofParts (names.map .named) = "/".intercalate names := by
  unfold ofParts
  rw [List.map_map]
  exact congrArg _ (List.map_id names)

/-- The names among the parts of a path. -/
theorem named_mem_parts_iff {path name : String} : .named name ∈ parts path ↔
    name ∈ Text.split '/' path ∧ name ≠ "" ∧ name ≠ "." ∧ name ≠ ".." := by
  have hstart : PathPart.named name ∉ start path := by
    unfold start
    split_ifs <;> simp
  rw [parts_eq, List.mem_append, or_iff_right hstart, List.mem_filterMap]
  constructor
  · rintro ⟨stretch, hmem, hpart⟩
    obtain ⟨rfl, hname⟩ := part?_eq_some_named_iff.1 hpart
    exact ⟨hmem, hname⟩
  · rintro ⟨hmem, hname⟩
    exact ⟨name, hmem, part?_eq_some_named_iff.2 ⟨rfl, hname⟩⟩

theorem isNormal_of_mem_parts {path name : String} (h : .named name ∈ parts path) :
    IsNormal name := by
  obtain ⟨hmem, hempty, hdot, hdots⟩ := named_mem_parts_iff.1 h
  exact ⟨hempty, hdot, hdots, fun hslash => (Text.mem_of_mem_split hmem hslash).2 rfl⟩

/-- Apart from slashes and dots, the characters of a path are those of the names among its parts. -/
theorem mem_iff_exists_named {path : String} {c : Char} (hslash : c ≠ '/') (hdot : c ≠ '.') :
    c ∈ path.toList ↔ ∃ name, .named name ∈ parts path ∧ c ∈ name.toList := by
  constructor
  · intro hc
    rw [← Text.intercalate_cut '/' path.toList] at hc
    rcases Text.mem_intercalate hc with hsep | ⟨chars, hchars, hc⟩
    · exact absurd (List.mem_singleton.1 hsep) hslash
    · have hne : ∀ s : String, c ∉ s.toList → String.ofList chars ≠ s := by
        rintro s hs rfl
        exact hs (by rwa [String.toList_ofList])
      refine ⟨String.ofList chars,
        named_mem_parts_iff.2 ⟨List.mem_map_of_mem hchars, hne "" (by simp),
        hne "." (by simp [hdot]), hne ".." (by simp [hdot])⟩, ?_⟩
      rwa [String.toList_ofList]
  · rintro ⟨name, hname, hc⟩
    exact (Text.mem_of_mem_split (named_mem_parts_iff.1 hname).1 hc).1

/-! ## Joining -/

theorem isAbsolute_of_forall {path : String} (h : '/' ∉ path.toList) : isAbsolute path = false :=
  beq_eq_false_iff_ne.2 fun hhead => h (List.mem_of_mem_head? hhead)

/-- What stands in front of a path in a directory. -/
def front (dir : String) : String :=
  if dir.toList.getLast?.any (· != '/') then dir ++ "/" else dir

theorem join_of_relative {path : String} (h : isAbsolute path = false) (dir : String) :
    join dir path = front dir ++ path := by
  unfold join front
  rw [h, if_neg Bool.false_ne_true]
  split <;> rfl

/-- It ends with a slash, unless the directory is written as nothing. -/
theorem front_cases (dir : String) :
    dir = "" ∧ front dir = "" ∨ ∃ l, (front dir).toList = l ++ ['/'] ∧
    (dir = String.ofList (l ++ ['/']) ∨ l ≠ [] ∧ dir = String.ofList l) := by
  rcases List.eq_nil_or_concat dir.toList with hnil | ⟨l, c, hl⟩
  · obtain rfl := String.toList_eq_nil_iff.1 hnil
    exact Or.inl ⟨rfl, rfl⟩
  · rw [List.concat_eq_append] at hl
    right
    unfold front
    rw [hl, List.getLast?_concat]
    by_cases hc : c = '/'
    · subst hc
      refine ⟨l, hl, Or.inl ?_⟩
      rw [← hl, String.ofList_toList]
    · refine ⟨dir.toList, ?_, Or.inr ⟨?_, String.ofList_toList.symm⟩⟩
      · simp [hc]
      · simp [hl]

/-- A name has a slash behind it when it is a directory. -/
theorem front_append {name : String} (hne : name ≠ "") (hslash : '/' ∉ name.toList) (s : String) :
    front (s ++ name) = s ++ name ++ "/" := by
  obtain ⟨l, c, hl⟩ := (List.eq_nil_or_concat name.toList).resolve_left
    (mt String.toList_eq_nil_iff.1 hne)
  rw [List.concat_eq_append] at hl
  have hc : c ≠ '/' := fun h => hslash (by simp [hl, h])
  have hlast : (s ++ name).toList.getLast? = some c := by
    rw [String.toList_append, hl, ← List.append_assoc, List.getLast?_concat]
  unfold front
  rw [hlast, if_pos (by simpa using hc)]

/-- A path that is not absolute follows the directory, which ends with a slash then. -/
theorem join_eq_ofList {dir path : String} (hdir : dir ≠ "") (h : isAbsolute path = false) :
    ∃ l, join dir path = String.ofList (l ++ '/' :: path.toList) ∧
      (dir = String.ofList (l ++ ['/']) ∨ l ≠ [] ∧ dir = String.ofList l) := by
  obtain ⟨l, hfront, hl⟩ := (front_cases dir).resolve_left fun hempty => hdir hempty.1
  refine ⟨l, ?_, hl⟩
  rw [join_of_relative h, ← String.toList_inj, String.toList_append, hfront, String.toList_ofList,
    List.append_assoc, List.singleton_append]

/-- The parts of a path in a directory are those of the directory and what stands between the
slashes of the path. -/
theorem parts_join_of_relative {dir path : String} (hdir : dir ≠ "") (h : isAbsolute path = false) :
    parts (join dir path) = parts dir ++ (Text.split '/' path).filterMap part? := by
  obtain ⟨l, hjoin, hl⟩ := join_eq_ofList hdir h
  have hlist : String.ofList path.toList = path := String.ofList_toList
  rw [hjoin]
  rcases hl with rfl | ⟨hl, rfl⟩
  · by_cases hl : l = []
    · subst hl
      rw [List.nil_append, List.nil_append, parts_slash, parts_slash, hlist]
      rfl
    · rw [parts_append_slash hl, parts_append_slash hl, hlist, List.append_assoc]
      rfl
  · rw [parts_append_slash hl, hlist]

/-- Between the slashes of a path in a directory there is last what is between those of the path. -/
theorem exists_split_join {path : String} (h : isAbsolute path = false) (dir : String) :
    ∃ before, Text.split '/' (join dir path) = before ++ Text.split '/' path := by
  by_cases hdir : dir = ""
  · exact ⟨[], by rw [hdir, join_empty, List.nil_append]⟩
  · obtain ⟨l, hjoin, -⟩ := join_eq_ofList hdir h
    exact ⟨_, by rw [hjoin, Text.split_ofList_append_cons, String.ofList_toList]⟩

section Names

variable {names : List String} (hne : names ≠ []) (hnames : ∀ name ∈ names, IsNormal name)

include hne hnames

theorem split_intercalate_names : Text.split '/' ("/".intercalate names) = names :=
  Text.split_intercalate rfl hne fun name hname => (hnames name hname).no_slash

theorem isAbsolute_intercalate : isAbsolute ("/".intercalate names) = false := by
  obtain ⟨name, rest, rfl⟩ := List.exists_cons_of_ne_nil hne
  have hname := hnames name List.mem_cons_self
  have hhead : ("/".intercalate (name :: rest)).toList.head? = name.toList.head? := by
    have hnil : name.toList ≠ [] := mt String.toList_eq_nil_iff.1 hname.nonempty
    cases rest with
    | nil => rw [String.intercalate_singleton]
    | cons next rest =>
      rw [String.intercalate_cons_cons, String.toList_append, String.toList_append,
        List.append_assoc, List.head?_append_of_ne_nil _ hnil]
  unfold isAbsolute
  rw [hhead]
  exact isAbsolute_of_forall hname.no_slash

/-- The parts of names in a directory are those of the directory and the names. -/
theorem parts_join (dir : String) :
    parts (join dir ("/".intercalate names)) = parts dir ++ names.map .named := by
  have hrelative := isAbsolute_intercalate hne hnames
  have hsplit := split_intercalate_names hne hnames
  have hparts : (Text.split '/' ("/".intercalate names)).filterMap part? = names.map .named := by
    rw [hsplit, filterMap_part? hnames]
  by_cases hdir : dir = ""
  · obtain ⟨name, rest, rfl⟩ := List.exists_cons_of_ne_nil hne
    have hstart : start ("/".intercalate (name :: rest)) = [] := by
      have hdot : some name ≠ some "." :=
        mt Option.some_inj.1 (hnames name List.mem_cons_self).not_dot
      unfold start
      rw [hrelative, hsplit, List.head?_cons, if_neg Bool.false_ne_true, if_neg hdot]
    rw [hdir, join_empty, parts_eq, hstart, hparts, parts_empty]
  · rw [parts_join_of_relative hdir hrelative, hparts]

/-- Names are put into a directory one after the other, or together. -/
theorem foldl_join (dir : String) : names.foldl join dir = join dir ("/".intercalate names) := by
  rw [join_of_relative (isAbsolute_intercalate hne hnames)]
  induction names using List.reverseRecOn with
  | nil => exact absurd rfl hne
  | append_singleton init name ih =>
    have hname := hnames name List.mem_concat_self
    have hinit : ∀ m ∈ init, IsNormal m := fun m hm => hnames m (List.mem_append_left _ hm)
    rw [List.foldl_append, List.foldl_cons, List.foldl_nil,
      join_of_relative (isAbsolute_of_forall hname.no_slash)]
    by_cases hnil : init = []
    · subst hnil
      rw [List.foldl_nil, List.nil_append, String.intercalate_singleton]
    · rw [ih hnil hinit, String.intercalate_append_of_ne_nil hnil (List.cons_ne_nil _ _),
        String.intercalate_singleton]
      -- what has been joined so far ends with the last of the names
      obtain ⟨before, last, rfl⟩ := (List.eq_nil_or_concat init).resolve_left hnil
      rw [List.concat_eq_append] at hinit ⊢
      have hlast := hinit last List.mem_concat_self
      obtain ⟨s, hs⟩ : ∃ s, "/".intercalate (before ++ [last]) = s ++ last := by
        by_cases hbefore : before = []
        · subst hbefore
          exact ⟨"", by rw [List.nil_append, String.intercalate_singleton, String.empty_append]⟩
        · exact ⟨_, by rw [String.intercalate_append_of_ne_nil hbefore (List.cons_ne_nil _ _),
            String.intercalate_singleton]⟩
      rw [hs, ← String.append_assoc, front_append hlast.nonempty hlast.no_slash]
      simp only [String.append_assoc]

end Names

end Path
end SchemaPage
