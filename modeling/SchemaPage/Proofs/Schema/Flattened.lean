import SchemaPage.Proofs.Schema.References

/-!
# Nested declarations, flattened

In a descriptor a message stands inside another at a position, and so the way to it is a list of
positions.  The schema file has no such positions left: the messages stand in one list, the enums in
another, and map entries are not shown at all.  What keeps the two together is that each declaration
remembers its way, in its name and in the path of its comment, and that the ways are in order.  A
way comes before another when it leads there or turns to an earlier position, and this is the order
of the lists themselves: it lists the outer messages first, and of two messages beside each other
all that is in the first one before the second.

A message is skipped by its name and not by its mark, so the messages beside each other have to have
different names.  The position of a message that comes after a skipped one is still its position
among all messages beside it, and this is the position that paths have.

* `along?`: the messages along a way.
* `IsCommentAt`: the comment at a path.
* `FileDescriptor.ShowsMessage`, `FileDescriptor.ShowsEnum`, `FileDescriptor.ShowsService`: what is
  shown of a declaration.
* `MessageDescriptor.ways`, `MessageDescriptor.mem_ways_iff`, `MessageDescriptor.pairwise_ways`: the
  ways to the messages that are shown, in order.
* `FileDescriptor.flattened`: the whole file.
-/

namespace SchemaPage
namespace Proto

/-! ## Comments -/

/-- The text is the comment of a location: the one before the declaration, or else the one after it;
a blank text is none. -/
inductive Location.Bears (l : Location) : String → Prop where
  | leading {text : String} (leading : l.leading = some text) (shown : Text.isBlank text = false) :
    Bears l text
  | trailing {text : String} (silent : ∀ t, l.leading = some t → Text.isBlank t = true)
    (trailing : l.trailing = some text) (shown : Text.isBlank text = false) : Bears l text

/-- The comment at a path: that of the first location with the path that has one. -/
inductive IsCommentAt (locations : List Location) (path : List Nat) : Option Comment → Prop where
  | said {before after : List Location} {l : Location} {text : String}
    (split : locations = before ++ l :: after) (here : l.path = path) (bears : l.Bears text)
    (first : ∀ l' ∈ before, l'.path = path → ∀ t, ¬ l'.Bears t) :
    IsCommentAt locations path (some (Comment.ofText text))
  | silent (silent : ∀ l ∈ locations, l.path = path → ∀ t, ¬ l.Bears t) :
    IsCommentAt locations path none

theorem Location.comment?_cases (l : Location) :
    (∃ text, l.Bears text ∧ l.comment? = some (Comment.ofText text)) ∨
      (∀ text, ¬ l.Bears text) ∧ l.comment? = none := by
  have hshown : ∀ t : Option String, (∃ text, t = some text ∧ Text.isBlank text = false ∧
      t.filter (!Text.isBlank ·) = some text) ∨
      (∀ text, t = some text → Text.isBlank text = true) ∧ t.filter (!Text.isBlank ·) = none := by
    rintro (_ | text)
    · exact Or.inr ⟨nofun, rfl⟩
    · cases hblank : Text.isBlank text with
      | true =>
        exact Or.inr ⟨fun t ht => Option.some_inj.1 ht ▸ hblank, by simp [hblank]⟩
      | false => exact Or.inl ⟨text, rfl, hblank, by simp [hblank]⟩
  unfold comment?
  rcases hshown l.leading with ⟨text, hleading, hblank, hfilter⟩ | ⟨hleading, hfilter⟩
  · exact Or.inl ⟨text, .leading hleading hblank, by simp only [hfilter]; rfl⟩
  · rcases hshown l.trailing with ⟨text, htrailing, hblank, hfilter'⟩ | ⟨htrailing, hfilter'⟩
    · exact Or.inl
        ⟨text, .trailing hleading htrailing hblank, by simp only [hfilter, hfilter']; rfl⟩
    · refine Or.inr ⟨fun text hbears => ?_, by simp only [hfilter, hfilter']; rfl⟩
      cases hbears with
      | leading hsome hshown => exact absurd (hleading text hsome) (by rw [hshown]; decide)
      | trailing _ hsome hshown => exact absurd (htrailing text hsome) (by rw [hshown]; decide)

theorem isCommentAt_commentAt (locations : List Location) (path : List Nat) :
    IsCommentAt locations path (commentAt locations path) := by
  induction locations with
  | nil => exact .silent nofun
  | cons l ls ih =>
    have hcons : commentAt (l :: ls) path =
        if l.path = path then l.comment?.or (commentAt ls path) else commentAt ls path := by
      unfold commentAt
      rw [List.filter_cons]
      by_cases hpath : l.path = path
      · rw [if_pos (beq_iff_eq.2 hpath), if_pos hpath, List.findSome?_cons]
        cases l.comment? <;> rfl
      · rw [if_neg (mt beq_iff_eq.1 hpath), if_neg hpath]
    rw [hcons]
    generalize commentAt ls path = comment at ih
    by_cases hpath : l.path = path
    · rw [if_pos hpath]
      rcases l.comment?_cases with ⟨text, hbears, hcomment⟩ | ⟨hsilent, hcomment⟩
      · rw [hcomment]
        exact .said (List.nil_append _).symm hpath hbears nofun
      · rw [hcomment, Option.none_or]
        cases ih with
        | @said before after l' text split here bears first =>
          have hsplit : l :: ls = (l :: before) ++ l' :: after := congrArg (l :: ·) split
          exact .said hsplit here bears (List.forall_mem_cons.2 ⟨fun _ => hsilent, first⟩)
        | silent silent => exact .silent (List.forall_mem_cons.2 ⟨fun _ => hsilent, silent⟩)
    · rw [if_neg hpath]
      cases ih with
      | @said before after l' text split here bears first =>
        have hsplit : l :: ls = (l :: before) ++ l' :: after := congrArg (l :: ·) split
        exact .said hsplit here bears (List.forall_mem_cons.2 ⟨fun h => absurd h hpath, first⟩)
      | silent silent => exact .silent (List.forall_mem_cons.2 ⟨fun h => absurd h hpath, silent⟩)

/-! ## Ways -/

/-- The messages along a way: the one at the first position, the one at the second position inside
it, and so on. -/
def along? : List MessageDescriptor → List Nat → Option (List MessageDescriptor)
  | _, [] => some []
  | ms, i :: way => ms[i]?.bind fun m => (along? m.nested way).map (m :: ·)

theorem along?_cons_eq_some_iff {ms chain : List MessageDescriptor} {i : Nat} {way : List Nat} :
    along? ms (i :: way) = some chain ↔
      ∃ m rest, ms[i]? = some m ∧ along? m.nested way = some rest ∧ chain = m :: rest := by
  rw [along?, Option.bind_eq_some_iff]
  constructor
  · rintro ⟨m, hm, hchain⟩
    obtain ⟨rest, hrest, rfl⟩ := Option.map_eq_some_iff.1 hchain
    exact ⟨m, rest, hm, hrest, rfl⟩
  · rintro ⟨m, rest, hm, hrest, rfl⟩
    exact ⟨m, hm, by rw [hrest]; rfl⟩

/-- The path of the message at the end of a way: messages of a file have the number 4, and messages
inside a message the number 3. -/
def messagePath : List Nat → List Nat
  | [] => []
  | i :: way => 4 :: i :: way.flatMap fun j => [3, j]

mutual

/-- The ways from a message to itself and to the messages inside it that are shown. -/
def MessageDescriptor.ways : MessageDescriptor → List (List Nat)
  | ⟨_, _, nested, _, _, _, _, _, _, _, _⟩ => [] :: waysAll (!·.mapEntry) 0 nested

/-- The ways to the chosen messages of a list, and on to those inside them that are shown.  The list
starts at a position. -/
def waysAll (chosen : MessageDescriptor → Bool) (index : Nat) :
    List MessageDescriptor → List (List Nat)
  | [] => []
  | m :: ms => (if chosen m then m.ways.map (index :: ·) else []) ++ waysAll chosen (index + 1) ms

end

mutual

/-- What holds of a message when it holds of the messages directly inside it holds of all
messages. -/
theorem MessageDescriptor.nested_induction {P : MessageDescriptor → Prop}
    (step : ∀ m, (∀ n ∈ m.nested, P n) → P m) : ∀ m, P m
  | ⟨name, fields, nested, enums, oneofs, extensions, ranges, reserved, names, entry, options⟩ =>
    step ⟨name, fields, nested, enums, oneofs, extensions, ranges, reserved, names, entry, options⟩
      (nested_inductionAll step nested)

theorem nested_inductionAll {P : MessageDescriptor → Prop}
    (step : ∀ m, (∀ n ∈ m.nested, P n) → P m) : ∀ ms : List MessageDescriptor, ∀ n ∈ ms, P n
  | [] => nofun
  | m :: ms => List.forall_mem_cons.2
      ⟨MessageDescriptor.nested_induction step m, nested_inductionAll step ms⟩

end

variable {chosen : MessageDescriptor → Bool} {ms : List MessageDescriptor}

theorem waysAll_eq (chosen : MessageDescriptor → Bool) (ms : List MessageDescriptor) (index : Nat) :
    waysAll chosen index ms = (ms.zipIdx index).flatMap fun x =>
      if chosen x.1 then x.1.ways.map (x.2 :: ·) else [] := by
  induction ms generalizing index with
  | nil => rfl
  | cons m ms ih =>
    unfold waysAll
    rw [ih, List.zipIdx_cons, List.flatMap_cons]

theorem MessageDescriptor.ways_eq (m : MessageDescriptor) :
    m.ways = [] :: waysAll (!·.mapEntry) 0 m.nested := by
  cases m
  rfl

/-- A way into a list begins with the position of a chosen message and goes on inside it. -/
theorem cons_mem_waysAll_iff {i : Nat} {way : List Nat} :
    i :: way ∈ waysAll chosen 0 ms ↔ ∃ m, ms[i]? = some m ∧ chosen m = true ∧ way ∈ m.ways := by
  rw [waysAll_eq, List.mem_flatMap]
  constructor
  · rintro ⟨⟨m, j⟩, hm, hway⟩
    by_cases hchosen : chosen m = true
    · rw [if_pos hchosen] at hway
      obtain ⟨way', hway', heq⟩ := List.mem_map.1 hway
      obtain ⟨rfl, rfl⟩ := List.cons.inj heq
      exact ⟨m, List.mk_mem_zipIdx_iff_getElem?.1 hm, hchosen, hway'⟩
    · rw [if_neg hchosen] at hway
      exact absurd hway List.not_mem_nil
  · rintro ⟨m, hm, hchosen, hway⟩
    refine ⟨(m, i), List.mk_mem_zipIdx_iff_getElem?.2 hm, ?_⟩
    rw [if_pos hchosen]
    exact List.mem_map_of_mem hway

theorem nil_not_mem_waysAll : [] ∉ waysAll chosen 0 ms := by
  rw [waysAll_eq, List.mem_flatMap]
  rintro ⟨x, -, hway⟩
  split at hway
  · obtain ⟨way, -, heq⟩ := List.mem_map.1 hway
    exact absurd heq (List.cons_ne_nil _ _)
  · exact absurd hway List.not_mem_nil

/-- The ways into a list are in order when those inside each message are. -/
theorem pairwise_waysAll (h : ∀ m ∈ ms, m.ways.Pairwise (· < ·)) :
    (waysAll chosen 0 ms).Pairwise (· < ·) := by
  rw [waysAll_eq]
  refine List.pairwise_flatMap.2
    ⟨fun x hx => ?_, (Outcome.pairwise_snd_zipIdx ms).imp fun {x y} hlt => ?_⟩
  · split
    · have hways := h x.1 (List.fst_mem_of_mem_zipIdx hx)
      exact List.pairwise_map.2 (hways.imp fun hway => List.cons_lt_cons_iff.2 (Or.inr ⟨rfl, hway⟩))
    · exact List.Pairwise.nil
  · intro way hway way' hway'
    split at hway
    · split at hway'
      · obtain ⟨rest, -, rfl⟩ := List.mem_map.1 hway
        obtain ⟨rest', -, rfl⟩ := List.mem_map.1 hway'
        exact List.cons_lt_cons_iff.2 (Or.inl hlt)
      · exact absurd hway' List.not_mem_nil
    · exact absurd hway List.not_mem_nil

namespace MessageDescriptor

/-- On the ways to the messages that are shown there is no map entry. -/
theorem mem_ways_iff (m : MessageDescriptor) : ∀ way, way ∈ m.ways ↔
    ∃ chain, along? m.nested way = some chain ∧ ∀ n ∈ chain, n.mapEntry = false := by
  induction m using nested_induction with
  | step m ih =>
    intro way
    rw [ways_eq, List.mem_cons]
    cases way with
    | nil => exact ⟨fun _ => ⟨[], rfl, nofun⟩, fun _ => Or.inl rfl⟩
    | cons i way =>
      simp only [List.cons_ne_nil, false_or, along?_cons_eq_some_iff, cons_mem_waysAll_iff]
      constructor
      · rintro ⟨n, hn, hentry, hway⟩
        obtain ⟨rest, hrest, hnone⟩ := (ih n (List.mem_of_getElem? hn) way).1 hway
        exact ⟨n :: rest, ⟨n, rest, hn, hrest, rfl⟩,
          List.forall_mem_cons.2 ⟨by simpa using hentry, hnone⟩⟩
      · rintro ⟨chain, ⟨n, rest, hn, hrest, rfl⟩, hnone⟩
        obtain ⟨hentry, hnone⟩ := List.forall_mem_cons.1 hnone
        exact ⟨n, hn, by simpa using hentry,
          (ih n (List.mem_of_getElem? hn) way).2 ⟨rest, hrest, hnone⟩⟩

/-- An outer message comes before those inside it, and a message before those beside it that come
later. -/
theorem pairwise_ways (m : MessageDescriptor) : m.ways.Pairwise (· < ·) := by
  induction m using nested_induction with
  | step m ih =>
    rw [ways_eq]
    refine List.pairwise_cons.2 ⟨fun way hway => ?_, pairwise_waysAll ih⟩
    cases way with
    | nil => exact absurd hway nil_not_mem_waysAll
    | cons i way => exact List.nil_lt_cons i way

/-- Among messages of different names the mark decides whether a message is skipped. -/
theorem isNone_entryNamed? {m n : MessageDescriptor} (h : (m.nested.map (·.name)).Nodup)
    (hn : n ∈ m.nested) : (m.entryNamed? n.name).isNone = !n.mapEntry := by
  cases hentry : n.mapEntry with
  | true =>
    obtain ⟨entry, hsome⟩ := exists_entryNamed? hn hentry
    rw [hsome]
    rfl
  | false =>
    cases hsome : m.entryNamed? n.name with
    | none => rfl
    | some entry =>
      obtain ⟨hmem, hmark, hname⟩ := mem_of_entryNamed? hsome
      obtain rfl := List.inj_on_of_nodup_map h hmem hn hname
      exact absurd (hmark.symm.trans hentry) nofun

end MessageDescriptor

/-! ## Places and ways -/

theorem placedAll_eq (admitted : String → Bool) (scope : Option String) (path : List Nat)
    (ms : List MessageDescriptor) (index : Nat) :
    placedAll admitted scope path index ms = (ms.zipIdx index).flatMap fun x =>
      if admitted x.1.name then x.1.placed scope (childPath path .messageNested x.2) else [] := by
  induction ms generalizing index with
  | nil => rfl
  | cons m ms ih =>
    unfold placedAll
    rw [ih, List.zipIdx_cons, List.flatMap_cons]

/-- The scope that messages with some names make, one inside the other. -/
def scopeOf (names : List String) : Option String :=
  if names = [] then none else some (".".intercalate names)

theorem scopedName_scopeOf (names : List String) (name : String) :
    scopedName (scopeOf names) name = ".".intercalate (names ++ [name]) := by
  unfold scopeOf
  by_cases hnames : names = []
  · rw [if_pos hnames, hnames]
    rfl
  · rw [if_neg hnames, String.intercalate_append_of_ne_nil hnames (List.cons_ne_nil name []),
      String.intercalate_singleton]
    rfl

theorem scopeOf_append (names : List String) (name : String) :
    scopeOf (names ++ [name]) = some (scopedName (scopeOf names) name) := by
  rw [scopedName_scopeOf]
  exact if_neg (by simp)

/-- A place that a way leads to from a message, which is inside messages with some names and has a
path. -/
structure MessageDescriptor.LeadsTo (m : MessageDescriptor) (names : List String)
    (path way : List Nat) (p : Placed) : Prop where
  exists_chain : ∃ chain, along? m.nested way = some chain ∧
    (m :: chain).getLast? = some p.message ∧
    p.name = ".".intercalate (names ++ (m :: chain).map (·.name))
  path_eq : p.path = path ++ way.flatMap fun j => [3, j]

/-- The messages that are shown in a message are those that the ways lead to, in their order. -/
theorem MessageDescriptor.forall₂_leadsTo (m : MessageDescriptor) :
    (∀ n ∈ m.within, (n.nested.map (·.name)).Nodup) → ∀ names path,
      List.Forall₂ (m.LeadsTo names path) m.ways (m.placed (scopeOf names) path) := by
  induction m using nested_induction with
  | step m ih =>
    intro hnodup names path
    have hnested : (m.nested.map (·.name)).Nodup := hnodup m m.mem_within_self
    rw [ways_eq, placed_eq, waysAll_eq, placedAll_eq, ← scopeOf_append]
    refine .cons ⟨⟨[], rfl, rfl, scopedName_scopeOf names m.name⟩, (List.append_nil path).symm⟩
      (Outcome.forall₂_flatMap fun x hx => ?_)
    obtain ⟨n, i⟩ := x
    have hn := List.mk_mem_zipIdx_iff_getElem?.1 hx
    have hmem := List.mem_of_getElem? hn
    rw [isNone_entryNamed? hnested hmem]
    split
    · have hinside : ∀ o ∈ n.within, (o.nested.map (·.name)).Nodup := fun o ho => hnodup o <| by
        rw [within_eq]
        exact List.mem_cons_of_mem _ (List.mem_flatMap_of_mem hmem ho)
      rw [List.forall₂_map_left_iff]
      refine (ih n hmem hinside _ _).imp fun way p hway => ?_
      obtain ⟨⟨chain, hchain, hlast, hname⟩, hpath⟩ := hway
      refine ⟨⟨n :: chain, along?_cons_eq_some_iff.2 ⟨n, chain, hn, hchain, rfl⟩, ?_, ?_⟩, ?_⟩
      · rwa [List.getLast?_cons_cons]
      · rw [hname, List.append_assoc]
        rfl
      · rw [hpath, childPath, List.append_assoc]
        rfl
    · exact .nil

namespace FileDescriptor

variable {f : FileDescriptor}

/-- The way leads to the message, past messages with these names, of which the last one is its
own. -/
def LeadsTo (f : FileDescriptor) (way : List Nat) (names : List String) (m : MessageDescriptor) :
    Prop :=
  ∃ chain, along? f.messages way = some chain ∧ chain.map (·.name) = names ∧ chain.getLast? = some m

/-- The way leads to a message that is shown: inside the outermost message there is no map entry on
it. -/
def IsShownAt (f : FileDescriptor) (way : List Nat) : Prop :=
  ∃ m chain, along? f.messages way = some (m :: chain) ∧ ∀ n ∈ chain, n.mapEntry = false

/-- The ways to the messages that are shown. -/
def ways (f : FileDescriptor) : List (List Nat) := waysAll (fun _ => true) 0 f.messages

theorem mem_ways_iff {way : List Nat} : way ∈ f.ways ↔ f.IsShownAt way := by
  unfold ways IsShownAt
  cases way with
  | nil =>
    refine ⟨fun h => absurd h nil_not_mem_waysAll, fun ⟨m, chain, h, _⟩ => ?_⟩
    rw [along?] at h
    exact absurd (Option.some_inj.1 h) nofun
  | cons i way =>
    simp only [cons_mem_waysAll_iff, MessageDescriptor.mem_ways_iff, along?_cons_eq_some_iff,
      true_and]
    constructor
    · rintro ⟨m, hm, chain, hchain, hnone⟩
      exact ⟨m, chain, ⟨m, chain, hm, hchain, rfl⟩, hnone⟩
    · rintro ⟨m, chain, ⟨m', rest, hm, hrest, heq⟩, hnone⟩
      obtain ⟨rfl, rfl⟩ := List.cons.inj heq
      exact ⟨m, hm, chain, hrest, hnone⟩

theorem pairwise_ways : f.ways.Pairwise (· < ·) :=
  pairwise_waysAll fun m _ => m.pairwise_ways

/-- The messages of a file are those that the ways lead to, in their order. -/
theorem forall₂_ways (h : ∀ m ∈ f.allMessages, (m.nested.map (·.name)).Nodup) :
    List.Forall₂ (fun way p => ∃ names, f.LeadsTo way names p.message ∧
      p.name = ".".intercalate names ∧ p.path = messagePath way) f.ways f.placed := by
  unfold ways placed
  rw [waysAll_eq]
  refine Outcome.forall₂_flatMap fun x hx => ?_
  obtain ⟨m, i⟩ := x
  have hm := List.mk_mem_zipIdx_iff_getElem?.1 hx
  rw [if_pos rfl, List.forall₂_map_left_iff]
  have hplaced := m.forall₂_leadsTo (fun n hn => h n
    (List.mem_flatMap_of_mem (List.mem_of_getElem? hm) hn)) [] (childPath [] .fileMessage i)
  refine hplaced.imp fun way p hway => ?_
  obtain ⟨⟨chain, hchain, hlast, hname⟩, hpath⟩ := hway
  exact ⟨_, ⟨m :: chain, along?_cons_eq_some_iff.2 ⟨m, chain, hm, hchain, rfl⟩, rfl, hlast⟩, hname,
    hpath⟩

/-! ## What is shown -/

section Shown

variable (f : FileDescriptor) (file : SchemaFile)

/-- A declaration has these names with dots between them as its name.  Its full name begins with the
package, if there is one. -/
structure IsNamed (names : List String) (name : String) : Prop where
  dotted : name = ".".intercalate names
  packaged : f.package ≠ "" → file.qualify name = f.package ++ "." ++ ".".intercalate names
  unpackaged : f.package = "" → file.qualify name = ".".intercalate names

/-- The enum is shown that stands inside messages with some names and has a path. -/
structure ShowsEnum (names : List String) (path : List Nat) (e : EnumDescriptor) (d : EnumDecl) :
    Prop where
  named : f.IsNamed file (names ++ [e.name]) d.name
  comment : IsCommentAt f.locations path d.comment
  constants : List.Forall₂ (fun (x : ConstantDescriptor × Nat) c => c.name = x.1.name ∧
    c.value = x.1.number ∧ IsCommentAt f.locations (path ++ [2, x.2]) c.comment) e.constants.zipIdx
      d.constants

/-- The service is shown that has a path. -/
structure ShowsService (path : List Nat) (s : ServiceDescriptor) (d : Service) : Prop where
  named : f.IsNamed file [s.name] d.name
  comment : IsCommentAt f.locations path d.comment
  rpcs : List.Forall₂ (fun (x : MethodDescriptor × Nat) r => r.name = x.1.name ∧
    r.request = x.1.input ∧ r.response = x.1.output ∧
    IsCommentAt f.locations (path ++ [2, x.2]) r.comment) s.methods.zipIdx d.rpcs

/-- The message is shown that a way leads to. -/
structure ShowsMessage (way : List Nat) (d : Message) : Prop where
  declared : ∃ names m, f.LeadsTo way names m ∧ f.IsNamed file names d.name ∧
    d.fields = Placed.members f.locations f.dialect ⟨m, d.name, messagePath way⟩
  comment : IsCommentAt f.locations (messagePath way) d.comment

/-- The enums are shown that stand directly inside the message that a way leads to. -/
def ShowsEnums (way : List Nat) (ds : List EnumDecl) : Prop :=
  ∃ names m, f.LeadsTo way names m ∧
    List.Forall₂ (fun (x : EnumDescriptor × Nat) d =>
      f.ShowsEnum file names (messagePath way ++ [4, x.2]) x.1 d) m.enums.zipIdx ds

end Shown

variable {file : SchemaFile}

theorem isNamed (hpackage : file.package = f.package) {names : List String} {name : String}
    (h : name = ".".intercalate names) : f.IsNamed file names name := by
  refine ⟨h, fun hne => ?_, fun hempty => ?_⟩
  · rw [SchemaFile.qualify, hpackage, if_neg hne, h]
  · rw [SchemaFile.qualify, hpackage, if_pos hempty, h]

/-- An enum is shown by its declaration in the scope of some messages. -/
theorem showsEnum_declaration (hpackage : file.package = f.package) (names : List String)
    (path : List Nat) (e : EnumDescriptor) :
    f.ShowsEnum file names path e (e.declaration f.locations (scopeOf names) path) where
  named := isNamed hpackage (scopedName_scopeOf names e.name)
  comment := isCommentAt_commentAt f.locations path
  constants := Outcome.forall₂_zipIdx_map fun _ => ⟨rfl, rfl, isCommentAt_commentAt _ _⟩

theorem showsService_declaration (hpackage : file.package = f.package) (path : List Nat)
    (s : ServiceDescriptor) : f.ShowsService file path s (s.declaration f.locations path) where
  named := isNamed hpackage rfl
  comment := isCommentAt_commentAt f.locations path
  rpcs := Outcome.forall₂_zipIdx_map fun _ => ⟨rfl, rfl, rfl, isCommentAt_commentAt _ _⟩

/-- A file is shown flattened, completely and in order, when messages beside each other have
different names.  There is one list of ways to the messages, in which outer ones come first and
those beside each other follow in order; it has the ways with no map entry on them inside the
outermost message.  The messages that are shown are those at the ends of these ways, one for each.
The enums are those of the file itself and then those of these messages, message by message, and the
services are those of the file. -/
theorem flattened (f : FileDescriptor) (ownership : Ownership)
    (h : ∀ m ∈ f.allMessages, (m.nested.map (·.name)).Nodup) :
    let file := SchemaFile.ofDescriptor ownership f
    ∃ ways : List (List Nat), ways.Pairwise (· < ·) ∧ (∀ way, way ∈ ways ↔ f.IsShownAt way) ∧
      List.Forall₂ (f.ShowsMessage file) ways file.messages ∧
      (∃ outer inner, file.enums = outer ++ inner.flatten ∧
        List.Forall₂ (fun (x : EnumDescriptor × Nat) d => f.ShowsEnum file [] [5, x.2] x.1 d)
          f.enums.zipIdx outer ∧
        List.Forall₂ (f.ShowsEnums file) ways inner) ∧
      List.Forall₂ (fun (x : ServiceDescriptor × Nat) d => f.ShowsService file [6, x.2] x.1 d)
        f.services.zipIdx file.services := by
  intro file
  have hpackage : file.package = f.package := rfl
  have hplaced := forall₂_ways h
  refine ⟨f.ways, pairwise_ways, fun _ => mem_ways_iff, ?_,
    ⟨f.enums.zipIdx.map fun x => x.1.declaration f.locations none (childPath [] .fileEnum x.2),
      f.placed.map (Placed.enums f.locations), ?_, ?_, ?_⟩, ?_⟩
  · refine List.forall₂_map_right_iff.2 (hplaced.imp fun way p hway => ?_)
    obtain ⟨names, hleads, hname, hpath⟩ := hway
    refine ⟨⟨names, p.message, hleads, isNamed hpackage hname, ?_⟩, ?_⟩
    · rw [← hpath]
      rfl
    · rw [← hpath]
      exact isCommentAt_commentAt f.locations p.path
  · rw [← List.flatMap_def]
    rfl
  · exact Outcome.forall₂_zipIdx_map fun x => showsEnum_declaration hpackage [] [5, x.2] x.1
  · refine List.forall₂_map_right_iff.2 (hplaced.imp fun way p hway => ?_)
    obtain ⟨names, hleads, hname, hpath⟩ := hway
    refine ⟨names, p.message, hleads, ?_⟩
    have hscope : scopeOf names = some p.name := by
      obtain ⟨chain, -, rfl, hlast⟩ := hleads
      have hne : chain.map (·.name) ≠ [] := fun hnil => by
        rw [List.map_eq_nil_iff.1 hnil] at hlast
        exact absurd hlast nofun
      rw [hname]
      exact if_neg hne
    rw [← hpath]
    unfold Placed.enums
    rw [← hscope]
    exact Outcome.forall₂_zipIdx_map fun x => showsEnum_declaration hpackage names _ x.1
  · exact Outcome.forall₂_zipIdx_map fun x => showsService_declaration hpackage [6, x.2] x.1

/-- A file with a map entry before another message, and a comment on that one. -/
def boxes : FileDescriptor :=
  { name := "box.proto"
    package := "p"
    messages :=
      [{ name := "Box"
         nested := [{ name := "SizeEntry", mapEntry := true },
           { name := "Lid", nested := [{ name := "Hinge" }], enums := [{ name := "Shape" }] }]
         enums := [{ name := "Wood" }] },
       { name := "Shelf" }]
    enums := [{ name := "Color" }]
    locations := [⟨[4, 0, 3, 1], some " ", some " on top"⟩] }

/-- The position after the map entry is that of the comment. -/
theorem flattened_boxes :
    let file := SchemaFile.ofDescriptor .owned boxes
    (∀ m ∈ boxes.allMessages, (m.nested.map (·.name)).Nodup) ∧
    file.messages.map (fun d => (d.name, d.comment.map Comment.lines)) =
      [("Box", none), ("Box.Lid", some [" on top"]), ("Box.Lid.Hinge", none), ("Shelf", none)] ∧
    file.enums.map EnumDecl.name = ["Color", "Box.Wood", "Box.Lid.Shape"] ∧
    ∃ ways : List (List Nat), ways.Pairwise (· < ·) ∧
      (∀ way, way ∈ ways ↔ boxes.IsShownAt way) ∧
      List.Forall₂ (boxes.ShowsMessage file) ways file.messages := by
  intro file
  have hnames : ∀ m ∈ boxes.allMessages, (m.nested.map (·.name)).Nodup := by decide +kernel
  obtain ⟨ways, horder, hways, hmessages, -⟩ := flattened boxes .owned hnames
  exact ⟨hnames, by decide +kernel, by decide +kernel, ways, horder, hways, hmessages⟩

/-- A file without package, in which a map entry stands in no message and another has a message
inside it. -/
def marked : FileDescriptor :=
  { name := "x.proto"
    messages :=
      [{ name := "M", mapEntry := true },
       { name := "N"
         nested := [{ name := "E", mapEntry := true, nested := [{ name := "Deep" }] }] }] }

/-- The messages that are shown are not simply those that are no map entries.  The first message is
shown although it is a map entry, and the message inside the other map entry is not.  And without a
package there is no dot before a name. -/
theorem marked_not_by_marks :
    let file := SchemaFile.ofDescriptor .owned marked
    (∀ m ∈ marked.allMessages, (m.nested.map (·.name)).Nodup) ∧
    file.messages.map (·.name) = ["M", "N"] ∧
    (¬ ∃ ways : List (List Nat),
      (∀ way, way ∈ ways ↔ ∃ names m, marked.LeadsTo way names m ∧ m.mapEntry = false) ∧
      List.Forall₂ (marked.ShowsMessage file) ways file.messages) ∧
    file.qualify "N" ≠ file.package ++ "." ++ "N" := by
  intro file
  have hnames : file.messages.map (·.name) = ["M", "N"] := by decide +kernel
  refine ⟨by decide +kernel, hnames, ?_, by decide +kernel⟩
  rintro ⟨ways, hways, hmessages⟩
  have hdeep : [1, 0, 0] ∈ ways :=
    (hways _).2 ⟨["N", "E", "Deep"], { name := "Deep" }, ⟨_, rfl, rfl, rfl⟩, rfl⟩
  obtain ⟨d, hd, hshown⟩ := Outcome.exists_right_of_forall₂ hmessages hdeep
  obtain ⟨names, m, ⟨chain, hchain, rfl, -⟩, hnamed, -⟩ := hshown.declared
  obtain rfl := Option.some_inj.1 hchain
  have hmem : d.name ∈ ["M", "N"] := hnames ▸ List.mem_map_of_mem hd
  rw [hnamed.dotted] at hmem
  exact absurd hmem (by decide +kernel)

end FileDescriptor
end Proto
end SchemaPage
