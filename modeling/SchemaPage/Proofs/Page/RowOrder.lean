import SchemaPage.Proofs.Page.Failure
import SchemaPage.Proofs.Page.Groups

/-!
# The order of rows

A table may show its members in the order in which they are written down, by their names or by their
numbers.  The ordered tables are filled by key, so a member would be dropped if another one had its
key.  Where no two members of a table share a name or a number, the order of a table is all that the
options change: each row is the same text wherever it stands, and what stands around the rows, such
as the headings of the groups of fields, does not depend on the order at all.

* `Declaration.HasDistinctMembers`, `Graph.HasDistinctMembers`: no member takes the place of
  another.
* `FieldOrder.perm_arrange`, `MethodOrder.perm_arrange`: an order then keeps every member.
* `Passage.Permutes`: two passages that differ in the order of their rows only.
* `Passage.texts`: the texts that a passage is made of, one for each row.
* `Document.permutes_passages`: a page in any order, against the page in source order.
* `Document.generate_rowOrder`: what the orders do to a page that comes out in source order.
-/

namespace SchemaPage

/-! ## Members that do not share their keys -/

/-- No two fields have one name or are sorted by one number. -/
structure Field.Distinct (fields : List Field) : Prop where
  names : (fields.map Field.name).Nodup
  tags : (fields.map Field.firstTag).Nodup

instance (fields : List Field) : Decidable (Field.Distinct fields) :=
  decidable_of_iff ((fields.map Field.name).Nodup ∧ (fields.map Field.firstTag).Nodup)
    ⟨fun h => ⟨h.1, h.2⟩, fun h => ⟨h.names, h.tags⟩⟩

/-- The methods of a service, the fields of a message and those of each group inside it are
distinct. -/
def Declaration.HasDistinctMembers (d : Declaration) : Prop :=
  match d.item with
  | .service s => (s.rpcs.map Rpc.name).Nodup
  | .enumeration _ => True
  | .message m =>
    ∀ fields ∈ m.fields :: (Field.oneofs m.fields).map Oneof.members, Field.Distinct fields

instance : DecidablePred Declaration.HasDistinctMembers
  | ⟨_, .service s⟩ => inferInstanceAs (Decidable (s.rpcs.map Rpc.name).Nodup)
  | ⟨_, .enumeration _⟩ => inferInstanceAs (Decidable True)
  | ⟨_, .message m⟩ => inferInstanceAs (Decidable
      (∀ fields ∈ m.fields :: (Field.oneofs m.fields).map Oneof.members, Field.Distinct fields))

/-- The members of every owned declaration are distinct. -/
def Graph.HasDistinctMembers (g : Graph) : Prop :=
  ∀ d ∈ g.allDeclarations, d.isOwned = true → d.HasDistinctMembers

instance (g : Graph) : Decidable g.HasDistinctMembers :=
  inferInstanceAs (Decidable (∀ d ∈ g.allDeclarations, d.isOwned = true → d.HasDistinctMembers))

/-- An order of fields loses none of them. -/
theorem FieldOrder.perm_arrange (order : FieldOrder) {fields : List Field}
    (h : Field.Distinct fields) :
    (order.arrange fields).Perm fields := by
  cases order with
  | source => exact .refl fields
  | name => exact Order.perm_latest h.names
  | tag => exact Order.perm_latest h.tags

/-- An order of methods loses none of them. -/
theorem MethodOrder.perm_arrange (order : MethodOrder) {rpcs : List Rpc}
    (h : (rpcs.map Rpc.name).Nodup) : (order.arrange rpcs).Perm rpcs := by
  cases order with
  | source => exact .refl rpcs
  | name => exact Order.perm_latest h

/-! ## Passages in another order -/

namespace Passage

/-- The second passage is the first with its rows in another order.  Markup stays as it is, and with
it the place of every group of fields; a member stays as it is too, and so does all that its row
shows, such as the names in a group. -/
inductive Permutes : Passage → Passage → Prop
  | markup (pieces : List Piece) : Permutes (markup pieces) (markup pieces)
  | rows (d : Declaration) {members members' : List Member} (h : members.Perm members') :
      Permutes (rows d members) (rows d members')

/-- The texts that a passage is made of: its markup, or one text for each row. -/
def texts (g : Graph) : Passage → List String
  | markup pieces => [Markup.render pieces]
  | rows d members => members.map fun m => (m.draft g d).text

namespace Permutes

theorem refl (p : Passage) : p.Permutes p := by
  cases p with
  | markup pieces => exact markup pieces
  | rows d members => exact rows d (.refl members)

/-- The rows ask for the same type names. -/
theorem perm_lookups {p p' : Passage} (h : p.Permutes p') : p.lookups.Perm p'.lookups := by
  cases h with
  | markup pieces => exact .nil
  | rows d h => exact (h.flatMap_right _).map _

/-- The rows are the same texts. -/
theorem perm_texts (g : Graph) {p p' : Passage} (h : p.Permutes p') :
    (p.texts g).Perm (p'.texts g) := by
  cases h with
  | markup pieces => exact .refl _
  | rows d h => exact h.map _

variable {ps ps' : List Passage}

theorem perm_flatMap {α : Type} {f : Passage → List α}
    (hf : ∀ {p p' : Passage}, p.Permutes p' → (f p).Perm (f p'))
    (h : List.Forall₂ Permutes ps ps') :
    (ps.flatMap f).Perm (ps'.flatMap f) := by
  induction h with
  | nil => exact .nil
  | cons hp _ ih =>
    rw [List.flatMap_cons, List.flatMap_cons]
    exact (hf hp).append ih

/-- Passages for each element of a list. -/
theorem flatMap {α : Type} {l : List α} {f f' : α → List Passage}
    (h : ∀ a ∈ l, List.Forall₂ Permutes (f a) (f' a)) :
    List.Forall₂ Permutes (l.flatMap f) (l.flatMap f') := by
  have hl : List.Forall₂ (fun a b => a = b ∧ a ∈ l) l l := List.forall₂_same.2 fun a ha => ⟨rfl, ha⟩
  refine List.rel_flatMap hl ?_
  rintro a b ⟨rfl, ha⟩
  exact h a ha

theorem table (attributes : List Attribute) (titles : List String) (d : Declaration)
    {members members' : List Member} (h : members.Perm members') :
    List.Forall₂ Permutes (Passage.table attributes titles d members)
      (Passage.table attributes titles d members') :=
  .cons (refl _) (.cons (rows d h) (.cons (refl _) .nil))

/-- What stands around the passages is the same. -/
theorem between (p q : Passage) (h : List.Forall₂ Permutes ps ps') :
    List.Forall₂ Permutes (p :: ps ++ [q]) (p :: ps' ++ [q]) :=
  List.rel_append (.cons (refl p) h) (.cons (refl q) .nil)

end Permutes

end Passage

/-! ## The texts of a page -/

/-- Drafts that come out whole are made of the texts of each of them. -/
theorem Draft.text_concat {α : Type} {l : List α} {f : α → Draft} {texts : α → List String}
    (h : (concat (l.map f)).failure = none)
    (htexts : ∀ a, (f a).failure = none → (f a).text = String.join (texts a)) :
    (concat (l.map f)).text = String.join (l.flatMap texts) := by
  induction l with
  | nil => rfl
  | cons a l ih =>
    rw [List.map_cons, concat_cons] at h ⊢
    obtain ⟨ha, hl⟩ := failure_append_eq_none_iff.1 h
    rw [text, pieces_append ha, Markup.render_append, List.flatMap_cons, String.join_append,
      ← htexts a ha, ← ih hl]
    rfl

theorem Passage.text_draft {g : Graph} {p : Passage} (h : (p.draft g).failure = none) :
    (p.draft g).text = String.join (p.texts g) := by
  cases p with
  | markup pieces => simp [Draft.text, texts]
  | rows d members =>
    rw [texts, List.map_eq_flatMap]
    exact Draft.text_concat h fun m _ => by simp

/-- Passages that come out whole are made of their texts. -/
theorem Draft.text_ofPassages {g : Graph} {ps : List Passage}
    (h : (ofPassages g ps).failure = none) :
    (ofPassages g ps).text = String.join (ps.flatMap (Passage.texts g)) :=
  text_concat h fun _ => Passage.text_draft

/-- Texts in another order take up as many bytes. -/
theorem utf8ByteSize_join_of_perm {texts texts' : List String} (h : texts.Perm texts') :
    (String.join texts).utf8ByteSize = (String.join texts').utf8ByteSize := by
  have hsize : ∀ l : List String, (String.join l).utf8ByteSize =
      (l.map String.utf8ByteSize).sum := by
    intro l
    induction l with
    | nil => rfl
    | cons t l ih =>
      rw [String.join_cons, String.utf8ByteSize_append, ih, List.map_cons, List.sum_cons]
  rw [hsize, hsize]
  exact (h.map _).sum_nat

/-! ## Blocks and pages -/

/-- The options with every table in the order in which its members are written down. -/
def PageOptions.inSourceOrder (options : PageOptions) : PageOptions :=
  { options with fieldOrder := .source, methodOrder := .source }

open Passage (Permutes)

theorem Passage.permutes_fieldTable (order : FieldOrder) (d : Declaration)
    (attributes : List Attribute) {fields : List Field} (h : Field.Distinct fields) :
    List.Forall₂ Permutes (fieldTable .source d attributes fields)
      (fieldTable order d attributes fields) :=
  Permutes.table attributes _ d ((order.perm_arrange h).symm.map _)

theorem Oneof.permutes_passages (order : FieldOrder) (d : Declaration) {group : Oneof}
    (h : Field.Distinct group.members) :
    List.Forall₂ Permutes (group.passages .source d) (group.passages order d) :=
  Permutes.between _ _ (Passage.permutes_fieldTable order d _ h)

namespace Declaration

variable {d : Declaration} (options : PageOptions)

theorem permutes_bodyPassages (h : d.HasDistinctMembers) :
    List.Forall₂ Permutes (d.bodyPassages options.inSourceOrder) (d.bodyPassages options) := by
  unfold HasDistinctMembers at h
  unfold bodyPassages
  cases hitem : d.item with
  | service s =>
    simp only [hitem] at h
    have hrows := (options.methodOrder.perm_arrange h).symm.map Member.method
    exact Permutes.between _ _ (Permutes.table _ _ d hrows)
  | enumeration e => exact List.forall₂_same.2 fun p _ => .refl p
  | message m =>
    simp only [hitem] at h
    have hfields := h m.fields List.mem_cons_self
    exact Permutes.between _ _ (Passage.permutes_fieldTable options.fieldOrder d _ hfields)

/-- The fields of a group inside a declaration are distinct like its own. -/
theorem HasDistinctMembers.oneof (h : d.HasDistinctMembers) {group : Oneof}
    (hgroup : group ∈ d.oneofs) :
    Field.Distinct group.members := by
  cases hitem : d.item with
  | message m =>
    simp only [HasDistinctMembers, hitem] at h
    rw [oneofs, fields, hitem] at hgroup
    exact h group.members (List.mem_cons_of_mem _ (List.mem_map_of_mem hgroup))
  | _ =>
    rw [oneofs_eq_nil fun m hm => Item.noConfusion (hitem.symm.trans hm)] at hgroup
    exact absurd hgroup List.not_mem_nil

/-- The blocks of a declaration in any order, against those in source order.  The groups of fields
are listed without a look at the order, so their blocks stay where they are. -/
theorem permutes_passages (h : d.HasDistinctMembers) (kind : Kind) :
    List.Forall₂ Permutes (d.passages options.inSourceOrder kind) (d.passages options kind) :=
  List.rel_append (.cons (.refl _) (permutes_bodyPassages options h))
    (Permutes.flatMap fun _ hgroup => Oneof.permutes_passages options.fieldOrder d (h.oneof hgroup))

end Declaration

namespace Document

variable {g : Graph} (options : PageOptions)

/-- A page in any order, against the page in source order. -/
theorem permutes_passages (hg : g.HasDistinctMembers) :
    List.Forall₂ Permutes (passages options.inSourceOrder (sections g options))
      (passages options (sections g options)) := by
  have hsame : ∀ ps : List Passage, List.Forall₂ Permutes ps ps := fun ps =>
    List.forall₂_same.2 fun p _ => .refl p
  refine List.rel_append (List.rel_append (hsame _) (Permutes.flatMap fun s hs => ?_)) (hsame _)
  refine .cons (.refl _) (Permutes.flatMap fun group hgroup => ?_)
  refine Permutes.between _ _ (Permutes.flatMap fun d hd => ?_)
  have hshown : d ∈ shown g options :=
    List.mem_flatMap_of_mem hs (PackageGroup.mem_of_mem_group hgroup hd)
  have hdistinct := hg d (mem_allDeclarations_of_mem_shown hshown) (isOwned_of_mem_shown hshown)
  exact Declaration.permutes_passages options hdistinct s.kind

/-- What the orders of rows do to a page that is written to its end in source order, where the
members of every owned declaration are distinct.  The page in any of the orders is written to its
end too, into any sink that takes the first one, and the two are made of the same passages with the
same rows, which stand in another order within a table and nowhere else. -/
theorem generate_rowOrder {s s' : Sink} (hg : g.HasDistinctMembers)
    (h : generate g options.inSourceOrder s = (s', .ok ())) :
    let page := passages options.inSourceOrder (sections g options)
    let page' := passages options (sections g options)
    ∃ t, generate g options s = (t, .ok ()) ∧
      s'.taken = s.taken ++ (String.join (page.flatMap (Passage.texts g))).toUTF8 ∧
      t.taken = s.taken ++ (String.join (page'.flatMap (Passage.texts g))).toUTF8 ∧
      List.Forall₂ Permutes page page' := by
  intro page page'
  have hpermutes : List.Forall₂ Permutes page page' := permutes_passages options hg
  obtain ⟨hnone, htaken⟩ := generate_eq_ok h
  have hdraft : draft g options.inSourceOrder = Draft.ofPassages g page := draft_eq_ofPassages g _
  have hdraft' : draft g options = Draft.ofPassages g page' := draft_eq_ofPassages g _
  -- in any order the rows ask for the same type names, so none of them fails
  have hnone' : (draft g options).failure = none := by
    rw [hdraft, Draft.failure_ofPassages_eq_none_iff] at hnone
    rw [hdraft', Draft.failure_ofPassages_eq_none_iff]
    have hlookups := Permutes.perm_flatMap Permutes.perm_lookups hpermutes
    exact fun x hx => hnone x (hlookups.mem_iff.2 hx)
  have htext : (draft g options.inSourceOrder).text =
      String.join (page.flatMap (Passage.texts g)) := by
    rw [hdraft] at hnone ⊢
    exact Draft.text_ofPassages hnone
  have htext' : (draft g options).text = String.join (page'.flatMap (Passage.texts g)) := by
    rw [hdraft'] at hnone' ⊢
    exact Draft.text_ofPassages hnone'
  have hsize :
      (draft g options).text.utf8ByteSize = (draft g options.inSourceOrder).text.utf8ByteSize := by
    rw [htext, htext']
    exact (utf8ByteSize_join_of_perm (Permutes.perm_flatMap (Permutes.perm_texts g) hpermutes)).symm
  obtain ⟨t, ht⟩ := generate_eq_ok_of_size_eq h hnone' hsize
  exact ⟨t, ht, htext ▸ htaken, htext' ▸ (generate_eq_ok ht).2, hpermutes⟩

/-- A file in which names and numbers go against the order of the source, also inside a group that
stands in another group. -/
def unorderedFile : SchemaFile :=
  let plain (name : String) (tag : Int) : Field :=
    .plain ⟨name, "string", tag, false, false, false, none⟩
  ⟨"a.proto", "p", .owned,
    [⟨"S", [⟨"second", "M", "M", none⟩, ⟨"first", "M", "M", none⟩], none⟩], [],
    [⟨"M", [.oneof "outer" [plain "z" 7, .oneof "inner" [plain "y" 6, plain "x" 5] none] none,
      .map ⟨"b", "string", "M", 2, none⟩, plain "a" 9], none⟩]⟩

/-- All orders give a page of the same rows, and not the same page. -/
theorem generate_rowOrder_unorderedFile :
    let g := Graph.ofFiles [unorderedFile]
    g.HasDistinctMembers ∧ (generate g {} Sink.unlimited).2 = .ok () ∧
      (∀ fieldOrder methodOrder, ∃ t,
        generate g { fieldOrder, methodOrder } Sink.unlimited = (t, .ok ()) ∧
        List.Forall₂ Permutes (passages {} (sections g {}))
          (passages { fieldOrder, methodOrder } (sections g {}))) ∧
      (content g {} (sections g {})).pieces ≠
        (content g { fieldOrder := .name } (sections g {})).pieces ∧
      (content g {} (sections g {})).pieces ≠
        (content g { fieldOrder := .tag } (sections g {})).pieces ∧
      (content g {} (sections g {})).pieces ≠
        (content g { methodOrder := .name } (sections g {})).pieces := by
  intro g
  have hg : g.HasDistinctMembers := by decide +kernel
  have hok : (generate g {} Sink.unlimited).2 = .ok () :=
    (generate_eq_ok_iff rfl rfl).2 (by decide +kernel)
  refine ⟨hg, hok, ?_, by decide +kernel, by decide +kernel, by decide +kernel⟩
  intro fieldOrder methodOrder
  obtain ⟨t, ht, -, -, hpermutes⟩ :=
    generate_rowOrder { fieldOrder, methodOrder } hg (Prod.ext rfl hok)
  exact ⟨t, ht, hpermutes⟩

end Document

end SchemaPage
