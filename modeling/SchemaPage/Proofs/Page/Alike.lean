import SchemaPage.Proofs.Order.Latest
import SchemaPage.Proofs.Page.Whole

/-!
# Pages that are alike

Two graphs may write down their types in different ways and still give the same page: a page shows
what a type name means, and not how it is written.  Declarations are compared member by member, and
then the page is put together from the same parts on both sides.

* `Field.Alike`, `Rpc.Alike`, `Item.Alike`: the same but for the types that are written down.
* `Reference.Agree`: type names that are shown in one way.
* `Declaration.draft_eq`: declarations that are alike have the same blocks.
* `SchemaFile.Matches`: files whose declarations correspond.
* `Document.draft_eq`: graphs of such files have the same page.
-/

namespace SchemaPage

variable {R : String → String → Prop}

/-! ## Members -/

/-- The fields are the same, but for the types that they write down. -/
inductive Field.Alike (R : String → String → Prop) : Field → Field → Prop
  | plain (f : PlainField) {w : String} (type : R f.typeName w) :
      Alike R (.plain f) (.plain { f with typeName := w })
  | map (f : MapField) {k v : String} (key : R f.keyType k) (value : R f.valueType v) :
      Alike R (.map f) (.map { f with keyType := k, valueType := v })
  | oneof (name : String) (comment : Option Comment) {members members' : List Field}
      (inside : List.Forall₂ (Alike R) members members') :
      Alike R (.oneof name members comment) (.oneof name members' comment)

/-- The groups are the same, but for the types that their fields write down. -/
structure Oneof.Alike (R : String → String → Prop) (o o' : Oneof) : Prop where
  name : o.name = o'.name
  comment : o.comment = o'.comment
  members : List.Forall₂ (Field.Alike R) o.members o'.members

/-- The methods are the same, but for the types that they write down. -/
structure Rpc.Alike (R : String → String → Prop) (r r' : Rpc) : Prop where
  name : r.name = r'.name
  comment : r.comment = r'.comment
  request : R r.request r'.request
  response : R r.response r'.response

namespace Field.Alike

variable {f f' : Field} {fields fields' : List Field}

theorem name_eq (h : Alike R f f') : f.name = f'.name := by
  cases h with
  | plain f _ => rfl
  | map f _ _ => rfl
  | oneof name comment _ => rfl

theorem comment_eq (h : Alike R f f') : f.comment = f'.comment := by
  cases h with
  | plain f _ => rfl
  | map f _ _ => rfl
  | oneof name comment _ => rfl

theorem flags_eq (h : Alike R f f') : f.flags = f'.flags := by
  cases h with
  | plain f _ => rfl
  | map f _ _ => rfl
  | oneof name comment _ => rfl

theorem names_eq (h : List.Forall₂ (Alike R) fields fields') :
    fields.map Field.name = fields'.map Field.name := by
  induction h with
  | nil => rfl
  | cons hf _ ih => rw [List.map_cons, List.map_cons, hf.name_eq, ih]

/-- The number that a group is sorted by is that of its first member, on both sides. -/
theorem firstTag_eq (h : Alike R f f') : f.firstTag = f'.firstTag := by
  refine Alike.rec (motive_1 := fun f f' _ => f.firstTag = f'.firstTag)
    (motive_2 := fun members members' _ => ∀ name comment,
      (Field.oneof name members comment).firstTag = (Field.oneof name members' comment).firstTag)
    ?plain ?map ?oneof ?nil ?cons h
  case plain => exact fun f _ _ => rfl
  case map => exact fun f _ _ _ _ => rfl
  case oneof => exact fun name comment _ _ _ ih => ih name comment
  case nil => exact fun name comment => rfl
  case cons =>
    intro f f' members members' _ _ ih _ name comment
    rw [firstTag_oneof_cons, firstTag_oneof_cons, ih]

/-- The groups inside are alike, an outer group before those inside it. -/
theorem ownOneofs (h : Alike R f f') :
    List.Forall₂ (Oneof.Alike R) f.ownOneofs f'.ownOneofs := by
  refine Alike.rec (motive_1 := fun f f' _ => List.Forall₂ (Oneof.Alike R) f.ownOneofs f'.ownOneofs)
    (motive_2 := fun members members' _ =>
      List.Forall₂ (Oneof.Alike R) (Field.oneofs members) (Field.oneofs members'))
    ?plain ?map ?oneof ?nil ?cons h
  case plain => exact fun f _ _ => .nil
  case map => exact fun f _ _ _ _ => .nil
  case oneof =>
    intro name comment members members' hmembers ih
    unfold Field.ownOneofs
    exact .cons ⟨rfl, rfl, hmembers⟩ ih
  case nil =>
    rw [Field.oneofs_nil]
    exact .nil
  case cons =>
    intro f f' members members' _ _ ihf ih
    rw [Field.oneofs_cons, Field.oneofs_cons]
    exact List.rel_append ihf ih

theorem oneofs (h : List.Forall₂ (Alike R) fields fields') :
    List.Forall₂ (Oneof.Alike R) (Field.oneofs fields) (Field.oneofs fields') := by
  induction h with
  | nil =>
    rw [Field.oneofs_nil]
    exact .nil
  | cons hf _ ih =>
    rw [Field.oneofs_cons, Field.oneofs_cons]
    exact List.rel_append hf.ownOneofs ih

/-- Rows are put in the same order. -/
theorem arrange (order : FieldOrder) (h : List.Forall₂ (Alike R) fields fields') :
    List.Forall₂ (Alike R) (order.arrange fields) (order.arrange fields') := by
  cases order with
  | source => exact h
  | name => exact Order.forall₂_latest (fun _ _ hf => hf.name_eq) h
  | tag => exact Order.forall₂_latest (fun _ _ hf => hf.firstTag_eq) h

end Field.Alike

theorem Rpc.Alike.arrange (order : MethodOrder) {rpcs rpcs' : List Rpc}
    (h : List.Forall₂ (Alike R) rpcs rpcs') :
    List.Forall₂ (Alike R) (order.arrange rpcs) (order.arrange rpcs') := by
  cases order with
  | source => exact h
  | name => exact Order.forall₂_latest (fun _ _ hr => hr.name) h

/-! ## Declarations -/

/-- The same can be said of two declarations, their members apart. -/
structure Declaration.Matches (d d' : Declaration) : Prop where
  kind : d.kind = d'.kind
  name : d.name = d'.name
  package : d.package = d'.package
  path : d.path = d'.path
  isOwned : d.isOwned = d'.isOwned

theorem Declaration.Matches.fullName {d d' : Declaration} (h : d.Matches d') :
    d.fullName = d'.fullName := by
  have hpackage : d.file.package = d'.file.package := h.package
  unfold Declaration.fullName SchemaFile.qualify
  rw [h.name, hpackage]

/-- What is declared is the same, but for the types that its members write down. -/
inductive Item.Alike (R : String → String → Prop) : Item → Item → Prop
  | service {s s' : Service} (name : s.name = s'.name) (comment : s.comment = s'.comment)
      (rpcs : List.Forall₂ (Rpc.Alike R) s.rpcs s'.rpcs) : Alike R (.service s) (.service s')
  | enumeration (e : EnumDecl) : Alike R (.enumeration e) (.enumeration e)
  | message {m m' : Message} (name : m.name = m'.name) (comment : m.comment = m'.comment)
      (fields : List.Forall₂ (Field.Alike R) m.fields m'.fields) :
      Alike R (.message m) (.message m')

/-! ## Rows -/

section Rows

variable {g g' : Graph} {d d' : Declaration}

theorem Reference.ofOneof_eq (hname : d.fullName = d'.fullName) {o o' : Oneof}
    (h : Oneof.Alike R o o') : ofOneof d o = ofOneof d' o' := by
  have hempty : o.members.isEmpty = o'.members.isEmpty := by
    rw [Bool.eq_iff_iff, List.isEmpty_iff, List.isEmpty_iff, ← List.length_eq_zero_iff,
      ← List.length_eq_zero_iff, h.members.length_eq]
  unfold ofOneof
  simp only [hname, h.name, hempty, Field.Alike.names_eq h.members]

/-- What is found under a name is shown in one way. -/
theorem Reference.ofDeclaration_eq {d d' e e' : Declaration} (hd : d.Matches d')
    (he : e.Matches e') :
    ofDeclaration d e = ofDeclaration d' e' := by
  have hpath : ∀ {a a' : Declaration}, a.Matches a' → a.file.path = a'.file.path := fun h => h.path
  have hfile : e.sameFile d = e'.sameFile d' := by
    unfold Declaration.sameFile
    rw [hpath hd, hpath he]
  have hanchor : Anchor.ofType e = Anchor.ofType e' := by
    unfold Anchor.ofType
    rw [he.kind, he.fullName]
  unfold ofDeclaration
  rw [hfile, hanchor, he.name, he.fullName, he.isOwned]

/-- Type names that correspond are shown in one way. -/
def Reference.Agree (R : String → String → Prop) (g : Graph) (d : Declaration) (g' : Graph)
    (d' : Declaration) (ws ws' : List String) : Prop :=
  ∀ w ∈ ws, ∀ w' ∈ ws', R w w' → Reference.ofType g d w = Reference.ofType g' d' w'

theorem Reference.Agree.mono {ws ws' vs vs' : List String} (h : Agree R g d g' d' ws ws')
    (hsub : vs ⊆ ws) (hsub' : vs' ⊆ ws') : Agree R g d g' d' vs vs' :=
  fun w hw w' hw' => h w (hsub hw) w' (hsub' hw')

/-- What holds of the references of all rows holds of those of one. -/
theorem Reference.Agree.row {α : Type} {rows rows' : List α} {refs : α → List String}
    (h : Agree R g d g' d' (rows.flatMap refs) (rows'.flatMap refs)) {r r' : α} (hr : r ∈ rows)
    (hr' : r' ∈ rows') : Agree R g d g' d' (refs r) (refs r') :=
  h.mono (fun _ hw => List.mem_flatMap_of_mem hr hw) fun _ hw => List.mem_flatMap_of_mem hr' hw

/-- Rows that are alike are the same when their references are shown in one way. -/
theorem Field.row_eq (hname : d.fullName = d'.fullName) {f f' : Field} (h : Field.Alike R f f')
    (hrefs : Reference.Agree R g d g' d' f.references f'.references) :
    f.row g d = f'.row g' d' := by
  have htype : f.typePieces g d = f'.typePieces g' d' := by
    cases h with
    | plain f htype =>
      have hw := hrefs _ List.mem_cons_self _ List.mem_cons_self htype
      unfold typePieces
      simp only [hw]
    | map f hkey hvalue =>
      have hk := hrefs _ List.mem_cons_self _ List.mem_cons_self hkey
      have hv := hrefs _ (List.mem_cons_of_mem _ List.mem_cons_self) _
        (List.mem_cons_of_mem _ List.mem_cons_self) hvalue
      unfold typePieces
      simp only [hk, hv]
    | @oneof name comment members members' hinside =>
      have ho : Reference.ofOneof d ⟨name, members, comment⟩ =
          Reference.ofOneof d' ⟨name, members', comment⟩ :=
        Reference.ofOneof_eq hname ⟨rfl, rfl, hinside⟩
      unfold typePieces
      simp only [ho]
  unfold row
  rw [htype, h.name_eq, h.flags_eq, h.comment_eq]

theorem Rpc.row_eq {r r' : Rpc} (h : Rpc.Alike R r r')
    (hrefs : Reference.Agree R g d g' d' [r.request, r.response] [r'.request, r'.response]) :
    r.row g d = r'.row g' d' := by
  have hrequest := hrefs _ List.mem_cons_self _ List.mem_cons_self h.request
  have hresponse := hrefs _ (List.mem_cons_of_mem _ List.mem_cons_self) _
    (List.mem_cons_of_mem _ List.mem_cons_self) h.response
  unfold row
  rw [hrequest, hresponse, h.name, h.comment]

theorem fieldTable_eq (hname : d.fullName = d'.fullName) (order : FieldOrder)
    (attributes : List Attribute) {fields fields' : List Field}
    (h : List.Forall₂ (Field.Alike R) fields fields')
    (hrefs : Reference.Agree R g d g' d' ((order.arrange fields).flatMap Field.references)
      ((order.arrange fields').flatMap Field.references)) :
    fieldTable g order d attributes fields = fieldTable g' order d' attributes fields' := by
  unfold fieldTable
  rw [Outcome.map_eq_map_of_forall₂ (Field.Alike.arrange order h) fun f hf f' hf' hff' =>
    Field.row_eq hname hff' (hrefs.row hf hf')]

theorem Oneof.draft_eq (h : d.Matches d') (order : FieldOrder) {o o' : Oneof}
    (ho : Oneof.Alike R o o')
    (hrefs : Reference.Agree R g d g' d' ((order.arrange o.members).flatMap Field.references)
      ((order.arrange o'.members).flatMap Field.references)) :
    o.draft g order d = o'.draft g' order d' := by
  unfold Oneof.draft Oneof.heading
  rw [fieldTable_eq h.fullName order _ ho.members hrefs, h.fullName, h.name, ho.name, ho.comment]

end Rows

/-! ## Blocks -/

namespace Declaration

variable {g g' : Graph} {d d' : Declaration} {options : PageOptions}

theorem oneofs_alike (h : Item.Alike R d.item d'.item) :
    List.Forall₂ (Oneof.Alike R) d.oneofs d'.oneofs := by
  obtain ⟨file, item⟩ := d
  obtain ⟨file', item'⟩ := d'
  refine Field.Alike.oneofs ?_
  cases h with
  | service _ _ _ => exact .nil
  | enumeration e => exact .nil
  | message _ _ hfields => exact hfields

theorem body_eq (h : d.Matches d') (hitem : Item.Alike R d.item d'.item)
    (hrefs : Reference.Agree R g d g' d' (d.references options) (d'.references options)) :
    d.body g options = d'.body g' options := by
  obtain ⟨file, item⟩ := d
  obtain ⟨file', item'⟩ := d'
  cases hitem with
  | service _ hcomment hrpcs =>
    rename_i s s' _
    show s.draft g options.methodOrder _ = s'.draft g' options.methodOrder _
    unfold Service.draft
    rw [hcomment, Outcome.map_eq_map_of_forall₂ (Rpc.Alike.arrange options.methodOrder hrpcs)
      fun r hr r' hr' hrr' => Rpc.row_eq hrr' (Reference.Agree.row hrefs hr hr')]
  | enumeration e => rfl
  | message _ hcomment hfields =>
    rename_i m m' _
    show m.draft g options.fieldOrder _ = m'.draft g' options.fieldOrder _
    unfold Message.draft
    rw [hcomment, fieldTable_eq h.fullName options.fieldOrder [] hfields
      (hrefs.mono (List.subset_append_left _ _) (List.subset_append_left _ _))]

/-- Declarations that are alike have the same blocks when their references are shown in one way. -/
theorem draft_eq (h : d.Matches d') (hitem : Item.Alike R d.item d'.item)
    (hrefs : Reference.Agree R g d g' d' (d.references options) (d'.references options))
    (kind : Kind) : d.draft g options kind = d'.draft g' options kind := by
  have hheading : Frame.contentDeclaration d (Anchor.declaration kind d.package d.name) =
      Frame.contentDeclaration d' (Anchor.declaration kind d'.package d'.name) := by
    unfold Frame.contentDeclaration
    rw [h.package, h.name, h.path]
  have hgroups : d.oneofs.map (Oneof.draft g options.fieldOrder d) =
      d'.oneofs.map (Oneof.draft g' options.fieldOrder d') :=
    Outcome.map_eq_map_of_forall₂ (oneofs_alike hitem) fun o ho o' ho' hoo' =>
      Oneof.draft_eq h options.fieldOrder hoo' (hrefs.mono (references_oneof_subset ho)
        (references_oneof_subset ho'))
  unfold draft oneofBlocks
  rw [hheading, body_eq h hitem hrefs, hgroups]

end Declaration

/-! ## Pages -/

variable {S : Declaration → Declaration → Prop}

/-- The files are the same, but for their declarations, which correspond. -/
structure SchemaFile.Matches (S : Declaration → Declaration → Prop) (file file' : SchemaFile) :
    Prop where
  path : file.path = file'.path
  ownership : file.ownership = file'.ownership
  declarations : ∀ kind, List.Forall₂ S (file.declarations kind) (file'.declarations kind)

/-- The same declarations are listed on both sides. -/
theorem Graph.forall₂_list {g g' : Graph} (hS : ∀ d d', S d d' → d.Matches d')
    (h : List.Forall₂ (SchemaFile.Matches S) g.files g'.files) (kind : Kind)
    (options : PageOptions) : List.Forall₂ S (g.list kind (Document.selection options))
      (g'.list kind (Document.selection options)) := by
  have hincludes : ∀ ⦃file file'⦄, SchemaFile.Matches S file file' →
      ((Document.selection options).includes file = true ↔
        (Document.selection options).includes file' = true) := by
    intro file file' hfile
    unfold Selection.includes Document.selection DepFilter.admits SchemaFile.isOwned
    simp only [hfile.path, hfile.ownership]
  have hcandidates : List.Forall₂ S (g.candidates kind (Document.selection options))
      (g'.candidates kind (Document.selection options)) :=
    List.rel_flatMap (List.rel_filter hincludes h) fun _ _ hfile => hfile.declarations kind
  refine Order.forall₂_latest (fun d d' hd => ?_) hcandidates
  show [d.package, d.name] = [d'.package, d'.name]
  rw [(hS d d' hd).package, (hS d d' hd).name]

/-- The groups are of one package, and their declarations correspond. -/
structure PackageGroup.Matches (S : Declaration → Declaration → Prop)
    (group group' : PackageGroup) :
    Prop where
  package : group.package = group'.package
  declarations : List.Forall₂ S group.declarations group'.declarations

theorem PackageGroup.forall₂_ofDeclarations (hS : ∀ d d', S d d' → d.Matches d')
    {ds ds' : List Declaration} (h : List.Forall₂ S ds ds') :
    List.Forall₂ (PackageGroup.Matches S) (ofDeclarations ds) (ofDeclarations ds') := by
  induction h with
  | nil => exact .nil
  | @cons d d' ds ds' hd hds ih =>
    have hpackage := (hS d d' hd).package
    unfold ofDeclarations
    generalize ofDeclarations ds = gs at ih ⊢
    generalize ofDeclarations ds' = gs' at ih ⊢
    cases ih with
    | nil => exact .cons ⟨hpackage, .cons hd .nil⟩ .nil
    | cons hgroup hgroups =>
      simp only [hpackage, hgroup.package]
      split
      · exact .cons ⟨rfl, .cons hd hgroup.declarations⟩ hgroups
      · exact .cons ⟨rfl, .cons hd .nil⟩ (.cons hgroup hgroups)

namespace Document

variable {g g' : Graph} {options : PageOptions}

theorem navGroup_eq (hS : ∀ d d', S d d' → d.Matches d') (kind : Kind) {group group' : PackageGroup}
    (h : group.Matches S group') : navGroup kind group = navGroup kind group' := by
  unfold navGroup
  rw [h.package, List.flatMap_def, List.flatMap_def,
    Outcome.map_eq_map_of_forall₂ h.declarations fun d _ d' _ hd => by
      rw [(hS d d' hd).name, (hS d d' hd).package]]

/-- Graphs whose files correspond have the same page when the blocks of declarations that correspond
are the same. -/
theorem draft_eq (hS : ∀ d d', S d d' → d.Matches d')
    (hfiles : List.Forall₂ (SchemaFile.Matches S) g.files g'.files)
    (hblocks : ∀ d ∈ shown g options, ∀ d' ∈ shown g' options, S d d' → ∀ kind,
      d.draft g options kind = d'.draft g' options kind) :
    draft g options = draft g' options := by
  have hlist := Graph.forall₂_list hS hfiles
  have hgroups : ∀ kind, List.Forall₂
      (PackageGroup.Matches fun d d' => d ∈ g.list kind (selection options) ∧
        d' ∈ g'.list kind (selection options) ∧ S d d')
      (Section.groups ⟨kind, g.list kind (selection options)⟩)
      (Section.groups ⟨kind, g'.list kind (selection options)⟩) := fun kind =>
    PackageGroup.forall₂_ofDeclarations (fun d d' hd => hS d d' hd.2.2)
      (Outcome.forall₂_and_mem (hlist kind options))
  have hnav : nav (sections g options) = nav (sections g' options) := by
    unfold nav sections
    rw [List.flatMap_map, List.flatMap_map, List.flatMap_congr fun kind _ => ?_]
    unfold navSection
    rw [List.flatMap_def, List.flatMap_def, Outcome.map_eq_map_of_forall₂ (hgroups kind)
      fun group _ group' _ hgroup => navGroup_eq (fun d d' hd => hS d d' hd.2.2) kind hgroup]
  have hcontent : content g options (sections g options) =
      content g' options (sections g' options) := by
    unfold content sections
    rw [List.map_map, List.map_map, List.map_congr_left fun kind _ => ?_]
    show contentSection g options ⟨kind, g.list kind (selection options)⟩ =
      contentSection g' options ⟨kind, g'.list kind (selection options)⟩
    unfold contentSection
    rw [Outcome.map_eq_map_of_forall₂ (hgroups kind) fun group _ group' _ hgroup => ?_]
    have hdrafts := Outcome.map_eq_map_of_forall₂ hgroup.declarations fun d _ d' _ hd =>
      hblocks d (mem_shown_iff.2 ⟨kind, hd.1⟩) d' (mem_shown_iff.2 ⟨kind, hd.2.1⟩) hd.2.2 kind
    unfold contentGroup
    rw [hgroup.package, hdrafts]
  unfold draft
  rw [hnav, hcontent]

end Document

end SchemaPage
