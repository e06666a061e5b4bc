import Mathlib.Data.List.Forall2
import Mathlib.Data.List.Nodup
import Mathlib.Data.Nat.Find
import SchemaPage.Proofs.Schema.References

/-!
# The members of a message

The fields of a descriptor are shown in the order in which they stand there, but those of one group
are gathered at the place of the first of them.  So the members correspond to the fields that are in
no group or come first in theirs, and below each of these members stand just the fields that belong
there.

No field is lost on the way and none is shown twice: the group of a field has one first field, and
the field is shown with that one only.

* `FieldDescriptor.InGroup`: the group that a field is shown in.
* `Field.leaves`: the fields among the members and inside their groups.
* `Placed.heads`: the fields at whose places the members stand.
* `Placed.perm_gathered`: what is gathered at these places is every field once.
* `Placed.Shows`, `Placed.ShowsGroup`: what a member keeps of a field, and of a group.
* `Placed.members_preserve_fields`: all of it together.
-/

namespace SchemaPage

/-! ## Fields inside groups -/

namespace Field

mutual

/-- A field itself, or what stands inside a group. -/
def ownLeaves : Field → List Field
  | plain f => [plain f]
  | map f => [map f]
  | oneof _ members _ => leaves members

/-- The fields of a list that are no groups, and those inside its groups at any depth. -/
def leaves : List Field → List Field
  | [] => []
  | f :: fields => f.ownLeaves ++ leaves fields

end

/-- Whether this is a group of fields. -/
def isOneof : Field → Bool
  | oneof _ _ _ => true
  | _ => false

theorem ownLeaves_of_not_isOneof {f : Field} (h : f.isOneof = false) : f.ownLeaves = [f] := by
  cases f with
  | plain f =>
    unfold ownLeaves
    rfl
  | map f =>
    unfold ownLeaves
    rfl
  | oneof name members comment => exact absurd h.symm Bool.false_ne_true

theorem leaves_eq_flatMap (fields : List Field) : leaves fields = fields.flatMap ownLeaves := by
  induction fields with
  | nil =>
    unfold leaves
    rfl
  | cons f fields ih =>
    unfold leaves
    rw [ih, List.flatMap_cons]

/-- A list without groups is the list of its own fields. -/
theorem leaves_of_forall {fields : List Field} (h : ∀ f ∈ fields, f.isOneof = false) :
    leaves fields = fields := by
  rw [leaves_eq_flatMap]
  induction fields with
  | nil => rfl
  | cons f fields ih =>
    rw [List.flatMap_cons, ownLeaves_of_not_isOneof (h f List.mem_cons_self),
      ih fun g hg => h g (List.mem_cons_of_mem f hg), List.singleton_append]

end Field

namespace Proto

/-- The field is shown in the group at the position `n`.  A field that is marked `optional` is alone
in its group, which is not shown. -/
def FieldDescriptor.InGroup (f : FieldDescriptor) (n : Nat) : Prop :=
  f.proto3Optional = false ∧ f.oneofIndex = some (n : Int)

theorem FieldDescriptor.shownOneof_eq_some_iff {f : FieldDescriptor} {n : Nat} :
    f.shownOneof = some n ↔ f.InGroup n := by
  unfold shownOneof InGroup
  cases f.proto3Optional with
  | true => simp
  | false =>
    rcases f.oneofIndex with _ | (m | m)
    · simp
    · exact ⟨fun h => ⟨rfl, congrArg (fun k : Nat => some (k : Int)) (Option.some_inj.1 h)⟩,
        fun h => congrArg some (Int.ofNat.inj (Option.some_inj.1 h.2))⟩
    · simp

theorem FieldDescriptor.InGroup.unique {f : FieldDescriptor} {m n : Nat} (hm : f.InGroup m)
    (hn : f.InGroup n) : m = n :=
  Int.natCast_inj.1 (Option.some_inj.1 (hm.2.symm.trans hn.2))

theorem FieldDescriptor.shownOneof_eq_none_iff {f : FieldDescriptor} :
    f.shownOneof = none ↔ ∀ n, ¬ f.InGroup n := by
  simp only [← shownOneof_eq_some_iff]
  exact Option.eq_none_iff_forall_ne_some

namespace Placed

variable {locations : List Location} {dialect : Dialect} {p : Placed}

/-! ## Places of members -/

/-- Whether a member stands at the place of a field: the field is in no group, or it comes first in
its group. -/
def isHead (p : Placed) (x : FieldDescriptor × Nat) : Bool :=
  match x.1.shownOneof with
  | none => true
  | some n => !(p.message.fields.take x.2).any (·.shownOneof == some n)

/-- The fields at whose places the members stand, with their positions. -/
def heads (p : Placed) : List (FieldDescriptor × Nat) := p.message.fields.zipIdx.filter p.isHead

/-- The fields that are shown with the member at the place of a field. -/
def gathered (p : Placed) (x : FieldDescriptor × Nat) : List (FieldDescriptor × Nat) :=
  match x.1.shownOneof with
  | none => [x]
  | some n => p.inOneof n

/-- The member at the place of a field. -/
def memberOf (locations : List Location) (dialect : Dialect) (p : Placed)
    (x : FieldDescriptor × Nat) : Field :=
  match x.1.shownOneof with
  | none => p.field locations dialect false x.1 x.2
  | some n => p.oneof locations dialect n

theorem memberAt_eq (x : FieldDescriptor × Nat) :
    p.memberAt locations dialect x.1 x.2 =
      if p.isHead x then [p.memberOf locations dialect x] else [] := by
  unfold memberAt isHead memberOf
  cases x.1.shownOneof with
  | none => rfl
  | some n =>
    simp only
    split <;> simp_all

/-- The members are those at the places of the heads, in their order. -/
theorem members_eq : p.members locations dialect = p.heads.map (p.memberOf locations dialect) := by
  have hall : ∀ l : List (FieldDescriptor × Nat),
      l.flatMap (fun x => p.memberAt locations dialect x.1 x.2) =
        (l.filter p.isHead).map (p.memberOf locations dialect) := by
    intro l
    induction l with
    | nil => rfl
    | cons x l ih =>
      rw [List.flatMap_cons, ih, memberAt_eq, List.filter_cons]
      split <;> rfl
  exact hall _

/-- What stands before a position of a list stands at a smaller position. -/
theorem mem_take_iff {α : Type} {l : List α} {a : α} {i : Nat} :
    a ∈ l.take i ↔ ∃ j < i, (a, j) ∈ l.zipIdx := by
  simp only [List.mk_mem_zipIdx_iff_getElem?]
  rw [List.mem_iff_getElem?]
  simp only [List.getElem?_take]
  constructor
  · rintro ⟨j, h⟩
    split at h
    · exact ⟨j, ‹_›, h⟩
    · exact absurd h nofun
  · rintro ⟨j, hj, h⟩
    exact ⟨j, by rw [if_pos hj, h]⟩

theorem mem_inOneof_iff {n : Nat} {x : FieldDescriptor × Nat} :
    x ∈ p.inOneof n ↔ x ∈ p.message.fields.zipIdx ∧ x.1.InGroup n := by
  unfold inOneof
  rw [List.mem_filter, beq_iff_eq, FieldDescriptor.shownOneof_eq_some_iff]

/-- The heads are the fields before which there is no other of their group. -/
theorem mem_heads_iff {x : FieldDescriptor × Nat} :
    x ∈ p.heads ↔ x ∈ p.message.fields.zipIdx ∧
      ∀ n, x.1.InGroup n → ∀ y ∈ p.inOneof n, x.2 ≤ y.2 := by
  unfold heads
  rw [List.mem_filter]
  refine and_congr_right fun hx => ?_
  unfold isHead
  cases hgroup : x.1.shownOneof with
  | none =>
    have hnone := FieldDescriptor.shownOneof_eq_none_iff.1 hgroup
    exact iff_of_true rfl fun n hn => absurd hn (hnone n)
  | some n =>
    have hn := FieldDescriptor.shownOneof_eq_some_iff.1 hgroup
    simp only [Bool.not_eq_true', List.any_eq_false, beq_iff_eq]
    constructor
    · intro h m hm y hy
      obtain rfl := hn.unique hm
      obtain ⟨hy, hyn⟩ := mem_inOneof_iff.1 hy
      by_contra hlt
      exact h y.1 (mem_take_iff.2 ⟨y.2, Nat.lt_of_not_le hlt, hy⟩)
        (FieldDescriptor.shownOneof_eq_some_iff.2 hyn)
    · intro h f hf hfn
      obtain ⟨j, hj, hmem⟩ := mem_take_iff.1 hf
      have hle := h n hn (f, j)
        (mem_inOneof_iff.2 ⟨hmem, FieldDescriptor.shownOneof_eq_some_iff.1 hfn⟩)
      exact absurd hle (Nat.not_le_of_lt hj)

theorem head_mem_inOneof {n : Nat} {x : FieldDescriptor × Nat} (hx : x ∈ p.heads)
    (hn : x.1.InGroup n) : x ∈ p.inOneof n :=
  mem_inOneof_iff.2 ⟨(mem_heads_iff.1 hx).1, hn⟩

/-- Every group with a field in it has a head. -/
theorem exists_head_of_mem {n : Nat} {x : FieldDescriptor × Nat} (hx : x ∈ p.inOneof n) :
    ∃ y ∈ p.heads, y.1.InGroup n := by
  classical
  have hpositions : ∃ i, ∃ y ∈ p.inOneof n, y.2 = i := ⟨x.2, x, hx, rfl⟩
  obtain ⟨y, hy, hfirst⟩ := Nat.find_spec hpositions
  obtain ⟨hfield, hyn⟩ := mem_inOneof_iff.1 hy
  refine ⟨y, mem_heads_iff.2 ⟨hfield, fun m hm z hz => ?_⟩, hyn⟩
  obtain rfl := hyn.unique hm
  rw [hfirst]
  exact Nat.find_min' hpositions ⟨z, hz, rfl⟩

/-- A group has one head only. -/
theorem head_unique {n : Nat} {x y : FieldDescriptor × Nat} (hx : x ∈ p.heads) (hy : y ∈ p.heads)
    (hxn : x.1.InGroup n) (hyn : y.1.InGroup n) : x = y := by
  have hposition : x.2 = y.2 := Nat.le_antisymm
    ((mem_heads_iff.1 hx).2 n hxn y (head_mem_inOneof hy hyn))
    ((mem_heads_iff.1 hy).2 n hyn x (head_mem_inOneof hx hxn))
  have hx := List.mem_zipIdx_iff_getElem?.1 (mem_heads_iff.1 hx).1
  have hy := List.mem_zipIdx_iff_getElem?.1 (mem_heads_iff.1 hy).1
  rw [hposition, hy] at hx
  exact Prod.ext (Option.some_inj.1 hx).symm hposition

/-! ## Every field once -/

theorem mem_gathered_iff {x z : FieldDescriptor × Nat} :
    z ∈ p.gathered x ↔ (∀ n, ¬ x.1.InGroup n) ∧ z = x ∨ ∃ n, x.1.InGroup n ∧ z ∈ p.inOneof n := by
  unfold gathered
  cases hgroup : x.1.shownOneof with
  | none =>
    have hnone := FieldDescriptor.shownOneof_eq_none_iff.1 hgroup
    simp [hnone]
  | some n =>
    have hn := FieldDescriptor.shownOneof_eq_some_iff.1 hgroup
    constructor
    · exact fun hz => Or.inr ⟨n, hn, hz⟩
    · rintro (⟨hnone, -⟩ | ⟨m, hm, hz⟩)
      · exact absurd hn (hnone n)
      · rwa [hn.unique hm]

theorem nodup_zipIdx (fields : List FieldDescriptor) : fields.zipIdx.Nodup := by
  refine List.Nodup.of_map Prod.snd ?_
  rw [List.zipIdx_map_snd]
  exact List.nodup_range'

/-- Different heads gather different fields. -/
theorem disjoint_gathered {x y : FieldDescriptor × Nat} (hx : x ∈ p.heads) (hy : y ∈ p.heads)
    (hne : x ≠ y) : (p.gathered x).Disjoint (p.gathered y) := by
  intro z hzx hzy
  rcases mem_gathered_iff.1 hzx with ⟨hxnone, rfl⟩ | ⟨n, hxn, hzn⟩ <;>
    rcases mem_gathered_iff.1 hzy with ⟨hynone, hzy⟩ | ⟨m, hym, hzm⟩
  · exact hne hzy
  · exact hxnone m (mem_inOneof_iff.1 hzm).2
  · exact hynone n (hzy ▸ (mem_inOneof_iff.1 hzn).2)
  · obtain rfl := (mem_inOneof_iff.1 hzn).2.unique (mem_inOneof_iff.1 hzm).2
    exact hne (head_unique hx hy hxn hym)

/-- What is gathered at the heads is every field once. -/
theorem perm_gathered (p : Placed) :
    (p.heads.flatMap p.gathered).Perm p.message.fields.zipIdx := by
  have hfields := nodup_zipIdx p.message.fields
  have hdistinct : (p.heads.flatMap p.gathered).Nodup := by
    refine List.nodup_flatMap.2 ⟨fun x _ => ?_, (hfields.filter _).pairwise_of_forall_ne
      fun x hx y hy hne => disjoint_gathered hx hy hne⟩
    unfold gathered
    split
    · exact List.nodup_singleton x
    · exact hfields.filter _
  refine (List.perm_ext_iff_of_nodup hdistinct hfields).2 fun z => ?_
  rw [List.mem_flatMap]
  constructor
  · rintro ⟨x, hx, hz⟩
    rcases mem_gathered_iff.1 hz with ⟨-, rfl⟩ | ⟨n, -, hzn⟩
    · exact (mem_heads_iff.1 hx).1
    · exact (mem_inOneof_iff.1 hzn).1
  · intro hz
    by_cases hnone : ∀ n, ¬ z.1.InGroup n
    · exact ⟨z, mem_heads_iff.2 ⟨hz, fun n hn => absurd hn (hnone n)⟩,
        mem_gathered_iff.2 (Or.inl ⟨hnone, rfl⟩)⟩
    · obtain ⟨n, hn⟩ := not_forall_not.1 hnone
      have hzn : z ∈ p.inOneof n := mem_inOneof_iff.2 ⟨hz, hn⟩
      obtain ⟨x, hx, hxn⟩ := exists_head_of_mem hzn
      exact ⟨x, hx, mem_gathered_iff.2 (Or.inr ⟨n, hxn, hzn⟩)⟩

/-! ## What the members keep -/

/-- The member shows a field at a position: a member that is no group, with the name and the number
of the field and with the comment at its path. -/
structure Shows (locations : List Location) (p : Placed) (x : FieldDescriptor × Nat)
    (member : Field) : Prop where
  single : member.isOneof = false
  name : member.name = x.1.name
  number : member.firstTag = x.1.number
  comment : member.comment = commentAt locations (childPath p.path .messageField x.2)

/-- The member shows the group at a position: a group with the name that is declared there, if there
is one, with the comment at its path, and with all fields of the group in their order. -/
def ShowsGroup (locations : List Location) (p : Placed) (n : Nat) (member : Field) : Prop :=
  ∃ members, member = .oneof ((p.message.oneofs[n]?.map OneofDescriptor.name).getD "") members
      (commentAt locations (childPath p.path .messageOneof n)) ∧
    ∃ fields, fields.Sublist p.message.fields.zipIdx ∧
      (∀ x, x ∈ fields ↔ x ∈ p.message.fields.zipIdx ∧ x.1.InGroup n) ∧
      List.Forall₂ (p.Shows locations) fields members

theorem shows_field (inGroup : Bool) (x : FieldDescriptor × Nat) :
    p.Shows locations x (p.field locations dialect inGroup x.1 x.2) := by
  unfold field
  simp only
  split
  · exact ⟨rfl, rfl, by unfold Field.firstTag; rfl, rfl⟩
  · exact ⟨rfl, rfl, by unfold Field.firstTag; rfl, rfl⟩

theorem showsGroup_oneof (n : Nat) : p.ShowsGroup locations n (p.oneof locations dialect n) := by
  refine ⟨_, rfl, p.inOneof n, List.filter_sublist, fun x => mem_inOneof_iff, ?_⟩
  rw [List.forall₂_map_right_iff]
  exact List.forall₂_same.2 fun x _ => shows_field true x

/-- The fields below a member are those that are gathered at its place. -/
theorem ownLeaves_memberOf (x : FieldDescriptor × Nat) :
    (p.memberOf locations dialect x).ownLeaves =
      (p.gathered x).map fun y =>
        p.field locations dialect y.1.shownOneof.isSome y.1 y.2 := by
  unfold memberOf gathered
  cases hgroup : x.1.shownOneof with
  | none =>
    rw [Field.ownLeaves_of_not_isOneof (shows_field false x).single]
    simp [hgroup]
  | some n =>
    simp only
    unfold oneof Field.ownLeaves
    rw [Field.leaves_of_forall fun y hy => ?_]
    · refine List.map_congr_left fun y hy => ?_
      rw [FieldDescriptor.shownOneof_eq_some_iff.2 (mem_inOneof_iff.1 hy).2]
      rfl
    · obtain ⟨x, -, rfl⟩ := List.mem_map.1 hy
      exact (shows_field true x).single

/-- The fields below the members are those of the descriptor, each of them once. -/
theorem perm_leaves (locations : List Location) (dialect : Dialect) (p : Placed) :
    (Field.leaves (p.members locations dialect)).Perm
      (p.message.fields.zipIdx.map fun x =>
        p.field locations dialect x.1.shownOneof.isSome x.1 x.2) := by
  rw [Field.leaves_eq_flatMap, members_eq, List.flatMap_map]
  simp only [ownLeaves_memberOf]
  rw [← List.map_flatMap]
  exact (perm_gathered p).map _

theorem memberOf_of_inGroup {n : Nat} {x : FieldDescriptor × Nat} (hn : x.1.InGroup n) :
    p.memberOf locations dialect x = p.oneof locations dialect n := by
  unfold memberOf
  rw [FieldDescriptor.shownOneof_eq_some_iff.2 hn]

theorem memberOf_of_forall_not {x : FieldDescriptor × Nat} (h : ∀ n, ¬ x.1.InGroup n) :
    p.memberOf locations dialect x = p.field locations dialect false x.1 x.2 := by
  unfold memberOf
  rw [FieldDescriptor.shownOneof_eq_none_iff.2 h]

/-- The positions of the groups that are shown, in the order of their first fields. -/
def groups (p : Placed) : List Nat := p.heads.filterMap (·.1.shownOneof)

theorem mem_groups_iff {n : Nat} : n ∈ p.groups ↔ ∃ f ∈ p.message.fields, f.InGroup n := by
  unfold groups
  rw [List.mem_filterMap]
  constructor
  · rintro ⟨x, hx, hn⟩
    exact ⟨x.1, fst_mem_fields (mem_heads_iff.1 hx).1, FieldDescriptor.shownOneof_eq_some_iff.1 hn⟩
  · rintro ⟨f, hf, hn⟩
    obtain ⟨i, hi⟩ := List.mem_iff_getElem?.1 hf
    have hmem : (f, i) ∈ p.inOneof n := mem_inOneof_iff.2 ⟨List.mk_mem_zipIdx_iff_getElem?.2 hi, hn⟩
    obtain ⟨x, hx, hxn⟩ := exists_head_of_mem hmem
    exact ⟨x, hx, FieldDescriptor.shownOneof_eq_some_iff.2 hxn⟩

theorem nodup_groups (p : Placed) : p.groups.Nodup := by
  have hheads : p.heads.Nodup := (nodup_zipIdx _).filter _
  refine List.pairwise_filterMap.2 (hheads.pairwise_of_forall_ne fun x hx y hy hne m hm n hn => ?_)
  rintro rfl
  exact hne (head_unique hx hy (FieldDescriptor.shownOneof_eq_some_iff.1 hm)
    (FieldDescriptor.shownOneof_eq_some_iff.1 hn))

/-- The groups among the members are those with a field in them, each of them once. -/
theorem filter_isOneof_members (locations : List Location) (dialect : Dialect) (p : Placed) :
    (p.members locations dialect).filter Field.isOneof =
      p.groups.map (p.oneof locations dialect) := by
  rw [members_eq]
  unfold groups
  induction p.heads with
  | nil => rfl
  | cons x heads ih =>
    rw [List.map_cons, List.filterMap_cons]
    cases hgroup : x.1.shownOneof with
    | none =>
      rw [memberOf_of_forall_not (FieldDescriptor.shownOneof_eq_none_iff.1 hgroup),
        List.filter_cons_of_neg (by rw [(shows_field false x).single]; exact Bool.false_ne_true)]
      exact ih
    | some n =>
      rw [memberOf_of_inGroup (FieldDescriptor.shownOneof_eq_some_iff.1 hgroup),
        List.filter_cons_of_pos (by rfl), List.map_cons, ih]

/-- The members of a message keep its fields.  The fields that are no groups, among the members and
inside their groups, are those of the descriptor, each of them once.  The groups are those with a
field in them that is not marked `optional`, each of them once.  The members stand in the order of
the descriptor, each at the place of a field that is in no group or comes before all others of its
group. -/
theorem members_preserve_fields (locations : List Location) (dialect : Dialect) (p : Placed) :
    let members := p.members locations dialect
    (∃ leaves, leaves.Perm (Field.leaves members) ∧
      List.Forall₂ (p.Shows locations) p.message.fields.zipIdx leaves) ∧
    (∃ groups : List Nat, groups.Nodup ∧
      (∀ n, n ∈ groups ↔ ∃ f ∈ p.message.fields, f.InGroup n) ∧
      List.Forall₂ (p.ShowsGroup locations) groups (members.filter Field.isOneof)) ∧
    ∃ heads, heads.Sublist p.message.fields.zipIdx ∧
      (∀ x, x ∈ heads ↔ x ∈ p.message.fields.zipIdx ∧
        ∀ n, x.1.InGroup n → ∀ y ∈ p.message.fields.zipIdx, y.1.InGroup n → x.2 ≤ y.2) ∧
      List.Forall₂ (fun x member => (∀ n, x.1.InGroup n → p.ShowsGroup locations n member) ∧
        ((∀ n, ¬ x.1.InGroup n) → p.Shows locations x member)) heads members := by
  refine ⟨⟨_, (perm_leaves locations dialect p).symm, ?_⟩,
    ⟨p.groups, nodup_groups p, fun n => mem_groups_iff, ?_⟩,
    p.heads, List.filter_sublist, fun x => ?_, ?_⟩
  · rw [List.forall₂_map_right_iff]
    exact List.forall₂_same.2 fun x _ => shows_field _ x
  · rw [filter_isOneof_members, List.forall₂_map_right_iff]
    exact List.forall₂_same.2 fun n _ => showsGroup_oneof n
  · simp only [mem_heads_iff, mem_inOneof_iff, and_imp]
  · rw [members_eq, List.forall₂_map_right_iff]
    refine List.forall₂_same.2 fun x _ => ⟨fun n hn => ?_, fun hnone => ?_⟩
    · rw [memberOf_of_inGroup hn]
      exact showsGroup_oneof n
    · rw [memberOf_of_forall_not hnone]
      exact shows_field false x

/-- A group whose fields stand apart, another one between them, and the group of an `optional`
field. -/
example :
    let fields : List FieldDescriptor :=
      [{ name := "a", number := 1, oneofIndex := some 0 },
        { name := "b", number := 2, oneofIndex := some 1 },
        { name := "c", number := 3, oneofIndex := some 0 },
        { name := "d", number := 4, oneofIndex := some 2, proto3Optional := true }]
    let message : MessageDescriptor :=
      { name := "M", fields, oneofs := [{ name := "x" }, { name := "y" }, { name := "_d" }] }
    let p : Placed := ⟨message, "M", []⟩
    (p.members [] .proto3).map (fun f => (f.name, (Field.leaves [f]).map Field.name)) =
      [("x", ["a", "c"]), ("y", ["b"]), ("d", ["d"])] := by
  decide

end Placed

end Proto
end SchemaPage
