import Mathlib.Data.Set.Card
import SchemaPage.Proofs.Outcome
import SchemaPage.Schema.Member

/-!
# Groups inside groups

The members of a message are a forest, in which only groups have something inside them.  A group in
it has a place: the position of an outermost member, then a position among the members of that one,
and so on.  The groups are collected by going down into each group before going on, and this puts
them in the order of their places, in which a place comes before those inside it and before those at
later positions.

* `Field.groupAt?`: the group at a place.
* `Field.ListsGroups`: the groups at all places, in order.
* `Field.exists_listsGroups_oneofs`: the groups that are collected.
* `Field.length_oneofs`: there is one for each place.
-/

namespace SchemaPage
namespace Field

/-- The group at a place inside a member; the member itself is at the empty place. -/
def groupAlong? : Field → List Nat → Option Oneof
  | oneof name members comment, [] => some ⟨name, members, comment⟩
  | oneof _ members _, i :: place => members[i]?.bind (·.groupAlong? place)
  | plain _, _ => none
  | map _, _ => none

/-- The group at a place among the members of a message. -/
def groupAt? (fields : List Field) : List Nat → Option Oneof
  | [] => none
  | i :: place => fields[i]?.bind (·.groupAlong? place)

/-- Some places are those of all groups, in ascending order, and the groups are in the same order.
A place is below the places that continue it, and of two places that part it is the one with the
earlier position that is below the other. -/
structure ListsGroups (groupAt : List Nat → Option Oneof) (places : List (List Nat))
    (groups : List Oneof) : Prop where
  ascending : places.Pairwise (· < ·)
  mem_iff : ∀ place, place ∈ places ↔ (groupAt place).isSome
  groups_eq : places.map groupAt = groups.map some

theorem ListsGroups.nodup {groupAt : List Nat → Option Oneof} {places : List (List Nat)}
    {groups : List Oneof} (h : ListsGroups groupAt places groups) : places.Nodup :=
  h.ascending.imp fun hlt => ne_of_lt hlt

/-- There is only one such list. -/
theorem ListsGroups.eq {groupAt : List Nat → Option Oneof} {places places' : List (List Nat)}
    {groups groups' : List Oneof} (h : ListsGroups groupAt places groups)
    (h' : ListsGroups groupAt places' groups') : places = places' ∧ groups = groups' := by
  have hperm : places.Perm places' :=
    (List.perm_ext_iff_of_nodup h.nodup h'.nodup).2 fun place =>
      (h.mem_iff place).trans (h'.mem_iff place).symm
  obtain rfl :=
    List.Perm.eq_of_pairwise (fun _ _ _ _ hlt hlt' => absurd hlt' (lt_asymm hlt)) h.ascending
    h'.ascending hperm
  exact ⟨rfl,
    List.map_injective_iff.2 (Option.some_injective Oneof) (h.groups_eq.symm.trans h'.groups_eq)⟩

/-- There is nothing to list where there are no groups. -/
theorem ListsGroups.nil {groupAt : List Nat → Option Oneof} (h : ∀ place, groupAt place = none) :
    ListsGroups groupAt [] [] where
  ascending := .nil
  mem_iff place := iff_of_false List.not_mem_nil (by rw [h]; exact Bool.false_ne_true)
  groups_eq := rfl

theorem groupAt?_cons_of_getElem? {fields : List Field} {i : Nat} {f : Field}
    (h : fields[i]? = some f)
    (place : List Nat) : groupAt? fields (i :: place) = f.groupAlong? place := by
  rw [groupAt?, h, Option.bind_some]

/-- The groups inside a group follow the group itself. -/
theorem ListsGroups.cons {members : List Field} {places : List (List Nat)} {groups : List Oneof}
    (h : ListsGroups (groupAt? members) places groups) (name : String) (comment : Option Comment) :
    ListsGroups (groupAlong? (oneof name members comment)) ([] :: places)
      (⟨name, members, comment⟩ :: groups) := by
  -- inside the group a place is one among its members, which is not empty
  have hne : [] ∉ places := fun hnil => absurd ((h.mem_iff []).1 hnil) Bool.false_ne_true
  have hinside : ∀ i place, groupAlong? (oneof name members comment) (i :: place) =
      groupAt? members (i :: place) := fun i place => by rw [groupAlong?, groupAt?]
  exact
    { ascending := by
        refine List.pairwise_cons.2 ⟨fun place hplace => ?_, h.ascending⟩
        cases place with
        | nil => exact absurd hplace hne
        | cons i place => exact List.nil_lt_cons i place
      mem_iff := fun place => by
        cases place with
        | nil => exact iff_of_true List.mem_cons_self (by rw [groupAlong?]; rfl)
        | cons i place =>
          rw [hinside, ← h.mem_iff, List.mem_cons, or_iff_right (List.cons_ne_nil i place)]
      groups_eq := by
        have hcongr : ∀ place ∈ places,
            groupAlong? (oneof name members comment) place = groupAt? members place := by
          intro place hplace
          cases place with
          | nil => exact absurd hplace hne
          | cons i place => exact hinside i place
        rw [List.map_cons, List.map_congr_left hcongr, h.groups_eq, groupAlong?, List.map_cons] }

/-- What holds of all members of a group when it holds of the group holds of every field. -/
theorem members_induction {P : Field → Prop} (plain : ∀ f, P (plain f)) (map : ∀ f, P (map f))
    (oneof : ∀ name members comment, (∀ f ∈ members, P f) → P (oneof name members comment))
    (f : Field) :
    P f :=
  f.rec (motive_2 := fun fields => ∀ f ∈ fields, P f) plain map oneof nofun
    fun _ _ hf hfields => List.forall_mem_cons.2 ⟨hf, hfields⟩

theorem oneofs_eq_flatMap (fields : List Field) : oneofs fields = fields.flatMap ownOneofs := by
  induction fields with
  | nil => exact oneofs_nil
  | cons f fields ih => rw [oneofs_cons, ih, List.flatMap_cons]

variable {fields : List Field} {places : Field → List (List Nat)}

/-- The groups of some members are those of the first, then those of the second, and so on. -/
theorem listsGroups_flatMap (h : ∀ f ∈ fields, ListsGroups f.groupAlong? (places f) f.ownOneofs) :
    ListsGroups (groupAt? fields) (fields.zipIdx.flatMap fun x => (places x.1).map (x.2 :: ·))
      (oneofs fields) where
  ascending := by
    refine List.pairwise_flatMap.2 ⟨fun x hx => ?_, ?_⟩
    · have hplaces := (h x.1 (List.fst_mem_of_mem_zipIdx hx)).ascending
      exact List.pairwise_map.2 (hplaces.imp fun hlt => List.cons_lt_cons_iff.2 (Or.inr ⟨rfl, hlt⟩))
    · refine (Outcome.pairwise_snd_zipIdx fields).imp fun hlt place hplace place' hplace' => ?_
      obtain ⟨rest, -, rfl⟩ := List.mem_map.1 hplace
      obtain ⟨rest', -, rfl⟩ := List.mem_map.1 hplace'
      exact List.cons_lt_cons_iff.2 (Or.inl hlt)
  mem_iff place := by
    cases place with
    | nil => simp [groupAt?]
    | cons i place =>
      -- the first number says in which field the place is
      have hsome : (groupAt? fields (i :: place)).isSome ↔
          ∃ f, fields[i]? = some f ∧ (f.groupAlong? place).isSome := by
        rw [groupAt?, Option.isSome_bind, Option.any_eq_true]
      rw [hsome, List.mem_flatMap]
      constructor
      · rintro ⟨⟨f, j⟩, hx, hplace⟩
        obtain ⟨rest, hrest, heq⟩ := List.mem_map.1 hplace
        obtain ⟨rfl, rfl⟩ := List.cons.inj heq
        have hf := List.mk_mem_zipIdx_iff_getElem?.1 hx
        exact ⟨f, hf, ((h f (List.mem_of_getElem? hf)).mem_iff rest).1 hrest⟩
      · rintro ⟨f, hf, hgroup⟩
        have hplace := ((h f (List.mem_of_getElem? hf)).mem_iff place).2 hgroup
        exact ⟨(f, i), List.mk_mem_zipIdx_iff_getElem?.2 hf, List.mem_map_of_mem hplace⟩
  groups_eq := by
    have hmember : ∀ x ∈ fields.zipIdx,
        ((places x.1).map (x.2 :: ·)).map (groupAt? fields) = x.1.ownOneofs.map some := by
      intro x hx
      have hf : fields[x.2]? = some x.1 := List.mk_mem_zipIdx_iff_getElem?.1 hx
      have hat : groupAt? fields ∘ (x.2 :: ·) = x.1.groupAlong? :=
        funext (groupAt?_cons_of_getElem? hf)
      rw [List.map_map, hat]
      exact (h x.1 (List.mem_of_getElem? hf)).groups_eq
    have hfst : fields.zipIdx.map Prod.fst = fields := List.zipIdx_map_fst 0 fields
    calc (fields.zipIdx.flatMap fun x => (places x.1).map (x.2 :: ·)).map (groupAt? fields)
      _ = fields.zipIdx.flatMap fun x => x.1.ownOneofs.map some := by
        rw [List.map_flatMap]
        exact List.flatMap_congr hmember
      _ = ((fields.zipIdx.map Prod.fst).flatMap ownOneofs).map some := by
        rw [List.flatMap_map, List.map_flatMap]
      _ = (oneofs fields).map some := by rw [hfst, oneofs_eq_flatMap]

/-- The groups of one member: itself, if it is a group, and then those inside it. -/
theorem exists_listsGroups_ownOneofs (f : Field) :
    ∃ places, ListsGroups f.groupAlong? places f.ownOneofs := by
  induction f using members_induction with
  | plain f =>
    rw [ownOneofs]
    exact ⟨[], .nil fun _ => by rw [groupAlong?]⟩
  | map f =>
    rw [ownOneofs]
    exact ⟨[], .nil fun _ => by rw [groupAlong?]⟩
  | oneof name members comment ih =>
    choose! places hplaces using ih
    rw [ownOneofs]
    exact ⟨_, (listsGroups_flatMap hplaces).cons name comment⟩

/-- The groups that are collected from the members of a message are those at all places. -/
theorem exists_listsGroups_oneofs (fields : List Field) :
    ∃ places, ListsGroups (groupAt? fields) places (oneofs fields) := by
  choose places hplaces using exists_listsGroups_ownOneofs
  exact ⟨_, listsGroups_flatMap fun f _ => hplaces f⟩

/-- Of the places with a group each has one of the groups that are collected. -/
theorem length_oneofs (fields : List Field) :
    (oneofs fields).length = {place | (groupAt? fields place).isSome}.ncard := by
  obtain ⟨places, h⟩ := exists_listsGroups_oneofs fields
  have hset : {place | (groupAt? fields place).isSome} = (places.toFinset : Set (List Nat)) := by
    ext place
    rw [Set.mem_ofPred_eq, ← h.mem_iff, Finset.mem_coe, List.mem_toFinset]
  have hlength := congrArg List.length h.groups_eq
  rw [List.length_map, List.length_map] at hlength
  rw [hset, Set.ncard_coe_finset, List.toFinset_card_of_nodup h.nodup, hlength]

end Field
end SchemaPage
