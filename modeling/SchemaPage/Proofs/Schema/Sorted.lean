import SchemaPage.Catalog
import SchemaPage.Proofs.Order.Latest
import SchemaPage.Proofs.Text.Bytes

/-!
# Sorted members

The fields of a message and the methods of a service are sorted by putting one after the other into
an ordered table, in which a later member takes the place of an earlier one with the same key.  So a
row is lost wherever two members share a key.  Which row that is depends on nothing but the order of
the source: the last member of each key stays.

Names are compared by their bytes.  Numbers are whole numbers, negative ones among them, and a group
of fields has none of its own: it is sorted by the number that the chain of first members ends with.

* `Field.EndsWith`, `Field.firstTag_eq_iff_endsWith`: the number that a field is sorted by.
* `Field.sortsBy_keys`: the ways of sorting members.
-/

namespace SchemaPage
namespace Field

/-! ## Numbers -/

/-- The chain of first members that starts with a field ends with a number: that of a field which is
no group, or 0 if the last group of the chain has no members. -/
inductive EndsWith : Field → Int → Prop where
  | plain (f : PlainField) : EndsWith (plain f) f.tag
  | map (f : MapField) : EndsWith (map f) f.tag
  | empty (name : String) (comment : Option Comment) : EndsWith (oneof name [] comment) 0
  | first (name : String) {f : Field} (members : List Field) (comment : Option Comment) {n : Int}
    (h : EndsWith f n) : EndsWith (oneof name (f :: members) comment) n

theorem endsWith_firstTag : ∀ f : Field, f.EndsWith f.firstTag
  | .plain f => by
    unfold firstTag
    exact .plain f
  | .map f => by
    unfold firstTag
    exact .map f
  | .oneof name [] comment => by
    rw [firstTag_oneof_nil]
    exact .empty name comment
  | .oneof name (f :: members) comment => by
    rw [firstTag_oneof_cons]
    exact .first name members comment (endsWith_firstTag f)

/-- A field is sorted by the number at the end of its chain, and every chain ends with one
number. -/
theorem firstTag_eq_iff_endsWith {f : Field} {n : Int} : f.firstTag = n ↔ f.EndsWith n := by
  constructor
  · rintro rfl
    exact endsWith_firstTag f
  · intro h
    induction h with
    | plain f => unfold firstTag; rfl
    | map f => unfold firstTag; rfl
    | empty name comment => exact firstTag_oneof_nil name comment
    | first name members comment _ ih => rw [firstTag_oneof_cons, ih]

/-! ## Members -/

/-- Fields are sorted by the bytes of their names or by the numbers at the end of their chains, and
methods by the bytes of their names.  Each way of sorting keeps the last member of each key. -/
theorem sortsBy_keys :
    Order.SortsBy Field.name (fun s t => Text.bytes s < Text.bytes t) Field.sortedByName ∧
    Order.SortsBy Field.firstTag (· < ·) Field.sortedByTag ∧
    Order.SortsBy Rpc.name (fun s t => Text.bytes s < Text.bytes t) Rpc.sortedByName ∧
    ∀ (f : Field) (n : Int), f.firstTag = n ↔ f.EndsWith n := by
  have hname : ∀ s t : String, compare s t = .lt ↔ Text.bytes s < Text.bytes t := fun s t =>
    Text.compare_eq_lt_iff
  have htag : ∀ m n : Int, compare m n = .lt ↔ m < n := fun m n => Int.compare_eq_lt
  exact ⟨Order.sortsBy_latest hname, Order.sortsBy_latest htag, Order.sortsBy_latest hname,
    fun f n => firstTag_eq_iff_endsWith⟩

/-- A group is sorted by a number inside it, and groups without a number share the key 0 with a
field. -/
example :
    let plain (name : String) (tag : Int) : Field :=
      .plain ⟨name, "string", tag, false, false, true, none⟩
    let fields := [plain "zero" 0, .oneof "none" [] none,
      .oneof "outer" [.oneof "inner" [plain "x" (-3)] none, plain "y" 7] none, plain "seven" 7,
      .oneof "last" [.oneof "hollow" [] none] none]
    (sortedByTag fields).map name = ["outer", "last", "seven"] := by
  decide

end Field
end SchemaPage
