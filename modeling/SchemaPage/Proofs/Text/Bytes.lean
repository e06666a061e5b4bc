import Mathlib.Data.String.Basic

/-!
# The order of the bytes of texts

Texts are compared character by character.  A text is stored as bytes, and the bytes are in the same
order: those of two characters differ before the shorter of them ends, and where they differ first
the character with the smaller number has the smaller byte.

* `Text.bytes`: the bytes of a text.
* `Text.encode_append_lt`: the bytes of two characters, whatever follows them.
* `Text.bytes_lt_bytes_iff`: the order of two texts is that of their bytes.
-/

namespace SchemaPage
namespace Text

/-- The bytes of a text. -/
def bytes (s : String) : List UInt8 := s.toUTF8.data.toList

theorem bytes_eq_flatMap (s : String) : bytes s = s.toList.flatMap String.utf8EncodeChar := by
  unfold bytes
  rw [String.toUTF8, ← String.utf8Encode_toList, List.utf8Encode, List.toList_data_toByteArray]

/-! ## Characters -/

/-- The numbers of the bytes of the character with the number `v`. -/
def byteNumbers (v : Nat) : List Nat :=
  if v ≤ 0x7f then [v]
  else if v ≤ 0x7ff then [v / 64 + 0xc0, v % 64 + 0x80]
  else if v ≤ 0xffff then [v / 4096 + 0xe0, v / 64 % 64 + 0x80, v % 64 + 0x80]
  else [v / 262144 + 0xf0, v / 4096 % 64 + 0x80, v / 64 % 64 + 0x80, v % 64 + 0x80]

theorem map_toNat_encode (c : Char) :
    (String.utf8EncodeChar c).map UInt8.toNat = byteNumbers c.toNat := by
  have hvalid : c.toNat < 0x110000 :=
    c.valid.elim (fun h => Nat.lt_trans h (by decide)) And.right
  have hval : c.val.toNat = c.toNat := rfl
  unfold String.utf8EncodeChar byteNumbers
  simp only [hval]
  split_ifs <;>
    simp only [List.map_cons, List.map_nil, UInt8.toNat_ofNat', List.cons.injEq, and_true] <;> omega

/-- A smaller number has smaller bytes, whatever follows them. -/
theorem byteNumbers_append_lt {v w : Nat} (h : v < w) (l r : List Nat) :
    byteNumbers v ++ l < byteNumbers w ++ r := by
  unfold byteNumbers
  split_ifs <;> simp only [List.cons_append, List.nil_append, List.cons_lt_cons_iff] <;> omega

theorem map_lt_map_iff {l r : List UInt8} : l.map UInt8.toNat < r.map UInt8.toNat ↔ l < r := by
  induction l generalizing r with
  | nil => cases r <;> simp
  | cons a l ih =>
    cases r with
    | nil => simp
    | cons b r =>
      rw [List.map_cons, List.map_cons, List.cons_lt_cons_iff, List.cons_lt_cons_iff, ih,
        UInt8.lt_iff_toNat_lt, UInt8.toNat_inj]

/-- A smaller character has smaller bytes, whatever follows them. -/
theorem encode_append_lt {c d : Char} (h : c < d) (l r : List UInt8) :
    String.utf8EncodeChar c ++ l < String.utf8EncodeChar d ++ r := by
  rw [← map_lt_map_iff, List.map_append, List.map_append, map_toNat_encode, map_toNat_encode]
  exact byteNumbers_append_lt h _ _

/-! ## Texts -/

theorem flatMap_encode_lt {l r : List Char} (h : l < r) :
    l.flatMap String.utf8EncodeChar < r.flatMap String.utf8EncodeChar := by
  induction l generalizing r with
  | nil =>
    cases r with
    | nil => exact absurd h (List.lt_irrefl _)
    | cons d r =>
      obtain ⟨b, bs, hb⟩ := List.exists_cons_of_ne_nil (String.utf8EncodeChar_ne_nil (c := d))
      rw [List.flatMap_nil, List.flatMap_cons, hb]
      exact List.nil_lt_cons ..
  | cons c l ih =>
    cases r with
    | nil => exact absurd h (List.not_lt_nil _)
    | cons d r =>
      rw [List.flatMap_cons, List.flatMap_cons]
      rcases List.cons_lt_cons_iff.1 h with hcd | ⟨rfl, hlr⟩
      · exact encode_append_lt hcd _ _
      · exact List.append_left_lt (ih hlr)

/-- Texts are in the order of their bytes. -/
theorem bytes_lt_bytes_iff {s t : String} : bytes s < bytes t ↔ s < t := by
  rw [bytes_eq_flatMap, bytes_eq_flatMap]
  refine ⟨fun h => ?_, fun h => flatMap_encode_lt h⟩
  rcases lt_trichotomy s t with hst | rfl | hts
  · exact hst
  · exact absurd h (List.lt_irrefl _)
  · exact absurd h (List.lt_asymm (flatMap_encode_lt hts))

/-- Texts are compared as their bytes are. -/
theorem compare_eq_lt_iff {s t : String} : compare s t = .lt ↔ bytes s < bytes t := by
  rw [bytes_lt_bytes_iff]
  exact compareOfLessAndEq_eq_lt

end Text
end SchemaPage
